import AdgLang.Machine
import AdgLang.Table
import AdgLang.Text
import AdgLang.Consensus
import AdgLang.Reissue
import AdgLang.ConsensusRun
import AdgLang.ReissueRun
import AdgLang.Regex
import AdgLang.Fallible
import AdgLang.NormalForms
import AdgLang.Diagnostics
import AdgLang.TypeSystem
import AdgLang.TextDirectionHeader
import AdgLang.SurfaceParser
import AdgLang.Json
import AdgLang.JsonParser
import AdgLang.Contracts
import AdgLang.Alternation
import AdgLang.Connectives
import AdgLang.Verifier
import AdgLang.StatementTokens
import AdgLang.RenderOrder
import AdgLang.OneSurface
import AdgLang.JsonEncoding
import AdgLang.FunctionSyntax
import AdgLang.FunctionParser
import AdgLang.FunctionTypeChecker
import AdgLang.Dispatch
import AdgLang.FunctionMeaning
import AdgLang.Llvm
import AdgLang.FunctionEmitter
import AdgLang.EmitterText
import AdgLang.EmitterMeaning
import AdgLang.EmitterWellFormed
import AdgLang.PrintedWhole
import AdgLang.IntegerLiterals
import AdgLang.RecoveryJournal
import AdgLang.RecoveryBackups
import AdgLang.RetentionRun
import AdgLang.PostgresProvider
import AdgLang.JournalRun
import AdgLang.Batches
import AdgLang.PostgresDatabase
import AdgLang.RecoveryReplay
import AdgLang.ReplayTermination
import AdgLang.ReplayOrder
import AdgLang.LiveResults
import AdgLang.SignedNonces
import AdgLang.RecoveryControl
import AdgLang.BackupLane
import AdgLang.BackupRequests
import AdgLang.BackupInventory
import AdgLang.InventoryRun
import AdgLang.BackupDeletions
import AdgLang.DeletionRun
import AdgLang.RestoreLeases
import AdgLang.JsString
import AdgLang.JsNumber
import AdgLang.JsJson
import AdgLang.JsBase64
import AdgLang.SqlTranslation
import AdgLang.JournalPayload
import AdgLang.ProviderParameters
import AdgLang.JsUtf8
import AdgLang.CanonicalJson
import AdgLang.PacketRoots
import AdgLang.TaskRegistration
import AdgLang.Interleaving
import AdgLang.Attempts
import AdgLang.Courses
import AdgLang.Histories
import AdgLang.PortalTables
import AdgLang.PortalWrites
import AdgLang.PortalCalls
import AdgLang.PortalRequests
import AdgLang.PortalCatalogue
import AdgLang.PortalGrowth
import AdgLang.PortalFacts
import AdgLang.PortalDiscipline
import AdgLang.PortalInvariant
import AdgLang.PortalRely
import AdgLang.PortalObeys
import AdgLang.PortalHandlers
import AdgLang.PortalRuns
import AdgLang.PortalRows
import AdgLang.PortalOutbox
import AdgLang.PortalCourses
import AdgLang.Publication
import AdgLang.Approval
import AdgLang.CatalogueSync
import AdgLang.EvidenceClaims
import AdgLang.EvidenceDelivery
import AdgLang.EvidenceExport
import AdgLang.EventArchive
import AdgLang.Accounts
import AdgLang.AccountRequests
import AdgLang.AccountFacts
import AdgLang.AccountRuns
import AdgLang.EmailCodes
import AdgLang.Registrations
import AdgLang.JsDate
import AdgLang.JsPattern
import AdgLang.JsCapture
import AdgLang.PublicText
import AdgLang.IssueReports
import AdgLang.IssueForms
import AdgLang.IssueIntake
import AdgLang.IssuePublisher
import AdgLang.IssueCompletion
import AdgLang.IssueRuns
import AdgLang.ProviderGate
import AdgLang.Drafts
import AdgLang.DraftRuns
import AdgLang.GovernanceNotices
import AdgLang.ReissueResume
import AdgLang.Markdown
import AdgLang.EvidenceCard
import AdgLang.EvidenceCardBlocks
import AdgLang.DependencyOrder
import AdgLang.ExportMigration
import AdgLang.RowProfiles
import AdgLang.Script
import AdgLang.ExportRuns
import AdgLang.LineTokens
import AdgLang.CutLiterals
import AdgLang.IntegerTexts
import AdgLang.StringConstants
import AdgLang.SqlLexing
import AdgLang.InsertOrIgnore
import AdgLang.Matching
import AdgLang.AnnotationCoverage
import AdgLang.Kappa
import AdgLang.Joined
import AdgLang.Agreement
import AdgLang.AdjudicationBinding
import AdgLang.DecisionMaps
import AdgLang.ContestedDecisions
import AdgLang.TemplateSegments
import AdgLang.HashPreimages
import AdgLang.AcceptedEvidence
import AdgLang.BackupFields
import AdgLang.BackupDescriptor
import AdgLang.BackupReadBack
import AdgLang.Pieces
import AdgLang.BackupChunks
import AdgLang.RestoreClient
import AdgLang.RestoreRuns
import AdgLang.EvidenceQuorum
import AdgLang.CompilerCommands
import AdgLang.RatificationRoots
