import AdgLang.TaskRegistration
/-!
# PortalTables — the tables of the workflow

The rows that the portal's workflow reads and writes, next to the consensus tables: submissions with their participations,
final results, appeals, the receipts of the repository, the outbox of evidence, the task catalogue and the assignments.
A root is held by what it is the hash of, as far as the workflow tells roots apart.
-/
namespace Adg
namespace Portal

open Js Consensus

/-! ## Identifiers -/

def isHexDigit (c : Char) : Bool :=
  c.isDigit || (decide ('a' ≤ c) && decide (c ≤ 'f')) || (decide ('A' ≤ c) && decide (c ≤ 'F'))

/-- The characters of a version 4 UUID, place by place. -/
def uuidPattern : List (Char → Bool) :=
  List.replicate 8 isHexDigit ++ [fun c => decide (c = '-')] ++ List.replicate 4 isHexDigit ++
    [fun c => decide (c = '-'), fun c => decide (c = '4')] ++ List.replicate 3 isHexDigit ++
    [fun c => decide (c = '-'), fun c => "89abAB".toList.contains c] ++ List.replicate 3 isHexDigit ++
    [fun c => decide (c = '-')] ++ List.replicate 12 isHexDigit

def isUuid (t : Text) : Bool :=
  decide (t.length = uuidPattern.length) && (t.zip uuidPattern).all (fun p => p.2 p.1)

/-- What `crypto.randomUUID` returns. -/
abbrev Uuid := { t : Text // isUuid t = true }

/-! ## Artifacts -/

inductive Role
  | a | b | j1 | j2
deriving DecidableEq

inductive Slot
  | a | b
deriving DecidableEq

/-- The root of an annotation; the slot of its annotator is hashed with it. -/
structure AnnotationRoot where
  slot : Slot
  digest : Text
deriving DecidableEq

inductive Decision
  | agree | disagree | recuse
deriving DecidableEq

/-- What the workflow reads of an artifact that `validateArtifactForServer` accepted. -/
inductive Artifact
  | annotated (root : AnnotationRoot)
  /-- The package of J1 with the roots of its two annotations, its own root, and `countNovelPrimaryDecisions` of it,
  nothing where that throws. -/
  | adjudication (annotationA annotationB : Text) (finalMerkleRoot : Text) (novelDecisions : Option Nat)
  | ratification (decision : Decision) (primaryReceiptId primaryAdjudicationMerkleRoot : Text)
deriving DecidableEq

/-- `consensusRole` of `submissionTask`. -/
def Artifact.consensusRole : Artifact → Role
  | .annotated ⟨.a, _⟩ => .a
  | .annotated ⟨.b, _⟩ => .b
  | .adjudication .. => .j1
  | .ratification .. => .j2

def Role.isIndependent : Role → Bool
  | .a | .b => true
  | .j1 | .j2 => false

/-! ## Rows -/

/-- A row of `submissions`; `consensus_role` is the role of its artifact. -/
structure Submission where
  receiptId : Text
  userId : Text
  packetId : Str
  taskVersionId : Text
  roundId : Text
  holdoutId : Str
  consensusRound : Nat
  artifact : Artifact
  active : Bool
  imported : Bool
deriving DecidableEq

def Submission.role (s : Submission) : Role := s.artifact.consensusRole

inductive ParticipationStatus
  | assigned | submitted | recused | replaced
deriving DecidableEq

/-- A row of `task_participations`. -/
structure Participation where
  id : Text
  taskVersionId : Text
  roundId : Text
  holdoutId : Str
  userId : Text
  role : Role
  status : ParticipationStatus
  submissionReceiptId : Text
deriving DecidableEq

inductive FinalStatus
  | proposed | active | superseded | revoked
deriving DecidableEq

/-- A row of `final_results`. -/
structure FinalResult where
  primaryReceiptId : Text
  taskVersionId : Text
  roundId : Text
  secondaryReceiptId : Option Text
  finalMerkleRoot : Text
  status : FinalStatus
  publishedAt : Option Nat
deriving DecidableEq

inductive AppealStatus
  | pending | accepted | rejected | withdrawn
deriving DecidableEq

/-- A row of `appeals`. -/
structure Appeal where
  id : Text
  taskVersionId : Text
  roundId : Text
  appellantUserId : Text
  finalReceiptId : Text
  status : AppealStatus
deriving DecidableEq

/-- A row of `repository_receipts`. -/
structure RepositoryReceipt where
  id : Text
  taskVersionId : Text
  roundId : Text
  finalMerkleRoot : Text
  nonce : Text
deriving DecidableEq

inductive EvidenceKind
  | submission | taskState
deriving DecidableEq

/-- A row of `evidence_repository_receipts` about a submission. -/
structure EvidenceReceipt where
  id : Text
  relatedId : Text
deriving DecidableEq

/-- A row of `task_state_repository_receipts`; `merge` stands for the columns of the merged pull request. -/
structure StateReceipt where
  id : Text
  taskVersionId : Text
  eventId : Text
  toState : TaskState
  stateVersion : Nat
  merge : Text
deriving DecidableEq

inductive OutboxStatus
  | held | pending | sending | sent | failed | cancelled
deriving DecidableEq

/-- The public payload of a row of the outbox: the envelope of a submission, or the state that a task went to. -/
inductive Payload
  | submission (receiptId : Text)
  | state (event : EventRow) (stateVersion round : Nat) (activeFinalReceiptId : Option Text) (accepted : Bool)
deriving DecidableEq

inductive EvidenceScope
  | submissions | identities
deriving DecidableEq

/-- A row of `evidence_outbox`; it has an identity payload where it names a blob for one. -/
structure OutboxRow where
  id : Text
  kind : EvidenceKind
  taskVersionId : Text
  relatedId : Text
  publicBlobName : Text
  identityBlobName : Option Text
  payload : Payload
  dedupeKey : Text
  status : OutboxStatus
  attempts : Nat
  nextAttemptAt : Nat
  lastError : Option Text
  createdAt : Nat
deriving DecidableEq

inductive AssignmentStatus
  | invited | claimed | submitted | cancelled
deriving DecidableEq

/-- A row of `task_assignments`. -/
structure Assignment where
  id : Text
  taskVersionId : Text
  roundId : Text
  holdoutId : Str
  role : Role
  emailHash : Text
  userId : Option Text
  status : AssignmentStatus
  submissionReceiptId : Option Text
  invitedAt : Nat
deriving DecidableEq

inductive Lane
  | standard | operationalTest
deriving DecidableEq

inductive AssignmentMode
  | openToAll | assigned
deriving DecidableEq

inductive CatalogueStatus
  | active | withdrawn
deriving DecidableEq

/-- A row of `repository_task_packets`. -/
structure CatalogueRow where
  taskVersionId : Text
  packetId : Str
  packetMerkleRoot : Digest
  manifestJson : Str
  immutableManifestSha256 : Digest
  assignmentMode : AssignmentMode
  lane : Lane
  status : CatalogueStatus
  sourceRepository : Str
  sourcePath : Str
deriving DecidableEq

/-- A row of `repository_task_syncs`. -/
structure SyncRow where
  nonce : Text
  sourceCommitSha : Text
deriving DecidableEq

/-- An account as its session shows it. -/
structure Account where
  userId : Text
  verifiedEmailHash : Option Text
  erasurePending : Bool
deriving DecidableEq

/-- What a response has shown an account: the annotations or decisions under these receipts, as the holder of an
assignment or among the results of its own submission. -/
structure Shown where
  userId : Text
  receipts : List Text
  assignmentId : Option Text
deriving DecidableEq

/-- The answer to a claim: its marker, the rows that were handed out with the end of their hold, and when. -/
structure HandedOut where
  marker : Text
  rows : List (Text × Nat)
  handedAt : Nat
deriving DecidableEq

/-! ## The store -/

/-- The database of the portal, with the time, the blobs of the object store, what the accounts were shown and the claims
that were answered.  `accepted` holds the tasks whose `repository_status` is 'accepted'. -/
structure Store where
  clock : Nat
  tasks : List TaskRow
  evidence : EvidenceTable
  rounds : List RoundRow
  events : List EventRow
  accepted : List Text
  submissions : List Submission
  participations : List Participation
  finals : List FinalResult
  appeals : List Appeal
  receipts : List RepositoryReceipt
  evidenceReceipts : List EvidenceReceipt
  stateReceipts : List StateReceipt
  outbox : List OutboxRow
  catalogue : List CatalogueRow
  syncs : List SyncRow
  assignments : List Assignment
  resultAccess : List (Text × Text)
  shown : List Shown
  archive : List (EvidenceScope × Text)
  handed : List HandedOut

def Store.empty : Store where
  clock := 0
  tasks := []
  evidence := .empty
  rounds := []
  events := []
  accepted := []
  submissions := []
  participations := []
  finals := []
  appeals := []
  receipts := []
  evidenceReceipts := []
  stateReceipts := []
  outbox := []
  catalogue := []
  syncs := []
  assignments := []
  resultAccess := []
  shown := []
  archive := []
  handed := []

def Appeal.isPending (a : Appeal) : Bool := decide (a.status = .pending)

/-- The consensus tables. -/
def Store.db (s : Store) : Db where
  tasks := s.tasks
  rounds := s.rounds
  events := s.events
  pendingAppeals := (s.appeals.filter Appeal.isPending).map Appeal.taskVersionId

def Store.setDb (s : Store) (db : Db) : Store := { s with tasks := db.tasks, rounds := db.rounds, events := db.events }

@[simp] theorem Store.db_tasks (s : Store) : s.db.tasks = s.tasks := rfl

@[simp] theorem Store.db_rounds (s : Store) : s.db.rounds = s.rounds := rfl

@[simp] theorem Store.db_events (s : Store) : s.db.events = s.events := rfl

/-- A task as `getConsensusTask` returns it, with whether its `repository_status` is 'accepted'. -/
structure Task extends TaskRow where
  accepted : Bool
deriving DecidableEq

/-- `getConsensusTask`. -/
def Store.task (s : Store) (taskVersionId : Text) : Option Task :=
  (s.db.task taskVersionId).map (fun t => { t with accepted := s.accepted.contains t.id })

/-- `getCurrentConsensusRound`. -/
def Store.currentRound (s : Store) (task : TaskRow) : Option RoundRow := s.db.currentRound task

/-- The active submissions of a role in a round. -/
def Store.submissionsOf (s : Store) (taskVersionId roundId : Text) (role : Role) : List Submission :=
  s.submissions.filter (fun r => decide (r.taskVersionId = taskVersionId) && decide (r.roundId = roundId) &&
    decide (r.role = role) && r.active)

/-- The event under an idempotency key. -/
def Store.hasKey (s : Store) (key : Text) : Bool := s.db.hasKey key

end Portal
end Adg
