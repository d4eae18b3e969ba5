import AdgLang.PortalTables
/-!
# PortalWrites — the statements that the workflow runs

Every statement and batch that writes a table of the workflow, as one command each.  `Write.apply` gives the tables
after it, nothing where a reference or a NOT NULL is violated; what it gives stands if the keys of the tables allow it
(`Store.Keys`), and is rolled back otherwise.
-/
namespace Adg
namespace Portal

open Js Consensus

/-! ## Keys -/

def Assignment.isLive (r : Assignment) : Bool := r.userId.isSome && decide (r.status ≠ .cancelled)

def FinalResult.isActive (f : FinalResult) : Bool := decide (f.status = .active)

/-- The keys of the consensus tables. -/
structure Store.ConsensusKeys (s : Store) : Prop where
  tasks : Table.Keyed TaskRow.id s.tasks
  roundIds : Table.Keyed RoundRow.id s.rounds
  roundNumbers : Table.Keyed (fun r : RoundRow => (r.taskVersionId, r.roundNumber)) s.rounds
  events : Table.Keyed EventRow.id s.events
  eventKeys : Table.Keyed EventRow.idempotencyKey s.events

/-- The keys of `submissions` and `task_participations`. -/
structure Store.ParticipationKeys (s : Store) : Prop where
  receiptIds : Table.Keyed Submission.receiptId s.submissions
  userPackets : Table.Keyed (fun r : Submission => (r.userId, r.packetId)) s.submissions
  submissionRoles : Table.Keyed (fun r : Submission => (r.taskVersionId, r.consensusRound, r.role)) s.submissions
  participationIds : Table.Keyed Participation.id s.participations
  participationUsers : Table.Keyed (fun p : Participation => (p.taskVersionId, p.userId)) s.participations
  participationHoldouts : Table.Keyed (fun p : Participation => (p.holdoutId, p.userId)) s.participations
  participationRoles : Table.Keyed (fun p : Participation => (p.roundId, p.role)) s.participations

/-- The keys of `final_results`, `appeals` and the receipts. -/
structure Store.ResultKeys (s : Store) : Prop where
  finals : Table.Keyed FinalResult.primaryReceiptId s.finals
  oneActive : Table.Keyed FinalResult.taskVersionId (s.finals.filter FinalResult.isActive)
  appeals : Table.Keyed Appeal.id s.appeals
  appellants : Table.Keyed (fun a : Appeal => (a.taskVersionId, a.appellantUserId, a.finalReceiptId)) s.appeals
  receipts : Table.Keyed RepositoryReceipt.id s.receipts
  nonces : Table.Keyed RepositoryReceipt.nonce s.receipts
  receiptRoots : Table.Keyed (fun r : RepositoryReceipt => (r.taskVersionId, r.finalMerkleRoot)) s.receipts

/-- The keys of the outbox and its receipts. -/
structure Store.OutboxKeys (s : Store) : Prop where
  outbox : Table.Keyed OutboxRow.id s.outbox
  dedupe : Table.Keyed OutboxRow.dedupeKey s.outbox
  evidenceReceipts : Table.Keyed EvidenceReceipt.id s.evidenceReceipts
  evidenceRelated : Table.Keyed EvidenceReceipt.relatedId s.evidenceReceipts
  stateReceipts : Table.Keyed StateReceipt.id s.stateReceipts
  stateEvents : Table.Keyed (fun r : StateReceipt => (r.taskVersionId, r.eventId)) s.stateReceipts

/-- The keys of the catalogue and the assignments. -/
structure Store.AssignmentKeys (s : Store) : Prop where
  catalogue : Table.Keyed CatalogueRow.taskVersionId s.catalogue
  cataloguePackets : Table.Keyed CatalogueRow.packetId s.catalogue
  cataloguePaths : Table.Keyed CatalogueRow.sourcePath s.catalogue
  syncNonces : Table.Keyed SyncRow.nonce s.syncs
  syncCommits : Table.Keyed SyncRow.sourceCommitSha s.syncs
  assignments : Table.Keyed Assignment.id s.assignments
  assignmentRoles : Table.Keyed (fun r : Assignment => (r.taskVersionId, r.roundId, r.role)) s.assignments
  assignmentHolders : Table.Keyed (fun r : Assignment => (r.holdoutId, r.userId)) (s.assignments.filter Assignment.isLive)

/-- The primary keys and the unique indexes. -/
structure Store.Keys (s : Store) : Prop where
  consensus : s.ConsensusKeys
  participation : s.ParticipationKeys
  result : s.ResultKeys
  outbox : s.OutboxKeys
  assignment : s.AssignmentKeys

instance {ρ κ : Type} [DecidableEq κ] (key : ρ → κ) (t : List ρ) : Decidable (Table.Keyed key t) :=
  inferInstanceAs (Decidable (t.map key).Nodup)

instance (s : Store) : Decidable s.ConsensusKeys :=
  decidable_of_iff (_ ∧ _ ∧ _ ∧ _ ∧ _)
    ⟨fun ⟨h₁, h₂, h₃, h₄, h₅⟩ => ⟨h₁, h₂, h₃, h₄, h₅⟩, fun ⟨h₁, h₂, h₃, h₄, h₅⟩ => ⟨h₁, h₂, h₃, h₄, h₅⟩⟩

instance (s : Store) : Decidable s.ParticipationKeys :=
  decidable_of_iff (_ ∧ _ ∧ _ ∧ _ ∧ _ ∧ _ ∧ _)
    ⟨fun ⟨h₁, h₂, h₃, h₄, h₅, h₆, h₇⟩ => ⟨h₁, h₂, h₃, h₄, h₅, h₆, h₇⟩,
      fun ⟨h₁, h₂, h₃, h₄, h₅, h₆, h₇⟩ => ⟨h₁, h₂, h₃, h₄, h₅, h₆, h₇⟩⟩

instance (s : Store) : Decidable s.ResultKeys :=
  decidable_of_iff (_ ∧ _ ∧ _ ∧ _ ∧ _ ∧ _ ∧ _)
    ⟨fun ⟨h₁, h₂, h₃, h₄, h₅, h₆, h₇⟩ => ⟨h₁, h₂, h₃, h₄, h₅, h₆, h₇⟩,
      fun ⟨h₁, h₂, h₃, h₄, h₅, h₆, h₇⟩ => ⟨h₁, h₂, h₃, h₄, h₅, h₆, h₇⟩⟩

instance (s : Store) : Decidable s.OutboxKeys :=
  decidable_of_iff (_ ∧ _ ∧ _ ∧ _ ∧ _ ∧ _)
    ⟨fun ⟨h₁, h₂, h₃, h₄, h₅, h₆⟩ => ⟨h₁, h₂, h₃, h₄, h₅, h₆⟩, fun ⟨h₁, h₂, h₃, h₄, h₅, h₆⟩ => ⟨h₁, h₂, h₃, h₄, h₅, h₆⟩⟩

instance (s : Store) : Decidable s.AssignmentKeys :=
  decidable_of_iff (_ ∧ _ ∧ _ ∧ _ ∧ _ ∧ _ ∧ _ ∧ _)
    ⟨fun ⟨h₁, h₂, h₃, h₄, h₅, h₆, h₇, h₈⟩ => ⟨h₁, h₂, h₃, h₄, h₅, h₆, h₇, h₈⟩,
      fun ⟨h₁, h₂, h₃, h₄, h₅, h₆, h₇, h₈⟩ => ⟨h₁, h₂, h₃, h₄, h₅, h₆, h₇, h₈⟩⟩

instance (s : Store) : Decidable s.Keys :=
  decidable_of_iff (s.ConsensusKeys ∧ s.ParticipationKeys ∧ s.ResultKeys ∧ s.OutboxKeys ∧ s.AssignmentKeys)
    ⟨fun ⟨h₁, h₂, h₃, h₄, h₅⟩ => ⟨h₁, h₂, h₃, h₄, h₅⟩, fun ⟨h₁, h₂, h₃, h₄, h₅⟩ => ⟨h₁, h₂, h₃, h₄, h₅⟩⟩

/-! ## Commands -/

/-- The batch of `receiveSubmission`, with the account that sent it and the assignment that was read for it. -/
structure SubmitBatch where
  account : Account
  row : Submission
  participationId : Text
  status : ParticipationStatus
  delivery : OutboxRow
  assignment : Option Assignment
deriving DecidableEq

/-- A manifest of a sync with the registration that goes with it. -/
structure SyncItem where
  row : CatalogueRow
  registration : Option EvidenceRow
deriving DecidableEq

inductive Write
  | tick (time : Nat)
  /-- The batch of `ensureConsensusTask`. -/
  | register (row : EvidenceRow) (now : Nat)
  /-- The batch of `transitionConsensusTask`. -/
  | transition (task : TaskRow) (transition : Transition)
  /-- The batch of `createReissuedRound`. -/
  | openRound (reason : ReissueReason) (currentRound : RoundRow) (reissued : TaskRow)
  | closeRound (roundId : Text)
  | release (taskVersionId roundId receiptA receiptB : Text)
  | submit (batch : SubmitBatch)
  | stateEvidence (row : OutboxRow)
  | openAppeal (id appellantUserId finalReceiptId : Text) (createdAt : Nat)
  | decideAppeal (id : Text) (decision : AppealStatus)
  | revokeFinal (primaryReceiptId : Text)
  | publishFinal (primaryReceiptId : Text)
  /-- The batch of `receiveRepositoryReceipt`. -/
  | receipt (row : RepositoryReceipt) (primaryReceiptId : Text)
  /-- The batch of `acceptEvidenceRepositoryReceipt`. -/
  | evidenceReceipt (row : EvidenceReceipt)
  | stateReceipt (row : StateReceipt)
  /-- The batch of `acceptTaskStateRepositoryReceipt`. -/
  | stateAccepted (taskVersionId eventId : Text)
  | sending (id : Text) (nextAttemptAt : Nat)
  /-- The end of a delivery in d1 mode. -/
  | deliveredHere (id : Text)
  | delivered (id : Text)
  | undelivered (id : Text) (status : OutboxStatus) (attempts retryAt : Nat) (lastError : Text)
  /-- The batch of `claimRepositoryEvidence`. -/
  | claimEvidence (ids : List Text) (marker : Text) (now : Nat)
  | insertAssignment (row : Assignment)
  /-- The `UPDATE` of `assignRepositoryTask`. -/
  | reassign (id emailHash : Text) (userId : Option Text) (now : Nat)
  /-- The `UPDATE` of `claimRepositoryTask`. -/
  | takeAssignment (id userId : Text)
  /-- The batch of `syncRepositoryTasks`. -/
  | sync (items : List SyncItem) (row : SyncRow) (now : Nat)
  | resultAccess (userId taskVersionId : Text)
  /-- A response goes out. -/
  | present (shown : Shown)
  /-- A blob reaches the object store. -/
  | putBlob (scope : EvidenceScope) (fileName : Text)
  /-- The last selection of `claimRepositoryEvidence`, or its first one where it finds rows, with the response. -/
  | handOut (marker : Text) (limit : Nat) (last : Bool)

/-! ## What they do -/

def repositoryEvidenceClaimHoldMs : Nat := 60 * 60 * 1000

/-- `INSERT OR IGNORE INTO task_versions`, `consensus_rounds` and `consensus_events`; without its task the round violates
a reference. -/
def Store.register (s : Store) (row : EvidenceRow) (now : Nat) : Option Store :=
  if s.evidence.rows.any row.clashes && !s.tasks.any (fun t => decide (t.id = row.id)) then none
  else some { s.setDb (s.db.register row.id now) with evidence := s.evidence.insert row }

/-- The rows that a superseded round leaves held. -/
def Store.isHeldOf (s : Store) (taskVersionId roundId : Text) (row : OutboxRow) : Bool :=
  decide (row.taskVersionId = taskVersionId) && decide (row.kind = .submission) && decide (row.status = .held) &&
    s.submissions.any (fun r => decide (r.receiptId = row.relatedId) && decide (r.taskVersionId = taskVersionId) &&
      decide (r.roundId = roundId))

/-- The call whose batch opens the round. -/
def reissueOf (reason : ReissueReason) (reissued : TaskRow) : ReissueCall := createReissuedRound reissued reason none

def Store.openRound (s : Store) (reason : ReissueReason) (currentRound : RoundRow) (reissued : TaskRow) : Option Store :=
  if s.db.admitsRound ((reissueOf reason reissued).nextRound s.clock currentRound reissued) then
    some { s.setDb ((reissueOf reason reissued).opened s.clock s.db currentRound reissued) with
      outbox := Table.update (s.isHeldOf reissued.id currentRound.id)
        (fun row => { row with status := .cancelled, lastError := some "Independent quorum closed before release.".toList })
        s.outbox }
  else none

/-- The rows that `releaseIndependentEvidence` releases. -/
def Store.isReleased (s : Store) (taskVersionId roundId receiptA receiptB : Text) (row : OutboxRow) : Bool :=
  decide (row.kind = .submission) && decide (row.taskVersionId = taskVersionId) && decide (row.status = .held) &&
    (decide (row.relatedId = receiptA) || decide (row.relatedId = receiptB)) &&
    s.submissions.any (fun r => decide (r.receiptId = row.relatedId) && decide (r.taskVersionId = taskVersionId) &&
      decide (r.roundId = roundId) && r.role.isIndependent && r.active)

/-- The proposal that an agreeing J2 makes active. -/
def isRatifiedBy (row : Submission) (primaryReceiptId root : Text) (f : FinalResult) : Bool :=
  decide (f.primaryReceiptId = primaryReceiptId) && decide (f.taskVersionId = row.taskVersionId) &&
    decide (f.roundId = row.roundId) && decide (f.finalMerkleRoot = root) && decide (f.status = .proposed) &&
    decide (f.secondaryReceiptId = none)

/-- What a submission does to the final results: J1 proposes one, an agreeing J2 makes it active. -/
def finalsAfter (row : Submission) (finals : List FinalResult) : List FinalResult :=
  match row.artifact with
  | .adjudication _ _ root _ => finals ++ [{
      primaryReceiptId := row.receiptId, taskVersionId := row.taskVersionId, roundId := row.roundId,
      secondaryReceiptId := none, finalMerkleRoot := root, status := .proposed, publishedAt := none }]
  | .ratification .agree primaryReceiptId root =>
    Table.update (isRatifiedBy row primaryReceiptId root)
      (fun f => { f with secondaryReceiptId := some row.receiptId, status := .active }) finals
  | _ => finals

/-- The assignment that a submission completes. -/
def SubmitBatch.completes (b : SubmitBatch) (r : Assignment) : Bool :=
  decide (some r.id = b.assignment.map Assignment.id) && decide (r.role = b.row.role) &&
    (decide (r.status = .invited) || decide (r.status = .claimed)) &&
    (decide (r.userId = none) || decide (r.userId = some b.row.userId))

def Store.submit (s : Store) (b : SubmitBatch) : Store :=
  { s with
    submissions := s.submissions ++ [b.row]
    participations := s.participations ++ [{
      id := b.participationId, taskVersionId := b.row.taskVersionId, roundId := b.row.roundId,
      holdoutId := b.row.holdoutId, userId := b.row.userId, role := b.row.role, status := b.status,
      submissionReceiptId := b.row.receiptId }]
    outbox := s.outbox ++ [b.delivery]
    finals := finalsAfter b.row s.finals
    assignments := Table.update b.completes (fun r => { r with
      userId := some b.row.userId, status := .submitted, submissionReceiptId := some b.row.receiptId }) s.assignments }

/-- Whether each statement of the batch reports one row. -/
def SubmitBatch.isWhole (b : SubmitBatch) (s : Store) : Bool :=
  (match b.row.artifact with
    | .ratification .agree primaryReceiptId root =>
      decide (Table.changes (isRatifiedBy b.row primaryReceiptId root) s.finals = 1)
    | _ => true) &&
  (b.assignment.isNone || decide (Table.changes b.completes s.assignments = 1))

/-- The final result and the task that an appeal may be opened on. -/
def Store.isAppealable (s : Store) (finalReceiptId appellantUserId : Text) (createdAt : Nat) (f : FinalResult) : Bool :=
  decide (f.primaryReceiptId = finalReceiptId) && f.isActive &&
    s.tasks.any (fun t => decide (t.id = f.taskVersionId) && decide (t.state = .approved) &&
      t.appealDeadlineAt.any (fun d => decide (createdAt ≤ d))) &&
    s.participations.any (fun p => decide (p.taskVersionId = f.taskVersionId) && decide (p.userId = appellantUserId) &&
      decide (p.status = .submitted))

def repositoryEvidenceClaimMarker (nonce : Text) : Text := "repository-claim:".toList ++ nonce

/-- A row of the outbox that a claim may take. -/
def OutboxRow.isFree (row : OutboxRow) (now : Nat) : Bool :=
  decide (row.status = .pending) || decide (row.status = .sent) ||
    (decide (row.status = .sending) && decide (row.nextAttemptAt ≤ now))

def oldest {ρ : Type} (at_ : ρ → Nat) (limit : Nat) (rows : List ρ) : List ρ :=
  (rows.insertionSort (fun a b => at_ a ≤ at_ b)).take limit

/-- The joins and the conditions that `selectClaimable…` and `selectClaimed…` share. -/
def Store.isClaimable (s : Store) (row : OutboxRow) : Bool :=
  match row.kind with
  | .submission => !s.evidenceReceipts.any (fun r => decide (r.relatedId = row.relatedId)) &&
      s.submissions.any (fun r => decide (r.receiptId = row.relatedId) && !r.imported)
  | .taskState => !s.stateReceipts.any (fun r => decide (r.eventId = row.relatedId)) &&
      !s.receipts.any (fun r => decide (r.nonce = row.relatedId)) &&
      s.tasks.any (fun t => decide (t.id = row.taskVersionId)) && !s.accepted.contains row.taskVersionId

def Store.claimableRepositoryEvidence (s : Store) (now limit : Nat) : List OutboxRow :=
  oldest OutboxRow.createdAt limit (s.outbox.filter (fun row => s.isClaimable row && row.isFree now))

def Store.claimedRepositoryEvidence (s : Store) (marker : Text) (limit : Nat) : List OutboxRow :=
  oldest OutboxRow.createdAt limit (s.outbox.filter (fun row => s.isClaimable row && decide (row.status = .sending) &&
    decide (row.lastError = some marker)))

/-- The guard of the upsert of `repository_task_packets`. -/
def CatalogueRow.mayBecome (r new : CatalogueRow) : Bool :=
  decide (r.packetId = new.packetId) && decide (r.packetMerkleRoot = new.packetMerkleRoot) &&
    decide (r.immutableManifestSha256 = new.immutableManifestSha256) &&
    decide (r.assignmentMode = new.assignmentMode) && decide (r.lane = new.lane) &&
    decide (r.sourceRepository = new.sourceRepository) && decide (r.sourcePath = new.sourcePath) &&
    !(decide (r.status = .withdrawn) && decide (new.status = .active))

/-- The upsert; where its guard fails, `manifest_json` is set to NULL, which the column does not admit. -/
def Store.upsertCatalogue (s : Store) (new : CatalogueRow) : Option Store :=
  match Table.lookup CatalogueRow.taskVersionId new.taskVersionId s.catalogue with
  | none =>
    if s.tasks.any (fun t => decide (t.id = new.taskVersionId)) then some { s with catalogue := s.catalogue ++ [new] }
    else none
  | some r =>
    if r.mayBecome new then
      some { s with
        catalogue := Table.update (fun r => decide (r.taskVersionId = new.taskVersionId))
          (fun r => { r with manifestJson := new.manifestJson, status := new.status }) s.catalogue }
    else none

def Store.syncItem (s : Store) (now : Nat) (item : SyncItem) : Option Store :=
  match item.registration with
  | none => s.upsertCatalogue item.row
  | some row => (s.register row now).bind (fun s => s.upsertCatalogue item.row)

/-- A batch of rows that were delivered or are sent off by a receipt. -/
def markSent (p : OutboxRow → Bool) (outbox : List OutboxRow) : List OutboxRow :=
  Table.update p (fun row => { row with status := .sent, lastError := none }) outbox

/-- The answer with the rows that are claimed under the marker; the first selection answers only where it finds some. -/
def Store.answers (s : Store) (marker : Text) (limit : Nat) (last : Bool) : List HandedOut :=
  let rows := s.claimedRepositoryEvidence marker limit
  if rows.isEmpty && !last then [] else [⟨marker, rows.map (fun r => (r.id, r.nextAttemptAt)), s.clock⟩]

/-- The tables after a command, with `uuid` the identifier that a transition draws. -/
def Write.apply (uuid : Text) (s : Store) : Write → Option Store
  | .tick time => some { s with clock := max s.clock time }
  | .register row now => s.register row now
  | .transition task tr => (transitionBatch s.clock uuid s.db task tr).map (fun r => s.setDb r.1)
  | .openRound reason currentRound reissued => s.openRound reason currentRound reissued
  | .closeRound roundId => some { s with rounds := leaveRound roundId (close s.clock) s.rounds }
  | .release taskVersionId roundId receiptA receiptB => some { s with
      outbox := Table.update (s.isReleased taskVersionId roundId receiptA receiptB)
        (fun row => { row with status := .pending, nextAttemptAt := s.clock }) s.outbox }
  | .submit batch => some (s.submit batch)
  | .stateEvidence row => some { s with
      outbox := insertOrIgnore (fun r => decide (r.id = row.id) || decide (r.dedupeKey = row.dedupeKey)) row s.outbox }
  | .openAppeal id appellantUserId finalReceiptId createdAt => some { s with
      appeals := s.appeals ++ (s.finals.filter (s.isAppealable finalReceiptId appellantUserId createdAt)).map (fun f =>
        { id := id, taskVersionId := f.taskVersionId, roundId := f.roundId, appellantUserId := appellantUserId,
          finalReceiptId := f.primaryReceiptId, status := .pending }) }
  | .decideAppeal id decision => some { s with
      appeals := Table.update (fun a => decide (a.id = id) && a.isPending) (fun a => { a with status := decision })
        s.appeals }
  | .revokeFinal primaryReceiptId => some { s with
      finals := Table.update (fun f => decide (f.primaryReceiptId = primaryReceiptId) && f.isActive)
        (fun f => { f with status := .revoked }) s.finals }
  | .publishFinal primaryReceiptId => some { s with
      finals := Table.update (fun f => decide (f.primaryReceiptId = primaryReceiptId) && f.isActive)
        (fun f => { f with publishedAt := some s.clock }) s.finals }
  | .receipt row primaryReceiptId => some { s with
      receipts := insertOrIgnore (fun r => decide (r.id = row.id) || decide (r.nonce = row.nonce) ||
        decide ((r.taskVersionId, r.finalMerkleRoot) = (row.taskVersionId, row.finalMerkleRoot))) row s.receipts
      accepted := s.accepted ++ (s.tasks.filter (fun t => decide (t.id = row.taskVersionId) &&
        decide (t.state = .approved) && decide (t.activeFinalReceiptId = some primaryReceiptId))).map TaskRow.id
      outbox := markSent (fun r => decide (r.kind = .taskState) && decide (r.relatedId = row.nonce)) s.outbox }
  | .evidenceReceipt row => some { s with
      evidenceReceipts := insertOrIgnore (fun r => decide (r.id = row.id) || decide (r.relatedId = row.relatedId)) row
        s.evidenceReceipts
      submissions := Table.update (fun r => decide (r.receiptId = row.relatedId)) (fun r => { r with imported := true })
        s.submissions
      outbox := markSent (fun r => decide (r.kind = .submission) && decide (r.relatedId = row.relatedId)) s.outbox }
  | .stateReceipt row => some { s with stateReceipts := s.stateReceipts ++ [row] }
  | .stateAccepted taskVersionId eventId => some { s with
      outbox := markSent (fun r => decide (r.kind = .taskState) && decide (r.taskVersionId = taskVersionId) &&
        decide (r.relatedId = eventId)) s.outbox }
  | .sending id nextAttemptAt => some { s with
      outbox := Table.update (fun r => decide (r.id = id) && decide (r.status = .pending))
        (fun r => { r with status := .sending, nextAttemptAt := nextAttemptAt }) s.outbox }
  | .deliveredHere id => some { s with
      outbox := markSent (fun r => decide (r.id = id) && decide (r.status = .sending)) s.outbox }
  | .delivered id => some { s with
      outbox := Table.update (fun r => decide (r.id = id))
        (fun r => { r with status := .sent, attempts := r.attempts + 1, lastError := none }) s.outbox }
  | .undelivered id status attempts retryAt lastError => some { s with
      outbox := Table.update (fun r => decide (r.id = id)) (fun r => { r with
        status := status, attempts := attempts, nextAttemptAt := retryAt, lastError := some lastError }) s.outbox }
  | .claimEvidence ids marker now => some { s with
      outbox := Table.update (fun r => decide (r.id ∈ ids) && r.isFree now) (fun r => { r with
        status := .sending, nextAttemptAt := now + repositoryEvidenceClaimHoldMs, lastError := some marker }) s.outbox }
  | .insertAssignment row => some { s with assignments := s.assignments ++ [row] }
  | .reassign id emailHash userId now => some { s with
      assignments := Table.update (fun r => decide (r.id = id) && decide (r.status ≠ .submitted)) (fun r => { r with
        emailHash := emailHash, userId := userId, status := .invited, submissionReceiptId := none, invitedAt := now })
        s.assignments }
  | .takeAssignment id userId => some { s with
      assignments := Table.update (fun r => decide (r.id = id) && decide (r.status = .invited))
        (fun r => { r with userId := some userId, status := .claimed }) s.assignments }
  | .sync items row now =>
    (items.foldlM (fun s item => Store.syncItem s now item) s).map (fun s => { s with syncs := s.syncs ++ [row] })
  | .resultAccess userId taskVersionId => some { s with
      resultAccess := insertOrIgnore (fun r => decide (r = (userId, taskVersionId))) (userId, taskVersionId)
        s.resultAccess }
  | .present shown => some { s with shown := s.shown ++ [shown] }
  | .putBlob scope fileName => some { s with archive := s.archive ++ [(scope, fileName)] }
  | .handOut marker limit last => some { s with handed := s.handed ++ s.answers marker limit last }

/-- What an access finds outside the database: a fresh identifier, and why the object store refuses a blob. -/
structure Outside where
  uuid : Uuid
  refusal : Option Text

/-- The tables as the database leaves them, and whether it committed. -/
def Write.commit (x : Outside) (w : Write) (s : Store) : Store × Bool :=
  match w.apply x.uuid.1 s with
  | none => (s, false)
  | some s' => if s'.Keys then (s', true) else (s, false)

def Write.exec (x : Outside) (w : Write) (s : Store) : Store := (w.commit x s).1

def Write.committed (x : Outside) (w : Write) (s : Store) : Bool := (w.commit x s).2

/-- **A command rolls back or leaves tables that respect their keys.** -/
theorem Write.exec_cases (x : Outside) (w : Write) (s : Store) :
    (w.exec x s = s ∧ w.committed x s = false) ∨
      ∃ s', w.apply x.uuid.1 s = some s' ∧ s'.Keys ∧ w.exec x s = s' ∧ w.committed x s = true := by
  rw [Write.exec, Write.committed, Write.commit]
  cases happly : w.apply x.uuid.1 s with
  | none => exact .inl ⟨rfl, rfl⟩
  | some s' =>
    by_cases hkeys : s'.Keys
    · exact .inr ⟨s', rfl, hkeys, by simp [hkeys], by simp [hkeys]⟩
    · exact .inl ⟨by simp [hkeys], by simp [hkeys]⟩

end Portal
end Adg
