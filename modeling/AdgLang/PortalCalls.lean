import AdgLang.Interleaving
import AdgLang.PortalWrites
/-!
# PortalCalls — the calls that move tasks

The functions of `consensus-store.js`, and those of `index.js` that record what moves a task, as programs over the tables
of the workflow: each stops wherever the source awaits the database.  Notifications, metrics and audit rows are left out.
-/
namespace Adg
namespace Portal

open Js Consensus

/-! ## Errors -/

/-- What a call throws. -/
inductive PortalError
  | store (e : StoreError)
  | publicError (message : Text) (status : Nat)
deriving DecidableEq

abbrev Call := Program Outside Write Store PortalError

def publicError (message : String) (status : Nat) : PortalError := .publicError message.toList status

def consensusConflict (message : String) : PortalError := .store (.consensusConflict message.toList)

def typeError : PortalError := .store (.error "TypeError".toList)

def ofExcept {α : Type} : Except StoreError α → Call α
  | .ok a => pure a
  | .error e => throw (.store e)

/-- A value that the source reads a property of. -/
def required {α : Type} : Option α → Call α
  | some a => pure a
  | none => throw typeError

/-- `if (!(error instanceof ConsensusConflict)) throw error;`. -/
def ignoreConflict : PortalError → Call Unit
  | .store (.consensusConflict _) => pure ()
  | e => throw e

/-! ## `consensus-store.js` -/

def getConsensusTask (taskVersionId : Text) : Call (Option Task) := Program.read (fun s => s.task taskVersionId)

def getCurrentConsensusRound (task : TaskRow) : Call (Option RoundRow) := Program.read (fun s => s.currentRound task)

def hasKey (idempotencyKey : Text) : Call Bool := Program.read (fun s => s.hasKey idempotencyKey)

/-- The evidence under a task's identifier. -/
def Store.binding (s : Store) (taskVersionId : Text) : Option EvidenceRow :=
  Table.lookup (fun row => row.id) taskVersionId s.evidence.rows

/-- The evidence under a packet's identifier. -/
def Store.packetBinding (s : Store) (packetId : Str) : Option EvidenceRow :=
  Table.lookup (fun row => row.packetId) packetId s.evidence.rows

def prepareConsensusTaskRegistration (packet : Packet) (packetRoot : Digest) : Call EvidenceRow := do
  let identity := taskVersionIdentity packet packetRoot
  let idBinding ← Program.read (fun s => s.binding identity.id)
  let isBound ← ofExcept (consensusTaskMatches idBinding identity packet.metricPolicy)
  Program.throwIf (idBinding.isSome && !isBound) (.store taskConflict)
  let packetBinding ← Program.read (fun s => s.packetBinding identity.packetId)
  Program.throwIf (packetBinding.any (fun row => decide (row.id ≠ identity.id) ||
    decide (row.packetMerkleRoot ≠ identity.packetMerkleRoot))) (.store packetConflict)
  return { identity with metricPolicyJson := packet.metricPolicy.text }

def assertConsensusTaskRegistration (packet : Packet) (packetRoot : Digest) : Call Task := do
  let identity := taskVersionIdentity packet packetRoot
  let found ← Program.read (fun s => (s.binding identity.id, s.task identity.id))
  let isBound ← ofExcept (consensusTaskMatches found.1 identity packet.metricPolicy)
  Program.throwIf (!isBound) (.store taskConflict)
  required found.2

def ensureConsensusTask (packet : Packet) (packetRoot : Digest) (now : Nat) : Call Task := do
  let row ← prepareConsensusTaskRegistration packet packetRoot
  let committed ← Program.perform (.register row now) (fun x s => (Write.register row now).committed x s)
  Program.throwIf (!committed) (.store .database)
  assertConsensusTaskRegistration packet packetRoot

/-- The change counts of the batch, nothing where it is rolled back. -/
def transitionReport (task : TaskRow) (tr : Transition) (x : Outside) (s : Store) : Option (Nat × Nat) :=
  if (Write.transition task tr).committed x s then (transitionBatch s.clock x.uuid.1 s.db task tr).map (fun r => r.2.2)
  else none

def transitionConsensusTask (task : TaskRow) (tr : Transition) : Call (Option Task) := do
  ofExcept (assertConsensusTransition task.state tr.toState)
  if ← hasKey tr.idempotencyKey then getConsensusTask task.id
  else
    let changes ← Program.perform (.transition task tr) (transitionReport task tr)
    match changes with
    | none => throw (.store .database)
    | some changes =>
      if changes = (1, 1) then getConsensusTask task.id
      else
        let idempotent ← hasKey tr.idempotencyKey
        Program.throwIf (!idempotent) (consensusConflict "Consensus state changed concurrently; reload the task.")
        getConsensusTask task.id

/-- The change count of the update of the task; the insertion reports one row where the batch commits. -/
def openRoundReport (reason : ReissueReason) (currentRound : RoundRow) (reissued : TaskRow) (x : Outside) (s : Store) :
    Option Nat :=
  if (Write.openRound reason currentRound reissued).committed x s then
    some (Table.changes (advanceGuard reissued) s.tasks)
  else none

def createReissuedRound (task : TaskRow) (reason : ReissueReason) (actor : Option Actor) : Call (Option Task) := do
  let call := Consensus.createReissuedRound task reason actor
  Program.throwIf (!([.escalated, .revoked].contains task.state))
    (consensusConflict "Only escalated or revoked tasks can be reissued.")
  match ← getCurrentConsensusRound task with
  | none => throw (consensusConflict "Current consensus round was not found.")
  | some currentRound =>
    let reissued ← required (← transitionConsensusTask task (call.reissue currentRound))
    match ← Program.perform (.openRound reason currentRound reissued.toTaskRow)
        (openRoundReport reason currentRound reissued.toTaskRow) with
    | none => throw (.store .database)
    | some changes =>
      Program.throwIf (decide (changes ≠ 1)) (consensusConflict "Failed to create a fresh consensus round.")
      let refreshed ← required (← getConsensusTask reissued.id)
      transitionConsensusTask refreshed.toTaskRow (call.openReview reissued.toTaskRow)

/-! ## `ensureTaskStateEvidence` -/

def stateKey (eventId : Text) : Text := "task-state:".toList ++ eventId

def stateBlobName (eventId : Text) : Text := eventId ++ ".state.json".toList

/-- The row of the outbox for a task's last event. -/
def stateEvidence (id : Text) (now : Nat) (task : Task) (event : EventRow) : OutboxRow where
  id := id
  kind := .taskState
  taskVersionId := task.id
  relatedId := event.id
  publicBlobName := stateBlobName event.id
  identityBlobName := none
  payload := .state event task.stateVersion task.currentRound task.activeFinalReceiptId task.accepted
  dedupeKey := stateKey event.id
  status := .pending
  attempts := 0
  nextAttemptAt := now
  lastError := none
  createdAt := now

def ensureTaskStateEvidence : Option Task → Call Unit
  | none => pure ()
  | some task => do
    if ← Program.read (fun s => s.outbox.any (fun r => decide (r.dedupeKey = stateKey task.lastEventId))) then pure ()
    else
      match ← Program.read (fun s => Table.lookup EventRow.id task.lastEventId s.events) with
      | none => pure ()
      | some event =>
        let x ← Program.input
        let now ← Program.read Store.clock
        Program.perform (.stateEvidence (stateEvidence x.uuid.1 now task event)) (fun _ _ => ())

/-! ## `reconcileConsensusTask` -/

/-- A manifest that `validateRepositoryTaskManifest` accepts. -/
structure Manifest where
  titleAr : Str
  summaryAr : Str
  assignmentMode : AssignmentMode
  lane : Lane
  status : CatalogueStatus
  sourcePath : Str
  packetMerkleRoot : Digest
  packet : Packet

/-- `EVIDENCE_ARCHIVE_MODE`. -/
inductive ArchiveMode
  | d1 | r2 | azure
deriving DecidableEq

/-- What the handlers take from the deployment: the hash of a packet, and `agreementPolicyPassed` of the metrics of two
annotations, nothing where computing them throws. -/
structure Env where
  computePacketMerkleRoot : Packet → Digest
  agreementPassed : TaskRow → AnnotationRoot → AnnotationRoot → Option Bool
  archiveMode : ArchiveMode
  /-- `JSON.stringify(manifest)` and `repositoryTaskImmutableManifestSha256`. -/
  manifestText : Manifest → Str
  immutableManifestSha256 : Manifest → Digest

def appealWindowMs : Nat := 14 * 24 * 60 * 60 * 1000

/-- The first independent submission opens the review. -/
def openIndependent (userId : Text) (task : TaskRow) (round : RoundRow) : Transition where
  toState := .independentReview
  roundId := some round.id
  eventType := "independent-review-opened".toList
  reasonCode := "first-independent-submission".toList
  actorUserId := some userId
  idempotencyKey := "independent-open:".toList ++ task.id ++ ":".toList ++ round.id

/-- The quorum of A and B. -/
def quorum (round : RoundRow) (a b : Submission) (passed : Bool) : Transition where
  toState := .discussion
  roundId := some round.id
  eventType := if passed then "independent-quorum-reached".toList else "independent-disagreement-routed".toList
  reasonCode := if passed then "independent-quorum-complete".toList else "j1-adjudication-required".toList
  idempotencyKey := "independent-quorum:".toList ++ round.id ++ ":".toList ++ a.receiptId ++ ":".toList ++ b.receiptId

/-- The proposal of J1. -/
def proposal (round : RoundRow) (primary : Submission) (novelCount : Nat) : Transition where
  toState := if 0 < novelCount then .escalated else .finalReview
  roundId := some round.id
  eventType := if 0 < novelCount then "novel-primary-decision".toList else "primary-adjudication-proposed".toList
  reasonCode := if 0 < novelCount then "novel-primary-decision".toList else "j1-final-root-proposed".toList
  idempotencyKey := "j1-proposal:".toList ++ primary.receiptId

/-- The ratification of J2. -/
def ratification (round : RoundRow) (secondary : Submission) (decision : Decision) (primaryReceiptId : Text)
    (now : Nat) : Transition where
  toState := if decision = .agree then .approved else .escalated
  roundId := some round.id
  eventType := if decision = .agree then "secondary-ratification-approved".toList
    else "secondary-ratification-escalated".toList
  reasonCode := match decision with
    | .agree => "j2-exact-root-cosign".toList
    | .recuse => "accepted-recusal".toList
    | .disagree => "j2-disagreement".toList
  activeFinalReceiptId := if decision = .agree then some primaryReceiptId else none
  appealDeadlineAt := if decision = .agree then some (now + appealWindowMs) else none
  idempotencyKey := "j2-ratification:".toList ++ secondary.receiptId

/-- The active submissions of A and B, in the order of their roles. -/
def Store.independent (s : Store) (taskVersionId roundId : Text) : List Submission :=
  s.submissionsOf taskVersionId roundId .a ++ s.submissionsOf taskVersionId roundId .b

def Store.hasReleased (s : Store) (taskVersionId receiptA receiptB : Text) (r : OutboxRow) : Bool :=
  decide (r.kind = .submission) && decide (r.taskVersionId = taskVersionId) &&
    (decide (r.relatedId = receiptA) || decide (r.relatedId = receiptB)) &&
    (decide (r.status = .pending) || decide (r.status = .sending) || decide (r.status = .sent))

def releaseIndependentEvidence (taskVersionId roundId receiptA receiptB : Text) : Call Unit := do
  Program.perform (.release taskVersionId roundId receiptA receiptB) (fun _ _ => ())
  let released ← Program.read (fun s => (s.outbox.filter (s.hasReleased taskVersionId receiptA receiptB)).length)
  Program.throwIf (decide (released ≠ 2))
    (consensusConflict "Independent evidence could not be released as one quorum.")

/-- `createReissuedRound` of a task that a transition returned, and the evidence of both. -/
def reissueAfter (task : Option Task) (reason : ReissueReason) (actor : Option Actor) : Call (Option Task) := do
  ensureTaskStateEvidence task
  let reissued ← createReissuedRound (← required task).toTaskRow reason actor
  ensureTaskStateEvidence reissued
  return reissued

def reconcileIndependentReview (env : Env) (task : Task) (round : RoundRow) : Call Unit := do
  let rows ← Program.read (fun s => s.independent task.id round.id)
  if rows.length = 2 then
    let a ← required (rows.find? (fun r => decide (r.role = .a)))
    let b ← required (rows.find? (fun r => decide (r.role = .b)))
    releaseIndependentEvidence task.id round.id a.receiptId b.receiptId
    match a.artifact, b.artifact with
    | .annotated rootA, .annotated rootB =>
      let passed ← required (env.agreementPassed task.toTaskRow rootA rootB)
      ensureTaskStateEvidence (← transitionConsensusTask task.toTaskRow (quorum round a b passed))
    | _, _ => throw typeError
  else pure ()

def reconcileDiscussion (task : Task) (round : RoundRow) : Call Unit := do
  match ← Program.read (fun s => (s.submissionsOf task.id round.id .j1).head?) with
  | none => pure ()
  | some primary =>
    match primary.artifact with
    | .adjudication _ _ _ novelDecisions =>
      let novelCount ← required novelDecisions
      let task ← transitionConsensusTask task.toTaskRow (proposal round primary novelCount)
      if 0 < novelCount then let _ ← reissueAfter task .novelPrimaryDecision none
      else ensureTaskStateEvidence task
    | _ => throw typeError

def reconcileFinalReview (task : Task) (round : RoundRow) : Call Unit := do
  match ← Program.read (fun s => (s.submissionsOf task.id round.id .j2).head?) with
  | none => pure ()
  | some secondary =>
    match secondary.artifact with
    | .ratification decision primaryReceiptId _ =>
      let now ← Program.read Store.clock
      let task ← transitionConsensusTask task.toTaskRow (ratification round secondary decision primaryReceiptId now)
      if decision = .agree then
        Program.perform (.closeRound round.id) (fun _ _ => ())
        ensureTaskStateEvidence task
      else
        let _ ← reissueAfter task (if decision = .recuse then .acceptedRecusal else .j2Disagreement) none
    | _ => throw typeError

def reconcileConsensusTask (env : Env) (taskVersionId : Text) : Call (Option Task) := do
  match ← getConsensusTask taskVersionId with
  | none => return none
  | some task =>
    match ← getCurrentConsensusRound task.toTaskRow with
    | none => return some task
    | some round =>
      tryCatch
        (match task.state with
          | .independentReview => reconcileIndependentReview env task round
          | .discussion => reconcileDiscussion task round
          | .finalReview => reconcileFinalReview task round
          | _ => pure ())
        ignoreConflict
      getConsensusTask taskVersionId

end Portal
end Adg
