import AdgLang.PortalCalls
/-!
# PortalRequests — the handlers of the workflow and its world

The request handlers and the scheduled functions of `index.js` as programs, and the machine that runs any number of them
against one database.
-/
namespace Adg
namespace Portal

open Js Consensus

/-! ## `receiveSubmission` -/

/-- The body of a submission that validation accepted, with the outcome of the checks that need no database. -/
structure Contribution where
  packet : Packet
  artifact : Artifact
  passesTurnstile : Bool
  isUnchanged : Bool

def Contribution.identity (c : Contribution) (env : Env) : TaskIdentity :=
  taskVersionIdentity c.packet (env.computePacketMerkleRoot c.packet)

/-- The account has a participation in the task or its holdout family. -/
def Store.hasParticipated (s : Store) (userId taskVersionId : Text) (holdoutId : Str) : Bool :=
  s.participations.any (fun p => decide (p.userId = userId) &&
    (decide (p.taskVersionId = taskVersionId) || decide (p.holdoutId = holdoutId)))

def alreadyParticipated : PortalError := publicError "سبق أن شارك هذا الحساب في المهمة أو عائلة الحجز نفسها." 409

def Store.catalogueRow (s : Store) (taskVersionId : Text) : Option CatalogueRow :=
  Table.lookup CatalogueRow.taskVersionId taskVersionId s.catalogue

/-- The rows that the account may fill, by its identifier or by its address. -/
def Assignment.admits (account : Account) (r : Assignment) : Bool :=
  (decide (r.status = .invited) || decide (r.status = .claimed)) &&
    (decide (r.userId = some account.userId) ||
      (decide (r.userId = none) && decide (some r.emailHash = account.verifiedEmailHash)))

def Assignment.isOf (taskVersionId roundId : Text) (role : Role) (r : Assignment) : Bool :=
  decide (r.taskVersionId = taskVersionId) && decide (r.roundId = roundId) && decide (r.role = role)

def requiredRepositoryTaskAssignment (account : Account) (role : Role) (taskVersionId : Text)
    (round : Option RoundRow) : Call (Option Assignment) := do
  let catalog ← Program.read (fun s => (s.catalogueRow taskVersionId).filter (fun r => decide (r.lane = .standard)))
  match catalog with
  | none => return none
  | some catalog =>
    Program.throwIf (decide (catalog.status ≠ .active)) (publicError "سُحبت هذه المهمة من قائمة المستودع." 409)
    let round ← required round
    let assignment ← Program.read (fun s =>
      s.assignments.find? (fun r => r.isOf taskVersionId round.id role && r.admits account))
    Program.throwIf assignment.isNone (publicError "استلم هذه المهمة من قائمة مهامك قبل إرسال النتيجة." 403)
    return assignment

/-- The states in which a role may submit. -/
def Role.allowedStates : Role → List TaskState
  | .a | .b => [.opened, .independentReview]
  | .j1 => [.discussion]
  | .j2 => [.finalReview]

/-- The root of an annotation. -/
def Artifact.annotationRoot : Artifact → Option AnnotationRoot
  | .annotated root => some root
  | _ => none

/-- The proposed result that a ratification is about. -/
def Store.primaryFinal (s : Store) (primaryReceiptId taskVersionId roundId : Text) : Option FinalResult :=
  s.finals.find? (fun f => decide (f.primaryReceiptId = primaryReceiptId) && decide (f.taskVersionId = taskVersionId) &&
    decide (f.roundId = roundId) && decide (f.status = .proposed) &&
    s.submissions.any (fun r => decide (r.receiptId = f.primaryReceiptId)))

/-- The binding of J1 and J2 to what is stored. -/
def validateBinding (artifact : Artifact) (taskVersionId roundId : Text) : Call Unit :=
  match artifact with
  | .annotated _ => pure ()
  | .adjudication annotationA annotationB _ _ => do
    let independent ← Program.read (fun s => s.independent taskVersionId roundId)
    Program.throwIf (decide (independent.length ≠ 2)) (publicError "لا يمكن بدء J1 قبل تثبيت A وB في الجولة نفسها." 409)
    let storedRoots := independent.map (fun r => r.artifact.annotationRoot)
    Program.throwIf (decide (storedRoots.dedup.length ≠ 2) ||
      [AnnotationRoot.mk .a annotationA, AnnotationRoot.mk .b annotationB].any
        (fun root => !storedRoots.contains (some root)))
      (publicError "حزمة J1 لا ترتبط بإرسالي A وB المثبتين لهذه الجولة." 409)
  | .ratification _ primaryReceiptId root => do
    let primaryFinal ← Program.read (fun s => s.primaryFinal primaryReceiptId taskVersionId roundId)
    Program.throwIf (!primaryFinal.any (fun f => decide (f.finalMerkleRoot = root)))
      (publicError "مراجعة J2 لا ترتبط بنتيجة J1 المقترحة في الجولة الحالية." 409)

def roleUnavailable (role : Role) (state : TaskState) : PortalError :=
  .publicError ("الدور ".toList ++ (match role with
    | .a => "A".toList
    | .b => "B".toList
    | .j1 => "J1".toList
    | .j2 => "J2".toList) ++ " غير متاح في حالة ".toList ++ state.text ++ ".".toList) 409

def validateConsensusEligibility (account : Account) (artifact : Artifact) (holdoutId : Str) (task : Task)
    (round : Option RoundRow) : Call RoundRow := do
  let role := artifact.consensusRole
  match round with
  | none => throw (publicError "جولة الإجماع الحالية ليست مفتوحة." 409)
  | some round =>
    Program.throwIf (decide (round.status ≠ .opened)) (publicError "جولة الإجماع الحالية ليست مفتوحة." 409)
    Program.throwIf (!role.allowedStates.contains task.state) (roleUnavailable role task.state)
    let existing ← Program.read (fun s => s.hasParticipated account.userId task.id holdoutId)
    Program.throwIf existing alreadyParticipated
    let occupied ← Program.read (fun s =>
      s.participations.any (fun p => decide (p.roundId = round.id) && decide (p.role = role)))
    Program.throwIf occupied (publicError "اكتمل هذا الدور في الجولة الحالية." 409)
    validateBinding artifact task.id round.id
    return round

/-- A conflict is answered, other errors go on. -/
def answerConflict {α : Type} : PortalError → Call α
  | .store (.consensusConflict message) => throw (.publicError message 409)
  | e => throw e

/-- The row of `submissions`. -/
def submissionRow (receiptId : Text) (account : Account) (artifact : Artifact) (identity : TaskIdentity)
    (taskVersionId : Text) (round : RoundRow) : Submission where
  receiptId := receiptId
  userId := account.userId
  packetId := identity.packetId
  taskVersionId := taskVersionId
  roundId := round.id
  holdoutId := identity.holdoutId
  consensusRound := round.roundNumber
  artifact := artifact
  active := true
  imported := false

/-- The row of `evidence_outbox`. -/
def submissionDelivery (id : Text) (row : Submission) (receivedAt : Nat) : OutboxRow where
  id := id
  kind := .submission
  taskVersionId := row.taskVersionId
  relatedId := row.receiptId
  publicBlobName := row.receiptId ++ ".json".toList
  identityBlobName := some (row.receiptId ++ ".json".toList)
  payload := .submission row.receiptId
  dedupeKey := "submission:".toList ++ row.receiptId
  status := if row.role.isIndependent then .held else .pending
  attempts := 0
  nextAttemptAt := receivedAt
  lastError := none
  createdAt := receivedAt

def participationStatus : Artifact → ParticipationStatus
  | .ratification .recuse _ _ => .recused
  | _ => .submitted

def submitBatch (receiptId participationId deliveryId : Text) (receivedAt : Nat) (account : Account)
    (artifact : Artifact) (identity : TaskIdentity) (taskVersionId : Text) (round : RoundRow)
    (assignment : Option Assignment) : SubmitBatch where
  account := account
  row := submissionRow receiptId account artifact identity taskVersionId round
  participationId := participationId
  status := participationStatus artifact
  delivery := submissionDelivery deliveryId (submissionRow receiptId account artifact identity taskVersionId round)
    receivedAt
  assignment := assignment

/-- Whether every statement of the batch reports one row, nothing where it is rolled back. -/
def submitReport (b : SubmitBatch) (x : Outside) (s : Store) : Option Bool :=
  if (Write.submit b).committed x s then some (b.isWhole s) else none

def receiveSubmission (env : Env) (account : Account) (c : Contribution) : Call Unit := do
  let identity := c.identity env
  let role := c.artifact.consensusRole
  Program.throwIf account.verifiedEmailHash.isNone (publicError "وثّق بريد الحساب قبل إرسال التحكيم." 403)
  Program.throwIf account.erasurePending
    (publicError "لا يمكن إنشاء مساهمة جديدة بعد تسجيل طلب محو الهوية." 409)
  let catalog ← Program.read (fun s => s.catalogueRow identity.id)
  Program.throwIf (catalog.any (fun r => decide (r.lane = .operationalTest)))
    (publicError "هذه الحزمة تشغيلية معزولة؛ أرسلها عبر مسار الاختبار التشغيلي." 409)
  let viewed ← Program.read (fun s => s.resultAccess.contains (account.userId, identity.id))
  Program.throwIf (viewed && role.isIndependent)
    (publicError "اطلعت على نتائج هذه المهمة؛ لا يمكن بدء تحكيم مستقل جديد لها." 409)
  Program.throwIf (!c.passesTurnstile) (publicError "لم ينجح اختبار الحماية. أعد المحاولة." 403)
  Program.throwIf (!c.isUnchanged) (publicError "تغيّرت نتيجة التقييم أثناء الإرسال." 400)
  let participated ← Program.read (fun s => s.hasParticipated account.userId identity.id identity.holdoutId)
  Program.throwIf participated alreadyParticipated
  let existingTask ← getConsensusTask identity.id
  Program.throwIf (existingTask.isNone && !role.isIndependent)
    (publicError "يجب تثبيت التحكيمين المستقلين قبل هذا الدور." 409)
  let now ← Program.read Store.clock
  let task ← tryCatch (ensureConsensusTask c.packet (env.computePacketMerkleRoot c.packet) now) answerConflict
  let round ← getCurrentConsensusRound task.toTaskRow
  let assignment ← requiredRepositoryTaskAssignment account role task.id round
  let round ← validateConsensusEligibility account c.artifact identity.holdoutId task round
  let receipt ← Program.input
  let delivery ← Program.input
  let participation ← Program.input
  let receivedAt ← Program.read Store.clock
  let batch := submitBatch receipt.uuid.1 participation.uuid.1 delivery.uuid.1 receivedAt account c.artifact identity
    task.id round assignment
  match ← Program.perform (.submit batch) (submitReport batch) with
  | none => throw (publicError "تعارض الدور أو تغيرت حالة الجولة. حدّث المهمة وأعد المحاولة." 409)
  | some isWhole =>
    Program.throwIf (!isWhole) (publicError "لم تُثبت المساهمة ذريًا في سجل الجولة." 409)
    if role.isIndependent && decide (task.state = .opened) then
      tryCatch
        (do ensureTaskStateEvidence
              (← transitionConsensusTask task.toTaskRow (openIndependent account.userId task.toTaskRow round)))
        ignoreConflict
    else pure ()
    let _ ← reconcileConsensusTask env task.id

/-! ## Rounds -/

/-- The three loops of `processExpiredConsensusRounds`; an error in one item is logged and the next goes on. -/
def ignoreError : PortalError → Call Unit := fun _ => pure ()

/-- The transition of an expired round. -/
def expiry (round : RoundRow) : Transition where
  toState := .escalated
  roundId := some round.id
  eventType := "independent-quorum-expired".toList
  reasonCode := "missing-quorum-deadline".toList
  idempotencyKey := "deadline-expired:".toList ++ round.id

def expireRound (taskVersionId : Text) : Call Unit := do
  let task ← required (← getConsensusTask taskVersionId)
  let round ← required (← getCurrentConsensusRound task.toTaskRow)
  let _ ← reissueAfter (← transitionConsensusTask task.toTaskRow (expiry round)) .missingQuorumDeadline none

/-- The round of the task is open past its deadline. -/
def Store.isExpired (s : Store) (now : Nat) (t : TaskRow) : Bool :=
  decide (t.state = .independentReview) &&
    (s.currentRound t).any (fun r => decide (r.status = .opened) && decide (r.deadlineAt ≤ now))

/-- The last event of the task has no row in the outbox. -/
def Store.lacksEvidence (s : Store) (t : TaskRow) : Bool :=
  s.events.any (fun e => decide (e.id = t.lastEventId)) &&
    !s.outbox.any (fun r => decide (r.dedupeKey = stateKey t.lastEventId))

def processExpiredConsensusRounds (env : Env) : Call Unit := do
  let active ← Program.read (fun s => oldest TaskRow.updatedAt 25
    (s.tasks.filter (fun t => [.independentReview, .discussion, .finalReview].contains t.state)))
  Program.each active (fun t => tryCatch (do let _ ← reconcileConsensusTask env t.id) ignoreError)
  let missing ← Program.read (fun s => (s.tasks.filter s.lacksEvidence).take 25)
  Program.each missing (fun t => tryCatch (do ensureTaskStateEvidence (← getConsensusTask t.id)) ignoreError)
  let now ← Program.read Store.clock
  let expired ← Program.read (fun s => (s.tasks.filter (s.isExpired now)).take 10)
  Program.each expired (fun t => tryCatch (expireRound t.id) ignoreError)

def reissueConsensusTask (taskVersionId : Text) (reason : ReissueReason) (actor : Actor) : Call Unit := do
  match ← getConsensusTask taskVersionId with
  | none => throw (publicError "نسخة المهمة غير موجودة." 404)
  | some task =>
    let updated ← tryCatch (createReissuedRound task.toTaskRow reason (some actor)) answerConflict
    ensureTaskStateEvidence updated

/-! ## Appeals -/

def createConsensusAppeal (account : Account) (finalReceiptId : Text) : Call Unit := do
  Program.throwIf account.verifiedEmailHash.isNone (publicError "وثّق بريد الحساب قبل تقديم الاستئناف." 403)
  let final ← Program.read (fun s => (s.finals.find? (fun f => decide (f.primaryReceiptId = finalReceiptId))).bind
    (fun f => (s.task f.taskVersionId).map (fun t => (f, t))))
  match final with
  | none => throw (publicError "النتيجة غير مؤهلة للاستئناف." 409)
  | some (final, task) =>
    Program.throwIf (!final.isActive || decide (task.state ≠ .approved)) (publicError "النتيجة غير مؤهلة للاستئناف." 409)
    let now ← Program.read Store.clock
    Program.throwIf (!task.appealDeadlineAt.any (fun d => decide (0 < d) && decide (now ≤ d)))
      (publicError "انتهت مهلة الاستئناف لهذه النتيجة." 409)
    let eligible ← Program.read (fun s => s.participations.any (fun p =>
      decide (p.taskVersionId = final.taskVersionId) && decide (p.userId = account.userId) &&
        decide (p.status = .submitted)))
    Program.throwIf (!eligible) (publicError "الاستئناف متاح للمشاركين المثبتين في هذه المهمة فقط." 403)
    let appealId ← Program.input
    let createdAt ← Program.read Store.clock
    let write := Write.openAppeal appealId.uuid.1 account.userId finalReceiptId createdAt
    let inserted ← Program.perform write (fun x s => if write.committed x s then
      some (s.finals.countP (s.isAppealable finalReceiptId account.userId createdAt)) else none)
    Program.throwIf inserted.isNone (publicError "سبق أن قدمت استئنافًا لهذه النتيجة." 409)
    Program.throwIf (decide (inserted ≠ some 1)) (publicError "تغيرت حالة النتيجة أو انتهت مهلة الاستئناف." 409)

/-- The transition of an accepted appeal. -/
def appealEscalation (appeal : Appeal) (subjectHash : Option Text) : Transition where
  toState := .escalated
  roundId := some appeal.roundId
  eventType := "approved-result-appealed".toList
  reasonCode := "accepted-appeal".toList
  actorSubjectHash := subjectHash
  clearActiveFinal := true
  idempotencyKey := "appeal-escalation:".toList ++ appeal.id

/-- What follows the acceptance of an appeal. -/
def escalateAppeal (appeal : Appeal) (task : Task) (subjectHash : Option Text) : Call Unit := do
  Program.perform (.revokeFinal appeal.finalReceiptId) (fun _ _ => ())
  let task ← transitionConsensusTask task.toTaskRow (appealEscalation appeal subjectHash)
  let _ ← reissueAfter task .acceptedAppeal (some ⟨none, subjectHash⟩)

def reviewConsensusAppeal (appealId : Text) (accepts : Bool) (subjectHash : Option Text) : Call Unit := do
  match ← Program.read (fun s => (Table.lookup Appeal.id appealId s.appeals).filter Appeal.isPending) with
  | none => throw (publicError "الاستئناف غير موجود أو سبق البت فيه." 409)
  | some appeal =>
    match (← getConsensusTask appeal.taskVersionId).filter (fun t => decide (t.state = .approved)) with
    | none => throw (publicError "لا يمكن البت في الاستئناف بعد مغادرة حالة الاعتماد المؤقت." 409)
    | some task =>
      let reviewed ← Program.perform (.decideAppeal appealId (if accepts then .accepted else .rejected))
        (fun _ s => Table.changes (fun a => decide (a.id = appealId) && a.isPending) s.appeals)
      Program.throwIf (decide (reviewed ≠ 1)) (publicError "تغيرت حالة الاستئناف بالتزامن." 409)
      if accepts then escalateAppeal appeal task subjectHash else pure ()

/-! ## Receipts and publication -/

/-- The transition of a publication. -/
def publication (taskVersionId : Text) (final : FinalResult) (receipt : RepositoryReceipt) (guardAt : Nat) :
    Transition where
  toState := .published
  roundId := some final.roundId
  eventType := "repository-publication-confirmed".toList
  reasonCode := "signed-repository-receipt".toList
  activeFinalReceiptId := some final.primaryReceiptId
  requirePublicationReady := true
  publicationGuardAt := some guardAt
  idempotencyKey := "publish:".toList ++ taskVersionId ++ ":".toList ++ receipt.id

/-- The task is approved and accepted, and its appeal window is over. -/
def Task.isPublishable (task : Task) (now : Nat) : Bool :=
  decide (task.state = .approved) && task.accepted &&
    task.appealDeadlineAt.any (fun d => decide (0 < d) && decide (d ≤ now))

/-- A conflict is told apart from the task that the call returned. -/
def orConflict {α : Type} : PortalError → Call (Option α)
  | .store (.consensusConflict _) => return none
  | e => throw e

def attemptPublishTask (taskVersionId : Text) : Call Unit := do
  match ← getConsensusTask taskVersionId with
  | none => pure ()
  | some task =>
    let now ← Program.read Store.clock
    if task.isPublishable now then
      if ← Program.read (fun s => s.appeals.any (fun a => decide (a.taskVersionId = taskVersionId) && a.isPending)) then
        pure ()
      else
        match ← Program.read (fun s => s.finals.find? (fun f => decide (f.taskVersionId = taskVersionId) && f.isActive &&
            decide (some f.primaryReceiptId = task.activeFinalReceiptId))) with
        | none => pure ()
        | some final =>
          match ← Program.read (fun s => s.receipts.find? (fun r => decide (r.taskVersionId = taskVersionId) &&
              decide (r.roundId = final.roundId) && decide (r.finalMerkleRoot = final.finalMerkleRoot))) with
          | none => pure ()
          | some receipt =>
            let guardAt ← Program.read Store.clock
            let published ← tryCatch
              (do return some (← transitionConsensusTask task.toTaskRow (publication taskVersionId final receipt guardAt)))
              orConflict
            match published with
            | none => pure ()
            | some task =>
              Program.perform (.publishFinal final.primaryReceiptId) (fun _ _ => ())
              ensureTaskStateEvidence task
    else pure ()

/-- The approved tasks whose appeal window is over. -/
def Store.isDue (s : Store) (now : Nat) (t : TaskRow) : Bool :=
  decide (t.state = .approved) && s.accepted.contains t.id && t.appealDeadlineAt.any (fun d => decide (d ≤ now))

def processPublishableTasks : Call Unit := do
  let now ← Program.read Store.clock
  let due ← Program.read (fun s => oldest (fun t : TaskRow => t.appealDeadlineAt.getD 0) 25 (s.tasks.filter (s.isDue now)))
  Program.each due (fun t => tryCatch (attemptPublishTask t.id) ignoreError)

/-- The event and the active final result that a receipt is about. -/
def Store.receiptBinding (s : Store) (row : RepositoryReceipt) : Option (EventRow × FinalResult) :=
  (s.events.find? (fun e => decide (e.id = row.nonce) && decide (e.taskVersionId = row.taskVersionId) &&
    decide (e.roundId = some row.roundId) && decide (e.toState = .approved))).bind (fun e =>
      (s.finals.find? (fun f => decide (f.taskVersionId = e.taskVersionId) && decide (some f.roundId = e.roundId) &&
        decide (f.finalMerkleRoot = row.finalMerkleRoot) && f.isActive)).map (fun f => (e, f)))

def receiveRepositoryReceipt (row : RepositoryReceipt) : Call Unit := do
  match ← Program.read (fun s => s.receiptBinding row) with
  | none => throw (publicError "إيصال المستودع لا يطابق نتيجة معتمدة في سجل الإجماع." 409)
  | some (_, final) =>
    let committed ← Program.perform (.receipt row final.primaryReceiptId)
      (fun x s => (Write.receipt row final.primaryReceiptId).committed x s)
    Program.throwIf (!committed) (.store .database)
    let stored ← Program.read (fun s => s.receipts.any (fun r => decide (r.taskVersionId = row.taskVersionId) &&
      decide (r.finalMerkleRoot = row.finalMerkleRoot) && decide (r.nonce = row.nonce)))
    Program.throwIf (!stored) (publicError "تعارض إيصال المستودع مع إيصال سابق." 409)
    attemptPublishTask row.taskVersionId

def acceptEvidenceRepositoryReceipt (row : EvidenceReceipt) : Call Unit := do
  let found ← Program.read (fun s => s.submissions.any (fun r => decide (r.receiptId = row.relatedId)))
  Program.throwIf (!found) (publicError "الدليل المشار إليه غير موجود في المنصة." 409)
  let committed ← Program.perform (.evidenceReceipt row) (fun x s => (Write.evidenceReceipt row).committed x s)
  Program.throwIf (!committed) (.store .database)

/-- The payload and the event that a receipt of a task's state is about. -/
def Store.stateBinding (s : Store) (taskVersionId eventId : Text) : Option (OutboxRow × EventRow) :=
  (s.outbox.find? (fun r => decide (r.kind = .taskState) && decide (r.taskVersionId = taskVersionId) &&
    decide (r.relatedId = eventId))).bind (fun r =>
      (s.events.find? (fun e => decide (e.id = r.relatedId) && decide (e.taskVersionId = r.taskVersionId))).map
        (fun e => (r, e)))

/-- The payload names the event, its state and the version as the receipt does; it is the payload of the task's row. -/
def Payload.matches (p : Payload) (row : StateReceipt) : Bool :=
  match p with
  | .submission _ => false
  | .state event stateVersion _ _ _ =>
    decide (event.id = row.eventId) && decide (event.toState = row.toState) && decide (stateVersion = row.stateVersion)

def acceptTaskStateRepositoryReceipt (row : StateReceipt) : Call Unit := do
  Program.throwIf (decide (row.toState = .approved)) (publicError "صيغة إيصال حالة المهمة غير صالحة." 400)
  match ← Program.read (fun s => s.stateBinding row.taskVersionId row.eventId) with
  | none => throw (publicError "حدث حالة المهمة المشار إليه غير موجود في المنصة." 409)
  | some (delivery, event) =>
    Program.throwIf (!delivery.payload.matches row || decide (event.toState ≠ row.toState))
      (publicError "إيصال المستودع لا يطابق حدث حالة المهمة." 409)
    let existing ← Program.read (fun s => s.stateReceipts.find? (fun r =>
      decide (r.taskVersionId = row.taskVersionId) && decide (r.eventId = row.eventId)))
    Program.throwIf (existing.any (fun r => decide (r.toState ≠ row.toState) ||
      decide (r.stateVersion ≠ row.stateVersion) || decide (r.merge ≠ row.merge)))
      (publicError "إيصال حالة المهمة يتعارض مع إيصال سابق." 409)
    if existing.isNone then
      let committed ← Program.perform (.stateReceipt row) (fun x s => (Write.stateReceipt row).committed x s)
      Program.throwIf (!committed) (.store .database)
    else pure ()
    Program.perform (.stateAccepted row.taskVersionId row.eventId) (fun _ _ => ())

/-! ## The outbox -/

def repositoryEvidenceClaimMaxItems : Nat := 50

/-- The rows of a claim are handed out where they are found. -/
def claimRepositoryEvidence (nonce : Text) (maxItems : Nat) : Call Unit := do
  let now ← Program.read Store.clock
  let limit := min repositoryEvidenceClaimMaxItems (max 1 maxItems)
  let marker := repositoryEvidenceClaimMarker nonce
  let rows ← Program.perform (.handOut marker limit false) (fun _ s => s.claimedRepositoryEvidence marker limit)
  if rows.length = 0 then
    let candidates ← Program.read (fun s => s.claimableRepositoryEvidence now limit)
    Program.perform (.claimEvidence (candidates.map OutboxRow.id) marker now) (fun _ _ => ())
    Program.perform (.handOut marker limit true) (fun _ _ => ())
  else pure ()

/-- The prefixes and the suffixes of the object names of a scope, around a UUID. -/
def EvidenceScope.patterns : EvidenceScope → List (Text × Text)
  | .identities => [([], ".json".toList)]
  | .submissions => [([], ".json".toList), ("comment-".toList, ".json".toList), ([], ".state.json".toList)]

def validateEvidenceObjectName (scope : EvidenceScope) (fileName : Text) : Bool :=
  scope.patterns.any (fun pattern =>
    let value := fileName.map Char.toLower
    decide (value.length = pattern.1.length + 36 + pattern.2.length) &&
      decide (value.take pattern.1.length = pattern.1) && isUuid ((value.drop pattern.1.length).take 36) &&
      decide (value.drop (pattern.1.length + 36) = pattern.2))

def EvidenceScope.name : EvidenceScope → Text
  | .submissions => "submissions".toList
  | .identities => "identities".toList

/-- `putEvidenceBlob` in the modes 'r2' and 'azure', with the message of its error; only 'r2' checks the name. -/
def putEvidenceBlob (env : Env) (scope : EvidenceScope) (fileName : Text) : Call (Option Text) := do
  if env.archiveMode = .r2 ∧ validateEvidenceObjectName scope fileName = false then
    return some ("Invalid ".toList ++ scope.name ++ " evidence object name.".toList)
  else
    let x ← Program.input
    match x.refusal with
    | some message => return some message
    | none => Program.perform (.putBlob scope fileName) (fun _ _ => none)

/-- The identity payload of a row, if it has one. -/
def putIdentityBlob (env : Env) (item : OutboxRow) : Call (Option Text) :=
  match item.identityBlobName with
  | none => pure none
  | some fileName => putEvidenceBlob env .identities fileName

/-- The payloads of a row, that of the identity first. -/
def putBlobs (env : Env) (item : OutboxRow) : Call (Option Text) := do
  match ← putIdentityBlob env item with
  | some message => return some message
  | none => putEvidenceBlob env .submissions item.publicBlobName

/-- A delivery to the object store. -/
def deliverEvidence (env : Env) (item : OutboxRow) : Call Unit := do
  match ← putBlobs env item with
  | none => Program.perform (.delivered item.id) (fun _ _ => ())
  | some message =>
    let attempts := item.attempts + 1
    let now ← Program.read Store.clock
    Program.perform (.undelivered item.id (if 8 ≤ attempts then .failed else .pending) attempts
      (now + min (6 * 60 * 60 * 1000) (30000 * 2 ^ attempts)) (message.take 400)) (fun _ _ => ())

/-- The rows that a worker selects. -/
def Store.dueEvidence (s : Store) (now : Nat) : List OutboxRow :=
  s.outbox.filter (fun r => decide (r.status = .pending) && decide (r.nextAttemptAt ≤ now))

def processEvidenceOutbox (env : Env) : Call Unit := do
  let now ← Program.read Store.clock
  let items ← Program.read (fun s => oldest OutboxRow.createdAt 20 (s.dueEvidence now))
  Program.each items (fun item => do
    let changes ← Program.perform (.sending item.id (now + 10 * 60 * 1000))
      (fun _ s => Table.changes (fun r : OutboxRow => decide (r.id = item.id) && decide (r.status = .pending)) s.outbox)
    if changes = 1 then
      if env.archiveMode = .d1 then Program.perform (.deliveredHere item.id) (fun _ _ => ())
      else deliverEvidence env item
    else pure ())

end Portal
end Adg
