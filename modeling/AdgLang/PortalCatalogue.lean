import AdgLang.PortalRequests
/-!
# PortalCatalogue — the task catalogue, its assignments and what accounts are shown

Syncing the repository's tasks, assigning and claiming their roles, loading a task and viewing the results, as programs;
and the world of all requests.
-/
namespace Adg
namespace Portal

open Js Consensus

/-! ## Assignments -/

/-- `getRepositoryTaskContext`. -/
structure RepositoryTaskContext where
  taskVersionId : Text
  assignmentMode : AssignmentMode
  lane : Lane
  catalogStatus : CatalogueStatus
  holdoutId : Str
  state : TaskState
  roundId : Text
deriving DecidableEq

def Store.repositoryTaskContext (s : Store) (taskVersionId : Text) : Option RepositoryTaskContext :=
  (s.catalogueRow taskVersionId).bind (fun catalog =>
    (s.task taskVersionId).bind (fun task =>
      (s.binding taskVersionId).bind (fun evidence =>
        (s.currentRound task.toTaskRow).map (fun round => {
          taskVersionId := catalog.taskVersionId, assignmentMode := catalog.assignmentMode, lane := catalog.lane,
          catalogStatus := catalog.status, holdoutId := evidence.holdoutId, state := task.state, roundId := round.id }))))

/-- A row that is inserted into `task_assignments`. -/
def RepositoryTaskContext.assignment (c : RepositoryTaskContext) (id : Text) (role : Role) (emailHash : Text)
    (userId : Option Text) (status : AssignmentStatus) (now : Nat) : Assignment where
  id := id
  taskVersionId := c.taskVersionId
  roundId := c.roundId
  holdoutId := c.holdoutId
  role := role
  emailHash := emailHash
  userId := userId
  status := status
  submissionReceiptId := none
  invitedAt := now

def RepositoryTaskContext.isActive (c : RepositoryTaskContext) : Bool := decide (c.catalogStatus = .active)

/-- The account holds a role of the holdout family: a participation, or an assignment that `other` does not set aside. -/
def Store.holdsRole (s : Store) (holdoutId : Str) (userId : Text) (other : Assignment → Bool) : Bool :=
  s.participations.any (fun p => decide (p.holdoutId = holdoutId) && decide (p.userId = userId)) ||
    s.assignments.any (fun r => decide (r.holdoutId = holdoutId) && decide (r.userId = some userId) &&
      decide (r.status ≠ .cancelled) && other r)

/-- `assignRepositoryTask`; `user` is the account that has verified the address, if any. -/
def assignRepositoryTask (taskVersionId : Text) (role : Role) (emailHash : Text) (user : Option Text) : Call Unit := do
  match (← Program.read (fun s => s.repositoryTaskContext taskVersionId)).filter RepositoryTaskContext.isActive with
  | none => throw (publicError "لا يمكن إسناد مهمة قبل تسجيلها من المستودع." 404)
  | some context =>
    Program.throwIf (decide (context.lane = .operationalTest))
      (publicError "الاختبار التشغيلي مفتوح داخل وضعه المعزول ولا يقبل إسناد أدوار إجماع." 409)
    let conflict ← Program.read (fun s => user.any (fun id =>
      s.holdsRole context.holdoutId id (fun r => !r.isOf context.taskVersionId context.roundId role)))
    Program.throwIf conflict (publicError "لا يمكن إسناد أكثر من دور للحساب نفسه على المادة نفسها." 409)
    let existing ← Program.read (fun s => s.assignments.find? (Assignment.isOf context.taskVersionId context.roundId role))
    Program.throwIf (existing.any (fun r => decide (r.status = .submitted)))
      (publicError "أُنجز هذا الدور ولا يمكن إعادة إسناده." 409)
    let now ← Program.read Store.clock
    match existing with
    | some row =>
      let write := Write.reassign row.id emailHash user now
      let changes ← Program.perform write (fun x s => if write.committed x s then
        some (Table.changes (fun r => decide (r.id = row.id) && decide (r.status ≠ .submitted)) s.assignments) else none)
      Program.throwIf changes.isNone (.store .database)
      Program.throwIf (decide (changes ≠ some 1)) (publicError "تعذر تثبيت إسناد المهمة." 409)
    | none =>
      let x ← Program.input
      let write := Write.insertAssignment (context.assignment x.uuid.1 role emailHash user .invited now)
      let committed ← Program.perform write (fun x s => write.committed x s)
      Program.throwIf (!committed) (.store .database)

def repositoryTaskRolesForState : TaskState → List Role
  | .opened | .independentReview => [.a, .b]
  | .discussion => [.j1]
  | .finalReview => [.j2]
  | _ => []

/-- `repositoryTaskPayload` and the response with it: J1 is shown both annotations, J2 the decision of J1. -/
def repositoryTaskPayload (userId : Text) (context : RepositoryTaskContext) (assignment : Assignment) : Call Unit :=
  match assignment.role with
  | .j1 => do
    let rows ← Program.read (fun s => s.independent context.taskVersionId context.roundId)
    Program.throwIf (!(rows.any (fun r => decide (r.role = .a)) && rows.any (fun r => decide (r.role = .b))))
      (publicError "لم تكتمل بعد نتيجتا المحكّمين المستقلين." 409)
    Program.perform (.present ⟨userId, rows.map Submission.receiptId, some assignment.id⟩) (fun _ _ => ())
  | .j2 => do
    match ← Program.read (fun s => (s.submissionsOf context.taskVersionId context.roundId .j1).getLast?) with
    | none => throw (publicError "لم يكتمل قرار المحكّم الرئيس بعد." 409)
    | some row => Program.perform (.present ⟨userId, [row.receiptId], some assignment.id⟩) (fun _ _ => ())
  | _ => Program.perform (.present ⟨userId, [], some assignment.id⟩) (fun _ _ => ())

/-- The assignments of a round that name the account, in the order they were sent out. -/
def Store.assignmentsOf (s : Store) (context : RepositoryTaskContext) (userId emailHash : Text) : List Assignment :=
  oldest Assignment.invitedAt 1 (s.assignments.filter (fun r => decide (r.taskVersionId = context.taskVersionId) &&
    decide (r.roundId = context.roundId) && decide (r.status ≠ .cancelled) &&
    (decide (r.userId = some userId) || decide (r.emailHash = emailHash))))

/-- The roles of a round that an assignment or a participation holds. -/
def Store.occupiedRoles (s : Store) (taskVersionId roundId : Text) : List Role :=
  (s.assignments.filter (fun r => decide (r.taskVersionId = taskVersionId) && decide (r.roundId = roundId) &&
    decide (r.status ≠ .cancelled))).map Assignment.role ++
  (s.participations.filter (fun p => decide (p.taskVersionId = taskVersionId) && decide (p.roundId = roundId))).map
    Participation.role

def claimNewAssignment (account : Account) (emailHash : Text) (context : RepositoryTaskContext) (now : Nat) :
    Call Assignment := do
  Program.throwIf (decide (context.assignmentMode ≠ .openToAll))
    (publicError "هذه المهمة مخصصة لحساب آخر بحسب البريد الموثق." 403)
  let occupied ← Program.read (fun s => s.occupiedRoles context.taskVersionId context.roundId)
  match (repositoryTaskRolesForState context.state).find? (fun role => !occupied.contains role) with
  | none => throw (publicError "اكتملت الأدوار المتاحة لهذه المرحلة." 409)
  | some role =>
    let x ← Program.input
    let row := context.assignment x.uuid.1 role emailHash (some account.userId) .claimed now
    let committed ← Program.perform (.insertAssignment row) (fun x s => (Write.insertAssignment row).committed x s)
    Program.throwIf (!committed) (publicError "حجز محكّم آخر هذا الدور للتو؛ حدّث قائمة المهام." 409)
    required (← Program.read (fun s => Table.lookup Assignment.id x.uuid.1 s.assignments))

def takeAssignment (account : Account) (assignment : Assignment) : Call Assignment := do
  let write := Write.takeAssignment assignment.id account.userId
  let changes ← Program.perform write (fun x s => if write.committed x s then
    some (Table.changes (fun r => decide (r.id = assignment.id) && decide (r.status = .invited)) s.assignments) else none)
  Program.throwIf changes.isNone (.store .database)
  Program.throwIf (decide (changes ≠ some 1)) (publicError "تغيرت حالة الإسناد؛ حدّث قائمة المهام." 409)
  return { assignment with userId := some account.userId, status := .claimed }

/-- `claimRepositoryTask` in the standard mode. -/
def claimRepositoryTask (account : Account) (taskVersionId : Text) : Call Unit := do
  match account.verifiedEmailHash with
  | none => throw (publicError "وثّق بريد الحساب قبل استلام المهمة." 403)
  | some emailHash =>
    match (← Program.read (fun s => s.repositoryTaskContext taskVersionId)).filter RepositoryTaskContext.isActive with
    | none => throw (publicError "المهمة المطلوبة غير متاحة." 404)
    | some context =>
      Program.throwIf (decide (context.lane ≠ .standard)) (publicError "المهمة المطلوبة غير متاحة في هذا الوضع." 404)
      let eligible := repositoryTaskRolesForState context.state
      Program.throwIf eligible.isEmpty (publicError "هذه المهمة ليست جاهزة لدور جديد الآن." 409)
      let assignment := (← Program.read (fun s => s.assignmentsOf context account.userId emailHash)).head?
      Program.throwIf (assignment.any (fun r => !eligible.contains r.role && decide (r.status ≠ .submitted)))
        (publicError "المهمة مسندة إليك، لكنها تنتظر اكتمال المرحلة السابقة." 409)
      let conflict ← Program.read (fun s => s.holdsRole context.holdoutId account.userId
        (fun r => decide (r.taskVersionId ≠ context.taskVersionId)))
      Program.throwIf conflict (publicError "سبق لهذا الحساب العمل على المادة نفسها؛ لا يمكن إسناد دور آخر." 409)
      let now ← Program.read Store.clock
      match assignment with
      | none => repositoryTaskPayload account.userId context (← claimNewAssignment account emailHash context now)
      | some assignment =>
        if assignment.status = .invited then
          repositoryTaskPayload account.userId context (← takeAssignment account assignment)
        else repositoryTaskPayload account.userId context assignment

/-- `loadRepositoryTask` in the standard mode. -/
def loadRepositoryTask (account : Account) (taskVersionId : Text) : Call Unit := do
  match (← Program.read (fun s => s.repositoryTaskContext taskVersionId)).filter RepositoryTaskContext.isActive with
  | none => throw (publicError "المهمة المطلوبة غير متاحة." 404)
  | some context =>
    Program.throwIf (decide (context.lane ≠ .standard)) (publicError "المهمة المطلوبة غير متاحة في هذا الوضع." 404)
    match ← Program.read (fun s => s.assignments.find? (fun r => decide (r.taskVersionId = context.taskVersionId) &&
        decide (r.roundId = context.roundId) && decide (r.userId = some account.userId) &&
        (decide (r.status = .claimed) || decide (r.status = .submitted)))) with
    | none => throw (publicError "استلم المهمة من القائمة قبل فتحها." 403)
    | some assignment => repositoryTaskPayload account.userId context assignment

def getCompletedResults (account : Account) (receiptId : Text) : Call Unit := do
  Program.throwIf (!isUuid receiptId) (publicError "معرف الإرسال المطلوب غير صالح." 400)
  match ← Program.read (fun s => s.submissions.find? (fun r => decide (r.receiptId = receiptId) &&
      decide (r.userId = account.userId))) with
  | none => throw (publicError "لا يمكن فتح النتائج قبل إتمام المهمة المرتبطة بهذا الحساب." 404)
  | some source =>
    Program.perform (.resultAccess account.userId source.taskVersionId) (fun _ _ => ())
    let results ← Program.read (fun s => (s.submissions.filter (fun r =>
      decide (r.taskVersionId = source.taskVersionId) && decide (r.roundId = source.roundId) &&
        decide (r.receiptId ≠ receiptId))).take 40)
    Program.perform (.present ⟨account.userId, results.map Submission.receiptId, none⟩) (fun _ _ => ())

/-! ## `syncRepositoryTasks` -/

/-- An envelope whose form and signature were checked. -/
structure SyncEnvelope where
  nonce : Text
  sourceCommitSha : Text
  repository : Str
  tasks : List Manifest

def Manifest.identity (m : Manifest) (env : Env) : TaskIdentity :=
  taskVersionIdentity m.packet (env.computePacketMerkleRoot m.packet)

/-- The row of `repository_task_packets`. -/
def Manifest.row (m : Manifest) (env : Env) (repository : Str) : CatalogueRow where
  taskVersionId := (m.identity env).id
  packetId := (m.identity env).packetId
  packetMerkleRoot := env.computePacketMerkleRoot m.packet
  manifestJson := env.manifestText m
  immutableManifestSha256 := env.immutableManifestSha256 m
  assignmentMode := m.assignmentMode
  lane := m.lane
  status := m.status
  sourceRepository := repository
  sourcePath := m.sourcePath

/-- The columns of a row that a later manifest may not change. -/
def CatalogueRow.differs (r new : CatalogueRow) : Bool :=
  decide (r.taskVersionId ≠ new.taskVersionId) || decide (r.packetMerkleRoot ≠ new.packetMerkleRoot) ||
    decide (r.immutableManifestSha256 ≠ new.immutableManifestSha256) || decide (r.assignmentMode ≠ new.assignmentMode) ||
    decide (r.lane ≠ new.lane) || decide (r.sourceRepository ≠ new.sourceRepository) ||
    decide (r.sourcePath ≠ new.sourcePath)

def manifestError (before : String) (m : Manifest) (env : Env) (after : String) : PortalError :=
  .publicError (before.toList ++ characters (m.identity env).packetId ++ after.toList) 409

/-- The checks of one manifest against what is stored. -/
def prepareSyncItem (env : Env) (repository : Str) (m : Manifest) : Call SyncItem := do
  let row := m.row env repository
  let existingRows ← Program.read (fun s =>
    s.catalogue.filter (fun r => decide (r.packetId = row.packetId) || decide (r.sourcePath = row.sourcePath)))
  Program.throwIf (decide (1 < existingRows.length)) (manifestError "تتعارض هوية الحزمة " m env " مع مسار مثبت.")
  let existing := existingRows.head?
  Program.throwIf (existing.any (fun r => r.differs row))
    (manifestError "لا يجوز تغيير محتوى الحزمة أو بياناتها المثبتة " m env ".")
  Program.throwIf (decide (m.status = .withdrawn) && existing.isNone)
    (manifestError "لا يمكن سحب حزمة لم تُسجل سابقًا: " m env ".")
  Program.throwIf (existing.any (fun r => decide (r.status = .withdrawn)) && decide (m.status = .active))
    (manifestError "لا يمكن إعادة تنشيط الحزمة المسحوبة " m env ".")
  if m.status = .active then
    return ⟨row, some (← prepareConsensusTaskRegistration m.packet (env.computePacketMerkleRoot m.packet))⟩
  else return ⟨row, none⟩

def prepareSyncItems (env : Env) (repository : Str) : List Manifest → Call (List SyncItem)
  | [] => return []
  | m :: ms => do
    let item ← prepareSyncItem env repository m
    let items ← prepareSyncItems env repository ms
    return item :: items

def syncRepositoryTasks (env : Env) (envelope : SyncEnvelope) : Call Unit := do
  if ← Program.read (fun s => s.syncs.any (fun r => decide (r.nonce = envelope.nonce) ||
      decide (r.sourceCommitSha = envelope.sourceCommitSha))) then pure ()
  else
    match envelope.tasks.find? (fun m => decide (m.packetMerkleRoot ≠ env.computePacketMerkleRoot m.packet)) with
    | some m => throw (manifestError "جذر الحزمة " m env " لا يطابق محتواها.")
    | none =>
      let now ← Program.read Store.clock
      let items ← prepareSyncItems env envelope.repository envelope.tasks
      let write := Write.sync items ⟨envelope.nonce, envelope.sourceCommitSha⟩ now
      let committed ← Program.perform write (fun x s => write.committed x s)
      Program.throwIf (!committed) (.store .database)
      Program.each (envelope.tasks.filter (fun m => decide (m.status = .active))) (fun m => do
        let task ← assertConsensusTaskRegistration m.packet (env.computePacketMerkleRoot m.packet)
        Program.throwIf (decide (task.id ≠ (m.identity env).id)) (publicError "هوية المهمة المخزنة لا تطابق الحزمة." 409))

/-! ## The world -/

inductive Request
  | submission (account : Account) (contribution : Contribution)
  | reissue (taskVersionId : Text) (reason : ReissueReason) (actor : Actor)
  | appeal (account : Account) (finalReceiptId : Text)
  | review (appealId : Text) (accepts : Bool) (subjectHash : Option Text)
  | repositoryReceipt (row : RepositoryReceipt)
  | evidenceReceipt (row : EvidenceReceipt)
  | stateReceipt (row : StateReceipt)
  | evidenceClaim (nonce : Text) (maxItems : Nat)
  | assignment (taskVersionId : Text) (role : Role) (emailHash : Text) (user : Option Text)
  | claim (account : Account) (taskVersionId : Text)
  | load (account : Account) (taskVersionId : Text)
  | results (account : Account) (receiptId : Text)
  | sync (envelope : SyncEnvelope)
  /-- The three functions of the scheduled maintenance, which run side by side. -/
  | evidenceOutbox
  | expiredRounds
  | publishableTasks
  /-- Time goes by. -/
  | clock (time : Nat)

def handle (env : Env) : Request → Call Unit
  | .submission account contribution => receiveSubmission env account contribution
  | .reissue taskVersionId reason actor => reissueConsensusTask taskVersionId reason actor
  | .appeal account finalReceiptId => createConsensusAppeal account finalReceiptId
  | .review appealId accepts subjectHash => reviewConsensusAppeal appealId accepts subjectHash
  | .repositoryReceipt row => receiveRepositoryReceipt row
  | .evidenceReceipt row => acceptEvidenceRepositoryReceipt row
  | .stateReceipt row => acceptTaskStateRepositoryReceipt row
  | .evidenceClaim nonce maxItems => claimRepositoryEvidence nonce maxItems
  | .assignment taskVersionId role emailHash user => assignRepositoryTask taskVersionId role emailHash user
  | .claim account taskVersionId => claimRepositoryTask account taskVersionId
  | .load account taskVersionId => loadRepositoryTask account taskVersionId
  | .results account receiptId => getCompletedResults account receiptId
  | .sync envelope => syncRepositoryTasks env envelope
  | .evidenceOutbox => processEvidenceOutbox env
  | .expiredRounds => processExpiredConsensusRounds env
  | .publishableTasks => processPublishableTasks
  | .clock time => Program.perform (.tick time) (fun _ _ => ())

end Portal
end Adg
