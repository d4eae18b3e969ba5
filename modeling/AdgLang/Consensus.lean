import AdgLang.Table
import AdgLang.Text
/-!
# Consensus — task states, their transitions and the consensus tables

The state machine of `consensus.js` and the rows of `task_versions`, `consensus_rounds` and `consensus_events` that the
store functions read and write.  Identifiers are text, times are milliseconds.
-/
namespace Adg
namespace Consensus

inductive TaskState
  | draft | opened | independentReview | discussion | finalReview | approved | published | escalated | reissued
  | revoked | failed
deriving DecidableEq

def TaskState.text : TaskState → Text
  | .draft => "draft".toList
  | .opened => "open".toList
  | .independentReview => "independent-review".toList
  | .discussion => "discussion".toList
  | .finalReview => "final-review".toList
  | .approved => "approved".toList
  | .published => "published".toList
  | .escalated => "escalated".toList
  | .reissued => "reissued".toList
  | .revoked => "revoked".toList
  | .failed => "failed".toList

/-- `ALLOWED_TRANSITIONS`. -/
def allowedTransitions : TaskState → List TaskState
  | .draft => [.opened, .failed]
  | .opened => [.independentReview, .failed]
  | .independentReview => [.discussion, .escalated, .failed]
  | .discussion => [.finalReview, .escalated, .failed]
  | .finalReview => [.approved, .escalated, .failed]
  | .approved => [.published, .revoked, .escalated]
  | .published => [.revoked]
  | .escalated => [.reissued, .failed]
  | .reissued => [.independentReview, .failed]
  | .revoked => [.reissued, .failed]
  | .failed => []

/-- What a store function throws. -/
inductive StoreError
  /-- A plain `Error`. -/
  | error (message : Text)
  /-- A `ConsensusConflict`, answered with status 409. -/
  | consensusConflict (message : Text)
  /-- The database rejected a statement, or the caller was stopped. -/
  | database
deriving DecidableEq

def assertConsensusTransition (fromState toState : TaskState) : Except StoreError Unit :=
  if toState ∈ allowedTransitions fromState then .ok ()
  else .error (.error ("Consensus transition '".toList ++ fromState.text ++ "' -> '".toList ++ toState.text ++
    "' is not allowed.".toList))

/-- The values the `reissue_reason` column admits. -/
inductive ReissueReason
  | missingQuorumDeadline | acceptedRecusal | j2Disagreement | acceptedAppeal | materialEvidenceDefect
  | lowIndependentAgreement | novelPrimaryDecision
deriving DecidableEq

def ReissueReason.text : ReissueReason → Text
  | .missingQuorumDeadline => "missing-quorum-deadline".toList
  | .acceptedRecusal => "accepted-recusal".toList
  | .j2Disagreement => "j2-disagreement".toList
  | .acceptedAppeal => "accepted-appeal".toList
  | .materialEvidenceDefect => "material-evidence-defect".toList
  | .lowIndependentAgreement => "low-independent-agreement".toList
  | .novelPrimaryDecision => "novel-primary-decision".toList

/-- `consensusRoundId`. -/
def consensusRoundId (taskVersionId : Text) (roundNumber : Nat) : Text :=
  taskVersionId ++ ":r".toList ++ decimal roundNumber

def roundDeadlineMs : Nat := 14 * 24 * 60 * 60 * 1000

/-! ## Rows -/

/-- A row of `task_versions`. -/
structure TaskRow where
  id : Text
  state : TaskState
  stateVersion : Nat
  currentRound : Nat
  lastEventId : Text
  activeFinalReceiptId : Option Text
  appealDeadlineAt : Option Nat
  updatedAt : Nat
  approvedAt : Option Nat
  publishedAt : Option Nat
  revokedAt : Option Nat
deriving DecidableEq

/-- A row of `consensus_events`. -/
structure EventRow where
  id : Text
  taskVersionId : Text
  roundId : Option Text
  eventType : Text
  fromState : TaskState
  toState : TaskState
  actorUserId : Option Text
  actorSubjectHash : Option Text
  reasonCode : Text
  idempotencyKey : Text
  createdAt : Nat
deriving DecidableEq

inductive RoundStatus
  | opened | closed | superseded | failed
deriving DecidableEq

/-- A row of `consensus_rounds`. -/
structure RoundRow where
  id : Text
  taskVersionId : Text
  roundNumber : Nat
  status : RoundStatus
  reissueReason : Option ReissueReason
  openedAt : Nat
  deadlineAt : Nat
  closedAt : Option Nat
  priorRoundId : Option Text
deriving DecidableEq

/-- The consensus tables; events stand in the order they were committed, and `pendingAppeals` are the tasks that have
a pending row in `appeals`. -/
structure Db where
  tasks : List TaskRow
  rounds : List RoundRow
  events : List EventRow
  pendingAppeals : List Text
deriving DecidableEq

/-- `getConsensusTask`. -/
def Db.task (db : Db) (taskVersionId : Text) : Option TaskRow := Table.lookup TaskRow.id taskVersionId db.tasks

/-- The events of a task, in commit order. -/
def Db.eventsOf (db : Db) (taskVersionId : Text) : List EventRow :=
  db.events.filter (fun e => decide (e.taskVersionId = taskVersionId))

/-- The rounds of a task. -/
def Db.roundsOf (db : Db) (taskVersionId : Text) : List RoundRow :=
  db.rounds.filter (fun r => decide (r.taskVersionId = taskVersionId))

/-- `SELECT id FROM consensus_events WHERE idempotency_key = ?` finds a row. -/
def Db.hasKey (db : Db) (idempotencyKey : Text) : Bool :=
  db.events.any (fun e => decide (e.idempotencyKey = idempotencyKey))

/-- `getCurrentConsensusRound`. -/
def Db.currentRound (db : Db) (task : TaskRow) : Option RoundRow :=
  db.rounds.find? (fun r => decide (r.taskVersionId = task.id) && decide (r.roundNumber = task.currentRound))

/-- The keys of the tables are unique and every task's last event is in the log, as registration leaves them. -/
structure Db.Registered (db : Db) : Prop where
  tasks : Table.Keyed TaskRow.id db.tasks
  events : Table.Keyed EventRow.id db.events
  keys : Table.Keyed EventRow.idempotencyKey db.events
  logged : ∀ r ∈ db.tasks, ∃ e ∈ db.events, e.id = r.lastEventId

/-! ## Registration -/

/-- `INSERT OR IGNORE`: the row is added unless it conflicts with one that stands. -/
def insertOrIgnore {ρ : Type} (conflict : ρ → Bool) (row : ρ) (t : List ρ) : List ρ :=
  if t.any conflict then t else t ++ [row]

def initialEventId (taskVersionId : Text) : Text := "task-open:".toList ++ taskVersionId

/-- The three statements of `prepareConsensusTaskRegistration`. -/
def Db.register (db : Db) (taskVersionId : Text) (now : Nat) : Db :=
  let roundId := consensusRoundId taskVersionId 1
  let eventId := initialEventId taskVersionId
  { db with
    tasks := insertOrIgnore (fun r => decide (r.id = taskVersionId))
      { id := taskVersionId, state := .opened, stateVersion := 0, currentRound := 1, lastEventId := eventId,
        activeFinalReceiptId := none, appealDeadlineAt := none, updatedAt := now, approvedAt := none,
        publishedAt := none, revokedAt := none } db.tasks
    rounds := insertOrIgnore
      (fun r => decide (r.id = roundId) || (decide (r.taskVersionId = taskVersionId) && decide (r.roundNumber = 1)))
      { id := roundId, taskVersionId := taskVersionId, roundNumber := 1, status := .opened, reissueReason := none,
        openedAt := now, deadlineAt := now + roundDeadlineMs, closedAt := none, priorRoundId := none } db.rounds
    events := insertOrIgnore (fun e => decide (e.id = eventId) || decide (e.idempotencyKey = eventId))
      { id := eventId, taskVersionId := taskVersionId, roundId := some roundId, eventType := "task-opened".toList,
        fromState := .draft, toState := .opened, actorUserId := none, actorSubjectHash := none,
        reasonCode := "task-version-registered".toList, idempotencyKey := eventId, createdAt := now } db.events }

theorem Db.Registered.empty : Db.Registered ⟨[], [], [], []⟩ where
  tasks := List.nodup_nil
  events := List.nodup_nil
  keys := List.nodup_nil
  logged := fun _ h => by cases h

theorem keyed_insertOrIgnore {ρ κ : Type} {key : ρ → κ} {t : List ρ} {conflict : ρ → Bool} {row : ρ}
    (h : Table.Keyed key t) (hc : ∀ r ∈ t, key r = key row → conflict r = true) :
    Table.Keyed key (insertOrIgnore conflict row t) := by
  unfold insertOrIgnore
  split
  · exact h
  · rename_i hno
    refine h.append (fun r hr hk => ?_)
    exact hno (List.any_eq_true.2 ⟨r, hr, hc r hr hk⟩)

theorem mem_insertOrIgnore {ρ : Type} {t : List ρ} {conflict : ρ → Bool} {row r : ρ}
    (h : r ∈ insertOrIgnore conflict row t) : r ∈ t ∨ r = row := by
  unfold insertOrIgnore at h
  split at h
  · exact .inl h
  · simpa using h

theorem subset_insertOrIgnore {ρ : Type} {t : List ρ} {conflict : ρ → Bool} {row r : ρ} (h : r ∈ t) :
    r ∈ insertOrIgnore conflict row t := by
  unfold insertOrIgnore
  split
  · exact h
  · exact List.mem_append_left _ h

/-- **Registering a task whose opening event is not in the log leaves the store registered.** -/
theorem Db.Registered.register {db : Db} {id : Text} {now : Nat} (h : db.Registered)
    (hfresh : ∀ e ∈ db.events, e.id ≠ initialEventId id ∧ e.idempotencyKey ≠ initialEventId id) :
    (db.register id now).Registered where
  tasks := keyed_insertOrIgnore h.tasks (fun r _ hk => by simpa using hk)
  events := keyed_insertOrIgnore h.events (fun e _ hk => by
    simp only [Bool.or_eq_true, decide_eq_true_eq]; exact .inl hk)
  keys := keyed_insertOrIgnore h.keys (fun e _ hk => by
    simp only [Bool.or_eq_true, decide_eq_true_eq]; exact .inr hk)
  logged := by
    intro r hr
    rcases mem_insertOrIgnore hr with hr | rfl
    · obtain ⟨e, he, hel⟩ := h.logged r hr
      exact ⟨e, subset_insertOrIgnore he, hel⟩
    · simp only [Db.register, insertOrIgnore]
      rw [if_neg]
      · exact ⟨_, List.mem_append_right _ (List.mem_singleton.2 rfl), rfl⟩
      · rw [List.any_eq_true]
        rintro ⟨e, he, hc⟩
        simp only [Bool.or_eq_true, decide_eq_true_eq] at hc
        exact hc.elim (hfresh e he).1 (hfresh e he).2

/-! ## `transitionConsensusTask` -/

/-- The second argument of `transitionConsensusTask`. -/
structure Transition where
  toState : TaskState
  roundId : Option Text := none
  eventType : Text
  reasonCode : Text
  idempotencyKey : Text
  actorUserId : Option Text := none
  actorSubjectHash : Option Text := none
  eventId : Option Text := none
  createdAt : Option Nat := none
  appealDeadlineAt : Option Nat := none
  clearActiveFinal : Bool := false
  activeFinalReceiptId : Option Text := none
  requirePublicationReady : Bool := false
  publicationGuardAt : Option Nat := none
deriving DecidableEq

/-- The columns the guarded `UPDATE task_versions` writes. -/
def Transition.applyTo (tr : Transition) (eventId : Text) (now : Nat) (row : TaskRow) : TaskRow :=
  { row with
    state := tr.toState
    stateVersion := row.stateVersion + 1
    lastEventId := eventId
    updatedAt := now
    appealDeadlineAt := tr.appealDeadlineAt.or row.appealDeadlineAt
    activeFinalReceiptId := if tr.clearActiveFinal then none else tr.activeFinalReceiptId.or row.activeFinalReceiptId
    approvedAt := if tr.toState = .approved then some now else row.approvedAt
    publishedAt := if tr.toState = .published then some now else row.publishedAt
    revokedAt := if tr.toState = .revoked then some now else row.revokedAt }

/-- The publication part of the update's guard. -/
def publicationReady (db : Db) (guardAt : Nat) (row : TaskRow) : Bool :=
  row.appealDeadlineAt.any (fun d => decide (d ≤ guardAt)) && !db.pendingAppeals.contains row.id

/-- The `WHERE` of the guarded `UPDATE task_versions`. -/
def Transition.guard (tr : Transition) (db : Db) (task : TaskRow) (now : Nat) (row : TaskRow) : Bool :=
  decide (row.id = task.id) && decide (row.state = task.state) && decide (row.stateVersion = task.stateVersion) &&
    (!tr.requirePublicationReady || publicationReady db (tr.publicationGuardAt.getD now) row)

/-- The event the batch inserts. -/
def Transition.event (tr : Transition) (task : TaskRow) (eventId : Text) (now : Nat) : EventRow where
  id := eventId
  taskVersionId := task.id
  roundId := tr.roundId
  eventType := tr.eventType
  fromState := task.state
  toState := tr.toState
  actorUserId := tr.actorUserId
  actorSubjectHash := tr.actorSubjectHash
  reasonCode := tr.reasonCode
  idempotencyKey := tr.idempotencyKey
  createdAt := now

/-- The `WHERE EXISTS` of the insertion: the row the update is to leave. -/
def Transition.written (tr : Transition) (task : TaskRow) (eventId : Text) (row : TaskRow) : Bool :=
  decide (row.id = task.id) && decide (row.lastEventId = eventId) && decide (row.state = tr.toState) &&
    decide (row.stateVersion = task.stateVersion + 1)

/-- The keys of `consensus_events` that an insertion has to respect. -/
def Db.admitsEvent (db : Db) (e : EventRow) : Bool :=
  !db.events.any (fun x => decide (x.id = e.id)) && !db.hasKey e.idempotencyKey &&
    e.roundId.all (fun id => db.rounds.any (fun r => decide (r.id = id)))

/-- The batch of `transitionConsensusTask`: the guarded update, then the insertion where the row just written exists.
`none` where a key is violated and the whole batch is rolled back; otherwise the tables, the events inserted and the
change counts of the two statements. -/
def transitionBatch (now : Nat) (uuid : Text) (db : Db) (task : TaskRow) (tr : Transition) :
    Option (Db × List EventRow × (Nat × Nat)) :=
  let now := tr.createdAt.getD now
  let eventId := tr.eventId.getD uuid
  let event := tr.event task eventId now
  let guard := tr.guard db task now
  let tasks := Table.update guard (tr.applyTo eventId now) db.tasks
  if tasks.any (tr.written task eventId) then
    if db.admitsEvent event then
      some ({ db with tasks := tasks, events := db.events ++ [event] }, [event], (Table.changes guard db.tasks, 1))
    else none
  else some ({ db with tasks := tasks }, [], (Table.changes guard db.tasks, 0))

/-- Where a call of `transitionConsensusTask` stands; it waits on the database before each stage. -/
inductive Stage
  | reading
  | batching
  | checking (changes : Nat × Nat)
  | rereading
  | returned (row : Option TaskRow)
  | threw (error : StoreError)
deriving DecidableEq

/-- A call of `transitionConsensusTask` in flight, with the copy of the row it was given and the events its batch
committed. -/
structure TransitionCall where
  task : TaskRow
  transition : Transition
  stage : Stage
  committed : List EventRow
deriving DecidableEq

def transitionConsensusTask (task : TaskRow) (tr : Transition) : TransitionCall := ⟨task, tr, .reading, []⟩

/-- The next database access of a call, at time `now`, with `uuid` the identifier `crypto.randomUUID` gives. -/
def TransitionCall.step (now : Nat) (uuid : Text) (db : Db) (c : TransitionCall) : Option (Db × TransitionCall) :=
  match c.stage with
  | .reading =>
    match assertConsensusTransition c.task.state c.transition.toState with
    | .error e => some (db, { c with stage := .threw e })
    | .ok () =>
      if db.hasKey c.transition.idempotencyKey then some (db, { c with stage := .rereading })
      else some (db, { c with stage := .batching })
  | .batching =>
    match transitionBatch now uuid db c.task c.transition with
    | none => some (db, { c with stage := .threw .database })
    | some (db', events, changes) => some (db', { c with stage := .checking changes, committed := events })
  | .checking changes =>
    if changes = (1, 1) || db.hasKey c.transition.idempotencyKey then some (db, { c with stage := .rereading })
    else some (db, { c with
      stage := .threw (.consensusConflict "Consensus state changed concurrently; reload the task.".toList) })
  | .rereading => some (db, { c with stage := .returned (db.task c.task.id) })
  | .returned _ => none
  | .threw _ => none

/-- The call was stopped: its caller died, or a database access failed. -/
def TransitionCall.abandon (c : TransitionCall) : Option TransitionCall :=
  match c.stage with
  | .returned _ => none
  | .threw _ => none
  | _ => some { c with stage := .threw .database }

end Consensus
end Adg
