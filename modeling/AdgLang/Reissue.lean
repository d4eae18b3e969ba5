import AdgLang.Consensus
import AdgLang.Machine
/-!
# Reissue — fresh rounds, and the world of concurrent store calls

`createReissuedRound` and the runs of the consensus store: any number of `transitionConsensusTask` and
`createReissuedRound` calls, each stopping at its database accesses, and the closing of a round after ratification.
-/
namespace Adg
namespace Consensus

structure Actor where
  userId : Option Text
  subjectHash : Option Text
deriving DecidableEq

/-- Where a call of `createReissuedRound` stands: reading the current round, waiting for the `i`-th transition call,
about to run its batch, about to read the task again. -/
inductive ReissueStage
  | loading
  | reissuing (currentRound : RoundRow) (i : Nat)
  | opening (currentRound : RoundRow) (reissued : TaskRow)
  | refreshing (currentRound : RoundRow) (reissued : TaskRow)
  | reviewing (i : Nat)
  | returned (row : Option TaskRow)
  | threw (error : StoreError)
deriving DecidableEq

/-- A call of `createReissuedRound` in flight. -/
structure ReissueCall where
  task : TaskRow
  reason : ReissueReason
  actor : Option Actor
  stage : ReissueStage
deriving DecidableEq

/-- `createReissuedRound`, with its first check. -/
def createReissuedRound (task : TaskRow) (reason : ReissueReason) (actor : Option Actor) : ReissueCall where
  task := task
  reason := reason
  actor := actor
  stage :=
    if task.state ∈ [.escalated, .revoked] then .loading
    else .threw (.consensusConflict "Only escalated or revoked tasks can be reissued.".toList)

/-- The transition that marks the task reissued. -/
def ReissueCall.reissue (c : ReissueCall) (currentRound : RoundRow) : Transition where
  toState := .reissued
  roundId := some currentRound.id
  eventType := "task-reissued".toList
  reasonCode := c.reason.text
  actorUserId := c.actor.bind Actor.userId
  actorSubjectHash := c.actor.bind Actor.subjectHash
  idempotencyKey := "reissue:".toList ++ c.task.id ++ ":".toList ++ currentRound.id ++ ":".toList ++ c.reason.text

def nextRoundNumber (reissued : TaskRow) : Nat := reissued.currentRound + 1

def nextRoundId (reissued : TaskRow) : Text := consensusRoundId reissued.id (nextRoundNumber reissued)

/-- The transition that opens the fresh round for review. -/
def ReissueCall.openReview (c : ReissueCall) (reissued : TaskRow) : Transition where
  toState := .independentReview
  roundId := some (nextRoundId reissued)
  eventType := "independent-review-opened".toList
  reasonCode := "fresh-round-created".toList
  actorUserId := c.actor.bind Actor.userId
  actorSubjectHash := c.actor.bind Actor.subjectHash
  idempotencyKey := "round-open:".toList ++ nextRoundId reissued

/-- The round a reissue inserts. -/
def ReissueCall.nextRound (c : ReissueCall) (now : Nat) (currentRound : RoundRow) (reissued : TaskRow) : RoundRow where
  id := nextRoundId reissued
  taskVersionId := reissued.id
  roundNumber := nextRoundNumber reissued
  status := .opened
  reissueReason := some c.reason
  openedAt := now
  deadlineAt := now + roundDeadlineMs
  closedAt := none
  priorRoundId := some currentRound.id

/-- `UPDATE consensus_rounds SET status = .. WHERE id = ? AND status = 'open'`. -/
def leaveRound (id : Text) (f : RoundRow → RoundRow) (rounds : List RoundRow) : List RoundRow :=
  Table.update (fun r => decide (r.id = id) && decide (r.status = .opened)) f rounds

def supersede (reason : ReissueReason) (now : Nat) (r : RoundRow) : RoundRow :=
  { r with status := .superseded, reissueReason := some reason, closedAt := some now }

def close (now : Nat) (r : RoundRow) : RoundRow := { r with status := .closed, closedAt := some now }

/-- The keys and references of `consensus_rounds` that an insertion has to respect. -/
def Db.admitsRound (db : Db) (round : RoundRow) : Bool :=
  !db.rounds.any (fun r => decide (r.id = round.id) ||
      (decide (r.taskVersionId = round.taskVersionId) && decide (r.roundNumber = round.roundNumber))) &&
    db.tasks.any (fun t => decide (t.id = round.taskVersionId)) &&
    round.priorRoundId.all (fun id => db.rounds.any (fun r => decide (r.id = id)))

/-- The `WHERE` of the batch's `UPDATE task_versions`. -/
def advanceGuard (reissued row : TaskRow) : Bool :=
  decide (row.id = reissued.id) && decide (row.state = .reissued) && decide (row.currentRound = reissued.currentRound)

/-- The tables after the batch of `createReissuedRound`. -/
def ReissueCall.opened (c : ReissueCall) (now : Nat) (db : Db) (currentRound : RoundRow) (reissued : TaskRow) : Db :=
  { db with
    rounds := leaveRound currentRound.id (supersede c.reason now) db.rounds ++ [c.nextRound now currentRound reissued]
    tasks := Table.update (advanceGuard reissued)
      (fun row => { row with currentRound := nextRoundNumber reissued, updatedAt := now }) db.tasks }

/-- The batch: `none` where the insertion violates a key and all is rolled back, otherwise the tables and the change
counts of the insertion and of the update of the task. -/
def ReissueCall.batch (c : ReissueCall) (now : Nat) (db : Db) (currentRound : RoundRow) (reissued : TaskRow) :
    Option (Db × (Nat × Nat)) :=
  if db.admitsRound (c.nextRound now currentRound reissued) then
    some (c.opened now db currentRound reissued, (1, Table.changes (advanceGuard reissued) db.tasks))
  else none

/-- The next step of a call of `createReissuedRound`; a transition it starts joins the calls in flight. -/
def ReissueCall.step (now : Nat) (db : Db) (calls : List TransitionCall) (c : ReissueCall) :
    Option (Db × List TransitionCall × ReissueCall) :=
  match c.stage with
  | .loading =>
    match db.currentRound c.task with
    | none => some (db, calls, { c with
        stage := .threw (.consensusConflict "Current consensus round was not found.".toList) })
    | some currentRound => some (db, calls ++ [transitionConsensusTask c.task (c.reissue currentRound)],
        { c with stage := .reissuing currentRound calls.length })
  | .reissuing currentRound i =>
    match (calls[i]?).map TransitionCall.stage with
    | some (.returned (some reissued)) => some (db, calls, { c with stage := .opening currentRound reissued })
    | some (.returned none) => some (db, calls, { c with
        stage := .threw (.error "Cannot read properties of null (reading 'current_round')".toList) })
    | some (.threw e) => some (db, calls, { c with stage := .threw e })
    | _ => none
  | .opening currentRound reissued =>
    match c.batch now db currentRound reissued with
    | none => some (db, calls, { c with stage := .threw .database })
    | some (db', changes) =>
      if changes = (1, 1) then some (db', calls, { c with stage := .refreshing currentRound reissued })
      else some (db', calls, { c with
        stage := .threw (.consensusConflict "Failed to create a fresh consensus round.".toList) })
  | .refreshing _ reissued =>
    match db.task reissued.id with
    | none => some (db, calls, { c with
        stage := .threw (.error "Cannot read properties of null (reading 'state')".toList) })
    | some refreshed => some (db, calls ++ [transitionConsensusTask refreshed (c.openReview reissued)],
        { c with stage := .reviewing calls.length })
  | .reviewing i =>
    match (calls[i]?).map TransitionCall.stage with
    | some (.returned row) => some (db, calls, { c with stage := .returned row })
    | some (.threw e) => some (db, calls, { c with stage := .threw e })
    | _ => none
  | .returned _ => none
  | .threw _ => none

/-- **One step of a reissue**: only its batch writes, and only where the next round is admitted; a step starts one
transition at most. -/
theorem ReissueCall.step_spec {now : Nat} {db db' : Db} {calls calls' : List TransitionCall} {c c' : ReissueCall}
    (h : c.step now db calls = some (db', calls', c')) :
    (db' = db ∨ ∃ currentRound reissued, c.stage = .opening currentRound reissued ∧
        db.admitsRound (c.nextRound now currentRound reissued) = true ∧
        db' = c.opened now db currentRound reissued) ∧
      (calls' = calls ∨ ∃ task tr, calls' = calls ++ [transitionConsensusTask task tr]) := by
  unfold ReissueCall.step at h
  split at h
  · split at h <;> simp only [Option.some.injEq, Prod.mk.injEq] at h <;> obtain ⟨rfl, rfl, -⟩ := h
    · exact ⟨.inl rfl, .inl rfl⟩
    · exact ⟨.inl rfl, .inr ⟨_, _, rfl⟩⟩
  · split at h <;> simp only [Option.some.injEq, Prod.mk.injEq, reduceCtorEq] at h <;> obtain ⟨rfl, rfl, -⟩ := h <;>
      exact ⟨.inl rfl, .inl rfl⟩
  · rename_i currentRound reissued hstage
    split at h
    · simp only [Option.some.injEq, Prod.mk.injEq] at h
      obtain ⟨rfl, rfl, -⟩ := h
      exact ⟨.inl rfl, .inl rfl⟩
    · rename_i db₁ changes hb
      unfold ReissueCall.batch at hb
      split at hb
      · rename_i hadm
        simp only [Option.some.injEq, Prod.mk.injEq] at hb
        obtain ⟨rfl, -⟩ := hb
        split at h <;> simp only [Option.some.injEq, Prod.mk.injEq] at h <;> obtain ⟨rfl, rfl, -⟩ := h <;>
          exact ⟨.inr ⟨currentRound, reissued, hstage, hadm, rfl⟩, .inl rfl⟩
      · cases hb
  · split at h <;> simp only [Option.some.injEq, Prod.mk.injEq] at h <;> obtain ⟨rfl, rfl, -⟩ := h
    · exact ⟨.inl rfl, .inl rfl⟩
    · exact ⟨.inl rfl, .inr ⟨_, _, rfl⟩⟩
  · split at h <;> simp only [Option.some.injEq, Prod.mk.injEq, reduceCtorEq] at h <;> obtain ⟨rfl, rfl, -⟩ := h <;>
      exact ⟨.inl rfl, .inl rfl⟩
  · cases h
  · cases h

/-! ## The world of concurrent calls -/

/-- The store and the calls made so far. -/
structure World where
  db : Db
  calls : List TransitionCall
  reissues : List ReissueCall
deriving DecidableEq

inductive Action
  /-- A caller starts a transition with some copy of a task row. -/
  | call (task : TaskRow) (transition : Transition)
  /-- The `i`-th transition makes its next database access, at time `now`. -/
  | advance (i : Nat) (now : Nat) (uuid : Text)
  | abandon (i : Nat)
  /-- A caller starts a reissue with some copy of a task row. -/
  | reissue (task : TaskRow) (reason : ReissueReason) (actor : Option Actor)
  | advanceReissue (i : Nat) (now : Nat)
  /-- The round of a ratified result is closed. -/
  | closeRound (id : Text) (now : Nat)

def World.step (w : World) : Action → Option World
  | .call task tr => some { w with calls := w.calls ++ [transitionConsensusTask task tr] }
  | .advance i now uuid =>
    match w.calls[i]? with
    | none => none
    | some c => (c.step now uuid w.db).map (fun x => { w with db := x.1, calls := w.calls.set i x.2 })
  | .abandon i =>
    match w.calls[i]? with
    | none => none
    | some c => c.abandon.map (fun c' => { w with calls := w.calls.set i c' })
  | .reissue task reason actor => some { w with reissues := w.reissues ++ [createReissuedRound task reason actor] }
  | .advanceReissue i now =>
    match w.reissues[i]? with
    | none => none
    | some c => (c.step now w.db w.calls).map
        (fun x => { w with db := x.1, calls := x.2.1, reissues := w.reissues.set i x.2.2 })
  | .closeRound id now => some { w with db := { w.db with rounds := leaveRound id (close now) w.db.rounds } }

/-- The consensus store under concurrent calls. -/
def store : Machine World Action := ⟨World.step⟩

/-- The world in which one task was just registered. -/
def registered (taskVersionId : Text) (now : Nat) : World where
  db := (Db.mk [] [] [] []).register taskVersionId now
  calls := []
  reissues := []

end Consensus
end Adg
