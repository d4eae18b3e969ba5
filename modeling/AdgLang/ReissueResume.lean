import AdgLang.ReissueRun
import Mathlib.Algebra.GroupWithZero.Nat
/-!
# ReissueResume — a reissue that stops halfway

A call of `createReissuedRound` that runs alone makes three transactions: the transition to `reissued`, the batch of the
fresh round and the transition to `independent-review`.  `ReissueAt` lists the tables and the stages such a call passes
(`ReissueAt.run`).  A call that may start completes (`completes`), but once its first transaction is committed the task
is `reissued`, and the entry check turns every further call away: a stopped call can be repeated exactly while the row
is not in that state (`resumable_iff`).
-/
namespace Adg
namespace Consensus

/-- One call against the tables `db`, with no other call in flight. -/
def ReissueCall.alone (c : ReissueCall) (db : Db) : World := ⟨db, [], [c]⟩

/-- The steps of the call and of the transitions it starts; an identifier drawn is new. -/
def Alone (w : World) : Action → Prop
  | .advance _ _ uuid => ∀ e ∈ w.db.events, e.id ≠ uuid
  | .advanceReissue _ _ => True
  | _ => False

/-- The rounds of a task that are open and were not there before. -/
def newOpenRounds (db db' : Db) (taskVersionId : Text) : List RoundRow :=
  (db'.roundsOf taskVersionId).filter (fun r => r.isOpen && !db.rounds.any (fun x => decide (x.id = r.id)))

/-- The task is under review again, in the one new open round. -/
def Completed (db db' : Db) (taskVersionId : Text) : Prop :=
  ∃ row round, db'.task taskVersionId = some row ∧ row.state = .independentReview ∧
    newOpenRounds db db' taskVersionId = [round] ∧ round.roundNumber = row.currentRound

def World.hasReturned (w : World) : Prop := ∃ c row, w.reissues = [c] ∧ c.stage = .returned (some row)

/-- Wherever the call of `w` stands, it can go on until it returns, and then the reissue is complete. -/
def Completes (db : Db) (taskVersionId : Text) (w : World) : Prop :=
  ∀ w', store.Steps Alone w w' → ∃ w'', store.Steps Alone w' w'' ∧ w''.hasReturned ∧ Completed db w''.db taskVersionId

/-- The call on `task` stopped in `w`: the reissue is complete already, or calling again with the refreshed row
completes it. -/
def Resumable (db : Db) (task : TaskRow) (reason : ReissueReason) (actor : Option Actor) (w : World) : Prop :=
  Completed db w.db task.id ∨ ∃ row, w.db.task task.id = some row ∧
    Completes db task.id ((createReissuedRound row reason actor).alone w.db)

/-- What the three transactions need of the tables: the current round, two unused idempotency keys and a number for the
next round. -/
def ReissueCall.startable (c : ReissueCall) (db : Db) : Bool :=
  (db.currentRound c.task).any (fun r => !db.hasKey (c.reissue r).idempotencyKey &&
    db.admitsRound (c.nextRound 0 r c.task) && !db.hasKey (c.openReview c.task).idempotencyKey)

/-! ## A transition alone -/

/-- A transition that no other call can disturb. -/
structure Sole (db : Db) (task : TaskRow) (tr : Transition) : Prop where
  keyed : Table.Keyed TaskRow.id db.tasks
  found : db.task task.id = some task
  allowed : tr.toState ∈ allowedTransitions task.state
  drawn : tr.eventId = none
  unguarded : tr.requirePublicationReady = false
  round : tr.roundId.all (fun id => db.rounds.any (fun r => decide (r.id = id))) = true

/-- The tables a transition leaves and the row it returns. -/
inductive TransitionEnd (db : Db) (task : TaskRow) (tr : Transition) : Db → TaskRow → Prop
  | repeated (hkey : db.hasKey tr.idempotencyKey = true) : TransitionEnd db task tr db task
  | moved (hkey : db.hasKey tr.idempotencyKey = false) (eventId : Text) (now : Nat) :
      TransitionEnd db task tr (db.moved tr task eventId now) (tr.applyTo eventId now task)

/-- The tables a transition passes and its stage there. -/
inductive TransitionAt (db : Db) (task : TaskRow) (tr : Transition) : Db → Stage → Prop
  | reading : TransitionAt db task tr db .reading
  | batching (hkey : db.hasKey tr.idempotencyKey = false) : TransitionAt db task tr db .batching
  | checking (hkey : db.hasKey tr.idempotencyKey = false) (eventId : Text) (now : Nat) :
      TransitionAt db task tr (db.moved tr task eventId now) (.checking (1, 1))
  | rereading {db' : Db} {row : TaskRow} (h : TransitionEnd db task tr db' row) : TransitionAt db task tr db' .rereading
  | returned {db' : Db} {row : TaskRow} (h : TransitionEnd db task tr db' row) :
      TransitionAt db task tr db' (.returned (some row))

section Transition

variable {db db₁ : Db} {task row : TaskRow} {tr : Transition}

theorem Sole.guard (h : Sole db task tr) (now : Nat) : tr.guard db task now task = true := by
  simp [Transition.guard, h.unguarded]

theorem Sole.mem (h : Sole db task tr) : task ∈ db.tasks := (Table.lookup_some h.found).1

theorem task_moved (h : Sole db task tr) (eventId : Text) (now : Nat) :
    (db.moved tr task eventId now).task task.id = some (tr.applyTo eventId now task) := by
  have hl : (db.moved tr task eventId now).task task.id =
      (db.task task.id).map (fun r => if tr.guard db task now r then tr.applyTo eventId now r else r) :=
    Table.lookup_update (fun _ => rfl)
  rw [hl, h.found, Option.map_some, h.guard now, if_pos rfl]

theorem TransitionEnd.found (h : Sole db task tr) (he : TransitionEnd db task tr db₁ row) :
    db₁.task task.id = some row := by
  cases he with
  | repeated _ => exact h.found
  | moved _ eventId now => exact task_moved h eventId now

/-- **A transition alone with an unused key and a new identifier moves its row.** -/
theorem Sole.batch (h : Sole db task tr) (hkey : db.hasKey tr.idempotencyKey = false) {uuid : Text}
    (huuid : ∀ e ∈ db.events, e.id ≠ uuid) (now : Nat) : transitionBatch now uuid db task tr =
      some (db.moved tr task uuid (tr.createdAt.getD now), [tr.event task uuid (tr.createdAt.getD now)], (1, 1)) := by
  have hwritten : (Table.update (tr.guard db task (tr.createdAt.getD now)) (tr.applyTo uuid (tr.createdAt.getD now))
      db.tasks).any (tr.written task uuid) = true := by
    refine List.any_eq_true.2 ⟨tr.applyTo uuid (tr.createdAt.getD now) task, ?_, ?_⟩
    · exact Table.mem_update.2 ⟨task, h.mem, by rw [h.guard]; rfl⟩
    · simp [Transition.written, Transition.applyTo]
  have hadmits : db.admitsEvent (tr.event task uuid (tr.createdAt.getD now)) = true := by
    simp only [Db.admitsEvent, Bool.and_eq_true, Bool.not_eq_true', List.any_eq_false, decide_eq_true_eq]
    exact ⟨⟨huuid, hkey⟩, h.round⟩
  have hone : Table.changes (tr.guard db task (tr.createdAt.getD now)) db.tasks = 1 := by
    have hfound : Table.lookup TaskRow.id task.id db.tasks = some task := h.found
    rw [h.keyed.changes_eq (fun r hr => (Transition.guard_iff hr).1), hfound]
    simp [h.guard]
  simp only [transitionBatch, h.drawn, Option.getD_none, hwritten, hadmits, if_true, hone]
  rfl

/-- A step of a transition that runs alone. -/
theorem TransitionAt.step (h : Sole db task tr) {c c' : TransitionCall} {db₂ : Db} {now : Nat} {uuid : Text}
    (hat : TransitionAt db task tr db₁ c.stage) (htask : c.task = task) (htr : c.transition = tr)
    (huuid : ∀ e ∈ db₁.events, e.id ≠ uuid) (hs : c.step now uuid db₁ = some (db₂, c')) :
    TransitionAt db task tr db₂ c'.stage ∧ c'.task = task ∧ c'.transition = tr := by
  obtain ⟨_, _, stage, committed⟩ := c
  subst htask htr
  simp only [TransitionCall.step] at hs
  cases hat with
  | reading =>
    simp only [assertConsensusTransition, h.allowed, if_true] at hs
    split at hs <;> rename_i hkey <;> cases hs
    · exact ⟨.rereading (.repeated hkey), rfl, rfl⟩
    · exact ⟨.batching (Bool.eq_false_iff.2 hkey), rfl, rfl⟩
  | batching hkey =>
    simp only [h.batch hkey huuid] at hs
    cases hs
    exact ⟨.checking hkey _ _, rfl, rfl⟩
  | checking hkey eventId now =>
    simp only [decide_true, Bool.true_or, if_true] at hs
    cases hs
    exact ⟨.rereading (.moved hkey eventId now), rfl, rfl⟩
  | rereading he =>
    simp only [he.found h] at hs
    cases hs
    exact ⟨.returned he, rfl, rfl⟩
  | returned he => cases hs

/-- The steps a transition still has before it. -/
def Stage.rank : Stage → Nat
  | .reading => 4
  | .batching => 3
  | .checking _ => 2
  | .rereading => 1
  | .returned _ => 0
  | .threw _ => 0

theorem TransitionCall.step_rank {c c' : TransitionCall} {now : Nat} {uuid : Text} {db db' : Db}
    (h : c.step now uuid db = some (db', c')) : c'.stage.rank < c.stage.rank := by
  unfold TransitionCall.step at h
  split at h <;> rename_i hstage <;> rw [hstage]
  · split at h
    · cases h; simp [Stage.rank]
    · split at h <;> cases h <;> simp [Stage.rank]
  · split at h <;> cases h <;> simp [Stage.rank]
  · split at h <;> cases h <;> simp [Stage.rank]
  · cases h; simp [Stage.rank]
  · cases h
  · cases h

/-- A transition alone goes on until it returns. -/
theorem TransitionAt.enabled {c : TransitionCall} (hat : TransitionAt db task tr db₁ c.stage) (now : Nat) (uuid : Text) :
    (∃ row, c.stage = .returned (some row) ∧ TransitionEnd db task tr db₁ row) ∨
      ∃ db₂ c', c.step now uuid db₁ = some (db₂, c') := by
  generalize hstage : c.stage = stage at hat
  cases hat with
  | returned he => exact .inl ⟨_, rfl, he⟩
  | reading =>
    right
    simp only [TransitionCall.step, hstage]
    split
    · exact ⟨_, _, rfl⟩
    · split <;> exact ⟨_, _, rfl⟩
  | batching _ =>
    right
    simp only [TransitionCall.step, hstage]
    split <;> exact ⟨_, _, rfl⟩
  | checking _ _ _ =>
    right
    simp only [TransitionCall.step, hstage]
    split <;> exact ⟨_, _, rfl⟩
  | rereading _ =>
    right
    simp only [TransitionCall.step, hstage]
    exact ⟨_, _, rfl⟩

end Transition

/-! ## A reissue alone -/

/-- The row a call was given is the row of an escalated or revoked task. -/
structure Refreshed (db : Db) (c : ReissueCall) : Prop where
  keyed : Table.Keyed TaskRow.id db.tasks
  found : db.task c.task.id = some c.task
  state : c.task.state ∈ [.escalated, .revoked]

/-- The first two transactions are committed: the row the first one returned, and the tables after the second. -/
structure RoundOpened (db : Db) (c : ReissueCall) (r : RoundRow) (row : TaskRow) (db₂ : Db) : Prop where
  current : db.currentRound c.task = some r
  unused : db.hasKey (c.reissue r).idempotencyKey = false
  admits : db.admitsRound (c.nextRound 0 r c.task) = true
  opens : ∃ eventId now₁ now₂, row = (c.reissue r).applyTo eventId now₁ c.task ∧
    db₂ = c.opened now₂ (db.moved (c.reissue r) c.task eventId now₁) r row

/-- The tables a reissue passes, with the transitions it started and its stage. -/
inductive ReissueAt (db : Db) (c : ReissueCall) : Db → List TransitionCall → ReissueStage → Prop
  | loading : ReissueAt db c db [] .loading
  | unfound (h : db.currentRound c.task = none) (e : StoreError) : ReissueAt db c db [] (.threw e)
  | reissuing {r : RoundRow} {db₁ : Db} {call : TransitionCall} (h : db.currentRound c.task = some r)
      (htask : call.task = c.task) (htr : call.transition = c.reissue r)
      (hat : TransitionAt db c.task (c.reissue r) db₁ call.stage) : ReissueAt db c db₁ [call] (.reissuing r 0)
  | opening {r : RoundRow} {db₁ : Db} {row : TaskRow} {call : TransitionCall} (h : db.currentRound c.task = some r)
      (hcall : call.stage = .returned (some row)) (hend : TransitionEnd db c.task (c.reissue r) db₁ row) :
      ReissueAt db c db₁ [call] (.opening r row)
  | refused {r : RoundRow} {db₁ : Db} {row : TaskRow} {call : TransitionCall} (h : db.currentRound c.task = some r)
      (hcall : call.stage = .returned (some row)) (hend : TransitionEnd db c.task (c.reissue r) db₁ row)
      (hadm : db.admitsRound (c.nextRound 0 r c.task) = false) (e : StoreError) : ReissueAt db c db₁ [call] (.threw e)
  | unmarked {r : RoundRow} {row : TaskRow} {call : TransitionCall} (h : db.currentRound c.task = some r)
      (hcall : call.stage = .returned (some row)) (hkey : db.hasKey (c.reissue r).idempotencyKey = true) (now : Nat)
      (e : StoreError) : ReissueAt db c (c.opened now db r c.task) [call] (.threw e)
  | refreshing {r : RoundRow} {row : TaskRow} {db₂ : Db} {call : TransitionCall}
      (hcall : call.stage = .returned (some row)) (ho : RoundOpened db c r row db₂) :
      ReissueAt db c db₂ [call] (.refreshing r row)
  | reviewing {r : RoundRow} {row row₂ : TaskRow} {db₂ db₃ : Db} {call call' : TransitionCall}
      (hcall : call.stage = .returned (some row)) (ho : RoundOpened db c r row db₂)
      (hrow : db₂.task c.task.id = some row₂) (htask : call'.task = row₂) (htr : call'.transition = c.openReview row)
      (hat : TransitionAt db₂ row₂ (c.openReview row) db₃ call'.stage) : ReissueAt db c db₃ [call, call'] (.reviewing 1)
  | returned {r : RoundRow} {row row₂ row₃ : TaskRow} {db₂ db₃ : Db} {call call' : TransitionCall}
      (hcall : call.stage = .returned (some row)) (hcall' : call'.stage = .returned (some row₃))
      (ho : RoundOpened db c r row db₂) (hrow : db₂.task c.task.id = some row₂)
      (hend : TransitionEnd db₂ row₂ (c.openReview row) db₃ row₃) :
      ReissueAt db c db₃ [call, call'] (.returned (some row₃))

/-- The call and its tables, in a world of their own. -/
def CallAt (db : Db) (c : ReissueCall) (w : World) : Prop :=
  ∃ stage, w.reissues = [{ c with stage := stage }] ∧ ReissueAt db c w.db w.calls stage

section Reissue

variable {db db₁ db₂ : Db} {c : ReissueCall} {r : RoundRow} {row : TaskRow} {reason : ReissueReason}
  {actor : Option Actor}

theorem Refreshed.sole (h : Refreshed db c) (hcur : db.currentRound c.task = some r) :
    Sole db c.task (c.reissue r) where
  keyed := h.keyed
  found := h.found
  allowed := by
    show TaskState.reissued ∈ _
    rcases List.mem_pair.1 h.state with hs | hs <;> rw [hs] <;> decide
  drawn := rfl
  unguarded := rfl
  round := List.any_eq_true.2 ⟨r, List.mem_of_find?_eq_some hcur, by simp⟩

/-- Whether the next round is admitted is settled before the first transition. -/
theorem admitsRound_end (hend : TransitionEnd db c.task (c.reissue r) db₁ row) (now : Nat) :
    db₁.admitsRound (c.nextRound now r row) = db.admitsRound (c.nextRound 0 r c.task) := by
  have hany : ∀ (k : Text) (t : List TaskRow), t.any (fun x => decide (x.id = k)) =
      (t.map TaskRow.id).any (fun i => decide (i = k)) := fun k t => by simp [List.any_map, Function.comp_def]
  cases hend with
  | repeated _ => rfl
  | moved _ eventId now =>
    unfold Db.admitsRound
    rw [hany, hany]
    have hids : (db.moved (c.reissue r) c.task eventId now).tasks.map TaskRow.id = db.tasks.map TaskRow.id :=
      Table.map_key_update (fun _ => rfl)
    rw [hids]
    rfl

/-- The row of the task after the round batch. -/
def TaskRow.reopened (row : TaskRow) (now : Nat) : TaskRow :=
  { row with currentRound := row.currentRound + 1, updatedAt := now }

theorem task_opened {now : Nat} (h : db.task c.task.id = some row) (hstate : row.state = .reissued) :
    (c.opened now db r row).task c.task.id = some (row.reopened now) := by
  have hl : (c.opened now db r row).task c.task.id = (db.task c.task.id).map (fun x =>
      if advanceGuard row x then { x with currentRound := nextRoundNumber row, updatedAt := now } else x) :=
    Table.lookup_update (fun _ => rfl)
  have hg : advanceGuard row row = true := advanceGuard_iff.2 ⟨rfl, hstate, rfl⟩
  rw [hl, h, Option.map_some, if_pos hg]
  rfl

/-- A batch on a row of another state inserts the round and moves no task. -/
theorem opened_unmoved (now : Nat) (hk : Table.Keyed TaskRow.id db.tasks) (h : db.task c.task.id = some c.task)
    (hstate : c.task.state ≠ .reissued) : Table.changes (advanceGuard c.task) db.tasks = 0 ∧
      (c.opened now db r c.task).tasks = db.tasks := by
  have hno : ∀ x ∈ db.tasks, advanceGuard c.task x = false := by
    intro x hx
    refine Bool.eq_false_iff.2 (fun hg => hstate ?_)
    obtain ⟨hid, hs, -⟩ := advanceGuard_iff.1 hg
    have hrow := Table.lookup_some h
    rw [← hk.eq_of_key hx hrow.1 (hid.trans hrow.2.symm), hs]
  exact ⟨List.countP_eq_zero.2 (fun x hx => by simp [hno x hx]), Table.update_eq_self hno⟩

theorem RoundOpened.found (h : Refreshed db c) (ho : RoundOpened db c r row db₂) : ∃ now,
    db₂.task c.task.id = some (row.reopened now) ∧ row.state = .reissued ∧ row.id = c.task.id ∧
      row.currentRound = c.task.currentRound := by
  obtain ⟨eventId, now₁, now₂, rfl, rfl⟩ := ho.opens
  exact ⟨now₂, task_opened (task_moved (h.sole ho.current) eventId now₁) rfl, rfl, rfl, rfl⟩

theorem RoundOpened.sole (h : Refreshed db c) (ho : RoundOpened db c r row db₂) {row₂ : TaskRow}
    (hrow : db₂.task c.task.id = some row₂) : Sole db₂ row₂ (c.openReview row) := by
  have hid : row₂.id = c.task.id := (Table.lookup_some hrow).2
  obtain ⟨now, hfound, hstate, -, -⟩ := ho.found h
  rw [hrow, Option.some.injEq] at hfound
  obtain ⟨eventId, now₁, now₂, -, hdb⟩ := ho.opens
  refine ⟨?_, by rw [hid]; exact hrow, ?_, rfl, rfl, ?_⟩
  · rw [hdb]
    have hkeyed : Table.Keyed TaskRow.id (db.moved (c.reissue r) c.task eventId now₁).tasks :=
      h.keyed.update (fun _ => rfl)
    exact hkeyed.update (fun _ => rfl)
  · have hreopened : row₂.state = .reissued := by rw [hfound]; exact hstate
    rw [hreopened]
    show TaskState.independentReview ∈ _
    decide
  · rw [hdb]
    exact List.any_eq_true.2 ⟨_, List.mem_append_right _ (List.mem_singleton.2 rfl), by simp [ReissueCall.nextRound]⟩

theorem step_of_returned {call : TransitionCall} {row : Option TaskRow} (h : call.stage = .returned row) (now : Nat)
    (uuid : Text) (db : Db) : call.step now uuid db = none := by
  simp [TransitionCall.step, h]

/-- The batch of the round, after the first transition. -/
theorem ReissueAt.batch (h : Refreshed db c) (hcur : db.currentRound c.task = some r) {call : TransitionCall}
    (hcall : call.stage = .returned (some row)) (hend : TransitionEnd db c.task (c.reissue r) db₁ row) (now : Nat) :
    match c.batch now db₁ r row with
    | none => ∀ e, ReissueAt db c db₁ [call] (.threw e)
    | some (db₂, changes) => if changes = (1, 1) then ReissueAt db c db₂ [call] (.refreshing r row)
      else ∀ e, ReissueAt db c db₂ [call] (.threw e) := by
  unfold ReissueCall.batch
  rw [admitsRound_end hend]
  cases hadm : db.admitsRound (c.nextRound 0 r c.task) with
  | false => exact fun e => .refused hcur hcall hend hadm e
  | true =>
    simp only [if_true]
    cases hend with
    | repeated hkey =>
      -- the row is not marked, and the batch moves no task
      have hne : c.task.state ≠ .reissued := by
        rcases List.mem_pair.1 h.state with hs | hs <;> rw [hs] <;> decide
      rw [(opened_unmoved (c := c) (r := r) now h.keyed h.found hne).1, if_neg (by decide)]
      exact fun e => .unmarked hcur hcall hkey now e
    | moved hkey eventId now₁ =>
      have hone : Table.changes (advanceGuard ((c.reissue r).applyTo eventId now₁ c.task))
          (db.moved (c.reissue r) c.task eventId now₁).tasks = 1 := by
        have hkeyed : Table.Keyed TaskRow.id (db.moved (c.reissue r) c.task eventId now₁).tasks :=
          h.keyed.update (fun _ => rfl)
        have hfound : Table.lookup TaskRow.id c.task.id (db.moved (c.reissue r) c.task eventId now₁).tasks =
            some ((c.reissue r).applyTo eventId now₁ c.task) := task_moved (h.sole hcur) eventId now₁
        have hg : advanceGuard ((c.reissue r).applyTo eventId now₁ c.task) ((c.reissue r).applyTo eventId now₁ c.task) =
            true := advanceGuard_iff.2 ⟨rfl, rfl, rfl⟩
        have hchanges := hkeyed.changes_eq (p := advanceGuard ((c.reissue r).applyTo eventId now₁ c.task))
          (k := c.task.id) (fun x hx => (advanceGuard_iff.1 hx).1)
        rw [hchanges, hfound, Option.any_some, hg]
        rfl
      rw [hone, if_pos rfl]
      exact .refreshing hcall ⟨hcur, hkey, hadm, eventId, now₁, now, rfl, rfl⟩

/-- A step of a transition the call started. -/
theorem ReissueAt.advance (h : Refreshed db c) {calls : List TransitionCall} {stage : ReissueStage}
    (hat : ReissueAt db c db₁ calls stage) {i now : Nat} {uuid : Text} {call call' : TransitionCall}
    (hi : calls[i]? = some call) (huuid : ∀ e ∈ db₁.events, e.id ≠ uuid)
    (hs : call.step now uuid db₁ = some (db₂, call')) : ReissueAt db c db₂ (calls.set i call') stage := by
  have hdone : ∀ {x : TransitionCall} {row : Option TaskRow}, x.stage = .returned row → ¬ call = x := by
    rintro x row hx rfl
    rw [step_of_returned hx] at hs
    cases hs
  cases hat with
  | loading => cases hi
  | unfound => cases hi
  | reissuing hcur htask htr hat =>
    cases i with
    | succ i => cases hi
    | zero =>
      cases hi
      obtain ⟨hat, htask, htr⟩ := hat.step (h.sole hcur) htask htr huuid hs
      exact .reissuing hcur htask htr hat
  | reviewing hcall ho hrow htask htr hat =>
    match i with
    | 0 => cases hi; exact absurd rfl (hdone hcall)
    | 1 =>
      cases hi
      obtain ⟨hat, htask, htr⟩ := hat.step (ho.sole h hrow) htask htr huuid hs
      exact .reviewing hcall ho hrow htask htr hat
    | i + 2 => cases hi
  | returned hcall hcall' ho hrow hend =>
    match i with
    | 0 => cases hi; exact absurd rfl (hdone hcall)
    | 1 => cases hi; exact absurd rfl (hdone hcall')
    | i + 2 => cases hi
  | opening _ hcall _ | refused _ hcall _ _ _ | unmarked _ hcall _ _ _ | refreshing hcall _ =>
    cases i with
    | succ i => cases hi
    | zero => cases hi; exact absurd rfl (hdone hcall)

/-- A step of the call itself. -/
theorem ReissueAt.next (h : Refreshed db c) {calls calls' : List TransitionCall} {stage : ReissueStage} {now : Nat}
    {c' : ReissueCall} (hat : ReissueAt db c db₁ calls stage)
    (hs : ReissueCall.step now db₁ calls { c with stage := stage } = some (db₂, calls', c')) :
    ∃ stage', c' = { c with stage := stage' } ∧ ReissueAt db c db₂ calls' stage' := by
  simp only [ReissueCall.step] at hs
  cases hat with
  | loading =>
    cases hcur : db.currentRound c.task with
    | none =>
      simp only [hcur] at hs
      cases hs
      exact ⟨_, rfl, .unfound hcur _⟩
    | some r =>
      simp only [hcur] at hs
      cases hs
      exact ⟨_, rfl, .reissuing hcur rfl rfl .reading⟩
  | reissuing hcur htask htr hat =>
    simp only [List.getElem?_cons_zero, Option.map_some] at hs
    generalize hcall : TransitionCall.stage _ = stage at hat hs
    cases hat with
    | returned hend =>
      cases hs
      exact ⟨_, rfl, .opening hcur hcall hend⟩
    | reading | batching _ | checking _ _ _ | rereading _ => cases hs
  | @opening r _ row _ hcur hcall hend =>
    have hbatch := ReissueAt.batch h hcur hcall hend now
    have hstage : ReissueCall.batch { c with stage := .opening r row } now db₁ r row = c.batch now db₁ r row := rfl
    simp only [hstage] at hs
    split at hs <;> rename_i hb <;> simp only [hb] at hbatch
    · cases hs
      exact ⟨_, rfl, hbatch _⟩
    · split at hs <;> rename_i hchanges <;> cases hs
      · rw [if_pos hchanges] at hbatch
        exact ⟨_, rfl, hbatch⟩
      · rw [if_neg hchanges] at hbatch
        exact ⟨_, rfl, hbatch _⟩
  | refreshing hcall ho =>
    obtain ⟨now₂, hfound, -, hid, -⟩ := ho.found h
    rw [← hid] at hfound
    simp only [hfound] at hs
    cases hs
    exact ⟨_, rfl, .reviewing hcall ho (hid ▸ hfound) rfl rfl .reading⟩
  | reviewing hcall ho hrow htask htr hat =>
    simp only [List.getElem?_cons_succ, List.getElem?_cons_zero, Option.map_some] at hs
    generalize hcall' : TransitionCall.stage _ = stage at hat hs
    cases hat with
    | returned hend =>
      cases hs
      exact ⟨_, rfl, .returned hcall hcall' ho hrow hend⟩
    | reading | batching _ | checking _ _ _ | rereading _ => cases hs
  | returned | unfound | refused | unmarked => cases hs

/-- **A call alone stays on its way.** -/
theorem CallAt.step (h : Refreshed db c) {w w' : World} {a : Action} (hat : CallAt db c w) (ha : Alone w a)
    (hs : w.step a = some w') : CallAt db c w' := by
  obtain ⟨stage, hre, hat⟩ := hat
  cases a with
  | advance i now uuid =>
    simp only [World.step] at hs
    split at hs
    · cases hs
    · rename_i call hi
      obtain ⟨⟨db₂, call'⟩, hstep, rfl⟩ := Option.map_eq_some_iff.1 hs
      exact ⟨stage, hre, hat.advance h hi ha hstep⟩
  | advanceReissue i now =>
    simp only [World.step, hre] at hs
    split at hs
    · cases hs
    · rename_i c₀ hi
      obtain ⟨⟨db₂, calls', c'⟩, hstep, rfl⟩ := Option.map_eq_some_iff.1 hs
      cases i with
      | succ i => cases hi
      | zero =>
        cases hi
        obtain ⟨stage', rfl, hat'⟩ := hat.next h hstep
        exact ⟨stage', rfl, hat'⟩
  | call _ _ | abandon _ | reissue _ _ _ | closeRound _ _ => exact ha.elim

theorem CallAt.run (h : Refreshed db c) {w w' : World} (hat : CallAt db c w) (hrun : store.Steps Alone w w') :
    CallAt db c w' := hrun.invariant (I := CallAt db c) hat (fun _ _ _ hat ha hs => hat.step h ha hs)

theorem CallAt.start (h : Refreshed db (createReissuedRound row reason actor)) :
    CallAt db (createReissuedRound row reason actor) ((createReissuedRound row reason actor).alone db) := by
  have hstage : (createReissuedRound row reason actor).stage = .loading := if_pos h.state
  refine ⟨.loading, ?_, .loading⟩
  rw [← hstage]
  rfl

/-! ## A call alone comes to its end -/

theorem exists_uuid (db : Db) : ∃ uuid : Text, ∀ e ∈ db.events, e.id ≠ uuid := by
  have hlonger : ∀ l : List EventRow, ∃ n, ∀ e ∈ l, e.id.length < n := by
    intro l
    induction l with
    | nil => exact ⟨0, fun _ h => by cases h⟩
    | cons e l ih =>
      obtain ⟨n, hn⟩ := ih
      refine ⟨max n (e.id.length + 1), fun x hx => ?_⟩
      rcases List.mem_cons.1 hx with rfl | hx
      · omega
      · have := hn x hx
        omega
  obtain ⟨n, hn⟩ := hlonger db.events
  refine ⟨List.replicate n 'u', fun e he hid => ?_⟩
  have := hn e he
  rw [hid, List.length_replicate] at this
  omega

/-- The steps before the end of a call, those of the transitions it is to start included. -/
def ReissueStage.rank : ReissueStage → Nat
  | .loading => 13
  | .reissuing _ _ => 8
  | .opening _ _ => 7
  | .refreshing _ _ => 6
  | .reviewing _ => 1
  | .returned _ => 0
  | .threw _ => 0

def rankOf (calls : List TransitionCall) : Nat := (calls.map (fun c => c.stage.rank)).sum

theorem rankOf_set {call call' : TransitionCall} (hlt : call'.stage.rank < call.stage.rank) :
    ∀ {calls : List TransitionCall} {i : Nat}, calls[i]? = some call → rankOf (calls.set i call') < rankOf calls
  | [], i, h => by cases h
  | x :: calls, 0, h => by
    cases h
    simp only [rankOf, List.set_cons_zero, List.map_cons, List.sum_cons]
    omega
  | x :: calls, i + 1, h => by
    have ih : rankOf (calls.set i call') < rankOf calls := rankOf_set hlt h
    simp only [rankOf, List.set_cons_succ, List.map_cons, List.sum_cons] at ih ⊢
    omega

theorem rankOf_started (calls : List TransitionCall) (task : TaskRow) (tr : Transition) :
    rankOf (calls ++ [transitionConsensusTask task tr]) = rankOf calls + 4 := by
  simp [rankOf, transitionConsensusTask, Stage.rank]

theorem ReissueCall.step_rank {now : Nat} {calls calls' : List TransitionCall} {c' : ReissueCall}
    (h : c.step now db calls = some (db₁, calls', c')) :
    c'.stage.rank + rankOf calls' < c.stage.rank + rankOf calls := by
  unfold ReissueCall.step at h
  split at h <;> rename_i hstage <;> rw [hstage]
  · split at h <;> cases h <;> simp only [ReissueStage.rank, rankOf_started] <;> omega
  · split at h <;> cases h <;> simp only [ReissueStage.rank] <;> omega
  · split at h
    · cases h; simp only [ReissueStage.rank]; omega
    · split at h <;> cases h <;> simp only [ReissueStage.rank] <;> omega
  · split at h <;> cases h <;> simp only [ReissueStage.rank, rankOf_started] <;> omega
  · split at h <;> cases h <;> simp only [ReissueStage.rank] <;> omega
  · cases h
  · cases h

theorem startable_iff : c.startable db = true ↔ ∃ r, db.currentRound c.task = some r ∧
    db.hasKey (c.reissue r).idempotencyKey = false ∧ db.admitsRound (c.nextRound 0 r c.task) = true ∧
      db.hasKey (c.openReview c.task).idempotencyKey = false := by
  unfold ReissueCall.startable
  cases db.currentRound c.task with
  | none => simp
  | some r => simp [and_assoc]

/-- A call that may start does not stop before it returns. -/
theorem ReissueAt.enabled (hstart : c.startable db = true) {calls : List TransitionCall} {stage : ReissueStage}
    (hat : ReissueAt db c db₁ calls stage) (now : Nat) (uuid : Text) : (∃ row, stage = .returned (some row)) ∨
      (∃ (i : Nat) (call : TransitionCall) (db₂ : Db) (call' : TransitionCall), calls[i]? = some call ∧
        call.step now uuid db₁ = some (db₂, call')) ∨
      ∃ db₂ calls' c', ReissueCall.step now db₁ calls { c with stage := stage } = some (db₂, calls', c') := by
  obtain ⟨r₀, hcur₀, hkey₀, hadm₀, -⟩ := startable_iff.1 hstart
  cases hat with
  | returned => exact .inl ⟨_, rfl⟩
  | unfound hcur _ => rw [hcur₀] at hcur; cases hcur
  | refused hcur _ _ hadm _ =>
    rw [hcur₀] at hcur
    cases hcur
    rw [hadm₀] at hadm
    cases hadm
  | unmarked hcur _ hkey _ _ =>
    rw [hcur₀] at hcur
    cases hcur
    rw [hkey₀] at hkey
    cases hkey
  | loading =>
    right; right
    simp only [ReissueCall.step]
    split <;> exact ⟨_, _, _, rfl⟩
  | reissuing _ _ _ hat =>
    right
    rcases hat.enabled now uuid with ⟨row, hcall, -⟩ | ⟨db₂, call', hs⟩
    · right
      simp only [ReissueCall.step, List.getElem?_cons_zero, Option.map_some, hcall]
      exact ⟨_, _, _, rfl⟩
    · exact .inl ⟨0, _, db₂, call', rfl, hs⟩
  | opening =>
    right; right
    simp only [ReissueCall.step]
    split
    · exact ⟨_, _, _, rfl⟩
    · split <;> exact ⟨_, _, _, rfl⟩
  | refreshing =>
    right; right
    simp only [ReissueCall.step]
    split <;> exact ⟨_, _, _, rfl⟩
  | reviewing _ _ _ _ _ hat =>
    right
    rcases hat.enabled now uuid with ⟨row, hcall, -⟩ | ⟨db₂, call', hs⟩
    · right
      simp only [ReissueCall.step, List.getElem?_cons_succ, List.getElem?_cons_zero, Option.map_some, hcall]
      exact ⟨_, _, _, rfl⟩
    · exact .inl ⟨1, _, db₂, call', rfl, hs⟩

/-- **A call that may start goes on until it returns.** -/
theorem CallAt.finishes (h : Refreshed db c) (hstart : c.startable db = true) {w : World} (hat : CallAt db c w) :
    ∃ w', store.Steps Alone w w' ∧ w'.hasReturned := by
  obtain ⟨stage, hre, hph⟩ := hat
  generalize hn : stage.rank + rankOf w.calls = n
  induction n using Nat.strongRecOn generalizing w stage with
  | ind n ih =>
    obtain ⟨uuid, huuid⟩ := exists_uuid w.db
    rcases hph.enabled hstart 0 uuid with ⟨row, rfl⟩ | ⟨i, call, db₂, call', hi, hs⟩ | ⟨db₂, calls', c', hs⟩
    · exact ⟨w, .refl, _, row, hre, rfl⟩
    · have hstep : store.step w (.advance i 0 uuid) = some { w with db := db₂, calls := w.calls.set i call' } := by
        simp only [store, World.step, hi, hs, Option.map_some]
      have hlt := rankOf_set (TransitionCall.step_rank hs) hi
      have ha : Alone w (.advance i 0 uuid) := huuid
      have hlt : stage.rank + rankOf (w.calls.set i call') < n := by omega
      obtain ⟨w', hrun, hret⟩ := ih _ hlt (w := { w with db := db₂, calls := w.calls.set i call' }) stage hre
        (hph.advance h hi huuid hs) rfl
      exact ⟨w', .head ha hstep hrun, hret⟩
    · have hstep : store.step w (.advanceReissue 0 0) = some ⟨db₂, calls', [c']⟩ := by
        simp only [store, World.step, hre, List.getElem?_cons_zero, hs, Option.map_some, List.set_cons_zero]
      have ha : Alone w (.advanceReissue 0 0) := trivial
      have hlt := ReissueCall.step_rank hs
      obtain ⟨stage', rfl, hph'⟩ := hph.next h hs
      have hlt : stage'.rank + rankOf calls' < n := hn ▸ hlt
      obtain ⟨w', hrun, hret⟩ := ih _ hlt (w := ⟨db₂, calls', [{ c with stage := stage' }]⟩) stage' rfl hph' rfl
      exact ⟨w', .head ha hstep hrun, hret⟩

/-! ## What a stopped call leaves -/

/-- The round opened is the one open round that was not there before. -/
theorem RoundOpened.newOpenRounds (ho : RoundOpened db c r row db₂) : ∃ round,
    newOpenRounds db db₂ c.task.id = [round] ∧ round.roundNumber = c.task.currentRound + 1 := by
  obtain ⟨eventId, now₁, now₂, rfl, rfl⟩ := ho.opens
  refine ⟨c.nextRound now₂ r ((c.reissue r).applyTo eventId now₁ c.task), ?_, rfl⟩
  have hid : ((c.reissue r).applyTo eventId now₁ c.task).id = c.task.id := rfl
  unfold Consensus.newOpenRounds
  rw [roundsOf_opened, if_pos hid, List.filter_append]
  have hold : (leaveRound r.id (supersede c.reason now₂)
      ((db.moved (c.reissue r) c.task eventId now₁).roundsOf c.task.id)).filter
        (fun r => r.isOpen && !db.rounds.any (fun x => decide (x.id = r.id))) = [] := by
    refine List.filter_eq_nil_iff.2 (fun x hx => ?_)
    obtain ⟨y, hy, rfl⟩ := Table.mem_update.1 hx
    have hany : db.rounds.any (fun x => decide (x.id = y.id)) = true :=
      List.any_eq_true.2 ⟨y, (List.mem_filter.1 hy).1, by simp⟩
    split
    · simp [supersede, RoundRow.isOpen]
    · simp [hany]
  have hnew : db.rounds.any (fun x => decide (x.id = consensusRoundId c.task.id (c.task.currentRound + 1))) = false := by
    have hadm := ho.admits
    simp only [Db.admitsRound, Bool.and_eq_true, Bool.not_eq_true', List.any_eq_false, Bool.or_eq_true,
      decide_eq_true_eq] at hadm
    rw [List.any_eq_false]
    exact fun x hx he => hadm.1.1 x hx (.inl (of_decide_eq_true he))
  rw [hold, List.nil_append, List.filter_cons_of_pos, List.filter_nil]
  show (true && !db.rounds.any (fun x => decide (x.id = consensusRoundId c.task.id (c.task.currentRound + 1)))) = true
  rw [hnew]
  rfl

/-- The third transaction completes the reissue, if its key was not used before. -/
theorem RoundOpened.completed (h : Refreshed db c) (ho : RoundOpened db c r row db₂) {row₂ row₃ : TaskRow} {db₃ : Db}
    (hrow : db₂.task c.task.id = some row₂) (hend : TransitionEnd db₂ row₂ (c.openReview row) db₃ row₃) :
    (row₃.state = .reissued ∧ c.startable db = false) ∨ (row₃.state = .independentReview ∧ c.startable db = true ∧
      Completed db db₃ c.task.id) := by
  obtain ⟨now, hfound, hstate, -, hcur⟩ := ho.found h
  rw [hrow, Option.some.injEq] at hfound
  have hid : row₂.id = c.task.id := (Table.lookup_some hrow).2
  have hevents : db₂.hasKey (c.openReview row).idempotencyKey = db.hasKey (c.openReview c.task).idempotencyKey := by
    obtain ⟨eventId, now₁, now₂, rfl, rfl⟩ := ho.opens
    show (db.events ++ [(c.reissue r).event c.task eventId now₁]).any _ = db.events.any _
    rw [List.any_append]
    simp [Transition.event, ReissueCall.reissue, ReissueCall.openReview]
    rfl
  cases hend with
  | repeated hkey =>
    refine .inl ⟨by rw [hfound]; exact hstate, Bool.eq_false_iff.2 (fun hstart => ?_)⟩
    obtain ⟨-, -, -, -, hopen⟩ := startable_iff.1 hstart
    rw [hevents, hopen] at hkey
    cases hkey
  | moved hkey eventId now₃ =>
    rw [hevents] at hkey
    refine .inr ⟨rfl, startable_iff.2 ⟨r, ho.current, ho.unused, ho.admits, hkey⟩, ?_⟩
    obtain ⟨round, hround, hnumber⟩ := ho.newOpenRounds
    have hthird := task_moved (ho.sole h hrow) eventId now₃
    rw [hid] at hthird
    refine ⟨_, round, hthird, rfl, hround, ?_⟩
    rw [hnumber, hfound, ← hcur]
    rfl

/-- What the row of the task is wherever a call stops: as it was given, marked reissued, or under review again. -/
inductive Stopped (db : Db) (c : ReissueCall) (db₁ : Db) (row : TaskRow) : Prop
  | untouched (hrow : row = c.task) (htasks : db₁.tasks = db.tasks)
      (hdb : db₁ = db ∨ (c.startable db = false ∧ c.startable db₁ = false))
  | marked (hstate : row.state = .reissued)
  | complete (hstate : row.state = .independentReview) (hstart : c.startable db = true)
      (hcompleted : Completed db db₁ c.task.id)

theorem TransitionEnd.stopped (h : Refreshed db c) (hcur : db.currentRound c.task = some r)
    (hend : TransitionEnd db c.task (c.reissue r) db₁ row) :
    ∃ row, db₁.task c.task.id = some row ∧ Stopped db c db₁ row := by
  cases hend with
  | repeated _ => exact ⟨_, h.found, .untouched rfl rfl (.inl rfl)⟩
  | moved hkey eventId now => exact ⟨_, task_moved (h.sole hcur) eventId now, .marked rfl⟩

theorem RoundOpened.stopped (h : Refreshed db c) (ho : RoundOpened db c r row db₂) {row₂ row₃ : TaskRow} {db₃ : Db}
    (hrow : db₂.task c.task.id = some row₂) (hend : TransitionEnd db₂ row₂ (c.openReview row) db₃ row₃) :
    ∃ row, db₃.task c.task.id = some row ∧ Stopped db c db₃ row := by
  have hid : row₂.id = c.task.id := (Table.lookup_some hrow).2
  refine ⟨row₃, hid ▸ hend.found (ho.sole h hrow), ?_⟩
  rcases ho.completed h hrow hend with ⟨hs, -⟩ | ⟨hs, hstart, hc⟩
  · exact .marked hs
  · exact .complete hs hstart hc

theorem ReissueAt.stopped (h : Refreshed db c) {calls : List TransitionCall} {stage : ReissueStage}
    (hat : ReissueAt db c db₁ calls stage) : ∃ row, db₁.task c.task.id = some row ∧ Stopped db c db₁ row := by
  cases hat with
  | loading => exact ⟨_, h.found, .untouched rfl rfl (.inl rfl)⟩
  | unfound => exact ⟨_, h.found, .untouched rfl rfl (.inl rfl)⟩
  | opening hcur _ hend => exact hend.stopped h hcur
  | refused hcur _ hend => exact hend.stopped h hcur
  | reissuing hcur _ _ hat =>
    generalize TransitionCall.stage _ = stage at hat
    cases hat with
    | reading => exact ⟨_, h.found, .untouched rfl rfl (.inl rfl)⟩
    | batching _ => exact ⟨_, h.found, .untouched rfl rfl (.inl rfl)⟩
    | checking hkey eventId now => exact (TransitionEnd.moved hkey eventId now).stopped h hcur
    | rereading hend => exact hend.stopped h hcur
    | returned hend => exact hend.stopped h hcur
  | @unmarked r _ _ hcur _ hkey now _ =>
    have hne : c.task.state ≠ .reissued := by
      rcases List.mem_pair.1 h.state with hs | hs <;> rw [hs] <;> decide
    have htasks := (opened_unmoved (r := r) now h.keyed h.found hne).2
    refine ⟨c.task, ?_, .untouched rfl htasks (.inr ⟨?_, ?_⟩)⟩
    · unfold Db.task
      rw [htasks]
      exact h.found
    · refine Bool.eq_false_iff.2 (fun hstart => ?_)
      obtain ⟨r', hcur', hkey', -⟩ := startable_iff.1 hstart
      rw [hcur] at hcur'
      cases hcur'
      rw [hkey] at hkey'
      cases hkey'
    · -- the round just inserted has the number the next one would take
      refine Bool.eq_false_iff.2 (fun hstart => ?_)
      obtain ⟨r', -, -, hadm, -⟩ := startable_iff.1 hstart
      simp only [Db.admitsRound, Bool.and_eq_true, Bool.not_eq_true', List.any_eq_false, Bool.or_eq_true,
        decide_eq_true_eq] at hadm
      exact hadm.1.1 _ (List.mem_append_right _ (List.mem_singleton.2 rfl)) (.inl rfl)
  | refreshing _ ho =>
    obtain ⟨now, hfound, hstate, -⟩ := ho.found h
    exact ⟨_, hfound, .marked hstate⟩
  | reviewing _ ho hrow _ _ hat =>
    obtain ⟨now, hfound, hstate, -⟩ := ho.found h
    generalize TransitionCall.stage _ = stage at hat
    cases hat with
    | reading => exact ⟨_, hfound, .marked hstate⟩
    | batching _ => exact ⟨_, hfound, .marked hstate⟩
    | checking hkey eventId now => exact ho.stopped h hrow (.moved hkey eventId now)
    | rereading hend => exact ho.stopped h hrow hend
    | returned hend => exact ho.stopped h hrow hend
  | returned _ _ ho hrow hend => exact ho.stopped h hrow hend

/-! ## Calling again -/

/-- A call that is turned away at its entry makes no step. -/
theorem turned_away (hstate : row.state ∉ [.escalated, .revoked]) {w : World}
    (hrun : store.Steps Alone ((createReissuedRound row reason actor).alone db) w) :
    w = (createReissuedRound row reason actor).alone db := by
  refine hrun.invariant (I := fun w => w = (createReissuedRound row reason actor).alone db) rfl ?_
  rintro w a w' rfl ha hs
  have hstage : (createReissuedRound row reason actor).stage =
      .threw (.consensusConflict "Only escalated or revoked tasks can be reissued.".toList) := if_neg hstate
  cases a with
  | advance i now uuid => simp [store, World.step, ReissueCall.alone] at hs
  | advanceReissue i now =>
    cases i with
    | succ i => simp [store, World.step, ReissueCall.alone] at hs
    | zero => simp [store, World.step, ReissueCall.alone, ReissueCall.step, hstage] at hs
  | call _ _ | abandon _ | reissue _ _ _ | closeRound _ _ => exact ha.elim

/-- **A task that is marked reissued is turned away for good.** -/
theorem not_completes_of_state (hstate : row.state ∉ [.escalated, .revoked]) (id : Text) :
    ¬ Completes db₁ id ((createReissuedRound row reason actor).alone db) := by
  intro hc
  obtain ⟨w, hrun, ⟨c, row', hre, hstage⟩, -⟩ := hc _ .refl
  rw [turned_away hstate hrun] at hre
  cases hre
  have hthrew : (createReissuedRound row reason actor).stage = .threw _ := if_neg hstate
  rw [hthrew] at hstage
  cases hstage

/-- A call that comes to review was free to start. -/
theorem startable_of_completes (h : Refreshed db (createReissuedRound row reason actor))
    (hc : Completes db₁ row.id ((createReissuedRound row reason actor).alone db)) :
    (createReissuedRound row reason actor).startable db = true := by
  obtain ⟨w, hrun, -, row', round, hfound, hstate, -⟩ := hc _ .refl
  obtain ⟨stage, -, hat⟩ := (CallAt.start h).run h hrun
  obtain ⟨row₁, hfound₁, hstopped⟩ := hat.stopped h
  have hsame : row' = row₁ := Option.some.inj (hfound.symm.trans hfound₁)
  subst hsame
  cases hstopped with
  | untouched hrow _ _ =>
    have hgiven := h.state
    rw [← hrow, hstate] at hgiven
    exact absurd hgiven (by decide)
  | marked hs => rw [hs] at hstate; cases hstate
  | complete _ hstart _ => exact hstart

/-- **A call alone completes the reissue exactly when it may start.** -/
theorem completes_iff (h : Refreshed db (createReissuedRound row reason actor)) :
    Completes db row.id ((createReissuedRound row reason actor).alone db) ↔
      (createReissuedRound row reason actor).startable db = true := by
  refine ⟨startable_of_completes h, fun hstart w hrun => ?_⟩
  · have hat := (CallAt.start h).run h hrun
    obtain ⟨w', hrun', hret⟩ := hat.finishes h hstart
    refine ⟨w', hrun', hret, ?_⟩
    obtain ⟨stage, hre, hat⟩ := hat.run h hrun'
    obtain ⟨c, row', hre', hstage⟩ := hret
    rw [hre] at hre'
    cases hre'
    cases hstage
    generalize w'.db = db' at hat ⊢
    generalize w'.calls = calls at hat
    cases hat with
    | returned _ _ ho hrow hend =>
      rcases ho.completed h hrow hend with ⟨-, hno⟩ | ⟨-, -, hc⟩
      · rw [hstart] at hno; cases hno
      · exact hc

/-- **A stopped call can be repeated exactly when it could start and the task is not marked reissued.** -/
theorem resumable_iff {db : Db} {task : TaskRow} {reason : ReissueReason} {actor : Option Actor} {w : World}
    (hkeyed : Table.Keyed TaskRow.id db.tasks) (htask : db.task task.id = some task)
    (hstate : task.state ∈ [.escalated, .revoked])
    (hrun : store.Steps Alone ((createReissuedRound task reason actor).alone db) w) :
    Resumable db task reason actor w ↔ (createReissuedRound task reason actor).startable db = true ∧
      ∀ row, w.db.task task.id = some row → row.state ≠ .reissued := by
  have h : Refreshed db (createReissuedRound task reason actor) := ⟨hkeyed, htask, hstate⟩
  obtain ⟨stage, -, hat⟩ := (CallAt.start h).run h hrun
  obtain ⟨row, hfound, hstopped⟩ := hat.stopped h
  have hfound : w.db.task task.id = some row := hfound
  have hmarked : (∀ row, w.db.task task.id = some row → row.state ≠ .reissued) ↔ row.state ≠ .reissued :=
    ⟨fun hall => hall row hfound, fun hne row' hrow' => Option.some.inj (hfound.symm.trans hrow') ▸ hne⟩
  have hgiven : task.state ≠ .reissued ∧ task.state ≠ .independentReview := by
    rcases List.mem_pair.1 hstate with hs | hs <;> rw [hs] <;> decide
  rw [hmarked]
  unfold Resumable Completed
  simp only [hfound, Option.some.injEq]
  cases hstopped with
  | untouched hrow htasks hdb =>
    have hrow : row = task := hrow
    subst hrow
    refine ⟨?_, fun ⟨hstart, _⟩ => .inr ⟨row, rfl, ?_⟩⟩
    · rintro (⟨row', _, rfl, hs, -⟩ | ⟨row', rfl, hc⟩)
      · exact absurd hs hgiven.2
      · refine ⟨?_, hgiven.1⟩
        rcases hdb with hdb | ⟨-, hno⟩
        · rw [hdb] at hc
          exact startable_of_completes h hc
        · have hagain : Refreshed w.db (createReissuedRound row reason actor) := ⟨htasks ▸ hkeyed, hfound, hstate⟩
          rw [startable_of_completes hagain hc] at hno
          cases hno
    · rcases hdb with hdb | ⟨hno, -⟩
      · rw [hdb]
        exact (completes_iff h).2 hstart
      · rw [hstart] at hno
        cases hno
  | marked hs =>
    refine ⟨?_, fun ⟨_, hne⟩ => absurd hs hne⟩
    rintro (⟨row', _, rfl, hs', -⟩ | ⟨row', rfl, hc⟩)
    · rw [hs] at hs'
      cases hs'
    · have hout : row.state ∉ [.escalated, .revoked] := by rw [hs]; decide
      exact absurd hc (not_completes_of_state hout _)
  | complete hs hstart hcompleted =>
    refine ⟨fun _ => ⟨hstart, by rw [hs]; decide⟩, fun _ => .inl ?_⟩
    obtain ⟨row', round, hrow', hrest⟩ := hcompleted
    exact ⟨row', round, Option.some.inj (hfound.symm.trans hrow'), hrest⟩

end Reissue

/-- The tables in which the task `t` is escalated. -/
def escalatedDb : Db := ((store.run (registered "t".toList 0) escalation).get (by decide)).db

theorem escalatedDb_task : Table.Keyed TaskRow.id escalatedDb.tasks ∧
    escalatedDb.task escalatedRow.id = some escalatedRow ∧ escalatedRow.state ∈ [.escalated, .revoked] := by
  refine ⟨?_, by decide, by decide⟩
  unfold Table.Keyed
  decide

theorem resumable_at_once : Resumable escalatedDb escalatedRow .missingQuorumDeadline none
    ((createReissuedRound escalatedRow .missingQuorumDeadline none).alone escalatedDb) := by
  refine (resumable_iff escalatedDb_task.1 escalatedDb_task.2.1 escalatedDb_task.2.2 .refl).2 ⟨by decide, ?_⟩
  intro row hrow
  have hrow := hrow.symm.trans escalatedDb_task.2.1
  cases hrow
  decide

instance decidableAlone : ∀ w a, Decidable (Alone w a)
  | w, .advance _ _ uuid => inferInstanceAs (Decidable (∀ e ∈ w.db.events, e.id ≠ uuid))
  | _, .advanceReissue _ _ => inferInstanceAs (Decidable True)
  | _, .call _ _ => inferInstanceAs (Decidable False)
  | _, .abandon _ => inferInstanceAs (Decidable False)
  | _, .reissue _ _ _ => inferInstanceAs (Decidable False)
  | _, .closeRound _ _ => inferInstanceAs (Decidable False)

/-- The call reads the round, and its first transition commits. -/
def firstTransaction : List Action := [.advanceReissue 0 3, .advance 0 3 "e3".toList, .advance 0 3 "e3".toList]

def halfway : World := (store.run ((createReissuedRound escalatedRow .missingQuorumDeadline none).alone escalatedDb)
  firstTransaction).get (by decide)

/-- **A call that stops after its first transaction cannot be repeated.** -/
theorem not_always_resumable : ¬ ∀ (db : Db) (task : TaskRow) (reason : ReissueReason) (actor : Option Actor) (w : World),
    Table.Keyed TaskRow.id db.tasks → db.task task.id = some task → task.state ∈ [.escalated, .revoked] →
    store.Steps Alone ((createReissuedRound task reason actor).alone db) w → Resumable db task reason actor w := by
  intro h
  have hrun : store.Steps Alone ((createReissuedRound escalatedRow .missingQuorumDeadline none).alone escalatedDb) halfway :=
    Machine.steps_of_isSome _ (by decide)
  have hstate : (halfway.db.task escalatedRow.id).map TaskRow.state = some .reissued := by decide
  have hmarked : ∀ row, halfway.db.task escalatedRow.id = some row → row.state = .reissued := by
    intro row hrow
    rw [hrow] at hstate
    exact Option.some.inj hstate
  rcases h _ _ _ _ _ escalatedDb_task.1 escalatedDb_task.2.1 escalatedDb_task.2.2 hrun with
    ⟨row, _, hrow, hs, -⟩ | ⟨row, hrow, hc⟩
  · rw [hmarked row hrow] at hs
    cases hs
  · exact not_completes_of_state (by rw [hmarked row hrow]; decide) _ hc

end Consensus
end Adg
