import AdgLang.Reissue
/-!
# ConsensusRun — the event log and the task row under concurrent transitions

Any number of `transitionConsensusTask` calls run against one store, each with the copy of the row it was given and each
stopping at its database accesses, so their stages interleave freely.  One batch either leaves the tables as they are
or moves one row and logs the move (`transitionBatch_spec`); the log and the row therefore agree after every run
(`transition_runs_agree`).
-/
namespace Adg
namespace Consensus

/-! ## One batch -/

theorem Transition.guard_iff {tr : Transition} {db : Db} {task row : TaskRow} {now : Nat}
    (h : tr.guard db task now row = true) :
    row.id = task.id ∧ row.state = task.state ∧ row.stateVersion = task.stateVersion := by
  simp only [Transition.guard, Bool.and_eq_true, decide_eq_true_eq] at h
  exact ⟨h.1.1.1, h.1.1.2, h.1.2⟩

theorem Db.admitsEvent_fresh {db : Db} {e : EventRow} (h : db.admitsEvent e = true) :
    (∀ x ∈ db.events, x.id ≠ e.id) ∧ (∀ x ∈ db.events, x.idempotencyKey ≠ e.idempotencyKey) := by
  simp only [Db.admitsEvent, Db.hasKey, Bool.and_eq_true, Bool.not_eq_true', List.any_eq_false,
    decide_eq_true_eq] at h
  exact ⟨fun x hx => h.1.1 x hx, fun x hx => h.1.2 x hx⟩

theorem Db.hasKey_iff {db : Db} {key : Text} : db.hasKey key = true ↔ ∃ e ∈ db.events, e.idempotencyKey = key := by
  simp [Db.hasKey]

theorem mem_eventsOf {db : Db} {id : Text} {e : EventRow} :
    e ∈ db.eventsOf id ↔ e ∈ db.events ∧ e.taskVersionId = id := by
  simp [Db.eventsOf]

/-- The tables after `row` moved to `toState` and the move was logged. -/
def Db.moved (db : Db) (tr : Transition) (task : TaskRow) (eventId : Text) (now : Nat) : Db :=
  { db with
    tasks := Table.update (tr.guard db task now) (tr.applyTo eventId now) db.tasks
    events := db.events ++ [tr.event task eventId now] }

/-- A batch that changed the tables: the row it moved, the identifiers it wrote and what it reported. -/
structure Moved (db db' : Db) (task : TaskRow) (tr : Transition) (events : List EventRow) (changes : Nat × Nat) :
    Prop where
  moves : ∃ row eventId now, row ∈ db.tasks ∧ tr.guard db task now row = true ∧
    db.admitsEvent (tr.event task eventId now) = true ∧ db' = db.moved tr task eventId now ∧
    events = [tr.event task eventId now]
  changes : changes = (1, 1)

/-- **A batch leaves the tables alone or moves one row and logs the move.**  An update that reports no row cannot be
followed by an insertion: the last event of every row is already in the log. -/
theorem transitionBatch_spec {now : Nat} {uuid : Text} {db db' : Db} {task : TaskRow} {tr : Transition}
    {events : List EventRow} {changes : Nat × Nat} (hreg : db.Registered)
    (h : transitionBatch now uuid db task tr = some (db', events, changes)) :
    (db' = db ∧ events = [] ∧ changes = (0, 0)) ∨ Moved db db' task tr events changes := by
  simp only [transitionBatch] at h
  generalize hn : tr.createdAt.getD now = now' at h
  generalize he : tr.eventId.getD uuid = eventId at h
  have hchanges : Table.changes (tr.guard db task now') db.tasks =
      if (db.task task.id).any (tr.guard db task now') then 1 else 0 :=
    hreg.tasks.changes_eq (fun r hr => (Transition.guard_iff hr).1)
  by_cases hg : ∃ row ∈ db.tasks, tr.guard db task now' row = true
  · obtain ⟨row, hrow, hgr⟩ := hg
    obtain ⟨hid, -, hver⟩ := Transition.guard_iff hgr
    have hone : Table.changes (tr.guard db task now') db.tasks = 1 := by
      rw [hchanges, Db.task, hreg.tasks.lookup_eq_some_iff.2 ⟨hrow, hid⟩]
      simp [hgr]
    have hwritten : (Table.update (tr.guard db task now') (tr.applyTo eventId now') db.tasks).any
        (tr.written task eventId) = true := by
      refine List.any_eq_true.2 ⟨tr.applyTo eventId now' row, ?_, ?_⟩
      · exact Table.mem_update.2 ⟨row, hrow, by rw [hgr]; rfl⟩
      · simp [Transition.written, Transition.applyTo, hid, hver]
    rw [hwritten, if_pos rfl] at h
    split at h
    · rename_i hadm
      simp only [Option.some.injEq, Prod.mk.injEq] at h
      obtain ⟨h1, h2, h3⟩ := h
      exact .inr ⟨⟨row, eventId, now', hrow, hgr, hadm, h1.symm, h2.symm⟩, by rw [← h3, hone]⟩
    · cases h
  · have hno : ∀ row ∈ db.tasks, tr.guard db task now' row = false := fun row hrow =>
      Bool.eq_false_iff.2 (fun hr => hg ⟨row, hrow, hr⟩)
    rw [Table.update_eq_self hno] at h
    split at h
    · -- the row with this last event stands already, and so does the event
      rename_i hw
      obtain ⟨row, hrow, hw⟩ := List.any_eq_true.1 hw
      simp only [Transition.written, Bool.and_eq_true, decide_eq_true_eq] at hw
      obtain ⟨e, he, hel⟩ := hreg.logged row hrow
      split at h
      · rename_i hadm
        exact absurd (hel.trans hw.1.1.2) ((Db.admitsEvent_fresh hadm).1 e he)
      · cases h
    · have hzero : Table.changes (tr.guard db task now') db.tasks = 0 := List.countP_eq_zero.2 (fun r hr => by simp [hno r hr])
      simp only [Option.some.injEq, Prod.mk.injEq, hzero] at h
      exact .inl ⟨h.1.symm, h.2.1.symm, h.2.2.symm⟩

/-! ## What holds in every world -/

/-- The row of a task against the row it started from, and the events logged in between. -/
structure Agrees (db₀ : Db) (row₀ : TaskRow) (db : Db) (row : TaskRow) (log : List EventRow) : Prop where
  mem : row ∈ db.tasks
  id : row.id = row₀.id
  events : db.eventsOf row₀.id = db₀.eventsOf row₀.id ++ log
  version : row.stateVersion = row₀.stateVersion + log.length
  chain : Chain EventRow.fromState EventRow.toState row₀.state log row.state
  last : row.lastEventId = (log.getLast?.map EventRow.id).getD row₀.lastEventId
  allowed : ∀ e ∈ log, e.toState ∈ allowedTransitions e.fromState

theorem Agrees.refl {db : Db} {row : TaskRow} (h : row ∈ db.tasks) : Agrees db row db row [] where
  mem := h
  id := rfl
  events := by rw [List.append_nil]
  version := rfl
  chain := rfl
  last := rfl
  allowed := fun _ h => by cases h

/-- A call committed exactly one event, or its key was committed before. -/
def TransitionCall.Settled (db : Db) (c : TransitionCall) : Prop :=
  (∃ e ∈ db.eventsOf c.task.id, c.committed = [e] ∧ e.idempotencyKey = c.transition.idempotencyKey) ∨
    (c.committed = [] ∧ ∃ e ∈ db.events, e.idempotencyKey = c.transition.idempotencyKey)

/-- What a call's stage says about it. -/
def TransitionCall.Sound (db : Db) (c : TransitionCall) : Prop :=
  match c.stage with
  | .reading => c.committed = []
  | .batching => c.committed = [] ∧ c.transition.toState ∈ allowedTransitions c.task.state
  | .checking changes => (changes = (0, 0) ∧ c.committed = []) ∨ (changes = (1, 1) ∧ c.Settled db)
  | .rereading => c.Settled db
  | .returned _ => c.Settled db
  | .threw _ => True

structure Consistent (w₀ w : World) : Prop where
  registered : w.db.Registered
  agrees : ∀ row₀ ∈ w₀.db.tasks, ∃ row log, Agrees w₀.db row₀ w.db row log
  calls : ∀ c ∈ w.calls, c.Sound w.db

/-! ## Steps -/

theorem eventsOf_moved {db : Db} {tr : Transition} {task : TaskRow} {eventId : Text} {now : Nat} (id : Text) :
    (db.moved tr task eventId now).eventsOf id =
      db.eventsOf id ++ if task.id = id then [tr.event task eventId now] else [] := by
  unfold Db.eventsOf Db.moved
  rw [List.filter_append]
  congr 1
  by_cases h : task.id = id <;> simp [Transition.event, h]

/-- **A logged move keeps the agreement of every task.** -/
theorem Agrees.moved {db₀ db : Db} {row₀ row : TaskRow} {log : List EventRow} {tr : Transition} {task : TaskRow}
    {eventId : Text} {now : Nat} (h : Agrees db₀ row₀ db row log) (hreg : db.Registered)
    (hmoves : ∃ r ∈ db.tasks, tr.guard db task now r = true)
    (hallowed : tr.toState ∈ allowedTransitions task.state) :
    ∃ row' log', Agrees db₀ row₀ (db.moved tr task eventId now) row' log' := by
  have hmem : ∀ r' : TaskRow, r' = (if tr.guard db task now row then tr.applyTo eventId now row else row) →
      r' ∈ (db.moved tr task eventId now).tasks := fun r' hr' => Table.mem_update.2 ⟨row, h.mem, hr'⟩
  by_cases htask : task.id = row₀.id
  · -- the row that moves is this task's
    obtain ⟨r, hr, hg⟩ := hmoves
    obtain ⟨hid, hstate, hver⟩ := Transition.guard_iff hg
    have hrow : r = row := hreg.tasks.eq_of_key hr h.mem (by rw [hid, htask, h.id])
    subst hrow
    refine ⟨tr.applyTo eventId now r, log ++ [tr.event task eventId now], ?_, h.id, ?_, ?_, ?_, ?_, ?_⟩
    · exact hmem _ (by rw [hg]; rfl)
    · rw [eventsOf_moved, h.events, if_pos htask, List.append_assoc]
    · show r.stateVersion + 1 = _
      rw [h.version, List.length_append]; rfl
    · exact h.chain.append (by rw [hstate]; exact Chain.single (tr.event task eventId now))
    · rw [List.getLast?_concat]; rfl
    · intro e he
      rcases List.mem_append.1 he with he | he
      · exact h.allowed e he
      · rw [List.mem_singleton.1 he]; exact hallowed
  · have hg : tr.guard db task now row = false := Bool.eq_false_iff.2 (fun hr =>
      htask ((Transition.guard_iff hr).1.symm.trans h.id))
    refine ⟨row, log, hmem _ (by rw [hg]; rfl), h.id, ?_, h.version, h.chain, h.last, h.allowed⟩
    rw [eventsOf_moved, if_neg htask, List.append_nil, h.events]

theorem Db.Registered.moved {db : Db} {tr : Transition} {task : TaskRow} {eventId : Text} {now : Nat}
    (h : db.Registered) (hadm : db.admitsEvent (tr.event task eventId now) = true) :
    (db.moved tr task eventId now).Registered where
  tasks := h.tasks.update (fun _ => rfl)
  events := h.events.append (Db.admitsEvent_fresh hadm).1
  keys := h.keys.append (Db.admitsEvent_fresh hadm).2
  logged := by
    intro r hr
    obtain ⟨x, hx, rfl⟩ := Table.mem_update.1 hr
    cases hg : tr.guard db task now x with
    | true => exact ⟨_, List.mem_append_right _ (List.mem_singleton.2 rfl), rfl⟩
    | false =>
      obtain ⟨e, he, hel⟩ := h.logged x hx
      exact ⟨e, List.mem_append_left _ he, hel⟩

theorem TransitionCall.Settled.mono {db db' : Db} {c : TransitionCall} (hdb : ∀ e ∈ db.events, e ∈ db'.events)
    (h : c.Settled db) : c.Settled db' := by
  rcases h with ⟨e, he, hc⟩ | ⟨hc, e, he, hk⟩
  · exact .inl ⟨e, mem_eventsOf.2 ⟨hdb e (mem_eventsOf.1 he).1, (mem_eventsOf.1 he).2⟩, hc⟩
  · exact .inr ⟨hc, e, hdb e he, hk⟩

/-- What a stage says of a call stays true while the log grows. -/
theorem TransitionCall.Sound.mono {db db' : Db} {c : TransitionCall} (hdb : ∀ e ∈ db.events, e ∈ db'.events)
    (h : c.Sound db) : c.Sound db' := by
  unfold Sound at *
  split <;> rename_i hs <;> rw [hs] at h
  · exact h
  · exact h
  · rcases h with h | ⟨h1, h2⟩
    · exact .inl h
    · exact .inr ⟨h1, h2.mono hdb⟩
  · exact Settled.mono hdb h
  · exact Settled.mono hdb h
  · trivial

/-- **One access of a call**: the tables stay or move, by an allowed step, and the call's stage tells which. -/
theorem TransitionCall.step_sound {now : Nat} {uuid : Text} {db db' : Db} {c c' : TransitionCall}
    (hreg : db.Registered) (hc : c.Sound db) (h : c.step now uuid db = some (db', c')) :
    c'.Sound db' ∧ (db' = db ∨ ∃ eventId now, db' = db.moved c.transition c.task eventId now ∧
      (∃ r ∈ db.tasks, c.transition.guard db c.task now r = true) ∧
      db.admitsEvent (c.transition.event c.task eventId now) = true ∧
      c.transition.toState ∈ allowedTransitions c.task.state) := by
  cases hs : c.stage with
  | reading =>
    simp only [Sound, hs] at hc
    simp only [TransitionCall.step, hs, assertConsensusTransition] at h
    split at h
    · rename_i herr
      simp only [Option.some.injEq, Prod.mk.injEq] at h
      obtain ⟨rfl, rfl⟩ := h
      exact ⟨trivial, .inl rfl⟩
    · rename_i hok
      have hallowed : c.transition.toState ∈ allowedTransitions c.task.state := by
        by_contra hno
        rw [if_neg hno] at hok; cases hok
      split at h
      · rename_i hkey
        simp only [Option.some.injEq, Prod.mk.injEq] at h
        obtain ⟨rfl, rfl⟩ := h
        exact ⟨.inr ⟨hc, Db.hasKey_iff.1 hkey⟩, .inl rfl⟩
      · simp only [Option.some.injEq, Prod.mk.injEq] at h
        obtain ⟨rfl, rfl⟩ := h
        exact ⟨⟨hc, hallowed⟩, .inl rfl⟩
  | batching =>
    simp only [Sound, hs] at hc
    simp only [TransitionCall.step, hs] at h
    split at h
    · simp only [Option.some.injEq, Prod.mk.injEq] at h
      obtain ⟨rfl, rfl⟩ := h
      exact ⟨trivial, .inl rfl⟩
    · rename_i db₁ events changes hb
      simp only [Option.some.injEq, Prod.mk.injEq] at h
      obtain ⟨rfl, rfl⟩ := h
      rcases transitionBatch_spec hreg hb with ⟨rfl, rfl, rfl⟩ | ⟨⟨row, eventId, now', hrow, hg, hadm, rfl, rfl⟩, rfl⟩
      · exact ⟨.inl ⟨rfl, rfl⟩, .inl rfl⟩
      · refine ⟨.inr ⟨rfl, .inl ⟨_, ?_, rfl, rfl⟩⟩, .inr ⟨eventId, now', rfl, ⟨row, hrow, hg⟩, hadm, hc.2⟩⟩
        rw [eventsOf_moved, if_pos rfl]
        exact List.mem_append_right _ (List.mem_singleton.2 rfl)
  | checking changes =>
    simp only [Sound, hs] at hc
    simp only [TransitionCall.step, hs] at h
    split at h
    · rename_i hret
      simp only [Option.some.injEq, Prod.mk.injEq] at h
      obtain ⟨rfl, rfl⟩ := h
      refine ⟨?_, .inl rfl⟩
      rcases hc with ⟨rfl, hnone⟩ | ⟨rfl, hset⟩
      · exact .inr ⟨hnone, Db.hasKey_iff.1 (by simpa using hret)⟩
      · exact hset
    · simp only [Option.some.injEq, Prod.mk.injEq] at h
      obtain ⟨rfl, rfl⟩ := h
      exact ⟨trivial, .inl rfl⟩
  | rereading =>
    simp only [Sound, hs] at hc
    simp only [TransitionCall.step, hs, Option.some.injEq, Prod.mk.injEq] at h
    obtain ⟨rfl, rfl⟩ := h
    exact ⟨hc, .inl rfl⟩
  | returned row => simp [TransitionCall.step, hs] at h
  | threw e => simp [TransitionCall.step, hs] at h

theorem TransitionCall.abandon_sound {db : Db} {c c' : TransitionCall} (h : c.abandon = some c') : c'.Sound db := by
  unfold TransitionCall.abandon at h
  split at h
  · cases h
  · cases h
  · simp only [Option.some.injEq] at h
    subst h; trivial

/-- What a step of `createReissuedRound` and the closing of a round do to the tables that hold states and events. -/
structure SameStates (db db' : Db) : Prop where
  events : db'.events = db.events
  tasks : ∃ p f, db'.tasks = Table.update p f db.tasks ∧ ∀ r, (f r).id = r.id ∧ (f r).state = r.state ∧
    (f r).stateVersion = r.stateVersion ∧ (f r).lastEventId = r.lastEventId

theorem SameStates.of_tasks {db db' : Db} (ht : db'.tasks = db.tasks) (he : db'.events = db.events) :
    SameStates db db' where
  events := he
  tasks := ⟨fun _ => false, id, by rw [ht, Table.update_eq_self (fun _ _ => rfl)], fun _ => ⟨rfl, rfl, rfl, rfl⟩⟩

theorem ReissueCall.step_sameStates {now : Nat} {db db' : Db} {calls calls' : List TransitionCall} {c c' : ReissueCall}
    (h : c.step now db calls = some (db', calls', c')) : SameStates db db' := by
  obtain ⟨rfl | ⟨_, _, -, -, rfl⟩, -⟩ := ReissueCall.step_spec h
  · exact .of_tasks rfl rfl
  · exact ⟨rfl, _, _, rfl, fun _ => ⟨rfl, rfl, rfl, rfl⟩⟩

theorem Consistent.sameStates {w₀ w : World} {db' : Db} {calls' : List TransitionCall} {reissues' : List ReissueCall}
    (h : Consistent w₀ w) (hs : SameStates w.db db')
    (hcalls : calls' = w.calls ∨ ∃ task tr, calls' = w.calls ++ [transitionConsensusTask task tr]) :
    Consistent w₀ ⟨db', calls', reissues'⟩ := by
  obtain ⟨hev, p, f, htasks, hf⟩ := hs
  refine ⟨⟨?_, ?_, ?_, ?_⟩, fun row₀ hrow₀ => ?_, fun c hc => ?_⟩
  · show Table.Keyed _ db'.tasks
    rw [htasks]; exact h.registered.tasks.update (fun r => (hf r).1)
  · show Table.Keyed _ db'.events
    rw [hev]; exact h.registered.events
  · show Table.Keyed _ db'.events
    rw [hev]; exact h.registered.keys
  · intro r hr
    rw [htasks] at hr
    obtain ⟨x, hx, rfl⟩ := Table.mem_update.1 hr
    obtain ⟨e, he, hel⟩ := h.registered.logged x hx
    refine ⟨e, by rw [hev]; exact he, ?_⟩
    split
    · rw [(hf x).2.2.2]; exact hel
    · exact hel
  · obtain ⟨row, log, hag⟩ := h.agrees row₀ hrow₀
    obtain ⟨row', hrow', h1, h2, h3, h4⟩ : ∃ row' ∈ db'.tasks, row'.id = row.id ∧ row'.state = row.state ∧
        row'.stateVersion = row.stateVersion ∧ row'.lastEventId = row.lastEventId := by
      rw [htasks]
      refine ⟨_, Table.mem_update.2 ⟨row, hag.mem, rfl⟩, ?_⟩
      split
      · exact hf row
      · exact ⟨rfl, rfl, rfl, rfl⟩
    refine ⟨row', log, hrow', h1.trans hag.id, ?_, h3.trans hag.version, by rw [h2]; exact hag.chain,
      h4.trans hag.last, hag.allowed⟩
    rw [← hag.events]
    unfold Db.eventsOf
    rw [hev]
  · have hmono : ∀ e ∈ w.db.events, e ∈ db'.events := fun e he => by rw [hev]; exact he
    rcases hcalls with hcalls | ⟨task, tr, hcalls⟩
    · have hc : c ∈ calls' := hc
      rw [hcalls] at hc
      exact (h.calls c hc).mono hmono
    · have hc : c ∈ calls' := hc
      rw [hcalls] at hc
      rcases List.mem_append.1 hc with hc | hc
      · exact (h.calls c hc).mono hmono
      · rw [List.mem_singleton.1 hc]; rfl

/-- **Every step of the world keeps the log and the rows in agreement.** -/
theorem Consistent.step {w₀ w w' : World} {a : Action} (h : Consistent w₀ w) (hs : w.step a = some w') :
    Consistent w₀ w' := by
  cases a with
  | call task tr =>
    simp only [World.step, Option.some.injEq] at hs
    subst hs
    exact h.sameStates (.of_tasks rfl rfl) (.inr ⟨task, tr, rfl⟩)
  | advance i now uuid =>
    simp only [World.step] at hs
    split at hs
    · cases hs
    rename_i c hci
    obtain ⟨⟨db, c'⟩, hstep, rfl⟩ := Option.map_eq_some_iff.1 hs
    have hc := h.calls c (List.mem_of_getElem? hci)
    obtain ⟨hc', hdb | ⟨eventId, now', hdb, hmoves, hadm, hallowed⟩⟩ :=
      TransitionCall.step_sound h.registered hc hstep
    · subst hdb
      refine ⟨h.registered, h.agrees, fun x hx => ?_⟩
      rcases List.mem_or_eq_of_mem_set hx with hx | rfl
      · exact h.calls x hx
      · exact hc'
    · subst hdb
      refine ⟨h.registered.moved hadm, fun row₀ hrow₀ => ?_, fun x hx => ?_⟩
      · obtain ⟨row, log, hag⟩ := h.agrees row₀ hrow₀
        exact hag.moved h.registered hmoves hallowed
      · rcases List.mem_or_eq_of_mem_set hx with hx | rfl
        · exact (h.calls x hx).mono (fun e he => List.mem_append_left _ he)
        · exact hc'
  | abandon i =>
    simp only [World.step] at hs
    split at hs
    · cases hs
    rename_i c hci
    obtain ⟨c', hab, rfl⟩ := Option.map_eq_some_iff.1 hs
    refine ⟨h.registered, h.agrees, fun x hx => ?_⟩
    rcases List.mem_or_eq_of_mem_set hx with hx | rfl
    · exact h.calls x hx
    · exact TransitionCall.abandon_sound hab
  | reissue task reason actor =>
    simp only [World.step, Option.some.injEq] at hs
    subst hs
    exact h.sameStates (.of_tasks rfl rfl) (.inl rfl)
  | advanceReissue i now =>
    simp only [World.step] at hs
    split at hs
    · cases hs
    obtain ⟨⟨db, calls, c'⟩, hstep, rfl⟩ := Option.map_eq_some_iff.1 hs
    exact h.sameStates (ReissueCall.step_sameStates hstep) (ReissueCall.step_spec hstep).2
  | closeRound id now =>
    simp only [World.step, Option.some.injEq] at hs
    subst hs
    exact h.sameStates (.of_tasks rfl rfl) (.inl rfl)

/-- **The event log and the task rows agree after every run**: every row's version counts its logged moves, the moves
chain from the initial state to the row's by allowed steps and end in its last event, no key is logged twice, and a call
that returned committed one event or found its key. -/
theorem transition_runs_agree {w₀ w : World} (hreg : w₀.db.Registered) (hcalls : w₀.calls = [])
    (hrun : store.Reaches w₀ w) :
    (∀ row₀ ∈ w₀.db.tasks, ∃ row log, Agrees w₀.db row₀ w.db row log) ∧
      (w.db.events.map EventRow.idempotencyKey).Nodup ∧
      ∀ c ∈ w.calls, ∀ row, c.stage = .returned row → c.Settled w.db := by
  have hinv : Consistent w₀ w := hrun.relates
    ⟨hreg, fun row₀ h => ⟨row₀, [], .refl h⟩, fun c hc => by rw [hcalls] at hc; cases hc⟩
    (fun x a y hx _ hs => hx.step hs)
  refine ⟨hinv.agrees, hinv.registered.keys, fun c hc row hrow => ?_⟩
  have hs := hinv.calls c hc
  unfold TransitionCall.Sound at hs
  rw [hrow] at hs
  exact hs

def review : Transition where
  toState := .independentReview
  eventType := "independent-review-opened".toList
  reasonCode := "two-annotators".toList
  idempotencyKey := "review:t".toList

/-- The row of a task registered at time 0. -/
def openRow : TaskRow where
  id := "t".toList
  state := .opened
  stateVersion := 0
  currentRound := 1
  lastEventId := initialEventId "t".toList
  activeFinalReceiptId := none
  appealDeadlineAt := none
  updatedAt := 0
  approvedAt := none
  publishedAt := none
  revokedAt := none

/-- Two callers open a task for review with the same copy of its row and the same key, batch against batch; the world
they leave. -/
def raced : World :=
  (store.run (registered "t".toList 0) [.call openRow review, .call openRow review,
    .advance 0 1 "e1".toList, .advance 1 1 "e2".toList, .advance 0 1 "e1".toList, .advance 1 1 "e2".toList,
    .advance 0 1 "e1".toList, .advance 1 1 "e2".toList, .advance 0 1 "e1".toList, .advance 1 1 "e2".toList]).get
    (by decide)

theorem transition_runs_agree_raced :
    raced.db.events.length = 2 ∧
      (∀ row₀ ∈ (registered "t".toList 0).db.tasks, ∃ row log, Agrees (registered "t".toList 0).db row₀ raced.db row log) ∧
      (raced.db.events.map EventRow.idempotencyKey).Nodup ∧
      ∀ c ∈ raced.calls, ∀ row, c.stage = .returned row → c.Settled raced.db :=
  ⟨by decide, transition_runs_agree (Db.Registered.register .empty (by decide)) rfl (Machine.reaches_of_isSome _)⟩

end Consensus
end Adg
