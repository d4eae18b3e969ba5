import AdgLang.ConsensusRun
/-!
# ReissueRun — the rounds of a task under concurrent reissues

The rounds of a task are well formed when they are numbered without gaps up to its round counter and only the last may
be open.  Every step keeps that but the batch that opens a round, and that batch keeps it exactly when it opens cleanly
(`opened_wellFormed_iff`).  The rounds therefore stay well formed in every run whose batches open cleanly
(`rounds_wellFormed`); two reissues that start from one copy of the task row may leave two rounds open
(`rounds_not_wellFormed`).
-/
namespace Adg
namespace Consensus

def RoundRow.isOpen (r : RoundRow) : Bool := decide (r.status = .opened)

/-- The rounds of a task against its row. -/
structure RoundsWellFormed (db : Db) (row : TaskRow) : Prop where
  distinct : Table.Keyed RoundRow.roundNumber (db.roundsOf row.id)
  numbers : ∀ n, (∃ r ∈ db.roundsOf row.id, r.roundNumber = n) ↔ 1 ≤ n ∧ n ≤ row.currentRound
  oneOpen : (db.roundsOf row.id).countP RoundRow.isOpen ≤ 1
  current : ∀ r ∈ db.roundsOf row.id, r.isOpen = true → r.roundNumber = row.currentRound

/-- The rounds of every task are well formed, and a task has one row. -/
structure WellFormed (db : Db) : Prop where
  keyed : Table.Keyed TaskRow.id db.tasks
  rounds : ∀ row ∈ db.tasks, RoundsWellFormed db row

/-- A single open round follows from the numbers. -/
theorem RoundsWellFormed.of_current {db : Db} {row : TaskRow}
    (distinct : Table.Keyed RoundRow.roundNumber (db.roundsOf row.id))
    (numbers : ∀ n, (∃ r ∈ db.roundsOf row.id, r.roundNumber = n) ↔ 1 ≤ n ∧ n ≤ row.currentRound)
    (current : ∀ r ∈ db.roundsOf row.id, r.isOpen = true → r.roundNumber = row.currentRound) :
    RoundsWellFormed db row :=
  ⟨distinct, numbers, distinct.changes_le_one current, current⟩

/-! ## Steps that open no round -/

/-- An update of a round out of its open status. -/
structure Leaves (f : RoundRow → RoundRow) : Prop where
  task : ∀ r, (f r).taskVersionId = r.taskVersionId
  number : ∀ r, (f r).roundNumber = r.roundNumber
  status : ∀ r, (f r).isOpen = false

theorem leaves_supersede (reason : ReissueReason) (now : Nat) : Leaves (supersede reason now) :=
  ⟨fun _ => rfl, fun _ => rfl, fun _ => rfl⟩

theorem leaves_close (now : Nat) : Leaves (close now) := ⟨fun _ => rfl, fun _ => rfl, fun _ => rfl⟩

section Leave

variable {p : RoundRow → Bool} {f : RoundRow → RoundRow} {rounds : List RoundRow}

theorem Leaves.mem_open (hf : Leaves f) {r : RoundRow} (h : r ∈ Table.update p f rounds) (ho : r.isOpen = true) :
    r ∈ rounds ∧ p r = false := by
  obtain ⟨x, hx, rfl⟩ := Table.mem_update.1 h
  split at ho
  · rw [hf.status x] at ho; cases ho
  · rename_i hno
    rw [if_neg hno]
    exact ⟨hx, Bool.eq_false_iff.2 hno⟩

theorem Leaves.numbers (hf : Leaves f) (n : Nat) :
    (∃ r ∈ Table.update p f rounds, r.roundNumber = n) ↔ ∃ r ∈ rounds, r.roundNumber = n := by
  have hmap : (Table.update p f rounds).map RoundRow.roundNumber = rounds.map RoundRow.roundNumber :=
    Table.map_key_update hf.number
  rw [← List.mem_map, hmap, List.mem_map]

theorem Leaves.roundsOf (hf : Leaves f) {db db' : Db} (h : db'.rounds = Table.update p f db.rounds) (task : Text) :
    db'.roundsOf task = Table.update p f (db.roundsOf task) := by
  unfold Db.roundsOf
  rw [h]
  exact Table.filter_update (fun r => by simp [hf.task r])

/-- **Leaving a round keeps the rounds well formed.** -/
theorem RoundsWellFormed.leave {db db' : Db} {row row' : TaskRow} (h : RoundsWellFormed db row) (hf : Leaves f)
    (hid : row'.id = row.id) (hcur : row'.currentRound = row.currentRound)
    (hr : db'.roundsOf row.id = Table.update p f (db.roundsOf row.id)) : RoundsWellFormed db' row' := by
  refine .of_current ?_ (fun n => ?_) (fun r hmem ho => ?_)
  · rw [hid, hr]; exact h.distinct.update hf.number
  · rw [hid, hr, hcur, hf.numbers]; exact h.numbers n
  · rw [hid, hr] at hmem
    rw [hcur]
    exact h.current r (hf.mem_open hmem ho).1 ho

/-- Table steps that neither open a round nor move a round counter. -/
theorem WellFormed.keep {db db' : Db} (h : WellFormed db) {q : TaskRow → Bool} {g : TaskRow → TaskRow}
    (htasks : db'.tasks = Table.update q g db.tasks) (hg : ∀ r, (g r).id = r.id ∧ (g r).currentRound = r.currentRound)
    (hf : Leaves f) (hrounds : db'.rounds = Table.update p f db.rounds) : WellFormed db' := by
  refine ⟨by rw [htasks]; exact h.keyed.update (fun r => (hg r).1), fun row hrow => ?_⟩
  rw [htasks] at hrow
  obtain ⟨x, hx, rfl⟩ := Table.mem_update.1 hrow
  refine (h.rounds x hx).leave hf ?_ ?_ (hf.roundsOf hrounds x.id)
  · split
    · exact (hg x).1
    · rfl
  · split
    · exact (hg x).2
    · rfl

end Leave

/-- A transition's batch touches neither the rounds nor a round counter. -/
theorem WellFormed.transitionBatch {now : Nat} {uuid : Text} {db db' : Db} {task : TaskRow} {tr : Transition}
    {events : List EventRow} {changes : Nat × Nat} (hwf : WellFormed db)
    (h : transitionBatch now uuid db task tr = some (db', events, changes)) : WellFormed db' := by
  have hframe : db'.rounds = db.rounds ∧ ∃ p g, db'.tasks = Table.update p g db.tasks ∧
      ∀ r : TaskRow, (g r).id = r.id ∧ (g r).currentRound = r.currentRound := by
    simp only [Consensus.transitionBatch] at h
    split at h
    · split at h
      · simp only [Option.some.injEq, Prod.mk.injEq] at h
        obtain ⟨rfl, -, -⟩ := h
        exact ⟨rfl, _, _, rfl, fun _ => ⟨rfl, rfl⟩⟩
      · cases h
    · simp only [Option.some.injEq, Prod.mk.injEq] at h
      obtain ⟨rfl, -, -⟩ := h
      exact ⟨rfl, _, _, rfl, fun _ => ⟨rfl, rfl⟩⟩
  obtain ⟨hrounds, p, g, htasks, hg⟩ := hframe
  exact hwf.keep htasks hg (leaves_close 0) (hrounds.trans (Table.update_eq_self (p := fun _ => false) (fun _ _ => rfl)).symm)

theorem WellFormed.transitionStep {now : Nat} {uuid : Text} {db db' : Db} {c c' : TransitionCall} (hwf : WellFormed db)
    (h : c.step now uuid db = some (db', c')) : WellFormed db' := by
  unfold TransitionCall.step at h
  split at h
  · split at h
    · simp only [Option.some.injEq, Prod.mk.injEq] at h
      exact h.1 ▸ hwf
    · split at h <;> simp only [Option.some.injEq, Prod.mk.injEq] at h <;> exact h.1 ▸ hwf
  · split at h
    · simp only [Option.some.injEq, Prod.mk.injEq] at h
      exact h.1 ▸ hwf
    · rename_i hb
      simp only [Option.some.injEq, Prod.mk.injEq] at h
      exact h.1 ▸ hwf.transitionBatch hb
  · split at h <;> simp only [Option.some.injEq, Prod.mk.injEq] at h <;> exact h.1 ▸ hwf
  · simp only [Option.some.injEq, Prod.mk.injEq] at h
    exact h.1 ▸ hwf
  · cases h
  · cases h

/-! ## The batch that opens a round -/

/-- The batch opens cleanly: the task still is where the call left it, and no round is open but the one it read. -/
def opensCleanly (db : Db) (currentRound : RoundRow) (reissued : TaskRow) : Bool :=
  db.tasks.any (advanceGuard reissued) &&
    (db.roundsOf reissued.id).all (fun r => !r.isOpen || decide (r.id = currentRound.id))

theorem advanceGuard_iff {reissued row : TaskRow} : advanceGuard reissued row = true ↔
    row.id = reissued.id ∧ row.state = .reissued ∧ row.currentRound = reissued.currentRound := by
  simp [advanceGuard, and_assoc]

theorem opensCleanly_iff {db : Db} {currentRound : RoundRow} {reissued : TaskRow} :
    opensCleanly db currentRound reissued = true ↔ (∃ row ∈ db.tasks, advanceGuard reissued row = true) ∧
      ∀ r ∈ db.roundsOf reissued.id, r.isOpen = true → r.id = currentRound.id := by
  simp only [opensCleanly, Bool.and_eq_true, List.any_eq_true, List.all_eq_true, Bool.or_eq_true, Bool.not_eq_true',
    decide_eq_true_eq]
  refine and_congr_right (fun _ => forall_congr' (fun r => forall_congr' (fun _ => ?_)))
  cases r.isOpen <;> simp

theorem admitsRound_iff {db : Db} {round : RoundRow} (h : db.admitsRound round = true) :
    (∀ r ∈ db.roundsOf round.taskVersionId, r.roundNumber ≠ round.roundNumber) ∧
      ∃ t ∈ db.tasks, t.id = round.taskVersionId := by
  simp only [Db.admitsRound, Bool.and_eq_true, Bool.not_eq_true', List.any_eq_false, Bool.or_eq_true,
    decide_eq_true_eq, List.any_eq_true] at h
  refine ⟨fun r hr hn => ?_, h.1.2⟩
  obtain ⟨hr, ht⟩ := List.mem_filter.1 hr
  exact h.1.1 r hr (.inr ⟨by simpa using ht, hn⟩)

section Opened

variable {c : ReissueCall} {now : Nat} {db : Db} {currentRound : RoundRow} {reissued : TaskRow}

theorem roundsOf_opened (id : Text) : (c.opened now db currentRound reissued).roundsOf id =
    leaveRound currentRound.id (supersede c.reason now) (db.roundsOf id) ++
      if reissued.id = id then [c.nextRound now currentRound reissued] else [] := by
  unfold Db.roundsOf ReissueCall.opened
  rw [List.filter_append]
  congr 1
  · exact Table.filter_update (fun r => rfl)
  · by_cases h : reissued.id = id <;> simp [ReissueCall.nextRound, h]

/-- **A batch that opens cleanly keeps the rounds well formed.** -/
theorem WellFormed.opened (h : WellFormed db)
    (hadm : db.admitsRound (c.nextRound now currentRound reissued) = true)
    (hclean : opensCleanly db currentRound reissued = true) : WellFormed (c.opened now db currentRound reissued) := by
  obtain ⟨⟨row₀, hrow₀, hg₀⟩, hopen⟩ := opensCleanly_iff.1 hclean
  obtain ⟨hid₀, -, hcur₀⟩ := advanceGuard_iff.1 hg₀
  have hf := leaves_supersede c.reason now
  refine ⟨h.keyed.update (fun _ => rfl), fun row hrow => ?_⟩
  obtain ⟨x, hx, rfl⟩ := Table.mem_update.1 hrow
  have hwf := h.rounds x hx
  by_cases hid : x.id = reissued.id
  · -- the task of the batch: its counter moves to the round inserted
    have hxrow : x = row₀ := h.keyed.eq_of_key hx hrow₀ (hid.trans hid₀.symm)
    subst hxrow
    rw [hg₀, if_pos rfl]
    have hr : (c.opened now db currentRound reissued).roundsOf x.id =
        leaveRound currentRound.id (supersede c.reason now) (db.roundsOf x.id) ++
          [c.nextRound now currentRound reissued] := by rw [roundsOf_opened, if_pos hid.symm]
    refine .of_current ?_ (fun n => ?_) (fun r hmem ho => ?_)
    · show Table.Keyed _ ((c.opened now db currentRound reissued).roundsOf x.id)
      rw [hr]
      refine (hwf.distinct.update hf.number).append (fun r hr' hn => ?_)
      obtain ⟨y, hy, hyn⟩ := (hf.numbers r.roundNumber).1 ⟨r, hr', rfl⟩
      exact (admitsRound_iff hadm).1 y (by rw [hid] at hy; exact hy) (hyn.trans hn)
    · show (∃ r ∈ (c.opened now db currentRound reissued).roundsOf x.id, r.roundNumber = n) ↔
        1 ≤ n ∧ n ≤ reissued.currentRound + 1
      rw [hr]
      have hold : (∃ r ∈ leaveRound currentRound.id (supersede c.reason now) (db.roundsOf x.id), r.roundNumber = n) ↔ _ :=
        (hf.numbers n).trans (hwf.numbers n)
      constructor
      · rintro ⟨r, hmem, hn⟩
        rcases List.mem_append.1 hmem with hmem | hmem
        · have := hold.1 ⟨r, hmem, hn⟩
          omega
        · rw [List.mem_singleton.1 hmem] at hn
          have : reissued.currentRound + 1 = n := hn
          omega
      · intro hn
        by_cases hlast : n = reissued.currentRound + 1
        · exact ⟨_, List.mem_append_right _ (List.mem_singleton.2 rfl), hlast.symm⟩
        · obtain ⟨r, hmem, hrn⟩ := hold.2 (by omega)
          exact ⟨r, List.mem_append_left _ hmem, hrn⟩
    · have hmem : r ∈ (c.opened now db currentRound reissued).roundsOf x.id := hmem
      rw [hr] at hmem
      rcases List.mem_append.1 hmem with hmem | hmem
      · obtain ⟨hold, hne⟩ := hf.mem_open hmem ho
        have hrid := hopen r (by rw [← hid]; exact hold) ho
        simp only [Bool.and_eq_false_iff, decide_eq_false_iff_not] at hne
        exact hne.elim (fun hne => absurd hrid hne) (fun hne => absurd (by simpa [RoundRow.isOpen] using ho) hne)
      · rw [List.mem_singleton.1 hmem]; rfl
  · have hg : advanceGuard reissued x = false := Bool.eq_false_iff.2 (fun hg => hid (advanceGuard_iff.1 hg).1)
    rw [hg, if_neg (by simp)]
    exact hwf.leave hf rfl rfl (by rw [roundsOf_opened, if_neg (fun e => hid e.symm), List.append_nil]; rfl)

/-- **The batch keeps the rounds well formed exactly when it opens cleanly.** -/
theorem opened_wellFormed_iff (h : WellFormed db)
    (hadm : db.admitsRound (c.nextRound now currentRound reissued) = true) :
    WellFormed (c.opened now db currentRound reissued) ↔ opensCleanly db currentRound reissued = true := by
  refine ⟨fun hwf' => ?_, h.opened hadm⟩
  obtain ⟨hfresh, row, hrow, hid⟩ := admitsRound_iff hadm
  have hid : row.id = reissued.id := hid
  have hf := leaves_supersede c.reason now
  have hwf := h.rounds row hrow
  have hr : (c.opened now db currentRound reissued).roundsOf row.id =
      leaveRound currentRound.id (supersede c.reason now) (db.roundsOf row.id) ++
        [c.nextRound now currentRound reissued] := by rw [roundsOf_opened, if_pos hid.symm]
  have hnew : c.nextRound now currentRound reissued ∈ (c.opened now db currentRound reissued).roundsOf row.id := by
    rw [hr]; exact List.mem_append_right _ (List.mem_singleton.2 rfl)
  have hguard : advanceGuard reissued row = true := by
    by_contra hg
    -- the counter did not move, so the number inserted was a round's already
    have hsame := hwf'.rounds row (Table.mem_update.2 ⟨row, hrow, by rw [if_neg hg]⟩)
    have hle := (hsame.numbers _).1 ⟨_, hnew, rfl⟩
    obtain ⟨r, hmem, hn⟩ := (hwf.numbers _).2 hle
    exact hfresh r (by rw [hid] at hmem; exact hmem) hn
  refine opensCleanly_iff.2 ⟨⟨row, hrow, hguard⟩, fun r hmem ho => ?_⟩
  by_contra hne
  have hmoved := hwf'.rounds _ (Table.mem_update.2 ⟨row, hrow, by rw [if_pos hguard]⟩)
  have hstays : r ∈ (c.opened now db currentRound reissued).roundsOf row.id := by
    rw [hr]
    refine List.mem_append_left _ (Table.mem_update.2 ⟨r, by rw [hid]; exact hmem, ?_⟩)
    rw [if_neg]
    simp [hne]
  have h1 : r.roundNumber = reissued.currentRound + 1 := hmoved.current r hstays ho
  have h2 : r.roundNumber = row.currentRound := hwf.current r (by rw [hid]; exact hmem) ho
  have h3 := (advanceGuard_iff.1 hguard).2.2
  omega

end Opened

/-! ## Runs -/

/-- The condition on a step: if it is the batch of a reissue and the next round is admitted, the batch opens cleanly. -/
def World.opensCleanly (w : World) : Action → Bool
  | .advanceReissue i now =>
    match w.reissues[i]? with
    | none => true
    | some c => match c.stage with
      | .opening currentRound reissued => !w.db.admitsRound (c.nextRound now currentRound reissued) ||
        Consensus.opensCleanly w.db currentRound reissued
      | _ => true
  | _ => true

theorem WellFormed.step {w w' : World} {a : Action} (h : WellFormed w.db) (hc : w.opensCleanly a = true)
    (hs : w.step a = some w') : WellFormed w'.db := by
  cases a with
  | call task tr =>
    simp only [World.step, Option.some.injEq] at hs
    subst hs; exact h
  | advance i now uuid =>
    simp only [World.step] at hs
    split at hs
    · cases hs
    obtain ⟨⟨db, c'⟩, hstep, rfl⟩ := Option.map_eq_some_iff.1 hs
    exact h.transitionStep hstep
  | abandon i =>
    simp only [World.step] at hs
    split at hs
    · cases hs
    obtain ⟨c', -, rfl⟩ := Option.map_eq_some_iff.1 hs
    exact h
  | reissue task reason actor =>
    simp only [World.step, Option.some.injEq] at hs
    subst hs; exact h
  | advanceReissue i now =>
    simp only [World.step] at hs
    split at hs
    · cases hs
    rename_i c hci
    obtain ⟨⟨db, calls, c'⟩, hstep, rfl⟩ := Option.map_eq_some_iff.1 hs
    obtain ⟨hdb | ⟨currentRound, reissued, hstage, hadm, hdb⟩, -⟩ := ReissueCall.step_spec hstep
    · subst hdb; exact h
    · subst hdb
      simp only [World.opensCleanly, hci, hstage, hadm, Bool.not_true, Bool.false_or] at hc
      exact h.opened hadm hc
  | closeRound id now =>
    simp only [World.step, Option.some.injEq] at hs
    subst hs
    exact h.keep (q := fun _ => false) (g := fun r => r) (Table.update_eq_self (fun _ _ => rfl)).symm
      (fun _ => ⟨rfl, rfl⟩) (leaves_close now) rfl

/-- **The rounds stay well formed in every run whose round batches open cleanly.** -/
theorem rounds_wellFormed {w₀ w : World} (h₀ : WellFormed w₀.db)
    (hrun : store.Steps (fun w a => w.opensCleanly a = true) w₀ w) : ∀ row ∈ w.db.tasks, RoundsWellFormed w.db row :=
  (hrun.invariant (I := fun w => WellFormed w.db) h₀ (fun _ _ _ hx hc hs => hx.step hc hs)).rounds

theorem wellFormed_registered (id : Text) (now : Nat) : WellFormed (registered id now).db := by
  refine ⟨List.nodup_singleton _, fun row hrow => ?_⟩
  have hrow := List.mem_singleton.1 hrow
  subst hrow
  have hr : (registered id now).db.roundsOf id = (registered id now).db.rounds := by
    simp [Db.roundsOf, registered, Db.register, insertOrIgnore]
  refine .of_current ?_ (fun n => ?_) (fun r hmem _ => ?_)
  · show Table.Keyed _ ((registered id now).db.roundsOf id)
    rw [hr]; exact List.nodup_singleton _
  · show (∃ r ∈ (registered id now).db.roundsOf id, r.roundNumber = n) ↔ 1 ≤ n ∧ n ≤ 1
    rw [hr]
    constructor
    · rintro ⟨r, hmem, hn⟩
      rw [List.mem_singleton.1 hmem] at hn
      have : 1 = n := hn
      omega
    · intro hn
      exact ⟨_, List.mem_singleton.2 rfl, Nat.le_antisymm hn.1 hn.2⟩
  · have hmem : r ∈ (registered id now).db.roundsOf id := hmem
    rw [hr] at hmem
    rw [List.mem_singleton.1 hmem]

def escalate : Transition where
  toState := .escalated
  eventType := "independent-quorum-expired".toList
  reasonCode := "missing-quorum-deadline".toList
  idempotencyKey := "deadline-expired:t:r1".toList

/-- The task `t` is opened for review and escalated at its deadline. -/
def escalation : List Action :=
  let underReview := review.applyTo "e1".toList 1 openRow
  [.call openRow review, .advance 0 1 "e1".toList, .advance 0 1 "e1".toList, .advance 0 1 "e1".toList,
    .advance 0 1 "e1".toList, .call underReview escalate, .advance 1 2 "e2".toList, .advance 1 2 "e2".toList,
    .advance 1 2 "e2".toList, .advance 1 2 "e2".toList]

def escalatedRow : TaskRow := escalate.applyTo "e2".toList 2 (review.applyTo "e1".toList 1 openRow)

/-- A reissue of `t` runs to its end, with no other call in between. -/
def aloneReissue : List Action :=
  escalation ++ [.reissue escalatedRow .missingQuorumDeadline none, .advanceReissue 0 3,
    .advance 2 3 "e3".toList, .advance 2 3 "e3".toList, .advance 2 3 "e3".toList, .advance 2 3 "e3".toList,
    .advanceReissue 0 3, .advanceReissue 0 3, .advanceReissue 0 3,
    .advance 3 4 "e4".toList, .advance 3 4 "e4".toList, .advance 3 4 "e4".toList, .advance 3 4 "e4".toList,
    .advanceReissue 0 4]

def aloneReissued : World := (store.run (registered "t".toList 0) aloneReissue).get (by decide)

theorem rounds_wellFormed_alone :
    RoundsWellFormed aloneReissued.db (aloneReissued.db.tasks.head (by decide)) :=
  rounds_wellFormed (wellFormed_registered "t".toList 0) (Machine.steps_of_isSome _ (by decide)) _ (List.head_mem _)

/-- A second reissue of `t` from the same copy of its row, for the same reason, after the first: it takes the first
one's transition for its own, reads the moved row and inserts a further round, then throws because the task has left
`reissued`. -/
def twinReissue : List Action :=
  aloneReissue ++ [.reissue escalatedRow .missingQuorumDeadline none, .advanceReissue 1 5,
    .advance 4 5 "e5".toList, .advance 4 5 "e5".toList, .advanceReissue 1 5, .advanceReissue 1 5]

def twinReissued : World := (store.run (registered "t".toList 0) twinReissue).get (by decide)

/-- **A reissue that throws may leave a second round open.** -/
theorem rounds_not_wellFormed : ¬ ∀ w, store.Reaches (registered "t".toList 0) w →
    ∀ row ∈ w.db.tasks, RoundsWellFormed w.db row := by
  intro h
  have htwo : ∃ row ∈ twinReissued.db.tasks, (twinReissued.db.roundsOf row.id).countP RoundRow.isOpen = 2 := by decide
  obtain ⟨row, hmem, htwo⟩ := htwo
  have hone := (h twinReissued (Machine.reaches_of_isSome _) row hmem).oneOpen
  omega

end Consensus
end Adg
