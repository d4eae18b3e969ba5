import AdgLang.PortalDiscipline
/-!
# PortalInvariant — the tables stay sound

Every command that is run where its fact holds keeps `Store.Sound`.  A row of the tables after a command is one that
stood before, or one whose grounds are in the command's fact (`Origins`); what the invariant says of a row is not undone
by the rows of others (`Store.Grows`).
-/
namespace Adg
namespace Portal

open Js Consensus

/-! ## Rows and where they come from -/

/-- What the invariant says of the rows, without the keys. -/
structure Store.RowsOk (s : Store) : Prop where
  tasks : ∀ t ∈ s.tasks, s.TaskOk t
  events : ∀ e ∈ s.events, EventOk e
  submissions : ∀ p ∈ s.submissions, s.SubmissionOk p
  finals : ∀ f ∈ s.finals, s.FinalOk f
  appeals : ∀ a ∈ s.appeals, s.AppealOk a
  outbox : ∀ o ∈ s.outbox, s.OutboxOk o

theorem Store.Sound.rows {s : Store} (h : s.Sound) : s.RowsOk :=
  ⟨h.tasks, h.events, h.submissions, h.finals, h.appeals, h.outbox⟩

/-- The rows after a command stood before it or are accounted for; a table that is not written is not mentioned. -/
structure Origins (s s' : Store) : Prop where
  tasks : ∀ t ∈ s'.tasks, t ∈ s.tasks ∨ s'.TaskOk t := by exact fun _ h => .inl h
  events : ∀ e ∈ s'.events, e ∈ s.events ∨ EventOk e := by exact fun _ h => .inl h
  submissions : ∀ p' ∈ s'.submissions, (∃ p ∈ s.submissions, SubmissionGrows p p') ∨ s'.SubmissionOk p' := by
    exact fun p h => .inl ⟨p, h, rfl⟩
  finals : ∀ f ∈ s'.finals, f ∈ s.finals ∨ s'.FinalOk f := by exact fun _ h => .inl h
  appeals : ∀ a' ∈ s'.appeals, (∃ a ∈ s.appeals, AppealGrows a a') ∨ s'.AppealOk a' := by
    exact fun a h => .inl ⟨a, h, .refl a⟩
  outbox : ∀ o' ∈ s'.outbox, (∃ o ∈ s.outbox, OutboxGrows o o' ∧
    (o'.status = .pending → o.status = .pending ∨ s'.Releasable o')) ∨ s'.OutboxOk o' := by
    exact fun o h => .inl ⟨o, h, .refl o, .inl⟩

/-- A command that leaves the other tables as they are. -/
theorem Origins.of_outbox {s s' : Store} (htasks : s'.tasks = s.tasks) (hevents : s'.events = s.events)
    (hsubmissions : s'.submissions = s.submissions) (hfinals : s'.finals = s.finals) (happeals : s'.appeals = s.appeals)
    (houtbox : ∀ o' ∈ s'.outbox, (∃ o ∈ s.outbox, OutboxGrows o o' ∧
      (o'.status = .pending → o.status = .pending ∨ s'.Releasable o')) ∨ s'.OutboxOk o') : Origins s s' where
  tasks := by
    rw [htasks]
    exact fun _ h => .inl h
  events := by
    rw [hevents]
    exact fun _ h => .inl h
  submissions := by
    rw [hsubmissions]
    exact fun p h => .inl ⟨p, h, rfl⟩
  finals := by
    rw [hfinals]
    exact fun _ h => .inl h
  appeals := by
    rw [happeals]
    exact fun a h => .inl ⟨a, h, .refl a⟩
  outbox := houtbox

/-- A command that writes other tables only. -/
theorem Origins.of_same {s s' : Store} (htasks : s'.tasks = s.tasks) (hevents : s'.events = s.events)
    (hsubmissions : s'.submissions = s.submissions) (hfinals : s'.finals = s.finals) (happeals : s'.appeals = s.appeals)
    (houtbox : s'.outbox = s.outbox) : Origins s s' := by
  refine .of_outbox htasks hevents hsubmissions hfinals happeals ?_
  rw [houtbox]
  exact fun o h => .inl ⟨o, h, .refl o, .inl⟩

theorem Store.SubmissionOk.imported {s : Store} {p p' : Submission} (h : s.SubmissionOk p) (hpp : SubmissionGrows p p') :
    s.SubmissionOk p' := by
  rw [hpp]
  exact ⟨h.active, h.round, h.reached, h.participates, h.family, h.bound⟩

theorem Store.AppealOk.of_grows {s : Store} {a a' : Appeal} (h : s.AppealOk a) (haa : AppealGrows a a') : s.AppealOk a' := by
  unfold Store.AppealOk at *
  rw [haa.final, haa.task, haa.round]
  exact h

theorem Store.Releasable.of_grows {s : Store} {o o' : OutboxRow} (h : s.Releasable o) (hoo : OutboxGrows o o') :
    s.Releasable o' := by
  unfold Store.Releasable at *
  rw [hoo.kind, hoo.related]
  exact h

theorem Store.Stems.of_grows {s : Store} {o o' : OutboxRow} (h : s.Stems o) (hoo : OutboxGrows o o') : s.Stems o' := by
  unfold Store.Stems at *
  rw [hoo.kind, hoo.related, hoo.blob, hoo.dedupe, hoo.task]
  exact h

theorem Store.RowsOk.next {s s' : Store} (h : s.RowsOk) (hg : s.Grows s') (ho : Origins s s') : s'.RowsOk where
  tasks t ht := (ho.tasks t ht).elim (fun hm => (h.tasks t hm).grows hg) id
  events e he := (ho.events e he).elim (h.events e) id
  submissions p' hp' := by
    obtain ⟨p, hp, hpp⟩ | hok := ho.submissions p' hp'
    · exact ((h.submissions p hp).grows hg).imported hpp
    · exact hok
  finals f hf := (ho.finals f hf).elim (fun hm => (h.finals f hm).grows hg) id
  appeals a' ha' := by
    obtain ⟨a, ha, haa⟩ | hok := ho.appeals a' ha'
    · exact ((h.appeals a ha).grows hg).of_grows haa
    · exact hok
  outbox o' ho' := by
    obtain ⟨o, hmem, hoo, hpending⟩ | hok := ho.outbox o' ho'
    · have hold := (h.outbox o hmem).grows hg
      exact ⟨hold.stems.of_grows hoo, fun hs => (hpending hs).elim (fun ho => (hold.pending ho).of_grows hoo) id⟩
    · exact hok

/-- An update of the outbox that makes no row pending. -/
theorem origins_update {s s' : Store} {p : OutboxRow → Bool} {f : OutboxRow → OutboxRow}
    (houtbox : s'.outbox = Table.update p f s.outbox) (hf : ∀ r, OutboxGrows r (f r))
    (hpending : ∀ r, (f r).status ≠ .pending) :
    ∀ o' ∈ s'.outbox, (∃ o ∈ s.outbox, OutboxGrows o o' ∧
      (o'.status = .pending → o.status = .pending ∨ s'.Releasable o')) ∨ s'.OutboxOk o' := by
  intro o' ho'
  rw [houtbox] at ho'
  obtain ⟨o, ho, rfl⟩ := Table.mem_update.1 ho'
  refine .inl ⟨o, ho, ?_⟩
  split
  · exact ⟨hf o, fun h => absurd h (hpending o)⟩
  · exact ⟨.refl o, .inl⟩

/-! ## Registrations -/

theorem register_eq {s s' : Store} {row : EvidenceRow} {now : Nat} (h : s.register row now = some s') :
    s' = { s.setDb (s.db.register row.id now) with evidence := s.evidence.insert row } := by
  unfold Store.register at h
  split at h
  · cases h
  · exact (Option.some.inj h).symm

/-- The event that a registration inserts is the task's opening event, and so is the one that it finds in its place. -/
theorem register_opening {s : Store} (h : s.RowsOk) (id : Text) (now : Nat) :
    ∃ e ∈ (s.db.register id now).events, e.id = initialEventId id ∧ e.taskVersionId = id ∧ e.toState = .opened := by
  by_cases hany : s.db.events.any (fun e => decide (e.id = initialEventId id) ||
      decide (e.idempotencyKey = initialEventId id)) = true
  · obtain ⟨e, he, hconflict⟩ := List.any_eq_true.1 hany
    simp only [Bool.or_eq_true, decide_eq_true_eq] at hconflict
    exact ⟨e, subset_insertOrIgnore he, h.events e he id hconflict⟩
  · simp only [Db.register, insertOrIgnore]
    rw [if_neg hany]
    exact ⟨_, List.mem_append_right _ (List.mem_singleton.2 rfl), rfl, rfl, rfl⟩

theorem register_origins {s s' : Store} {row : EvidenceRow} {now : Nat} (h : s.RowsOk)
    (hs : s.register row now = some s') : Origins s s' := by
  rw [register_eq hs]
  refine ⟨fun t ht => ?_, fun e he => ?_, fun p h => .inl ⟨p, h, rfl⟩, fun _ h => .inl h,
    fun a h => .inl ⟨a, h, .refl a⟩, fun o h => .inl ⟨o, h, .refl o, .inl⟩⟩
  · rcases mem_insertOrIgnore ht with ht | rfl
    · exact .inl ht
    · obtain ⟨e, he, hid, htask, hstate⟩ := register_opening h row.id now
      exact .inr ⟨⟨e, he, hid, htask, hstate⟩, ⟨e, he, hid, htask⟩, trivial⟩
  · rcases mem_insertOrIgnore he with he | rfl
    · exact .inl he
    · refine .inr (fun id hid => ?_)
      obtain rfl : row.id = id := hid.elim initialEventId_inj initialEventId_inj
      exact ⟨rfl, rfl, rfl⟩

/-! ## Transitions -/

theorem Store.Sound.registered {s : Store} (h : s.Sound) : s.db.Registered where
  tasks := h.keys.consensus.tasks
  events := h.keys.consensus.events
  keys := h.keys.consensus.eventKeys
  logged t ht := by
    obtain ⟨e, he, hid, -⟩ := (h.tasks t ht).logged
    exact ⟨e, he, hid⟩

/-- The row that a transition was given, where the guard still finds its version. -/
theorem Store.Seen.current {s : Store} {task row : TaskRow} (h : s.Sound) (hseen : s.Seen task) (hrow : row ∈ s.tasks)
    (hid : row.id = task.id) (hversion : row.stateVersion = task.stateVersion) :
    row.lastEventId = task.lastEventId ∧ row.activeFinalReceiptId = task.activeFinalReceiptId ∧
      row.appealDeadlineAt = task.appealDeadlineAt ∧ (task.state ≠ .reissued → row.currentRound = task.currentRound) := by
  obtain ⟨⟨t, ht, htt⟩, -⟩ := hseen
  obtain rfl : row = t := h.keys.consensus.tasks.eq_of_key hrow ht (hid.trans htt.id.symm)
  obtain ⟨-, h2, h3, h4⟩ := htt.same hversion
  exact ⟨h2, h3, h4, htt.sameRound hversion⟩

namespace Store.Legit

variable {s : Store} {task : TaskRow} {tr : Transition}

theorem eventId (h : s.Legit task tr) : tr.eventId = none := by cases h <;> rfl

theorem createdAt (h : s.Legit task tr) : tr.createdAt = none := by cases h <;> rfl

/-- No handler takes the key of an opening event. -/
theorem key_ne (h : s.Legit task tr) (id : Text) : tr.idempotencyKey ≠ initialEventId id := by
  have hid : (initialEventId id).take 3 = "tas".toList := rfl
  have hkey : tr.idempotencyKey.take 3 ∈
      ["ind".toList, "j1-".toList, "j2-".toList, "dea".toList, "app".toList, "rei".toList, "rou".toList, "pub".toList] := by
    cases h with
    | openIndependent => exact List.mem_of_elem_eq_true rfl
    | quorum => exact List.mem_of_elem_eq_true rfl
    | proposal => exact List.mem_of_elem_eq_true rfl
    | ratification => exact List.mem_of_elem_eq_true rfl
    | expiry => exact List.mem_of_elem_eq_true rfl
    | appealEscalation => exact List.mem_of_elem_eq_true rfl
    | reissue => exact List.mem_of_elem_eq_true rfl
    | openReview => exact List.mem_of_elem_eq_true rfl
    | publication => exact List.mem_of_elem_eq_true rfl
  intro heq
  rw [heq, hid] at hkey
  revert hkey
  decide

end Store.Legit

/-- What the batch of a transition leaves: the tables as they were, or one row moved and the move logged. -/
structure Moved (s s' : Store) (x : Outside) (task : TaskRow) (tr : Transition) (row : TaskRow) : Prop where
  mem : row ∈ s.tasks
  guard : tr.guard s.db task s.clock row = true
  admits : s.db.admitsEvent (tr.event task x.uuid.1 s.clock) = true
  eq : s' = s.setDb (s.db.moved tr task x.uuid.1 s.clock)

/-- The event of a batch has the identifier and the time that the call drew. -/
theorem transitionBatch_events {now : Nat} {uuid : Text} {db db' : Db} {task : TaskRow} {tr : Transition}
    {events : List EventRow} {changes : Nat × Nat} (h : transitionBatch now uuid db task tr = some (db', events, changes)) :
    events = [] ∨ events = [tr.event task (tr.eventId.getD uuid) (tr.createdAt.getD now)] := by
  simp only [transitionBatch] at h
  split at h
  · split at h
    · simp only [Option.some.injEq, Prod.mk.injEq] at h
      exact .inr h.2.1.symm
    · cases h
  · simp only [Option.some.injEq, Prod.mk.injEq] at h
    exact .inl h.2.1.symm

theorem transition_cases {s s' : Store} {x : Outside} {task : TaskRow} {tr : Transition} (h : s.Sound)
    (hlegit : s.Legit task tr) (happly : (Write.transition task tr).apply x.uuid.1 s = some s') :
    s' = s ∨ ∃ row, Moved s s' x task tr row := by
  obtain ⟨⟨db', events, changes⟩, hbatch, rfl⟩ := Option.map_eq_some_iff.1 happly
  obtain ⟨rfl, -, -⟩ | ⟨⟨row, eventId, now, hrow, hguard, hadmits, rfl, hevents⟩, -⟩ :=
    transitionBatch_spec h.registered hbatch
  · exact .inl rfl
  · have hdrawn := transitionBatch_events hbatch
    rw [hlegit.eventId, hlegit.createdAt, hevents] at hdrawn
    obtain hnil | hone := hdrawn
    · cases hnil
    · obtain ⟨rfl, rfl⟩ : eventId = x.uuid.1 ∧ now = s.clock := by
        simp only [List.cons.injEq, and_true] at hone
        exact ⟨congrArg EventRow.id hone, congrArg EventRow.createdAt hone⟩
      exact .inr ⟨row, hrow, hguard, hadmits, rfl⟩

/-! ### What the moved row stands on -/

section Moved

variable {s s' : Store} {x : Outside} {task row : TaskRow} {tr : Transition}

theorem Moved.tasks (hm : Moved s s' x task tr row) :
    s'.tasks = Table.update (tr.guard s.db task s.clock) (tr.applyTo x.uuid.1 s.clock) s.tasks := by
  rw [hm.eq]
  rfl

theorem Moved.events (hm : Moved s s' x task tr row) : s'.events = s.events ++ [tr.event task x.uuid.1 s.clock] := by
  rw [hm.eq]
  rfl

/-- The guard leaves one row for the update. -/
theorem Moved.of_mem (hm : Moved s s' x task tr row) (h : s.Sound) {t : TaskRow} (ht : t ∈ s'.tasks) :
    (t ∈ s.tasks ∧ t.id ≠ row.id) ∨ t = tr.applyTo x.uuid.1 s.clock row := by
  rw [hm.tasks] at ht
  obtain ⟨t₀, ht₀, rfl⟩ := Table.mem_update.1 ht
  by_cases hid : t₀.id = row.id
  · obtain rfl := h.keys.consensus.tasks.eq_of_key ht₀ hm.mem hid
    rw [hm.guard]
    exact .inr rfl
  · have hno : tr.guard s.db task s.clock t₀ = false :=
      Bool.eq_false_iff.2 (fun hg => hid ((Transition.guard_iff hg).1.trans (Transition.guard_iff hm.guard).1.symm))
    rw [hno]
    exact .inl ⟨ht₀, hid⟩

theorem Moved.mem_moved (hm : Moved s s' x task tr row) : tr.applyTo x.uuid.1 s.clock row ∈ s'.tasks := by
  rw [hm.tasks]
  exact Table.mem_update.2 ⟨row, hm.mem, by rw [hm.guard]; rfl⟩

theorem Moved.hasKey (hm : Moved s s' x task tr row) : s'.hasKey tr.idempotencyKey = true := by
  refine Db.hasKey_iff.2 ⟨tr.event task x.uuid.1 s.clock, ?_, rfl⟩
  rw [Store.db_events, hm.events]
  exact List.mem_append_right _ (List.mem_singleton.2 rfl)

theorem Moved.fresh (hm : Moved s s' x task tr row) : s.hasKey tr.idempotencyKey = false := by
  rw [Bool.eq_false_iff]
  intro hkey
  obtain ⟨e, he, hk⟩ := Db.hasKey_iff.1 hkey
  exact (Db.admitsEvent_fresh hm.admits).2 e he hk

theorem Moved.grows (hm : Moved s s' x task tr row) : s.Grows s' := by
  rw [hm.eq]
  exact { Store.Grows.refl s with
    tasks := .update TaskGrows.refl (fun r _ _ => applyTo_grows r)
    events := List.subset_append_left _ _ }

/-- Only tasks and events are written. -/
theorem Moved.submissions (hm : Moved s s' x task tr row) : s'.submissions = s.submissions := by
  rw [hm.eq]
  rfl

theorem Moved.rounds (hm : Moved s s' x task tr row) : s'.rounds = s.rounds := by
  rw [hm.eq]
  rfl

/-- **What the new state says of the round holds**, by the grounds of the transition. -/
theorem Moved.backs (hm : Moved s s' x task tr row) (h : s.Sound) (hfact : (Write.transition task tr).Fact s) :
    s'.Backs (tr.applyTo x.uuid.1 s.clock row) := by
  obtain ⟨hseen, hallowed, hlegit⟩ := hfact
  obtain ⟨hid, hstate, hversion⟩ := Transition.guard_iff hm.guard
  obtain ⟨-, hfinal, -, hround⟩ := hseen.current h hm.mem hid hversion
  have hbacks := ((h.tasks row hm.mem).backs).grows hm.grows
  have hg := hm.grows
  cases hlegit with
  | openIndependent => trivial
  | quorum => trivial
  | openReview => trivial
  | reissue => trivial
  | proposal round primary novelCount hstate' hisround hstands hprimary hnovel =>
    have hthere : s'.IsRound round.id row.id row.currentRound := by
      rw [hid, hround (by rw [hstate']; nofun)]
      exact hisround.grows hg
    obtain ⟨p, hp, hpp⟩ := hstands.grows hg
    have hp' : p.roundId = round.id ∧ p.novelDecisions = some novelCount := by
      rw [hpp]
      exact ⟨hprimary, hnovel⟩
    by_cases hn : 0 < novelCount
    · refine (Store.backs_escalated (.inl (if_pos hn))).2 ⟨round.id, hthere, ?_⟩
      exact .inr (.inl ⟨p, hp, hp'.1, novelCount, hp'.2, hn⟩)
    · refine (Store.backs_finalReview (if_neg hn)).2 ⟨round.id, hthere, p, hp, hp'.1, ?_⟩
      rw [hp'.2, Nat.eq_zero_of_not_pos hn]
  | ratification round secondary decision primaryReceiptId root now hstate' hisround hstands hsecondary hartifact =>
    have hthere : s'.IsRound round.id row.id row.currentRound := by
      rw [hid, hround (by rw [hstate']; nofun)]
      exact hisround.grows hg
    obtain ⟨q, hq, hqq⟩ := hstands.grows hg
    have hq' : q.roundId = round.id ∧ q.receiptId = secondary.receiptId ∧ q.artifact = secondary.artifact := by
      rw [hqq]
      exact ⟨hsecondary, rfl, rfl⟩
    by_cases hd : decision = .agree
    · subst hd
      refine (Store.backs_approved rfl).2 ⟨round.id, hthere, ?_, ?_⟩
      · refine ⟨q, hq, hq'.1, ?_, primaryReceiptId, root, hq'.2.2.trans hartifact, rfl⟩
        rw [hq'.2.1]
        exact hm.hasKey
      · rw [hm.events]
        exact ⟨_, List.mem_append_right _ (List.mem_singleton.2 rfl), rfl, rfl⟩
    · refine (Store.backs_escalated (.inl (if_neg hd))).2 ⟨round.id, hthere, .inr (.inr ⟨q, hq, hq'.1, ?_⟩)⟩
      simp [Submission.role, hq'.2.2, hartifact, Artifact.consensusRole]
  | expiry round hisround =>
    have hthere : s'.IsRound round.id row.id row.currentRound := by
      rw [hid, hround (fun hr => by simp [hr, expiry, allowedTransitions] at hallowed)]
      exact hisround.grows hg
    exact (Store.backs_escalated (.inl rfl)).2 ⟨round.id, hthere, .inl hm.hasKey⟩
  | appealEscalation appeal subjectHash hstate' haccepted htask hrevoked =>
    obtain ⟨rid, hthere, ⟨q, hq, hqround, -, primary, root, hart, -⟩, -⟩ :=
      (Store.backs_approved (hstate.trans hstate')).1 hbacks
    refine (Store.backs_escalated (.inl rfl)).2 ⟨rid, hthere, .inr (.inr ⟨q, hq, hqround, ?_⟩)⟩
    simp [Submission.role, hart, Artifact.consensusRole]
  | publication taskVersionId final receipt guardAt hstate' htask hstands hfinaltask hactive hfin =>
    obtain ⟨rid, hthere, hratified, -⟩ := (Store.backs_approved (hstate.trans hstate')).1 hbacks
    refine (Store.backs_published rfl).2 ⟨rid, hthere, ?_⟩
    have hsame : (publication taskVersionId final receipt guardAt).activeFinalReceiptId.or row.activeFinalReceiptId =
        row.activeFinalReceiptId := by
      rw [hfinal, hfin]
      rfl
    simp only [Transition.applyTo, hsame]
    exact hratified

theorem Moved.origins (hm : Moved s s' x task tr row) (h : s.Sound) (hfact : (Write.transition task tr).Fact s) :
    Origins s s' := by
  have hg := hm.grows
  have hrow := (h.tasks row hm.mem).grows hg
  obtain ⟨hid, -, -⟩ := Transition.guard_iff hm.guard
  constructor
  · intro t ht
    obtain ⟨ht, -⟩ | rfl := hm.of_mem h ht
    · exact .inl ht
    · refine .inr ⟨⟨tr.event task x.uuid.1 s.clock, ?_, rfl, hid.symm, rfl⟩, hrow.opened, hm.backs h hfact⟩
      rw [hm.events]
      exact List.mem_append_right _ (List.mem_singleton.2 rfl)
  · intro e he
    rw [hm.events] at he
    rcases List.mem_append.1 he with he | he
    · exact .inl he
    · obtain rfl := List.mem_singleton.1 he
      exact .inr (fun id hkey => absurd hkey
        (not_or.2 ⟨uuid_ne_initialEventId x.uuid id, hfact.2.2.key_ne id⟩))
  · intro p hp
    rw [hm.submissions] at hp
    exact .inl ⟨p, hp, rfl⟩
  · intro f hf
    rw [hm.eq] at hf
    exact .inl hf
  · intro a ha
    rw [hm.eq] at ha
    exact .inl ⟨a, ha, .refl a⟩
  · intro o ho
    rw [hm.eq] at ho
    exact .inl ⟨o, ho, .refl o, .inl⟩

end Moved

/-! ## The other commands -/

theorem openRound_origins {s s' : Store} {reason : ReissueReason} {currentRound : RoundRow} {reissued : TaskRow}
    (h : s.RowsOk) (hs : s.openRound reason currentRound reissued = some s') : Origins s s' := by
  have hg := openRound_grows hs
  unfold Store.openRound at hs
  split at hs
  · obtain rfl := Option.some.inj hs
    constructor
    · intro t ht
      obtain ⟨t₀, ht₀, rfl⟩ := Table.mem_update.1 ht
      have hok := (h.tasks t₀ ht₀).grows hg
      by_cases hadvance : advanceGuard reissued t₀ = true
      · rw [hadvance]
        refine .inr ⟨hok.logged, hok.opened, ?_⟩
        have hstate : t₀.state = .reissued := (advanceGuard_iff.1 hadvance).2.1
        simp [Store.Backs, hstate]
      · rw [if_neg hadvance]
        exact .inl ht₀
    · exact fun _ h => .inl h
    · exact fun p h => .inl ⟨p, h, rfl⟩
    · exact fun _ h => .inl h
    · exact fun a h => .inl ⟨a, h, .refl a⟩
    · exact origins_update rfl (fun _ => ⟨rfl, rfl, rfl, rfl, rfl, rfl, rfl, rfl⟩) (fun _ => by rintro ⟨⟩)
  · cases hs

theorem release_origins {s : Store} {taskVersionId roundId receiptA receiptB : Text} {time : Nat}
    (hfact : (Write.release taskVersionId roundId receiptA receiptB).Fact s) :
    Origins s { s with
      outbox := Table.update (s.isReleased taskVersionId roundId receiptA receiptB)
        (fun row => { row with status := .pending, nextAttemptAt := time }) s.outbox } := by
  obtain ⟨⟨a, ha, -, haround, harole⟩, b, hb, -, hbround, hbrole⟩ := hfact
  refine .of_outbox rfl rfl rfl rfl rfl (fun o' ho' => ?_)
  obtain ⟨o, ho, rfl⟩ := Table.mem_update.1 ho'
  by_cases hrel : s.isReleased taskVersionId roundId receiptA receiptB o = true
  · rw [hrel]
    refine .inl ⟨o, ho, ⟨rfl, rfl, rfl, rfl, rfl, rfl, rfl, rfl⟩, fun _ => .inr (fun _ => ?_)⟩
    simp only [Store.isReleased, Bool.and_eq_true, decide_eq_true_eq, List.any_eq_true] at hrel
    obtain ⟨-, r, hr, ⟨⟨⟨hrelated, -⟩, hround⟩, -⟩, -⟩ := hrel
    refine ⟨r, hr, hrelated, fun _ => ⟨⟨a, ha, haround.trans hround.symm, harole⟩, ⟨b, hb, hbround.trans hround.symm, hbrole⟩⟩⟩
  · rw [if_neg hrel]
    exact .inl ⟨o, ho, .refl o, .inl⟩

theorem undelivered_origins {s : Store} {id : Text} {f : OutboxRow → OutboxRow} (h : s.Sound)
    (hfact : s.Deliverable id) (hf : ∀ r, OutboxGrows r (f r)) :
    Origins s { s with outbox := Table.update (fun r => decide (r.id = id)) f s.outbox } := by
  obtain ⟨o₀, ho₀, hid, hrel⟩ := hfact
  refine .of_outbox rfl rfl rfl rfl rfl (fun o' ho' => ?_)
  obtain ⟨o, ho, rfl⟩ := Table.mem_update.1 ho'
  by_cases heq : o.id = id
  · obtain rfl : o = o₀ := h.keys.outbox.outbox.eq_of_key ho ho₀ (heq.trans hid.symm)
    rw [if_pos (decide_eq_true heq)]
    exact .inl ⟨o, ho, hf o, fun _ => .inr (hrel.of_grows (hf o))⟩
  · rw [if_neg (by simpa using heq)]
    exact .inl ⟨o, ho, .refl o, .inl⟩

/-! ### A submission -/

section Submit

variable {s : Store} {b : SubmitBatch}

/-- Where the batch commits, nobody has filled the role of the round before. -/
theorem Store.Admits.vacant (h : s.Sound) (ha : s.Admits b) (hk : (s.submit b).Keys) : ¬ s.Filled b.row.roundId b.row.role := by
  rintro ⟨q, hq, hround, hrole⟩
  obtain ⟨-, htask, hnumber⟩ := h.round_inj (h.submissions q hq).round ha.round (.inl hround)
  exact Table.Keyed.of_append hk.participation.submissionRoles q hq (by simp only [htask, hnumber, hrole])

theorem submit_bound (h : s.Sound) (ha : s.Admits b) (hk : (s.submit b).Keys) : (s.submit b).Bound b.row := by
  have hg := submit_grows s b
  have hvacant := ha.vacant h hk
  have hbinds := ha.bound
  unfold Store.BindsTo at hbinds
  unfold Store.Bound
  cases hart : b.row.artifact with
  | annotated root => trivial
  | adjudication annotationA annotationB root novelDecisions =>
    rw [hart] at hbinds
    refine ⟨hg.exists_submission (fun p p' hpp hp => ?_) hbinds.1, hg.exists_submission (fun p p' hpp hp => ?_) hbinds.2, ?_⟩
    · rw [hpp]
      exact hp
    · rw [hpp]
      exact hp
    · simp only [Store.HasFinal, Store.submit, finalsAfter, hart]
      exact ⟨_, List.mem_append_right _ (List.mem_singleton.2 rfl), rfl, rfl, rfl, rfl⟩
  | ratification decision primary root =>
    rw [hart] at hbinds
    refine ⟨hbinds.grows hg, ?_⟩
    rintro rfl
    obtain ⟨f, hf, hprimary, htask, hround, hroot⟩ := hbinds
    have hok := h.finals f hf
    by_cases hproposed : f.status = .proposed
    · have hratified : isRatifiedBy b.row primary root f = true := by
        simp [isRatifiedBy, hprimary, htask, hround, hroot, hproposed, hok.proposed hproposed]
      refine ⟨{ f with secondaryReceiptId := some b.row.receiptId, status := .active }, ?_, hprimary, rfl, .inl rfl⟩
      simp only [Store.submit, finalsAfter, hart]
      exact Table.mem_update.2 ⟨f, hf, by rw [hratified]; rfl⟩
    · -- another J2 would have agreed in this round
      obtain ⟨q, hq, -, hqround, hqart⟩ := hok.seconded hproposed
      refine absurd ⟨q, hq, hqround.trans hround, ?_⟩ hvacant
      simp [Submission.role, hqart, hart, Artifact.consensusRole]

theorem submit_finals (h : s.Sound) (f : FinalResult) (hf : f ∈ (s.submit b).finals) :
    f ∈ s.finals ∨ (s.submit b).FinalOk f := by
  have hmem : b.row ∈ (s.submit b).submissions := List.mem_append_right _ (List.mem_singleton.2 rfl)
  have hfinals : (s.submit b).finals = finalsAfter b.row s.finals := rfl
  rw [hfinals] at hf
  unfold finalsAfter at hf
  split at hf
  · rename_i hart
    rcases List.mem_append.1 hf with hf | hf
    · exact .inl hf
    · obtain rfl := List.mem_singleton.1 hf
      exact .inr ⟨⟨b.row, hmem, rfl, rfl, rfl, _, _, _, hart⟩, fun _ => rfl, fun hne => absurd rfl hne, by rintro ⟨⟩⟩
  · rename_i primary root hart
    obtain ⟨f₀, hf₀, rfl⟩ := Table.mem_update.1 hf
    by_cases hrat : isRatifiedBy b.row primary root f₀ = true
    · have hok := (h.finals f₀ hf₀).grows (submit_grows s b)
      rw [hrat]
      simp only [isRatifiedBy, Bool.and_eq_true, decide_eq_true_eq] at hrat
      obtain ⟨⟨⟨⟨⟨hprimary, -⟩, hround⟩, hroot⟩, -⟩, -⟩ := hrat
      refine .inr ⟨hok.primary, by rintro ⟨⟩, fun _ => ⟨b.row, hmem, rfl, hround.symm, ?_⟩, by rintro ⟨⟩⟩
      rw [hart, ← hprimary, ← hroot]
      rfl
    · rw [if_neg hrat]
      exact .inl hf₀
  · exact .inl hf

theorem submit_origins (h : s.Sound) (ha : s.Admits b) (hk : (s.submit b).Keys) : Origins s (s.submit b) := by
  have hg := submit_grows s b
  have hmem : b.row ∈ (s.submit b).submissions := List.mem_append_right _ (List.mem_singleton.2 rfl)
  refine ⟨fun _ h => .inl h, fun _ h => .inl h, fun p hp => ?_, submit_finals h, fun a h => .inl ⟨a, h, .refl a⟩,
    fun o ho => ?_⟩
  · rcases List.mem_append.1 hp with hp | hp
    · exact .inl ⟨p, hp, rfl⟩
    · obtain rfl := List.mem_singleton.1 hp
      exact .inr {
        active := ha.active
        round := ha.round.grows hg
        reached := ha.reached
        participates := ⟨_, List.mem_append_right _ (List.mem_singleton.2 rfl), rfl, rfl, rfl, rfl, rfl⟩
        family := ha.family.grows hg
        bound := submit_bound h ha hk }
  · rcases List.mem_append.1 ho with ho | ho
    · exact .inl ⟨o, ho, .refl o, .inl⟩
    · obtain rfl := List.mem_singleton.1 ho
      obtain ⟨id, receivedAt, hdelivery⟩ := ha.delivery
      rw [hdelivery]
      refine .inr ⟨⟨b.row, hmem, rfl, rfl⟩, fun hpending _ => ⟨b.row, hmem, rfl, fun hi => ?_⟩⟩
      simp [submissionDelivery, hi] at hpending

end Submit

/-! ### The catalogue -/

theorem upsertCatalogue_eq {s s' : Store} {new : CatalogueRow} (h : s.upsertCatalogue new = some s') :
    s' = { s with catalogue := s'.catalogue } := by
  unfold Store.upsertCatalogue at h
  split at h
  · split at h
    · obtain rfl := Option.some.inj h
      rfl
    · cases h
  · split at h
    · obtain rfl := Option.some.inj h
      rfl
    · cases h

theorem upsertCatalogue_origins {s s' : Store} {new : CatalogueRow} (h : s.upsertCatalogue new = some s') :
    Origins s s' := by
  rw [upsertCatalogue_eq h]
  exact .of_same rfl rfl rfl rfl rfl rfl

theorem syncItem_rows {s s' : Store} {now : Nat} {item : SyncItem} (hkeyed : s.CatalogueKeyed) (h : s.RowsOk)
    (hs : s.syncItem now item = some s') : s'.RowsOk := by
  unfold Store.syncItem at hs
  split at hs
  · exact h.next (upsertCatalogue_grows hkeyed hs).1 (upsertCatalogue_origins hs)
  · obtain ⟨s₁, h₁, h₂⟩ := Option.bind_eq_some_iff.1 hs
    have hkeyed₁ : s₁.CatalogueKeyed := by
      rw [register_eq h₁]
      exact hkeyed
    exact (h.next (register_grows h₁) (register_origins h h₁)).next (upsertCatalogue_grows hkeyed₁ h₂).1
      (upsertCatalogue_origins h₂)

theorem syncItems_rows {now : Nat} : ∀ {items : List SyncItem} {s s' : Store}, s.CatalogueKeyed → s.RowsOk →
    items.foldlM (fun s item => Store.syncItem s now item) s = some s' → s'.RowsOk
  | [], s, s', _, h, hs => by
    obtain rfl := Option.some.inj hs
    exact h
  | item :: items, s, s', hkeyed, h, hs => by
    rw [List.foldlM_cons] at hs
    obtain ⟨s₁, h₁, h₂⟩ := Option.bind_eq_some_iff.1 hs
    exact syncItems_rows (syncItem_grows hkeyed h₁).2 (syncItem_rows hkeyed h h₁) h₂

/-! ## Every command -/

/-- An update of the final results that revokes or dates active ones. -/
theorem finals_origins {s : Store} {p : FinalResult → Bool} {f : FinalResult → FinalResult}
    (hp : ∀ r, p r = true → r.status = .active)
    (hf : ∀ r, (f r).primaryReceiptId = r.primaryReceiptId ∧ (f r).taskVersionId = r.taskVersionId ∧
      (f r).roundId = r.roundId ∧ (f r).finalMerkleRoot = r.finalMerkleRoot ∧
      (f r).secondaryReceiptId = r.secondaryReceiptId)
    (hstatus : ∀ r, r.status = .active → (f r).status = .active ∨ (f r).status = .revoked) (h : s.RowsOk) :
    Origins s { s with finals := Table.update p f s.finals } := by
  refine ⟨fun _ h => .inl h, fun _ h => .inl h, fun p h => .inl ⟨p, h, rfl⟩, fun r' hr' => ?_,
    fun a h => .inl ⟨a, h, .refl a⟩, fun o h => .inl ⟨o, h, .refl o, .inl⟩⟩
  obtain ⟨r, hr, rfl⟩ := Table.mem_update.1 hr'
  by_cases hpr : p r = true
  · obtain ⟨hprimary, hseconded⟩ : _ ∧ _ := ⟨(h.finals r hr).primary, (h.finals r hr).seconded⟩
    obtain ⟨h1, h2, h3, h4, h5⟩ := hf r
    have hs := hstatus r (hp r hpr)
    rw [if_pos hpr]
    refine .inr ⟨?_, fun h => ?_, fun _ => ?_, fun h => ?_⟩
    · rw [h1, h2, h3, h4]
      exact hprimary
    · rw [h] at hs
      exact absurd hs (by simp)
    · rw [h1, h3, h4, h5]
      exact hseconded (by rw [hp r hpr]; nofun)
    · rw [h] at hs
      exact absurd hs (by simp)
  · rw [if_neg hpr]
    exact .inl hr

theorem Write.apply_origins {x : Outside} {w : Write} {s s' : Store} (h : s.Sound) (hfact : w.Fact s) (hk : s'.Keys)
    (hw : ∀ items row now, w ≠ .sync items row now) (happly : w.apply x.uuid.1 s = some s') : Origins s s' := by
  cases w with
  | sync items row now => exact absurd rfl (hw items row now)
  | register row now => exact register_origins h.rows happly
  | transition task tr =>
    obtain rfl | ⟨row, hmoved⟩ := transition_cases h hfact.2.2 happly
    · exact .of_same rfl rfl rfl rfl rfl rfl
    · exact hmoved.origins h hfact
  | openRound reason currentRound reissued => exact openRound_origins h.rows happly
  | release taskVersionId roundId receiptA receiptB =>
    obtain rfl := Option.some.inj happly
    exact release_origins hfact
  | submit batch =>
    obtain rfl := Option.some.inj happly
    exact submit_origins h hfact hk
  | stateEvidence row =>
    obtain rfl := Option.some.inj happly
    obtain ⟨id, now, task, hstands, e, he, -, htask, -, rfl⟩ := hfact
    refine .of_outbox rfl rfl rfl rfl rfl (fun o ho => ?_)
    rcases mem_insertOrIgnore ho with ho | rfl
    · exact .inl ⟨o, ho, .refl o, .inl⟩
    · exact .inr ⟨⟨hstands, e, he, rfl, htask, rfl, rfl⟩, fun _ => by rintro ⟨⟩⟩
  | revokeFinal primaryReceiptId =>
    obtain rfl := Option.some.inj happly
    refine finals_origins (fun r hr => ?_) (fun r => ⟨rfl, rfl, rfl, rfl, rfl⟩) (fun _ _ => .inr rfl) h.rows
    simp only [FinalResult.isActive, Bool.and_eq_true, decide_eq_true_eq] at hr
    exact hr.2
  | openAppeal id appellantUserId finalReceiptId createdAt =>
    obtain rfl := Option.some.inj happly
    refine ⟨fun _ h => .inl h, fun _ h => .inl h, fun p h => .inl ⟨p, h, rfl⟩, fun _ h => .inl h, fun a ha => ?_,
      fun o h => .inl ⟨o, h, .refl o, .inl⟩⟩
    rcases List.mem_append.1 ha with ha | ha
    · exact .inl ⟨a, ha, .refl a⟩
    · obtain ⟨f, hf, rfl⟩ := List.mem_map.1 ha
      obtain ⟨hmem, happealable⟩ := List.mem_filter.1 hf
      simp only [Store.isAppealable, FinalResult.isActive, Bool.and_eq_true, decide_eq_true_eq] at happealable
      exact .inr ⟨f, hmem, rfl, rfl, rfl, .inl happealable.1.1.2⟩
  | decideAppeal id decision =>
    obtain rfl := Option.some.inj happly
    refine ⟨fun _ h => .inl h, fun _ h => .inl h, fun p h => .inl ⟨p, h, rfl⟩, fun _ h => .inl h, fun a' ha' => ?_,
      fun o h => .inl ⟨o, h, .refl o, .inl⟩⟩
    obtain ⟨a, ha, rfl⟩ := Table.mem_update.1 ha'
    refine .inl ⟨a, ha, ?_⟩
    by_cases hp : (decide (a.id = id) && a.isPending) = true
    · rw [if_pos hp]
      simp only [Appeal.isPending, Bool.and_eq_true, decide_eq_true_eq] at hp
      exact ⟨rfl, rfl, rfl, rfl, fun hne => absurd hp.2 hne⟩
    · rw [if_neg hp]
      exact .refl a
  | publishFinal primaryReceiptId =>
    obtain rfl := Option.some.inj happly
    refine finals_origins (fun r hr => ?_) (fun r => ⟨rfl, rfl, rfl, rfl, rfl⟩) (fun _ => .inl) h.rows
    simp only [FinalResult.isActive, Bool.and_eq_true, decide_eq_true_eq] at hr
    exact hr.2
  | evidenceReceipt row =>
    obtain rfl := Option.some.inj happly
    refine ⟨fun _ h => .inl h, fun _ h => .inl h, fun p' hp' => ?_, fun _ h => .inl h, fun a h => .inl ⟨a, h, .refl a⟩, ?_⟩
    · obtain ⟨p, hp, rfl⟩ := Table.mem_update.1 hp'
      refine .inl ⟨p, hp, ?_⟩
      split <;> rfl
    · exact origins_update rfl (fun _ => ⟨rfl, rfl, rfl, rfl, rfl, rfl, rfl, rfl⟩) (fun _ => by rintro ⟨⟩)
  | receipt row primaryReceiptId =>
    obtain rfl := Option.some.inj happly
    exact .of_outbox rfl rfl rfl rfl rfl
      (origins_update rfl (fun _ => ⟨rfl, rfl, rfl, rfl, rfl, rfl, rfl, rfl⟩) (fun _ => by rintro ⟨⟩))
  | stateAccepted taskVersionId eventId =>
    obtain rfl := Option.some.inj happly
    exact .of_outbox rfl rfl rfl rfl rfl
      (origins_update rfl (fun _ => ⟨rfl, rfl, rfl, rfl, rfl, rfl, rfl, rfl⟩) (fun _ => by rintro ⟨⟩))
  | sending id nextAttemptAt =>
    obtain rfl := Option.some.inj happly
    exact .of_outbox rfl rfl rfl rfl rfl
      (origins_update rfl (fun _ => ⟨rfl, rfl, rfl, rfl, rfl, rfl, rfl, rfl⟩) (fun _ => by rintro ⟨⟩))
  | deliveredHere id =>
    obtain rfl := Option.some.inj happly
    exact .of_outbox rfl rfl rfl rfl rfl
      (origins_update rfl (fun _ => ⟨rfl, rfl, rfl, rfl, rfl, rfl, rfl, rfl⟩) (fun _ => by rintro ⟨⟩))
  | claimEvidence ids marker now =>
    obtain rfl := Option.some.inj happly
    exact .of_outbox rfl rfl rfl rfl rfl
      (origins_update rfl (fun _ => ⟨rfl, rfl, rfl, rfl, rfl, rfl, rfl, rfl⟩) (fun _ => by rintro ⟨⟩))
  | delivered id =>
    obtain rfl := Option.some.inj happly
    exact undelivered_origins h hfact.1 (fun _ => ⟨rfl, rfl, rfl, rfl, rfl, rfl, rfl, rfl⟩)
  | undelivered id status attempts retryAt lastError =>
    obtain rfl := Option.some.inj happly
    exact undelivered_origins h hfact.1 (fun _ => ⟨rfl, rfl, rfl, rfl, rfl, rfl, rfl, rfl⟩)
  | _ =>
    obtain rfl := Option.some.inj happly
    exact .of_same rfl rfl rfl rfl rfl rfl

/-- **A command that is run where its fact holds keeps the invariant.** -/
theorem Write.keeps (x : Outside) (w : Write) (s : Store) (h : s.Sound) (hfact : w.Fact s) : (w.exec x s).Sound := by
  obtain ⟨hsame, -⟩ | ⟨s', happly, hk, hexec, -⟩ := w.exec_cases x s
  · rw [hsame]
    exact h
  · rw [hexec]
    have hrows : s'.RowsOk := by
      by_cases hw : ∃ items row now, w = .sync items row now
      · obtain ⟨items, row, now, rfl⟩ := hw
        obtain ⟨s₁, h₁, rfl⟩ := Option.map_eq_some_iff.1 happly
        exact (syncItems_rows h.keys.assignment.catalogue h.rows h₁).next { Store.Grows.refl s₁ with }
          (.of_same rfl rfl rfl rfl rfl rfl)
      · refine h.rows.next (apply_grows h.keys.assignment.catalogue happly) (apply_origins h hfact hk ?_ happly)
        exact fun items row now heq => hw ⟨items, row, now, heq⟩
    exact ⟨hk, hrows.tasks, hrows.events, hrows.submissions, hrows.finals, hrows.appeals, hrows.outbox⟩

end Portal
end Adg
