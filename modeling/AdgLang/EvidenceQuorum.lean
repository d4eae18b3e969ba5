import AdgLang.EvidenceClaims
/-!
# EvidenceQuorum — annotations leave as a quorum

A and B annotate a round without seeing each other, so their evidence is held until both are there.  What is out of the
outbox, or in the answer to a claim, has its quorum (`evidence_quorum`), in the runs in which the repository acknowledges
only what is out.  A row is held in the current round of its task and cancelled in one that was left (`evidence_in_turn`),
in the runs in which rounds follow one another.
-/
namespace Adg
namespace Portal

open Js Consensus

/-! ## The quorum -/

/-- The evidence is neither held nor cancelled. -/
def OutboxRow.isOut (o : OutboxRow) : Bool := decide (o.status ≠ .held) && decide (o.status ≠ .cancelled)

theorem OutboxRow.isOut_of_status {o : OutboxRow} {status : OutboxStatus} (h : o.status = status) (hheld : status ≠ .held)
    (hcancelled : status ≠ .cancelled) : o.isOut = true := by
  simp [isOut, h, hheld, hcancelled]

/-- The repository acknowledges only evidence that is out. -/
def AcknowledgesOut (_ : Outside) (w : Write) (s : Store) : Prop :=
  match w with
  | .evidenceReceipt row => ∀ o ∈ s.outbox, o.kind = .submission → o.relatedId = row.relatedId → o.isOut = true
  | _ => True

/-- Both annotations of the round are there. -/
def Store.HasQuorum (s : Store) (roundId : Text) : Prop :=
  (∃ a ∈ s.submissions, a.roundId = roundId ∧ a.role = .a ∧ a.active = true) ∧
    ∃ b ∈ s.submissions, b.roundId = roundId ∧ b.role = .b ∧ b.active = true

theorem Store.Sound.hasQuorum {s : Store} (h : s.Sound) {roundId : Text} (ha : s.Filled roundId .a)
    (hb : s.Filled roundId .b) : s.HasQuorum roundId := by
  obtain ⟨a, ha, haround, harole⟩ := ha
  obtain ⟨b, hb, hbround, hbrole⟩ := hb
  exact ⟨⟨a, ha, haround, harole, (h.submissions a ha).active⟩, b, hb, hbround, hbrole, (h.submissions b hb).active⟩

/-- What is out, and what claims were given, may be out. -/
structure Store.QuorumKept (s : Store) : Prop where
  out : ∀ o ∈ s.outbox, o.isOut = true → s.Releasable o
  handed : ∀ k ∈ s.handed, ∀ id ∈ k.ids, s.Deliverable id

theorem Store.QuorumKept.empty : Store.empty.QuorumKept where
  out _ h := absurd h List.not_mem_nil
  handed _ h := absurd h List.not_mem_nil

theorem Store.Releasable.of_taskState {s : Store} {o : OutboxRow} (h : o.kind = .taskState) : s.Releasable o := by
  intro hkind
  rw [h] at hkind
  cases hkind

section Step

variable {x : Outside} {w : Write} {s s' : Store} (h : s.Sound) (hfact : w.Fact s) (happly : w.apply x.uuid.1 s = some s')
include h hfact

omit hfact in
theorem Store.Deliverable.releasable {o : OutboxRow} (ho : o ∈ s.outbox) (hd : s.Deliverable o.id) : s.Releasable o := by
  obtain ⟨o₂, ho₂, hid, hreleasable⟩ := hd
  obtain rfl := h.keys.outbox.outbox.eq_of_key ho₂ ho hid
  exact hreleasable

/-- A row that a command puts out, or leaves out. -/
theorem OutboxStep.releasable (hC : AcknowledgesOut x w s) (hi : s.QuorumKept) {o o' : OutboxRow} (ho : o ∈ s.outbox)
    (hstep : OutboxStep s o w o') (hout : o'.isOut = true) : s.Releasable o ∨ o'.status = .pending := by
  cases hstep with
  | cancel reason currentRound reissued hheld => simp [OutboxRow.isOut] at hout
  | release taskVersionId roundId receiptA receiptB hheld => exact .inr rfl
  | receipt row primaryReceiptId hkind hrelated => exact .inl (.of_taskState hkind)
  | evidenceReceipt row hkind hrelated => exact .inl (hi.out o ho (hC o ho hkind hrelated))
  | stateAccepted taskVersionId eventId hkind htask hrelated => exact .inl (.of_taskState hkind)
  | sending nextAttemptAt hstatus => exact .inl (hi.out o ho (OutboxRow.isOut_of_status hstatus (by decide) (by decide)))
  | deliveredHere hstatus => exact .inl (hi.out o ho (OutboxRow.isOut_of_status hstatus (by decide) (by decide)))
  | delivered => exact .inl (Store.Deliverable.releasable h ho hfact.1)
  | undelivered status attempts retryAt lastError => exact .inl (Store.Deliverable.releasable h ho hfact.1)
  | claim ids marker now hid hfree =>
    refine .inl (hi.out o ho ?_)
    simp only [OutboxRow.isFree, Bool.or_eq_true, Bool.and_eq_true, decide_eq_true_eq] at hfree
    rcases hfree with (hstatus | hstatus) | ⟨hstatus, -⟩ <;> exact OutboxRow.isOut_of_status hstatus (by decide) (by decide)

include happly in
theorem quorumKept_step (hC : AcknowledgesOut x w s) (hi : s.QuorumKept) (h' : s'.Sound) (hg : s.Grows s') :
    s'.QuorumKept where
  out o' ho' hout := by
    obtain ho | ⟨o, ho, hstep⟩ | hadded := w.outbox_cases happly ho'
    · exact (hi.out o' ho hout).grows hg
    · obtain hreleasable | hpending := hstep.releasable h hfact hC hi ho hout
      · exact (hreleasable.grows hg).of_grows hstep.grows
      · exact (h'.outbox o' ho').pending hpending
    · obtain ⟨hheld | hpending, -⟩ := hadded.fresh hfact
      · simp [OutboxRow.isOut, hheld] at hout
      · exact (h'.outbox o' ho').pending hpending
  handed k hk id hid := by
    by_cases hanswer : ∃ marker limit last, w = .handOut marker limit last
    · obtain ⟨marker, limit, last, rfl⟩ := hanswer
      obtain rfl := Option.some.inj happly
      rcases List.mem_append.1 hk with hk | hk
      · exact (hi.handed k hk id hid).grows hg
      · -- the rows of the answer are those that are being sent
        obtain hnone | hone := s.answers_cases marker limit last
        · rw [hnone] at hk
          cases hk
        · rw [hone] at hk
          obtain rfl := List.mem_singleton.1 hk
          obtain ⟨r, hr, rfl⟩ := List.mem_map.1 hid
          obtain ⟨o, ho, rfl⟩ := List.mem_map.1 hr
          obtain ⟨ho, hclaimed⟩ := Store.mem_claimed ho
          have hstatus := (Store.isClaimedBy_iff.1 hclaimed).2.1
          exact ⟨o, ho, rfl, hi.out o ho (OutboxRow.isOut_of_status hstatus nofun nofun)⟩
    · rw [w.handed_eq happly (fun marker limit last hw => hanswer ⟨marker, limit, last, hw⟩)] at hk
      exact (hi.handed k hk id hid).grows hg

end Step

/-- **Annotations are out only as a quorum**: where the evidence of A or B is out, or a claim was given it, both annotations
of its round are there. -/
theorem evidence_quorum {env : Env} {w : PortalState} (hrun : PortalRun env AcknowledgesOut w) :
    ∀ o ∈ w.store.outbox, ∀ p ∈ w.store.submissions, o.kind = .submission → o.relatedId = p.receiptId →
      p.role.isIndependent = true → (o.isOut = true ∨ ∃ k ∈ w.store.handed, o.id ∈ k.ids) →
        w.store.HasQuorum p.roundId := by
  obtain ⟨h, hi, -⟩ := portal_log (I := Store.QuorumKept) .empty (fun _ _ _ _ h hfact hC happly h' hg hi =>
    quorumKept_step h hfact happly hC hi h' hg) hrun
  intro o ho p hp hkind hrelated hindependent hleft
  have hreleasable : w.store.Releasable o := by
    obtain hout | ⟨k, hk, hid⟩ := hleft
    · exact hi.out o ho hout
    · exact (hi.handed k hk o.id hid).releasable h ho
  obtain ⟨q, hq, hreceipt, hfilled⟩ := hreleasable hkind
  obtain rfl := h.eq_of_receipt hq hp (hreceipt.trans hrelated)
  exact h.hasQuorum (hfilled hindependent).1 (hfilled hindependent).2

instance (x : Outside) (w : Write) (s : Store) : Decidable (AcknowledgesOut x w s) := by
  induction w using Write.casesOn with
  | evidenceReceipt row =>
    exact inferInstanceAs (Decidable (∀ o ∈ s.outbox, o.kind = .submission → o.relatedId = row.relatedId → o.isOut = true))
  | _ => exact .isTrue trivial

/-- A and B submit and a claim is given the evidence of A, which has its quorum. -/
theorem evidence_quorum_claimed : ∃ w, PortalRun sampleEnv AcknowledgesOut w ∧
    w.store.handed.map (fun k => k.rows.length) = [1] ∧
    ∀ o ∈ w.store.outbox, ∀ p ∈ w.store.submissions, o.kind = .submission → o.relatedId = p.receiptId →
      p.role.isIndependent = true → (o.isOut = true ∨ ∃ k ∈ w.store.handed, o.id ∈ k.ids) →
        w.store.HasQuorum p.roundId := by
  obtain ⟨w, hrun, hp⟩ := run_play sampleEnv AcknowledgesOut claimedOnce
    (p := fun w => decide (w.store.handed.map (fun k => k.rows.length) = [1])) (by decide +kernel) (by decide +kernel)
  exact ⟨w, hrun, of_decide_eq_true hp, evidence_quorum hrun⟩

/-! ## The rounds in turn -/

/-- No batch is written after the deadline of its round was handled, and a round is opened after the one that its task
is in. -/
def RoundsInTurn (x : Outside) (w : Write) (s : Store) : Prop :=
  BeforeDeadline x w s ∧ match w with
    | .openRound _ currentRound reissued =>
      s.IsRound currentRound.id reissued.id reissued.currentRound ∧ ∃ t ∈ s.tasks, advanceGuard reissued t = true
    | _ => True

/-- Evidence is held in the current round, and cancelled in one that was left. -/
structure Store.EvidenceInTurn (s : Store) : Prop where
  held : ∀ o ∈ s.outbox, o.status = .held → o.kind = .submission ∧ ∃ p ∈ s.submissions, p.receiptId = o.relatedId ∧
    ∃ t ∈ s.tasks, t.id = p.taskVersionId ∧ p.consensusRound = t.currentRound
  cancelled : ∀ o ∈ s.outbox, o.status = .cancelled → ∃ p ∈ s.submissions, p.receiptId = o.relatedId ∧
    ∃ t ∈ s.tasks, t.id = p.taskVersionId ∧ p.consensusRound < t.currentRound

theorem Store.EvidenceInTurn.empty : Store.empty.EvidenceInTurn where
  held _ h := absurd h List.not_mem_nil
  cancelled _ h := absurd h List.not_mem_nil

section Turn

variable {x : Outside} {w : Write} {s s' : Store} (h : s.Sound) (hfact : w.Fact s) (happly : w.apply x.uuid.1 s = some s')
include h hfact happly

/-- Only the batch that opens a round moves a task to another. -/
theorem Write.round_stays (hopen : ∀ reason r u, w ≠ .openRound reason r u) {t : TaskRow} (ht : t ∈ s.tasks) :
    ∃ t' ∈ s'.tasks, t'.id = t.id ∧ t'.currentRound = t.currentRound := by
  by_cases htransition : ∃ task tr, w = .transition task tr
  · obtain ⟨task, tr, rfl⟩ := htransition
    obtain rfl | ⟨row, hm⟩ := transition_cases h hfact.2.2 happly
    · exact ⟨t, ht, rfl, rfl⟩
    · rw [hm.tasks]
      refine ⟨_, Table.mem_update.2 ⟨t, ht, rfl⟩, ?_⟩
      split <;> exact ⟨rfl, rfl⟩
  · exact ⟨t, (apply_subset hopen happly).1 (fun task tr hw => htransition ⟨task, tr, hw⟩) ht, rfl, rfl⟩

/-- Evidence that stays held as a round is opened is that of another task. -/
theorem held_openRound {reason : ReissueReason} {currentRound : RoundRow} {reissued : TaskRow}
    (hw : w = .openRound reason currentRound reissued) (hC : RoundsInTurn x w s) (hi : s.EvidenceInTurn) {o : OutboxRow}
    (ho : o ∈ s'.outbox) (hheld : o.status = .held) : o.kind = .submission ∧ ∃ p ∈ s.submissions, p.receiptId = o.relatedId ∧
      ∃ t ∈ s'.tasks, t.id = p.taskVersionId ∧ p.consensusRound = t.currentRound := by
  subst hw
  obtain ⟨hisround, row, hrow, hguard⟩ := hC.2
  have hs : s.openRound reason currentRound reissued = some s' := happly
  unfold Store.openRound at hs
  split at hs
  swap
  · cases hs
  obtain rfl := Option.some.inj hs
  obtain ⟨o₀, ho₀, rfl⟩ := Table.mem_update.1 ho
  by_cases hcancels : s.isHeldOf reissued.id currentRound.id o₀ = true
  · rw [if_pos hcancels] at hheld
    cases hheld
  rw [if_neg hcancels] at hheld ⊢
  obtain ⟨hkind, p, hp, hreceipt, t, ht, hid, hround⟩ := hi.held o₀ ho₀ hheld
  refine ⟨hkind, p, hp, hreceipt, t, Table.mem_update.2 ⟨t, ht, ?_⟩, hid, hround⟩
  rw [if_neg]
  -- the round of the row would be the one that is left
  intro hadvances
  obtain ⟨htask, -, hnumber⟩ := advanceGuard_iff.1 hadvances
  refine hcancels ?_
  have hsame := (h.round_inj (h.submissions p hp).round hisround
    (.inr ⟨hid.symm.trans htask, hround.trans hnumber⟩)).1
  have hstems := (h.outbox o₀ ho₀).stems
  simp only [Store.Stems, hkind] at hstems
  obtain ⟨q, hq, hqreceipt, hqtask⟩ := hstems
  obtain rfl := h.eq_of_receipt hq hp (hqreceipt.trans hreceipt.symm)
  simp only [Store.isHeldOf, Bool.and_eq_true, decide_eq_true_eq, List.any_eq_true]
  exact ⟨⟨⟨hqtask.symm.trans (hid.symm.trans htask), hkind⟩, hheld⟩, q, hq, ⟨hqreceipt, hid.symm.trans htask⟩, hsame⟩

/-- The evidence of a submission that commits is held in the current round. -/
theorem held_submit {b : SubmitBatch} (hw : w = .submit b) (hC : RoundsInTurn x w s) (h' : s'.Sound) :
    ∃ t ∈ s'.tasks, t.id = b.row.taskVersionId ∧ b.row.consensusRound = t.currentRound := by
  subst hw
  obtain rfl := Option.some.inj happly
  have hadmits : s.Admits b := hfact
  obtain ⟨t, ht, r, hr, hid, htask, hnumber, -, -⟩ | hexpired | hfilled := hadmits.admitted
  · obtain ⟨-, hsametask, hsamenumber⟩ := h.round_inj ⟨r, hr, hid, htask, hnumber⟩ hadmits.round (.inl rfl)
    exact ⟨t, ht, hsametask, hsamenumber.symm⟩
  · exact absurd hexpired hC.1
  · exact absurd hfilled (hadmits.vacant h h'.keys)

/-- A batch that opens a round leaves the rounds of the rows that it cancels. -/
theorem cancelled_openRound {reason : ReissueReason} {currentRound : RoundRow} {reissued : TaskRow}
    (hw : w = .openRound reason currentRound reissued) (hC : RoundsInTurn x w s) {o : OutboxRow}
    (hheld : s.isHeldOf reissued.id currentRound.id o = true) : ∃ p ∈ s.submissions, p.receiptId = o.relatedId ∧
      ∃ t ∈ s'.tasks, t.id = p.taskVersionId ∧ p.consensusRound < t.currentRound := by
  subst hw
  obtain ⟨hisround, row, hrow, hguard⟩ := hC.2
  have hs : s.openRound reason currentRound reissued = some s' := happly
  unfold Store.openRound at hs
  split at hs
  swap
  · cases hs
  obtain rfl := Option.some.inj hs
  simp only [Store.isHeldOf, Bool.and_eq_true, decide_eq_true_eq, List.any_eq_true] at hheld
  obtain ⟨-, p, hp, ⟨hreceipt, htask⟩, hround⟩ := hheld
  refine ⟨p, hp, hreceipt, _, Table.mem_update.2 ⟨row, hrow, rfl⟩, ?_⟩
  obtain ⟨-, -, hnumber⟩ := h.round_inj (h.submissions p hp).round hisround (.inl hround)
  rw [if_pos hguard, hnumber, htask]
  exact ⟨(advanceGuard_iff.1 hguard).1, Nat.lt_succ_self _⟩

theorem evidenceInTurn_step (hC : RoundsInTurn x w s) (hi : s.EvidenceInTurn) (h' : s'.Sound) (hg : s.Grows s') :
    s'.EvidenceInTurn where
  held o' ho' hheld := by
    by_cases hopen : ∃ reason currentRound reissued, w = .openRound reason currentRound reissued
    · obtain ⟨reason, currentRound, reissued, hw⟩ := hopen
      obtain ⟨hkind, p, hp, hreceipt, hrest⟩ := held_openRound h hfact happly hw hC hi ho' hheld
      obtain ⟨p', hp', hpp⟩ := hg.submissions p hp
      refine ⟨hkind, p', hp', ?_⟩
      rw [hpp]
      exact ⟨hreceipt, hrest⟩
    obtain ho | ⟨o, ho, hstep⟩ | hadded := w.outbox_cases happly ho'
    · obtain ⟨hkind, p, hp, hreceipt, t, ht, hid, hround⟩ := hi.held o' ho hheld
      obtain ⟨p', hp', hpp⟩ := hg.submissions p hp
      obtain ⟨t', ht', hid', hround'⟩ := w.round_stays h hfact happly
        (fun reason r u hw => hopen ⟨reason, r, u, hw⟩) ht
      refine ⟨hkind, p', hp', ?_⟩
      rw [hpp]
      exact ⟨hreceipt, t', ht', hid'.trans hid, hround.trans hround'.symm⟩
    · cases hstep with
      | undelivered status attempts retryAt lastError =>
        rcases hfact.2 with hstatus | hstatus <;> cases hheld.symm.trans hstatus
      | _ => cases hheld
    · obtain ⟨b, hw, rfl⟩ | hw := hadded
      · obtain ⟨id, receivedAt, hdelivery⟩ := Store.Admits.delivery (show s.Admits b by subst hw; exact hfact)
        have hrow := held_submit h hfact happly hw hC h'
        subst hw
        obtain rfl := Option.some.inj happly
        rw [hdelivery]
        exact ⟨rfl, b.row, List.mem_append_right _ List.mem_cons_self, rfl, hrow⟩
      · subst hw
        obtain ⟨id, now, task, -, e, -, -, -, -, rfl⟩ := hfact
        cases hheld
  cancelled o' ho' hcancelled := by
    obtain ho | ⟨o, ho, hstep⟩ | hadded := w.outbox_cases happly ho'
    · obtain ⟨p, hp, hreceipt, t, ht, hid, hround⟩ := hi.cancelled o' ho hcancelled
      obtain ⟨p', hp', hpp⟩ := hg.submissions p hp
      obtain ⟨t', ht', htt⟩ := hg.tasks t ht
      refine ⟨p', hp', ?_⟩
      rw [hpp]
      exact ⟨hreceipt, t', ht', htt.id.trans hid, hround.trans_le htt.round⟩
    · cases hstep with
      | cancel reason currentRound reissued hheld =>
        obtain ⟨p, hp, hreceipt, hrest⟩ := cancelled_openRound h hfact happly rfl hC hheld
        obtain ⟨p', hp', hpp⟩ := hg.submissions p hp
        refine ⟨p', hp', ?_⟩
        rw [hpp]
        exact ⟨hreceipt, hrest⟩
      | undelivered status attempts retryAt lastError =>
        rcases hfact.2 with hstatus | hstatus <;> cases hcancelled.symm.trans hstatus
      | _ => cases hcancelled
    · obtain ⟨hstatus | hstatus, -⟩ := hadded.fresh hfact <;> cases hcancelled.symm.trans hstatus

end Turn

/-- **Evidence is held in the current round of its task and cancelled in one that was left**, in the runs in which rounds
follow one another. -/
theorem evidence_in_turn {env : Env} {w : PortalState} (hrun : PortalRun env RoundsInTurn w) : w.store.EvidenceInTurn :=
  (portal_log (I := Store.EvidenceInTurn) .empty (fun _ _ _ _ h hfact hC happly h' hg hi =>
    evidenceInTurn_step h hfact happly hC hi h' hg) hrun).2.1

instance (s : Store) (roundId taskVersionId : Text) (number : Nat) : Decidable (s.IsRound roundId taskVersionId number) :=
  inferInstanceAs (Decidable (∃ r ∈ s.rounds, _))

instance (x : Outside) (w : Write) (s : Store) : Decidable (RoundsInTurn x w s) := by
  induction w using Write.casesOn with
  | openRound reason currentRound reissued =>
    exact inferInstanceAs (Decidable (True ∧ s.IsRound currentRound.id reissued.id reissued.currentRound ∧
      ∃ t ∈ s.tasks, advanceGuard reissued t = true))
  | submit b => exact inferInstanceAs (Decidable (¬ s.hasKey (deadlineKey b.row.roundId) = true ∧ True))
  | _ => exact inferInstanceAs (Decidable (True ∧ True))

/-- A submits, the deadline passes, and A submits to the next round. -/
theorem evidence_in_turn_reissued : ∃ w, PortalRun sampleEnv RoundsInTurn w ∧
    w.store.outbox.filterMap (fun o => if o.kind = .submission then some o.status else none) = [.cancelled, .held] ∧
      w.store.EvidenceInTurn := by
  obtain ⟨w, hrun, hp⟩ := run_play sampleEnv RoundsInTurn
    [.request (annotates "a" .a), .go 0 30, .request (.clock roundDeadlineMs), .go 1 1, .request .expiredRounds, .go 2 32,
      .request (annotates "b" .a), .go 3 22]
    (p := fun w => decide (w.store.outbox.filterMap (fun o => if o.kind = .submission then some o.status else none) =
      [.cancelled, .held])) (by decide +kernel) (by decide +kernel)
  exact ⟨w, hrun, of_decide_eq_true hp, evidence_in_turn hrun⟩

end Portal
end Adg
