import AdgLang.PortalRows
import AdgLang.PortalRuns
/-!
# Publication — what stands behind a published task

An accepted appeal that was followed through takes its result from the task for good (`Appealed`).  So a task that is
published while every accepted appeal on it was followed through is published with an active result, past its deadline
and with its receipt stored, and that stays so (`publication_safe`).  A reviewer who stops between the acceptance and
the revocation leaves an accepted appeal that the publication does not see (`publication_unsafe`).
-/
namespace Adg
namespace Portal

open Js Consensus

/-! ## Appeals that were followed through -/

def escalationKey (appealId : Text) : Text := "appeal-escalation:".toList ++ appealId

/-- The task left 'approved' for this appeal. -/
def Store.FollowedThrough (s : Store) (a : Appeal) : Prop := s.hasKey (escalationKey a.id) = true

instance (s : Store) (a : Appeal) : Decidable (s.FollowedThrough a) :=
  inferInstanceAs (Decidable (s.hasKey (escalationKey a.id) = true))

/-- The round of the appeal was ratified, or the task is in a later one. -/
def Store.Decided (s : Store) (a : Appeal) : Prop :=
  (∃ q ∈ s.submissions, q.roundId = a.roundId ∧ q.role = .j2 ∧ s.hasKey (ratificationKey q.receiptId) = true) ∨
    ∃ t ∈ s.tasks, t.id = a.taskVersionId ∧ ∃ n, s.IsRound a.roundId a.taskVersionId n ∧ n < t.currentRound

theorem Store.Decided.grows {s s' : Store} {a a' : Appeal} (hg : s.Grows s') (haa : AppealGrows a a') (h : s.Decided a) :
    s'.Decided a' := by
  unfold Store.Decided at *
  rw [haa.round, haa.task]
  obtain hq | ⟨t, ht, hid, n, hround, hn⟩ := h
  · refine .inl (hg.exists_submission (fun q q' hqq hq => ?_) hq)
    rw [hqq]
    exact ⟨hq.1, hq.2.1, hg.hasKey hq.2.2⟩
  · obtain ⟨t', ht', htt⟩ := hg.tasks t ht
    exact .inr ⟨t', ht', htt.id.trans hid, n, hround.grows hg, Nat.lt_of_lt_of_le hn htt.round⟩

/-- What appeals leave behind: a revoked result has its accepted appeal, an escalation its appeal, an appeal its ratified
round, and a task does not keep the result of an appeal that was followed through. -/
structure Store.Appealed (s : Store) : Prop where
  revoked : ∀ f ∈ s.finals, f.status = .revoked → ∃ a ∈ s.appeals, a.finalReceiptId = f.primaryReceiptId ∧
    a.status = .accepted
  filed : ∀ id, s.hasKey (escalationKey id) = true → ∃ a ∈ s.appeals, a.id = id
  decided : ∀ a ∈ s.appeals, s.Decided a
  escalated : ∀ a ∈ s.appeals, s.FollowedThrough a → ∀ t ∈ s.tasks, t.id = a.taskVersionId →
    t.state = .approved ∨ t.state = .published → t.activeFinalReceiptId ≠ some a.finalReceiptId

theorem Store.Appealed.empty : Store.empty.Appealed where
  revoked _ h := absurd h List.not_mem_nil
  filed _ h := by cases h
  decided _ h := absurd h List.not_mem_nil
  escalated _ h := absurd h List.not_mem_nil

/-- Only an escalation takes its key. -/
theorem Store.Legit.of_escalationKey {s : Store} {task : TaskRow} {tr : Transition} {id : Text} (h : s.Legit task tr)
    (hk : tr.idempotencyKey = escalationKey id) : ∃ appeal, appeal.id = id ∧ appeal.taskVersionId = task.id ∧
      s.Accepted appeal ∧ tr.toState = .escalated := by
  have htake := congrArg (List.take 3) hk
  cases h with
  | appealEscalation appeal subjectHash hstate haccepted htask =>
    exact ⟨appeal, List.append_cancel_left hk, htask, haccepted, rfl⟩
  | openIndependent => exact absurd (show "ind".toList = "app".toList from htake) (by decide)
  | quorum => exact absurd (show "ind".toList = "app".toList from htake) (by decide)
  | proposal => exact absurd (show "j1-".toList = "app".toList from htake) (by decide)
  | ratification => exact absurd (show "j2-".toList = "app".toList from htake) (by decide)
  | expiry => exact absurd (show "dea".toList = "app".toList from htake) (by decide)
  | reissue => exact absurd (show "rei".toList = "app".toList from htake) (by decide)
  | openReview => exact absurd (show "rou".toList = "app".toList from htake) (by decide)
  | publication => exact absurd (show "pub".toList = "app".toList from htake) (by decide)

theorem escalationKey_ne (id taskVersionId : Text) : escalationKey id ≠ initialEventId taskVersionId := fun h =>
  absurd (show "app".toList = "tas".toList from congrArg (List.take 3) h) (by decide)

section Step

variable {x : Outside} {w : Write} {s s' : Store} (h : s.Sound) (hfact : w.Fact s) (happly : w.apply x.uuid.1 s = some s')
include h hfact happly

/-- The key of an escalation is logged before, or by the transition of its appeal. -/
theorem hasKey_escalation {id : Text} (hk : s'.hasKey (escalationKey id) = true) : s.hasKey (escalationKey id) = true ∨
    ∃ task tr row appeal, w = .transition task tr ∧ Moved s s' x task tr row ∧ appeal.id = id ∧
      appeal.taskVersionId = task.id ∧ s.Accepted appeal ∧ tr.toState = .escalated := by
  obtain ⟨e, he, hkey⟩ := Db.hasKey_iff.1 hk
  obtain he | ⟨task, tr, row, rfl, hm, rfl⟩ | hopening := w.events_cases h hfact happly he
  · exact .inl (Db.hasKey_iff.2 ⟨e, he, hkey⟩)
  · obtain ⟨appeal, hid, htask, haccepted, hto⟩ := hfact.2.2.of_escalationKey hkey
    exact .inr ⟨task, tr, row, appeal, rfl, hm, hid, htask, haccepted, hto⟩
  · exact absurd (hkey.symm.trans hopening) (escalationKey_ne _ _)

omit hfact in
/-- An appeal that is new is against the result of its round that stands ratified, unless the task went on. -/
theorem decided_step (hi : s.Appealed) (hg : s.Grows s') {a : Appeal} (ha : a ∈ s'.appeals) :
    s'.Decided a := by
  obtain ⟨b, hb, hba, -⟩ | ⟨user, final, createdAt, -, -, f, hf, happealable, htask, hround, -⟩ := w.appeals_cases happly ha
  · exact (hi.decided b hb).grows hg hba
  · refine Store.Decided.grows hg (.refl a) ?_
    simp only [Store.isAppealable, Bool.and_eq_true, decide_eq_true_eq, List.any_eq_true] at happealable
    obtain ⟨⟨-, t, ht, ⟨hid, hstate⟩, -⟩, -⟩ := happealable
    obtain ⟨rid, hrid, ⟨q, hq, hqround, hkey, primary, root, hart, -⟩, -⟩ := (Store.backs_approved hstate).1 (h.tasks t ht).backs
    obtain ⟨p, hp, -, hptask, hpround, -⟩ := (h.finals f hf).primary
    have hpok := h.submissions p hp
    obtain ⟨t', ht', hid', hn⟩ := hpok.reached
    obtain rfl : t' = t := h.keys.consensus.tasks.eq_of_key ht' ht (hid'.trans (hptask.trans hid.symm))
    have hisround : s.IsRound a.roundId a.taskVersionId p.consensusRound := by
      rw [hround, htask, ← hpround, ← hptask]
      exact hpok.round
    rcases Nat.lt_or_eq_of_le hn with hlt | heq
    · exact .inr ⟨t', ht, hid.trans htask.symm, _, hisround, hlt⟩
    · refine .inl ⟨q, hq, hqround.trans ?_, by simp [Submission.role, hart, Artifact.consensusRole], hkey⟩
      exact (h.round_inj hrid hisround (.inr ⟨hid.trans htask.symm, heq.symm⟩)).1

omit happly in
/-- A result that an appeal was followed through on is not what a later ratification approves. -/
theorem approved_ne {task row : TaskRow} {tr : Transition} (hw : w = .transition task tr) (hm : Moved s s' x task tr row)
    {a : Appeal} (ha : a ∈ s.appeals) (hdecided : s.Decided a) (hid : row.id = a.taskVersionId)
    (hto : tr.toState = .approved) : (tr.applyTo x.uuid.1 s.clock row).activeFinalReceiptId ≠ some a.finalReceiptId := by
  subst hw
  obtain ⟨hseen, hallowed, hlegit⟩ := hfact
  obtain ⟨hrow, -, hversion⟩ := Transition.guard_iff hm.guard
  obtain ⟨-, -, -, hround⟩ := hseen.current h hm.mem hrow hversion
  have hfresh := hm.fresh
  cases hlegit with
  | ratification round secondary decision primaryReceiptId root now hstate hisround hstands hsecondary hartifact =>
    intro hfinal
    have hagree : decision = .agree := by
      by_contra hne
      simp [ratification, hne] at hto
    subst hagree
    have hprimary : primaryReceiptId = a.finalReceiptId := Option.some.inj hfinal
    obtain ⟨q₂, hq₂, hqq⟩ := hstands
    have hart : q₂.artifact = .ratification .agree primaryReceiptId root := by
      rw [hqq]
      exact hartifact
    have hround₂ : q₂.roundId = round.id := by
      rw [hqq]
      exact hsecondary
    -- the appeal is about a result of the round that is ratified now
    have hbound := (h.submissions q₂ hq₂).bound
    simp only [Store.Bound, hart] at hbound
    obtain ⟨⟨f, hf, hf1, -, hf3, -⟩, -⟩ := hbound
    obtain ⟨f', hf', hf1', -, hf3', -⟩ := h.appeals a ha
    obtain rfl : f = f' := h.keys.result.finals.eq_of_key hf hf' (hf1.trans (hprimary.trans hf1'.symm))
    have hsame : a.roundId = round.id := hf3'.symm.trans (hf3.trans hround₂)
    obtain ⟨q, hq, hqround, hqrole, hkey⟩ | ⟨t, ht, htask, n, hn, hlt⟩ := hdecided
    · have hrole₂ : q₂.role = .j2 := by simp [Submission.role, hart, Artifact.consensusRole]
      obtain rfl := h.eq_of_role hq hq₂ (hqround.trans (hsame.trans hround₂.symm)) (hqrole.trans hrole₂.symm)
      have hreceipt : q.receiptId = secondary.receiptId := by rw [hqq]
      rw [hreceipt] at hkey
      exact absurd (hkey.symm.trans hfresh) (by simp)
    · obtain rfl : t = row := h.keys.consensus.tasks.eq_of_key ht hm.mem (htask.trans hid.symm)
      obtain ⟨-, -, hnumber⟩ := h.round_inj hn hisround (.inl hsame)
      have hcurrent := hround (by rw [hstate]; decide)
      omega
  | openIndependent => cases hto
  | quorum => cases hto
  | proposal round primary novelCount =>
    by_cases hn : 0 < novelCount <;> simp [proposal, hn] at hto
  | expiry => cases hto
  | appealEscalation => cases hto
  | reissue => cases hto
  | openReview => cases hto
  | publication => cases hto

omit happly in
/-- A publication leaves the task the result that it had. -/
theorem published_final {task row : TaskRow} {tr : Transition} (hw : w = .transition task tr)
    (hm : Moved s s' x task tr row) (hto : tr.toState = .published) : row.state = .approved ∧
      (tr.applyTo x.uuid.1 s.clock row).activeFinalReceiptId = row.activeFinalReceiptId := by
  subst hw
  obtain ⟨hseen, hallowed, hlegit⟩ := hfact
  obtain ⟨hrow, hstate, hversion⟩ := Transition.guard_iff hm.guard
  obtain ⟨-, hfinal, -⟩ := hseen.current h hm.mem hrow hversion
  cases hlegit with
  | publication taskVersionId final receipt guardAt happroved htask hstands hfinaltask hactive hfin =>
    refine ⟨hstate.trans happroved, ?_⟩
    rw [hfinal, hfin]
    rfl
  | openIndependent => cases hto
  | quorum => cases hto
  | proposal round primary novelCount =>
    by_cases hn : 0 < novelCount <;> simp [proposal, hn] at hto
  | ratification round secondary decision =>
    by_cases hd : decision = .agree <;> simp [ratification, hd] at hto
  | expiry => cases hto
  | appealEscalation => cases hto
  | reissue => cases hto
  | openReview => cases hto

theorem escalated_step (hi : s.Appealed) (hs' : s'.Sound) {a : Appeal} (ha : a ∈ s'.appeals)
    (hthrough : s'.FollowedThrough a) {t : TaskRow} (ht : t ∈ s'.tasks) (hid : t.id = a.taskVersionId)
    (hstate : t.state = .approved ∨ t.state = .published) : t.activeFinalReceiptId ≠ some a.finalReceiptId := by
  -- the appeal is one that stood: a new one has no escalation
  obtain ⟨b, hb, hba⟩ : ∃ b ∈ s.appeals, AppealGrows b a := by
    obtain ⟨b, hb, hba, -⟩ | ⟨user, final, createdAt, rfl, -⟩ := w.appeals_cases happly ha
    · exact ⟨b, hb, hba⟩
    · obtain hk | ⟨task, tr, row, appeal, hw, -⟩ := hasKey_escalation h hfact happly hthrough
      · obtain ⟨b, hb, hbid⟩ := hi.filed a.id hk
        obtain rfl := Option.some.inj happly
        obtain rfl := hs'.keys.result.appeals.eq_of_key (List.mem_append_left _ hb) ha hbid
        exact ⟨b, hb, .refl b⟩
      · cases hw
  rw [hba.final]
  rw [hba.task] at hid
  obtain hk | ⟨task, tr, row, appeal, rfl, hm, happeal, htask, haccepted, hto⟩ := hasKey_escalation h hfact happly hthrough
  · have hthrough : s.FollowedThrough b := by
      rw [hba.id] at hk
      exact hk
    obtain ht | ⟨task, tr, row, hw, hm, rfl⟩ | hother := w.tasks_cases h hfact happly ht
    · exact hi.escalated b hb hthrough t ht hid hstate
    · rcases hstate with hstate | hstate
      · exact approved_ne h hfact hw hm hb (hi.decided b hb) hid hstate
      · obtain ⟨happroved, hsame⟩ := published_final h hfact hw hm hstate
        rw [hsame]
        exact hi.escalated b hb hthrough row hm.mem hid (.inl happroved)
    · rcases hstate with hstate | hstate <;> rcases hother with hother | hother <;> rw [hstate] at hother <;> cases hother
  · exfalso
    -- the escalation is this appeal's, and its task is escalated
    obtain ⟨c, hc, hcc, -⟩ := haccepted
    obtain rfl : c = b := h.keys.result.appeals.eq_of_key hc hb (hcc.id.trans (happeal.trans hba.id))
    obtain ⟨hrow, -, -⟩ := Transition.guard_iff hm.guard
    obtain ⟨-, hne⟩ | rfl := hm.of_mem h ht
    · exact hne (hid.trans (hcc.task.trans (htask.trans hrow.symm)))
    · rcases hstate with hstate | hstate <;> cases hto.symm.trans hstate

theorem appealed_step (hi : s.Appealed) (hs' : s'.Sound) (hg : s.Grows s') : s'.Appealed where
  revoked f hf hrevoked := by
    obtain ⟨g, hgf, hprimary, hstatus⟩ | hw := w.revoked_cases happly hf hrevoked
    · obtain ⟨a, ha, hfinal, haccepted⟩ := hi.revoked g hgf hstatus
      obtain ⟨a', ha', haa⟩ := hg.appeals a ha
      exact ⟨a', ha', haa.final.trans (hfinal.trans hprimary), (haa.decided (by simp [haccepted])).trans haccepted⟩
    · subst hw
      obtain ⟨a, haccepted, hfinal⟩ := hfact
      obtain ⟨a', ha', haa, hstatus⟩ := haccepted.grows hg
      exact ⟨a', ha', haa.final.trans hfinal, hstatus⟩
  filed id hk := by
    have hfiled : ∃ a ∈ s.appeals, a.id = id := by
      obtain hk | ⟨task, tr, row, appeal, hw, hm, hid, htask, ⟨a, ha, haa, -⟩, hto⟩ := hasKey_escalation h hfact happly hk
      · exact hi.filed id hk
      · exact ⟨a, ha, haa.id.trans hid⟩
    obtain ⟨a, ha, hid⟩ := hfiled
    obtain ⟨a', ha', haa⟩ := hg.appeals a ha
    exact ⟨a', ha', haa.id.trans hid⟩
  decided a ha := decided_step h happly hi hg ha
  escalated a ha hthrough t ht hid hstate := escalated_step h hfact happly hi hs' ha hthrough ht hid hstate

end Step

/-! ## A published task -/

/-- What publication is to guarantee: the appeal window is over, the task's final result is active, its receipt is stored,
and no appeal against it is pending or accepted. -/
structure Store.PublishedOk (s : Store) (t : TaskRow) : Prop where
  deadline : ∃ d, t.appealDeadlineAt = some d ∧ d ≤ s.clock
  result : ∃ f ∈ s.finals, t.activeFinalReceiptId = some f.primaryReceiptId ∧ f.taskVersionId = t.id ∧
    f.status = .active ∧ ∃ r ∈ s.receipts, r.taskVersionId = t.id ∧ r.roundId = f.roundId ∧
      r.finalMerkleRoot = f.finalMerkleRoot
  unappealed : ∀ a ∈ s.appeals, t.activeFinalReceiptId = some a.finalReceiptId → a.status ≠ .pending ∧ a.status ≠ .accepted

/-- Where a task is published, every accepted appeal of it was followed through. -/
def AppealsSettled (_ : Outside) (w : Write) (s : Store) : Prop :=
  match w with
  | .transition task tr => tr.toState = .published →
    ∀ a ∈ s.appeals, a.taskVersionId = task.id → a.status = .accepted → s.FollowedThrough a
  | _ => True

section Step

variable {x : Outside} {w : Write} {s s' : Store} (h : s.Sound) (hfact : w.Fact s) (happly : w.apply x.uuid.1 s = some s')
include h hfact happly

omit hfact in
/-- What stands behind a published task stays. -/
theorem publishedOk_stays (hs' : s'.Appealed) (hg : s.Grows s') {t : TaskRow} (ht : t ∈ s.tasks)
    (hstate : t.state = .published) (hok : s.PublishedOk t) : s'.PublishedOk t := by
  have hunappealed : ∀ a ∈ s'.appeals, t.activeFinalReceiptId = some a.finalReceiptId →
      a.status ≠ .pending ∧ a.status ≠ .accepted := by
    intro a ha hfinal
    obtain ⟨b, hb, hba, -⟩ | ⟨user, final, createdAt, -, -, f, hf, happealable, -, -, hafinal⟩ := w.appeals_cases happly ha
    · obtain ⟨hpending, haccepted⟩ := hok.unappealed b hb (by rw [hfinal, hba.final])
      rw [hba.decided hpending]
      exact ⟨hpending, haccepted⟩
    · -- an appeal is only opened on a task that is approved
      exfalso
      obtain ⟨g, hgf, hprimary, htask, -⟩ := hok.result
      obtain rfl : f = g := h.keys.result.finals.eq_of_key hf hgf
        (hafinal.symm.trans (Option.some.inj (hfinal.symm.trans hprimary)))
      simp only [Store.isAppealable, Bool.and_eq_true, decide_eq_true_eq, List.any_eq_true] at happealable
      obtain ⟨⟨-, u, hu, ⟨hid, happroved⟩, -⟩, -⟩ := happealable
      obtain rfl := h.keys.consensus.tasks.eq_of_key hu ht (hid.trans htask)
      cases happroved.symm.trans hstate
  obtain ⟨d, hd, hle⟩ := hok.deadline
  obtain ⟨f, hf, hprimary, htask, hactive, r, hr, hreceipt⟩ := hok.result
  obtain ⟨f', hf', hff⟩ := hg.finals f hf
  refine ⟨⟨d, hd, hle.trans hg.clock⟩, ⟨f', hf', ?_, hff.task.trans htask, ?_, r, hg.receipts hr, ?_⟩, hunappealed⟩
  · rw [hprimary, hff.primary]
  · rcases hff.active hactive with hstatus | hstatus
    · exact hstatus
    · obtain ⟨a, ha, hfinal, haccepted⟩ := hs'.revoked f' hf' hstatus
      exact absurd haccepted (hunappealed a ha (by rw [hprimary, hfinal, hff.primary])).2
  · rw [hff.round, hff.root]
    exact hreceipt

omit happly in
/-- A task that a publication moves has all that it is to have. -/
theorem publishedOk_moved (hi : s.Appealed) (hg : s.Grows s') (hC : AppealsSettled x w s) {task row : TaskRow}
    {tr : Transition} (hw : w = .transition task tr) (hm : Moved s s' x task tr row) (hto : tr.toState = .published) :
    s'.PublishedOk (tr.applyTo x.uuid.1 s.clock row) := by
  obtain ⟨happroved, hsame⟩ := published_final h hfact hw hm hto
  subst hw
  have hsettled := hC hto
  obtain ⟨hrow, -, -⟩ := Transition.guard_iff hm.guard
  have hguard := hm.guard
  obtain ⟨-, -, hlegit⟩ := hfact
  cases hlegit with
  | publication taskVersionId final receipt guardAt hstate htask hstands hfinaltask hactive hfin hreceipt hreceipttask
      hround hroot hpassed =>
    simp only [Transition.guard, publication, Bool.not_true, Bool.false_or, Bool.and_eq_true, publicationReady,
      Option.getD_some, Bool.not_eq_true'] at hguard
    obtain ⟨-, hdeadline, hpending⟩ := hguard
    obtain ⟨d, hd, hle⟩ := (Option.any_eq_true _ _).1 hdeadline
    obtain ⟨f, hf, hff⟩ := hstands
    have hfinal : row.activeFinalReceiptId = some f.primaryReceiptId := by
      rw [← hsame, hff.primary]
      rfl
    -- the appeals against the result are appeals of the task
    have happeal : ∀ a ∈ s.appeals, row.activeFinalReceiptId = some a.finalReceiptId → a.taskVersionId = row.id := by
      intro a ha hafinal
      obtain ⟨g, hgf, hg1, hg2, -⟩ := h.appeals a ha
      obtain rfl : g = f := h.keys.result.finals.eq_of_key hgf hf
        (hg1.trans (Option.some.inj (hafinal.symm.trans hfinal)))
      exact hg2.symm.trans (hff.task.trans (hfinaltask.trans hrow.symm))
    have hunaccepted : ∀ a ∈ s.appeals, row.activeFinalReceiptId = some a.finalReceiptId → a.status ≠ .accepted := by
      intro a ha hafinal haccepted
      have htask := happeal a ha hafinal
      exact hi.escalated a ha (hsettled a ha (htask.trans hrow) haccepted) row hm.mem htask.symm (.inl happroved) hafinal
    have happeals : s'.appeals = s.appeals := by rw [hm.eq]; rfl
    have hfinals : s'.finals = s.finals := by rw [hm.eq]; rfl
    refine ⟨⟨d, hd, (of_decide_eq_true hle).trans (hpassed.trans hg.clock)⟩, ⟨f, hfinals ▸ hf, hsame.trans hfinal, ?_, ?_,
      receipt, hg.receipts hreceipt, ?_⟩, fun a ha hafinal => ?_⟩
    · exact hff.task.trans (hfinaltask.trans hrow.symm)
    · rcases hff.active hactive with hstatus | hstatus
      · exact hstatus
      · obtain ⟨a, ha, hafinal, haccepted⟩ := hi.revoked f hf hstatus
        exact absurd haccepted (hunaccepted a ha (by rw [hfinal, hafinal]))
    · rw [hff.round, hff.root]
      exact ⟨hreceipttask.trans hrow.symm, hround, hroot⟩
    · rw [happeals] at ha
      rw [hsame] at hafinal
      refine ⟨fun hp => ?_, hunaccepted a ha hafinal⟩
      have hnone : row.id ∉ s.db.pendingAppeals := by simpa using hpending
      refine hnone (List.mem_map.2 ⟨a, List.mem_filter.2 ⟨ha, ?_⟩, happeal a ha hafinal⟩)
      simp [Appeal.isPending, hp]
  | openIndependent => cases hto
  | quorum => cases hto
  | proposal round primary novelCount =>
    by_cases hn : 0 < novelCount <;> simp [proposal, hn] at hto
  | ratification round secondary decision =>
    by_cases hd : decision = .agree <;> simp [ratification, hd] at hto
  | expiry => cases hto
  | appealEscalation => cases hto
  | reissue => cases hto
  | openReview => cases hto

end Step

/-- **Publication is safe where it waits for accepted appeals**: whatever else is going on, a published task has passed its
deadline, has an active final result with a receipt stored, and no appeal against it is pending or accepted. -/
theorem publication_safe {env : Env} {w : PortalState} (hrun : PortalRun env AppealsSettled w) :
    ∀ t ∈ w.store.tasks, t.state = .published → w.store.PublishedOk t := by
  refine (portal_log (I := fun s => s.Appealed ∧ ∀ t ∈ s.tasks, t.state = .published → s.PublishedOk t)
    ⟨.empty, fun t ht => absurd ht List.not_mem_nil⟩ (fun x c s s' hsound hfact hC happly hsound' hg hi => ?_) hrun).2.1.2
  have happealed := appealed_step hsound hfact happly hi.1 hsound' hg
  refine ⟨happealed, fun t ht hstate => ?_⟩
  obtain ht | ⟨task, tr, row, hw, hm, rfl⟩ | hother := c.tasks_cases hsound hfact happly ht
  · exact publishedOk_stays hsound happly happealed hg ht hstate (hi.2 t ht hstate)
  · exact publishedOk_moved hsound hfact hi.1 hg hC hw hm hstate
  · rw [hstate] at hother
    rcases hother with hother | hother <;> cases hother

instance (x : Outside) (w : Write) (s : Store) : Decidable (AppealsSettled x w s) := by
  induction w using Write.casesOn with
  | transition task tr =>
    exact inferInstanceAs (Decidable (tr.toState = .published →
      ∀ a ∈ s.appeals, a.taskVersionId = task.id → a.status = .accepted → s.FollowedThrough a))
  | _ => exact .isTrue trivial

def approvalReceipt : RepositoryReceipt :=
  ⟨"receipt".toList, "x:v1".toList, "x:v1:r1".toList, "root".toList, approvalEvent⟩

/-- A task goes all the way. -/
theorem publication_safe_published : ∃ w, PortalRun sampleEnv AppealsSettled w ∧
    w.store.tasks.map TaskRow.state = [.published] ∧
      ∀ t ∈ w.store.tasks, t.state = .published → w.store.PublishedOk t := by
  obtain ⟨w, hrun, hp⟩ := run_play sampleEnv AppealsSettled
    (approvedTask ++ [.request (.repositoryReceipt approvalReceipt), .go 4 5, .request (.clock appealWindowMs),
      .go 5 1, .request .publishableTasks, .go 6 17])
    (p := fun w => decide (w.store.tasks.map TaskRow.state = [.published])) (by decide +kernel) (by decide +kernel)
  exact ⟨w, hrun, of_decide_eq_true hp, publication_safe hrun⟩

/-- A's appeal is accepted, and the reviewer's request stops there; then the appeal window ends. -/
def stoppedReview : List Part :=
  approvedTask ++ [.request (.appeal (sampleAccount "a") primaryReceipt), .go 4 6,
    .request (.repositoryReceipt approvalReceipt), .go 5 5, .request (.review (sampleUuidText 129) true none), .go 6 3,
    .request (.clock appealWindowMs), .go 7 1, .request .publishableTasks, .go 8 17]

/-- A published task, and an accepted appeal against its result. -/
def isAppealed (s : Store) (t : TaskRow) : Bool :=
  decide (t.state = .published) && s.appeals.any (fun a => decide (t.activeFinalReceiptId = some a.finalReceiptId) &&
    decide (a.status = .accepted))

theorem publication_unsafe :
    ¬ ∀ (env : Env) (w : PortalState), (portalWorld env).Reaches portalStart w →
      ∀ t ∈ w.store.tasks, t.state = .published → w.store.PublishedOk t := by
  intro h
  obtain ⟨w, hrun, hp⟩ := reaches_play sampleEnv stoppedReview
    (p := fun w => w.store.tasks.any (isAppealed w.store)) (by decide +kernel)
  obtain ⟨t, ht, happealed⟩ := List.any_eq_true.1 hp
  simp only [isAppealed, Bool.and_eq_true, decide_eq_true_eq, List.any_eq_true] at happealed
  obtain ⟨hstate, a, ha, hfinal, haccepted⟩ := happealed
  exact ((h sampleEnv w hrun t ht hstate).unappealed a ha hfinal).2 haccepted

end Portal
end Adg
