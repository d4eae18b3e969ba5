import AdgLang.PortalRows
import AdgLang.PortalRuns
/-!
# Approval — what stands behind an approved task

The tables alone say who made an approved result and of what, unless the result was revoked (`Store.Sound.fullyBacked`).
Results are not revoked under their tasks, and active ones not left behind, in the runs in which no revocation, no late
deadline and no late ratification gets between a task and its result (`approval_backed`).
-/
namespace Adg
namespace Portal

open Js Consensus

/-! ## What is claimed of a state -/

/-- The four submissions of a round that stand behind a result. -/
structure Store.Cosigned (s : Store) (f : FinalResult) (a b p q : Submission) : Prop where
  stored : a ∈ s.submissions ∧ b ∈ s.submissions ∧ p ∈ s.submissions ∧ q ∈ s.submissions
  rounds : a.roundId = f.roundId ∧ b.roundId = f.roundId ∧ p.roundId = f.roundId ∧ q.roundId = f.roundId
  active : a.active = true ∧ b.active = true ∧ p.active = true ∧ q.active = true
  primary : p.receiptId = f.primaryReceiptId
  secondary : f.secondaryReceiptId = some q.receiptId
  ratified : q.artifact = .ratification .agree f.primaryReceiptId f.finalMerkleRoot
  adjudicated : ∃ annotationA annotationB n, p.artifact = .adjudication annotationA annotationB f.finalMerkleRoot n ∧
    a.artifact = .annotated ⟨.a, annotationA⟩ ∧ b.artifact = .annotated ⟨.b, annotationB⟩
  accounts : [a.userId, b.userId, p.userId, q.userId].Nodup

/-- The task's active final result is its one active row, of its current round, with all four submissions behind it. -/
def Store.FullyBacked (s : Store) (t : TaskRow) : Prop :=
  ∃ f ∈ s.finals, t.activeFinalReceiptId = some f.primaryReceiptId ∧ f.taskVersionId = t.id ∧ f.status = .active ∧
    (∀ g ∈ s.finals, g.taskVersionId = t.id → g.status = .active → g = f) ∧
    s.IsRound f.roundId t.id t.currentRound ∧ ∃ a b p q, s.Cosigned f a b p q

/-- An active result is that of an approved or published task, or waits for it to be reconciled, or is under an accepted
appeal. -/
def Store.Accounted (s : Store) (f : FinalResult) : Prop :=
  (∃ t ∈ s.tasks, t.id = f.taskVersionId ∧
    ((t.state = .approved ∨ t.state = .published) ∧ t.activeFinalReceiptId = some f.primaryReceiptId ∨
      t.state = .finalReview ∧ s.IsRound f.roundId t.id t.currentRound)) ∨
    ∃ a ∈ s.appeals, a.finalReceiptId = f.primaryReceiptId ∧ a.status = .accepted

/-- An approved state is fully backed. -/
structure Store.ApprovalsBacked (s : Store) : Prop where
  backed : ∀ t ∈ s.tasks, t.state = .approved ∨ t.state = .published → s.FullyBacked t
  accounted : ∀ f ∈ s.finals, f.status = .active → s.Accounted f

/-! ## What the tables say of a result -/

section Sound

variable {s : Store} (h : s.Sound)
include h

/-- Different roles of one round are filled by different accounts. -/
theorem Store.Sound.user_ne {p q : Submission} (hp : p ∈ s.submissions) (hq : q ∈ s.submissions)
    (hround : p.roundId = q.roundId) (hrole : p.role ≠ q.role) : p.userId ≠ q.userId := by
  intro huser
  obtain ⟨u, hu, hutask, huround, huuser, hurole, -⟩ := (h.submissions p hp).participates
  obtain ⟨v, hv, hvtask, hvround, hvuser, hvrole, -⟩ := (h.submissions q hq).participates
  obtain ⟨-, htask, -⟩ := h.round_inj (h.submissions p hp).round (h.submissions q hq).round (.inl hround)
  obtain rfl : u = v := h.keys.participation.participationUsers.eq_of_key hu hv (by
    simp only [hutask, hvtask, huuser, hvuser, htask, huser])
  exact hrole (hurole.symm.trans hvrole)

/-- A result that J2 agreed with has its four submissions. -/
theorem Store.Sound.cosigned {f : FinalResult} (hf : f ∈ s.finals) (hstatus : f.status ≠ .proposed) :
    ∃ a b p q, s.Cosigned f a b p q := by
  obtain ⟨p, hp, hreceipt, -, hpround, rootA, rootB, n, hpart⟩ := (h.finals f hf).primary
  obtain ⟨q, hq, hsecondary, hqround, hqart⟩ := (h.finals f hf).seconded hstatus
  have hbound := (h.submissions p hp).bound
  simp only [Store.Bound, hpart] at hbound
  obtain ⟨⟨a, ha, haround, haart⟩, ⟨b, hb, hbround, hbart⟩, -⟩ := hbound
  have hrolea : a.role = .a := role_of_annotated haart
  have hroleb : b.role = .b := role_of_annotated hbart
  have hrolep : p.role = .j1 := by simp [Submission.role, hpart, Artifact.consensusRole]
  have hroleq : q.role = .j2 := by simp [Submission.role, hqart, Artifact.consensusRole]
  have hqp : q.roundId = p.roundId := hqround.trans hpround.symm
  refine ⟨a, b, p, q, ⟨ha, hb, hp, hq⟩, ⟨haround.trans hpround, hbround.trans hpround, hpround, hqround⟩,
    ⟨(h.submissions a ha).active, (h.submissions b hb).active, (h.submissions p hp).active, (h.submissions q hq).active⟩,
    hreceipt, hsecondary, hqart, ⟨rootA, rootB, n, hpart, haart, hbart⟩, ?_⟩
  simp only [List.nodup_cons, List.mem_cons, List.not_mem_nil, or_false, not_or, not_false_eq_true, List.nodup_nil,
    and_true]
  refine ⟨⟨?_, ?_, ?_⟩, ⟨?_, ?_⟩, ?_⟩
  · exact h.user_ne ha hb (haround.trans hbround.symm) (by rw [hrolea, hroleb]; decide)
  · exact h.user_ne ha hp haround (by rw [hrolea, hrolep]; decide)
  · exact h.user_ne ha hq (haround.trans hqp.symm) (by rw [hrolea, hroleq]; decide)
  · exact h.user_ne hb hp hbround (by rw [hroleb, hrolep]; decide)
  · exact h.user_ne hb hq (hbround.trans hqp.symm) (by rw [hroleb, hroleq]; decide)
  · exact h.user_ne hp hq hqp.symm (by rw [hrolep, hroleq]; decide)

/-- A task that is approved or published, and its result. -/
theorem Store.Sound.final_of_approved {t : TaskRow} (ht : t ∈ s.tasks)
    (hstate : t.state = .approved ∨ t.state = .published) : ∃ f ∈ s.finals,
      t.activeFinalReceiptId = some f.primaryReceiptId ∧ f.taskVersionId = t.id ∧
        s.IsRound f.roundId t.id t.currentRound ∧ (f.status = .active ∨ f.status = .revoked) := by
  obtain ⟨rid, hrid, q, hq, hqround, -, primary, root, hart, hfinal⟩ :
      ∃ rid, s.IsRound rid t.id t.currentRound ∧ s.Ratified rid t.activeFinalReceiptId := by
    rcases hstate with hstate | hstate
    · obtain ⟨rid, hrid, hratified, -⟩ := (Store.backs_approved hstate).1 (h.tasks t ht).backs
      exact ⟨rid, hrid, hratified⟩
    · exact (Store.backs_published hstate).1 (h.tasks t ht).backs
  have hbound := (h.submissions q hq).bound
  simp only [Store.Bound, hart] at hbound
  obtain ⟨⟨g, hg, hgprimary, hgtask, hground, -⟩, hagree⟩ := hbound
  obtain ⟨f, hf, hprimary, -, hstatus⟩ := hagree trivial
  obtain rfl : g = f := h.keys.result.finals.eq_of_key hg hf (hgprimary.trans hprimary.symm)
  obtain ⟨-, htask, -⟩ := h.round_inj hrid (h.submissions q hq).round (.inl hqround.symm)
  refine ⟨g, hg, by rw [hfinal, hprimary], hgtask.trans htask.symm, ?_, hstatus⟩
  rw [hground, hqround]
  exact hrid

/-- **A result that was not revoked is all that is behind an approved task.** -/
theorem Store.Sound.fullyBacked {t : TaskRow} (ht : t ∈ s.tasks) (hstate : t.state = .approved ∨ t.state = .published)
    (hunrevoked : ∀ f ∈ s.finals, f.status ≠ .revoked) : s.FullyBacked t := by
  obtain ⟨f, hf, hfinal, htask, hround, hstatus⟩ := h.final_of_approved ht hstate
  have hactive : f.status = .active := hstatus.resolve_right (hunrevoked f hf)
  refine ⟨f, hf, hfinal, htask, hactive, fun g hg hgtask hgactive => ?_, hround,
    h.cosigned hf (by rw [hactive]; nofun)⟩
  exact h.keys.result.oneActive.eq_of_key (List.mem_filter.2 ⟨hg, by simp [FinalResult.isActive, hgactive]⟩)
    (List.mem_filter.2 ⟨hf, by simp [FinalResult.isActive, hactive]⟩) (hgtask.trans htask.symm)

end Sound

/-! ## Runs -/

/-- The transition handles the deadline of a round. -/
def Transition.isExpiry (tr : Transition) : Bool := decide (tr.eventType = "independent-quorum-expired".toList)

def Artifact.agrees : Artifact → Bool
  | .ratification .agree _ _ => true
  | _ => false

/-- Nothing gets between a task and its active result: it is not revoked under a task that still has it, no deadline is
handled of a task that has one, and no J2 agrees after the deadline of the round was handled. -/
def ResultsHeld (_ : Outside) (w : Write) (s : Store) : Prop :=
  match w with
  | .revokeFinal primaryReceiptId => ∀ t ∈ s.tasks, t.state = .approved ∨ t.state = .published →
    t.activeFinalReceiptId ≠ some primaryReceiptId
  | .transition task tr => Transition.isExpiry tr = true → ∀ row ∈ s.tasks, tr.guard s.db task s.clock row = true →
    ∀ f ∈ s.finals, f.taskVersionId = row.id → f.status ≠ .active
  | .submit b => b.row.artifact.agrees = true → ¬ s.Expired b.row.roundId
  | _ => True

/-- No result is revoked, each active one is that of its task or waits for it, and appeals are about the results that
their tasks have. -/
structure Store.Upheld (s : Store) : Prop where
  unrevoked : ∀ f ∈ s.finals, f.status ≠ .revoked
  held : ∀ f ∈ s.finals, f.status = .active → ∃ t ∈ s.tasks, t.id = f.taskVersionId ∧
    s.IsRound f.roundId t.id t.currentRound ∧
      ((t.state = .approved ∨ t.state = .published) ∧ t.activeFinalReceiptId = some f.primaryReceiptId ∨
        t.state = .finalReview)
  appealed : ∀ a ∈ s.appeals, ∃ t ∈ s.tasks, t.id = a.taskVersionId ∧ (t.state = .approved ∨ t.state = .published) ∧
    t.activeFinalReceiptId = some a.finalReceiptId

theorem Store.Upheld.empty : Store.empty.Upheld where
  unrevoked _ h := absurd h List.not_mem_nil
  held _ h := absurd h List.not_mem_nil
  appealed _ h := absurd h List.not_mem_nil

theorem Store.Upheld.approvalsBacked {s : Store} (hi : s.Upheld) (h : s.Sound) : s.ApprovalsBacked where
  backed t ht hstate := h.fullyBacked ht hstate hi.unrevoked
  accounted f hf hactive := by
    obtain ⟨t, ht, hid, hround, hstate⟩ := hi.held f hf hactive
    exact .inl ⟨t, ht, hid, hstate.imp_right (fun hs => ⟨hs, hround⟩)⟩

section Step

variable {x : Outside} {w : Write} {s s' : Store} (h : s.Sound) (hi : s.Upheld) (hfact : w.Fact s)
  (hC : ResultsHeld x w s) (happly : w.apply x.uuid.1 s = some s')
include h hi hfact hC happly

omit happly in
/-- What a transition does to a task that is approved or published. -/
theorem approved_moved {task t : TaskRow} {tr : Transition} (hw : w = .transition task tr) (hm : Moved s s' x task tr t)
    (hstate : t.state = .approved ∨ t.state = .published) : tr.toState = .published ∧
      (tr.applyTo x.uuid.1 s.clock t).activeFinalReceiptId = t.activeFinalReceiptId := by
  subst hw
  obtain ⟨hseen, hallowed, hlegit⟩ := hfact
  obtain ⟨hid, hsame, hversion⟩ := Transition.guard_iff hm.guard
  obtain ⟨-, hfinal, -⟩ := hseen.current h hm.mem hid hversion
  rw [hsame] at hstate
  cases hlegit with
  | publication taskVersionId final receipt guardAt happroved htask hstands hfinaltask hactive hfin =>
    refine ⟨rfl, ?_⟩
    rw [hfinal, hfin]
    rfl
  | expiry round hround =>
    obtain ⟨f, hf, -, hftask, -, hstatus⟩ := h.final_of_approved hm.mem (hsame ▸ hstate)
    exact absurd (hstatus.resolve_right (hi.unrevoked f hf)) (hC rfl t hm.mem hm.guard f hf hftask)
  | appealEscalation appeal subjectHash happroved haccepted htask hrevoked =>
    obtain ⟨f, hf, -, hstatus⟩ := hrevoked
    exact absurd hstatus (hi.unrevoked f hf)
  | openIndependent userId round hs => rcases hstate with hstate | hstate <;> cases hs.symm.trans hstate
  | quorum round a b passed hs => rcases hstate with hstate | hstate <;> cases hs.symm.trans hstate
  | proposal round primary novelCount hs => rcases hstate with hstate | hstate <;> cases hs.symm.trans hstate
  | ratification round secondary decision primaryReceiptId root now hs =>
    rcases hstate with hstate | hstate <;> cases hs.symm.trans hstate
  | reissue call currentRound =>
    rcases hstate with hstate | hstate <;> rw [hstate] at hallowed <;>
      simp [allowedTransitions, ReissueCall.reissue] at hallowed
  | openReview call reissued =>
    rcases hstate with hstate | hstate <;> rw [hstate] at hallowed <;>
      simp [allowedTransitions, ReissueCall.openReview] at hallowed

/-- An approved or published task keeps its result. -/
theorem approved_stays {t : TaskRow} (ht : t ∈ s.tasks) (hstate : t.state = .approved ∨ t.state = .published) :
    ∃ t' ∈ s'.tasks, t'.id = t.id ∧ t'.currentRound = t.currentRound ∧
      (t'.state = .approved ∨ t'.state = .published) ∧ t'.activeFinalReceiptId = t.activeFinalReceiptId := by
  obtain ht' | ⟨task, tr, hw, hm⟩ := w.task_stays h hfact happly ht
    (by rcases hstate with hstate | hstate <;> rw [hstate] <;> nofun)
  · exact ⟨t, ht', rfl, rfl, hstate, rfl⟩
  · obtain ⟨hto, hfinal⟩ := approved_moved h hi hfact hC hw hm hstate
    exact ⟨_, hm.mem_moved, rfl, rfl, .inr hto, hfinal⟩

omit hi happly in
/-- A task in final review with an active result is only approved, with that result. -/
theorem review_moved {task t : TaskRow} {tr : Transition} (hw : w = .transition task tr) (hm : Moved s s' x task tr t)
    (hstate : t.state = .finalReview) {f : FinalResult} (hf : f ∈ s.finals) (hactive : f.status = .active)
    (hid : t.id = f.taskVersionId) (hround : s.IsRound f.roundId t.id t.currentRound) : tr.toState = .approved ∧
      (tr.applyTo x.uuid.1 s.clock t).activeFinalReceiptId = some f.primaryReceiptId := by
  subst hw
  obtain ⟨hseen, hallowed, hlegit⟩ := hfact
  obtain ⟨hrow, hsame, hversion⟩ := Transition.guard_iff hm.guard
  obtain ⟨-, -, -, hcurrent⟩ := hseen.current h hm.mem hrow hversion
  rw [hsame] at hstate
  cases hlegit with
  | ratification round secondary decision primaryReceiptId root now hs hisround hstands hsecondary hartifact =>
    obtain ⟨q, hq, -, hqround, hqart⟩ := (h.finals f hf).seconded (by rw [hactive]; nofun)
    obtain ⟨q₂, hq₂, hqq⟩ := hstands
    have hsameround : f.roundId = round.id := by
      refine (h.round_inj hround hisround (.inr ⟨hrow, ?_⟩)).1
      exact hcurrent (by rw [hs]; nofun)
    have hart₂ : q₂.artifact = .ratification decision primaryReceiptId root := by
      rw [hqq]
      exact hartifact
    have hround₂ : q₂.roundId = f.roundId := by
      rw [hqq]
      exact hsecondary.trans hsameround.symm
    obtain rfl := h.eq_of_role hq hq₂ (hqround.trans hround₂.symm)
      (by simp [Submission.role, hqart, hart₂, Artifact.consensusRole])
    obtain ⟨rfl, rfl, -⟩ := Artifact.ratification.inj (hqart.symm.trans hart₂)
    exact ⟨rfl, rfl⟩
  | expiry round => exact absurd hactive (hC rfl t hm.mem hm.guard f hf hid.symm)
  | openIndependent userId round hs => cases hs.symm.trans hstate
  | quorum round a b passed hs => cases hs.symm.trans hstate
  | proposal round primary novelCount hs => cases hs.symm.trans hstate
  | appealEscalation appeal subjectHash hs => cases hs.symm.trans hstate
  | publication taskVersionId final receipt guardAt hs => cases hs.symm.trans hstate
  | reissue call currentRound =>
    rw [hstate] at hallowed
    simp [allowedTransitions, ReissueCall.reissue] at hallowed
  | openReview call reissued =>
    rw [hstate] at hallowed
    simp [allowedTransitions, ReissueCall.openReview] at hallowed

theorem upheld_step (hs' : s'.Sound) (hg : s.Grows s') : s'.Upheld where
  unrevoked f hf hrevoked := by
    obtain ⟨g, hgf, -, hstatus⟩ | hw := w.revoked_cases happly hf hrevoked
    · exact hi.unrevoked g hgf hstatus
    · subst hw
      obtain ⟨a, ⟨a', ha', haa, -⟩, hfinal⟩ := hfact
      obtain ⟨t, ht, -, hstate, hactive⟩ := hi.appealed a' ha'
      exact hC t ht hstate (by rw [hactive, haa.final, hfinal])
  held f hf hactive := by
    obtain ⟨g, hgf, hprimary, htask, hround, hgactive⟩ | ⟨b, rfl, primary, root, hart, htask, hround⟩ :=
      w.active_cases happly hf hactive
    · obtain ⟨t, ht, hid, hisround, hstate⟩ := hi.held g hgf hgactive
      rw [← hprimary, ← htask, ← hround]
      rcases hstate with ⟨hstate, hfinal⟩ | hstate
      · obtain ⟨t', ht', hid', hround', hstate', hfinal'⟩ := approved_stays h hi hfact hC happly ht hstate
        refine ⟨t', ht', hid'.trans hid, ?_, .inl ⟨hstate', hfinal'.trans hfinal⟩⟩
        rw [hid', hround']
        exact hisround.grows hg
      · obtain ht' | ⟨task, tr, hw, hm⟩ := w.task_stays h hfact happly ht (by rw [hstate]; nofun)
        · exact ⟨t, ht', hid, hisround.grows hg, .inr hstate⟩
        · obtain ⟨hto, hfinal⟩ := review_moved h hfact hC hw hm hstate hgf hgactive hid hisround
          exact ⟨_, hm.mem_moved, hid, hisround.grows hg, .inl ⟨.inl hto, hfinal⟩⟩
    · obtain rfl := Option.some.inj happly
      have hadmits : s.Admits b := hfact
      have hrole : b.row.role = .j2 := by simp [Submission.role, hart, Artifact.consensusRole]
      obtain ⟨t, ht, r, hr, hrid, hrtask, hnumber, -, hstate⟩ | hexpired | hfilled := hadmits.admitted
      · have hisround : s.IsRound b.row.roundId t.id t.currentRound := ⟨r, hr, hrid, hrtask, hnumber⟩
        obtain ⟨-, htid, -⟩ := h.round_inj hisround hadmits.round (.inl rfl)
        rw [hrole] at hstate
        rw [htask, hround]
        exact ⟨t, ht, htid, hisround.grows hg, .inr (List.mem_singleton.1 hstate)⟩
      · exact absurd hexpired (hC (by rw [hart]; rfl))
      · exact absurd hfilled (hadmits.vacant h hs'.keys)
  appealed a ha := by
    obtain ⟨b, hb, hba, -⟩ | ⟨user, final, createdAt, rfl, -, f, hf, happealable, htask, -, hfinal⟩ := w.appeals_cases happly ha
    · obtain ⟨t, ht, hid, hstate, hactive⟩ := hi.appealed b hb
      obtain ⟨t', ht', hid', -, hstate', hfinal'⟩ := approved_stays h hi hfact hC happly ht hstate
      exact ⟨t', ht', hid'.trans (hid.trans hba.task.symm), hstate', by rw [hfinal', hactive, hba.final]⟩
    · obtain rfl := Option.some.inj happly
      simp only [Store.isAppealable, FinalResult.isActive, Bool.and_eq_true, decide_eq_true_eq, List.any_eq_true]
        at happealable
      obtain ⟨⟨⟨-, hfactive⟩, t, ht, ⟨hid, hstate⟩, -⟩, -⟩ := happealable
      obtain ⟨g, hgf, hgfinal, -, -, -, hone, -⟩ : ∃ g ∈ s.finals, t.activeFinalReceiptId = some g.primaryReceiptId ∧
          g.taskVersionId = t.id ∧ g.status = .active ∧ True ∧
          (∀ f ∈ s.finals, f.taskVersionId = t.id → f.status = .active → f = g) ∧ True := by
        obtain ⟨g, hgf, h1, h2, h3, h4, -⟩ := h.fullyBacked ht (.inl hstate) hi.unrevoked
        exact ⟨g, hgf, h1, h2, h3, trivial, h4, trivial⟩
      obtain rfl := hone f hf hid.symm hfactive
      exact ⟨t, ht, hid.trans htask.symm, .inl hstate, by rw [hgfinal, hfinal]⟩

end Step

/-- **Approved states are fully backed**, in every state of the runs in which results are held. -/
theorem approval_backed {env : Env} {w : PortalState} (hrun : PortalRun env ResultsHeld w) : w.store.ApprovalsBacked :=
  have h := portal_log (I := Store.Upheld) .empty (fun _ _ _ _ hsound hfact hC happly hsound' hg hi =>
    upheld_step hsound hi hfact hC happly hsound' hg) hrun
  h.2.1.approvalsBacked h.1

instance (x : Outside) (w : Write) (s : Store) : Decidable (ResultsHeld x w s) := by
  induction w using Write.casesOn with
  | revokeFinal primaryReceiptId =>
    exact inferInstanceAs (Decidable (∀ t ∈ s.tasks, t.state = .approved ∨ t.state = .published →
      t.activeFinalReceiptId ≠ some primaryReceiptId))
  | transition task tr =>
    exact inferInstanceAs (Decidable (Transition.isExpiry tr = true → ∀ row ∈ s.tasks, tr.guard s.db task s.clock row = true →
      ∀ f ∈ s.finals, f.taskVersionId = row.id → f.status ≠ .active))
  | submit b => exact inferInstanceAs (Decidable (b.row.artifact.agrees = true → ¬ s.hasKey (deadlineKey b.row.roundId) = true))
  | _ => exact .isTrue trivial

/-- A task that is approved. -/
theorem approval_backed_approved : ∃ w, PortalRun sampleEnv ResultsHeld w ∧
    w.store.tasks.map TaskRow.state = [.approved] ∧ w.store.ApprovalsBacked := by
  obtain ⟨w, hrun, hp⟩ := run_play sampleEnv ResultsHeld approvedTask
    (p := fun w => decide (w.store.tasks.map TaskRow.state = [.approved])) (by decide +kernel) (by decide +kernel)
  exact ⟨w, hrun, of_decide_eq_true hp, approval_backed hrun⟩

/-- The deadline of the round passes after A; the scheduled function lists the round, and reads the task again only after
B, J1 and J2 have taken it to 'approved'. -/
def staleDeadline : List Part :=
  [.request (annotates "a" .a), .go 0 30, .request (.clock roundDeadlineMs), .go 1 1, .request .expiredRounds, .go 2 8,
    .request (annotates "b" .b), .go 3 32,
    .request (submits "c" (.adjudication "a".toList "b".toList "root".toList (some 0))), .go 4 31,
    .request (submits "d" (.ratification .agree (sampleUuidText 85) "root".toList)), .go 5 33, .go 2 24]

/-- An active result that no task has or waits for, and that no appeal is about. -/
def isAbandoned (s : Store) (f : FinalResult) : Bool :=
  decide (f.status = .active) && s.appeals.isEmpty && s.tasks.all (fun t =>
    decide (t.state ≠ .approved) && decide (t.state ≠ .published) && decide (t.state ≠ .finalReview))

theorem approval_abandoned :
    ¬ ∀ (env : Env) (w : PortalState), (portalWorld env).Reaches portalStart w → w.store.ApprovalsBacked := by
  intro h
  obtain ⟨w, hrun, hp⟩ := reaches_play sampleEnv staleDeadline
    (p := fun w => w.store.finals.any (isAbandoned w.store)) (by decide +kernel)
  obtain ⟨f, hf, habandoned⟩ := List.any_eq_true.1 hp
  simp only [isAbandoned, Bool.and_eq_true, decide_eq_true_eq, List.all_eq_true, List.isEmpty_iff] at habandoned
  obtain ⟨⟨hactive, hnone⟩, htasks⟩ := habandoned
  obtain ⟨t, ht, -, ⟨hstate | hstate, -⟩ | ⟨hstate, -⟩⟩ | ⟨a, ha, -⟩ := (h sampleEnv w hrun).accounted f hf hactive
  · exact (htasks t ht).1.1 hstate
  · exact (htasks t ht).1.2 hstate
  · exact (htasks t ht).2 hstate
  · rw [hnone] at ha
    cases ha

end Portal
end Adg
