import AdgLang.PortalGrowth
/-!
# PortalFacts — what the handlers may rely on

Facts about the tables that no command takes back (`Store.IsRound`, `Store.Filled`, `Store.Seen` and the rest), the
invariant of the tables (`Store.Sound`), and which fact has to hold where a command is run (`Write.Fact`).
-/
namespace Adg
namespace Portal

open Js Consensus

/-! ## Facts that stay -/

/-- `roundId` is the round `number` of the task. -/
def Store.IsRound (s : Store) (roundId taskVersionId : Text) (number : Nat) : Prop :=
  ∃ r ∈ s.rounds, r.id = roundId ∧ r.taskVersionId = taskVersionId ∧ r.roundNumber = number

/-- A submission stands as it was, up to its import. -/
def Store.Stands (s : Store) (p : Submission) : Prop := ∃ p' ∈ s.submissions, SubmissionGrows p p'

/-- The role of the round has its submission. -/
def Store.Filled (s : Store) (roundId : Text) (role : Role) : Prop :=
  ∃ p ∈ s.submissions, p.roundId = roundId ∧ p.role = role

/-- What `countNovelPrimaryDecisions` counts in a package of J1. -/
def Submission.novelDecisions (p : Submission) : Option Nat :=
  match p.artifact with
  | .adjudication _ _ _ novelDecisions => novelDecisions
  | _ => none

def deadlineKey (roundId : Text) : Text := "deadline-expired:".toList ++ roundId

def ratificationKey (receiptId : Text) : Text := "j2-ratification:".toList ++ receiptId

/-- The deadline of the round was handled. -/
def Store.Expired (s : Store) (roundId : Text) : Prop := s.hasKey (deadlineKey roundId) = true

/-- J1 decided something new in the round. -/
def Store.Novel (s : Store) (roundId : Text) : Prop :=
  ∃ p ∈ s.submissions, p.roundId = roundId ∧ ∃ n, p.novelDecisions = some n ∧ 0 < n

/-- What ends a round without a result, or with one that is taken back. -/
def Store.Spent (s : Store) (roundId : Text) : Prop := s.Expired roundId ∨ s.Novel roundId ∨ s.Filled roundId .j2

/-- J2 agreed in the round, the agreement was reconciled, and `finalReceiptId` is what it agreed with. -/
def Store.Ratified (s : Store) (roundId : Text) (finalReceiptId : Option Text) : Prop :=
  ∃ q ∈ s.submissions, q.roundId = roundId ∧ s.hasKey (ratificationKey q.receiptId) = true ∧
    ∃ primary root, q.artifact = .ratification .agree primary root ∧ finalReceiptId = some primary

/-- What the state of a task says about its round. -/
def Store.Backs (s : Store) (t : TaskRow) : Prop :=
  match t.state with
  | .finalReview => ∃ rid, s.IsRound rid t.id t.currentRound ∧
      ∃ p ∈ s.submissions, p.roundId = rid ∧ p.novelDecisions = some 0
  | .approved => ∃ rid, s.IsRound rid t.id t.currentRound ∧ s.Ratified rid t.activeFinalReceiptId ∧
      ∃ e ∈ s.events, e.id = t.lastEventId ∧ e.roundId = some rid
  | .published => ∃ rid, s.IsRound rid t.id t.currentRound ∧ s.Ratified rid t.activeFinalReceiptId
  | .escalated => ∃ rid, s.IsRound rid t.id t.currentRound ∧ s.Spent rid
  | .revoked => ∃ rid, s.IsRound rid t.id t.currentRound ∧ s.Spent rid
  | _ => True

section Backs

variable {s : Store} {t : TaskRow}

theorem Store.backs_finalReview (hs : t.state = .finalReview) : s.Backs t ↔ ∃ rid, s.IsRound rid t.id t.currentRound ∧
    ∃ p ∈ s.submissions, p.roundId = rid ∧ p.novelDecisions = some 0 := by
  simp only [Store.Backs, hs]

theorem Store.backs_approved (hs : t.state = .approved) : s.Backs t ↔ ∃ rid, s.IsRound rid t.id t.currentRound ∧
    s.Ratified rid t.activeFinalReceiptId ∧ ∃ e ∈ s.events, e.id = t.lastEventId ∧ e.roundId = some rid := by
  simp only [Store.Backs, hs]

theorem Store.backs_published (hs : t.state = .published) : s.Backs t ↔ ∃ rid, s.IsRound rid t.id t.currentRound ∧
    s.Ratified rid t.activeFinalReceiptId := by
  simp only [Store.Backs, hs]

theorem Store.backs_escalated (hs : t.state = .escalated ∨ t.state = .revoked) :
    s.Backs t ↔ ∃ rid, s.IsRound rid t.id t.currentRound ∧ s.Spent rid := by
  rcases hs with hs | hs <;> simp only [Store.Backs, hs]

end Backs

/-- The row was read, and the task has only moved on since. -/
def Store.Seen (s : Store) (task : TaskRow) : Prop := (∃ t ∈ s.tasks, TaskGrows task t) ∧ s.Backs task

/-- A result stands with these columns; `seconded` is whether J2 has agreed. -/
def Store.HasFinal (s : Store) (primaryReceiptId taskVersionId roundId root : Text) : Prop :=
  ∃ f ∈ s.finals, f.primaryReceiptId = primaryReceiptId ∧ f.taskVersionId = taskVersionId ∧ f.roundId = roundId ∧
    f.finalMerkleRoot = root

/-- The result was revoked. -/
def Store.Revoked (s : Store) (primaryReceiptId : Text) : Prop :=
  ∃ f ∈ s.finals, f.primaryReceiptId = primaryReceiptId ∧ f.status = .revoked

/-- The appeal was accepted. -/
def Store.Accepted (s : Store) (a : Appeal) : Prop := ∃ a' ∈ s.appeals, AppealGrows a a' ∧ a'.status = .accepted

/-- The holdout family of the task. -/
def Store.HasFamily (s : Store) (taskVersionId : Text) (holdoutId : Str) : Prop :=
  ∃ e ∈ s.evidence.rows, e.id = taskVersionId ∧ e.holdoutId = holdoutId

section Grows

variable {s s' : Store} (hg : s.Grows s')
include hg

theorem Store.IsRound.grows {rid tid : Text} {n : Nat} (h : s.IsRound rid tid n) : s'.IsRound rid tid n := by
  obtain ⟨r, hr, h1, h2, h3⟩ := h
  obtain ⟨r', hr', hrr⟩ := hg.rounds r hr
  exact ⟨r', hr', hrr.id.trans h1, hrr.task.trans h2, hrr.number.trans h3⟩

theorem Store.Stands.grows {p : Submission} (h : s.Stands p) : s'.Stands p := by
  obtain ⟨p', hp', hpp⟩ := h
  obtain ⟨p'', hp'', hpp'⟩ := hg.submissions p' hp'
  exact ⟨p'', hp'', hpp.trans _ _ _ hpp'⟩

/-- What holds of some submission, whatever is noted of its import, holds of one later. -/
theorem Store.Grows.exists_submission {P P' : Submission → Prop} (hP : ∀ p p', SubmissionGrows p p' → P p → P' p')
    (h : ∃ p ∈ s.submissions, P p) : ∃ p ∈ s'.submissions, P' p := by
  obtain ⟨p, hp, h⟩ := h
  obtain ⟨p', hp', hpp⟩ := hg.submissions p hp
  exact ⟨p', hp', hP p p' hpp h⟩

theorem Store.Filled.grows {rid : Text} {role : Role} (h : s.Filled rid role) : s'.Filled rid role := by
  refine hg.exists_submission (fun p p' hpp hp => ?_) h
  rw [hpp]
  exact hp

theorem Store.Grows.hasKey {key : Text} (h : s.hasKey key = true) : s'.hasKey key = true := by
  obtain ⟨e, he, hk⟩ := Db.hasKey_iff.1 h
  exact Db.hasKey_iff.2 ⟨e, hg.events he, hk⟩

theorem Store.Expired.grows {rid : Text} (h : s.Expired rid) : s'.Expired rid := hg.hasKey h

theorem Store.Novel.grows {rid : Text} (h : s.Novel rid) : s'.Novel rid := by
  refine hg.exists_submission (fun p p' hpp hp => ?_) h
  rw [hpp]
  exact hp

theorem Store.Spent.grows {rid : Text} (h : s.Spent rid) : s'.Spent rid :=
  h.imp (fun h => h.grows hg) (fun h => h.imp (fun h => h.grows hg) (fun h => h.grows hg))

theorem Store.Ratified.grows {rid : Text} {final : Option Text} (h : s.Ratified rid final) : s'.Ratified rid final := by
  refine hg.exists_submission (fun p p' hpp hp => ?_) h
  obtain ⟨h1, h2, h3⟩ := hp
  rw [hpp]
  exact ⟨h1, hg.hasKey h2, h3⟩

theorem Store.Backs.grows {t : TaskRow} (h : s.Backs t) : s'.Backs t := by
  unfold Store.Backs at *
  split at h
  · obtain ⟨rid, hround, hp⟩ := h
    refine ⟨rid, hround.grows hg, hg.exists_submission (fun p p' hpp hp => ?_) hp⟩
    rw [hpp]
    exact hp
  · obtain ⟨rid, hround, hrat, e, he, heq⟩ := h
    exact ⟨rid, hround.grows hg, hrat.grows hg, e, hg.events he, heq⟩
  · obtain ⟨rid, hround, hrat⟩ := h
    exact ⟨rid, hround.grows hg, hrat.grows hg⟩
  · obtain ⟨rid, hround, hspent⟩ := h
    exact ⟨rid, hround.grows hg, hspent.grows hg⟩
  · obtain ⟨rid, hround, hspent⟩ := h
    exact ⟨rid, hround.grows hg, hspent.grows hg⟩
  · trivial

theorem Store.Seen.grows {task : TaskRow} (h : s.Seen task) : s'.Seen task := by
  obtain ⟨⟨t, ht, htt⟩, hbacks⟩ := h
  obtain ⟨t', ht', htt'⟩ := hg.tasks t ht
  exact ⟨⟨t', ht', htt.trans _ _ _ htt'⟩, hbacks.grows hg⟩

theorem Store.HasFinal.grows {primary tid rid root : Text} (h : s.HasFinal primary tid rid root) :
    s'.HasFinal primary tid rid root := by
  obtain ⟨f, hf, h1, h2, h3, h4⟩ := h
  obtain ⟨f', hf', hff⟩ := hg.finals f hf
  exact ⟨f', hf', hff.primary.trans h1, hff.task.trans h2, hff.round.trans h3, hff.root.trans h4⟩

theorem Store.Revoked.grows {primary : Text} (h : s.Revoked primary) : s'.Revoked primary := by
  obtain ⟨f, hf, h1, h2⟩ := h
  obtain ⟨f', hf', hff⟩ := hg.finals f hf
  exact ⟨f', hf', hff.primary.trans h1, hff.revoked h2⟩

theorem Store.Accepted.grows {a : Appeal} (h : s.Accepted a) : s'.Accepted a := by
  obtain ⟨a', ha', haa, hs⟩ := h
  obtain ⟨a'', ha'', haa'⟩ := hg.appeals a' ha'
  exact ⟨a'', ha'', haa.trans _ _ _ haa', (haa'.decided (by simp [hs])).trans hs⟩

theorem Store.HasFamily.grows {tid : Text} {holdoutId : Str} (h : s.HasFamily tid holdoutId) : s'.HasFamily tid holdoutId := by
  obtain ⟨e, he, heq⟩ := h
  exact ⟨e, hg.evidence he, heq⟩

end Grows

/-! ## The invariant -/

/-- A row of the outbox for a submission: the quorum stands if it is one of A or B. -/
def Store.Releasable (s : Store) (o : OutboxRow) : Prop :=
  o.kind = .submission → ∃ p ∈ s.submissions, p.receiptId = o.relatedId ∧
    (p.role.isIndependent = true → s.Filled p.roundId .a ∧ s.Filled p.roundId .b)

/-- What a submission was checked against. -/
def Store.Bound (s : Store) (p : Submission) : Prop :=
  match p.artifact with
  | .annotated _ => True
  | .adjudication annotationA annotationB root _ =>
    (∃ a ∈ s.submissions, a.roundId = p.roundId ∧ a.artifact = .annotated ⟨.a, annotationA⟩) ∧
      (∃ b ∈ s.submissions, b.roundId = p.roundId ∧ b.artifact = .annotated ⟨.b, annotationB⟩) ∧
      s.HasFinal p.receiptId p.taskVersionId p.roundId root
  | .ratification decision primary root => s.HasFinal primary p.taskVersionId p.roundId root ∧
      (decision = .agree → ∃ f ∈ s.finals, f.primaryReceiptId = primary ∧ f.secondaryReceiptId = some p.receiptId ∧
        (f.status = .active ∨ f.status = .revoked))

structure Store.SubmissionOk (s : Store) (p : Submission) : Prop where
  active : p.active = true
  round : s.IsRound p.roundId p.taskVersionId p.consensusRound
  reached : ∃ t ∈ s.tasks, t.id = p.taskVersionId ∧ p.consensusRound ≤ t.currentRound
  participates : ∃ q ∈ s.participations, q.taskVersionId = p.taskVersionId ∧ q.roundId = p.roundId ∧ q.userId = p.userId ∧
    q.role = p.role ∧ q.holdoutId = p.holdoutId
  family : s.HasFamily p.taskVersionId p.holdoutId
  bound : s.Bound p

structure Store.FinalOk (s : Store) (f : FinalResult) : Prop where
  primary : ∃ p ∈ s.submissions, p.receiptId = f.primaryReceiptId ∧ p.taskVersionId = f.taskVersionId ∧
    p.roundId = f.roundId ∧ ∃ a b n, p.artifact = .adjudication a b f.finalMerkleRoot n
  proposed : f.status = .proposed → f.secondaryReceiptId = none
  seconded : f.status ≠ .proposed → ∃ q ∈ s.submissions, f.secondaryReceiptId = some q.receiptId ∧ q.roundId = f.roundId ∧
    q.artifact = .ratification .agree f.primaryReceiptId f.finalMerkleRoot
  status : f.status ≠ .superseded

/-- An appeal is about a result that was active. -/
def Store.AppealOk (s : Store) (a : Appeal) : Prop :=
  ∃ f ∈ s.finals, f.primaryReceiptId = a.finalReceiptId ∧ f.taskVersionId = a.taskVersionId ∧ f.roundId = a.roundId ∧
    (f.status = .active ∨ f.status = .revoked)

/-- Where a row of the outbox comes from. -/
def Store.Stems (s : Store) (o : OutboxRow) : Prop :=
  match o.kind with
  | .submission => ∃ p ∈ s.submissions, p.receiptId = o.relatedId ∧ p.taskVersionId = o.taskVersionId
  | .taskState => (∃ t ∈ s.tasks, t.id = o.taskVersionId) ∧ ∃ e ∈ s.events, e.id = o.relatedId ∧
      e.taskVersionId = o.taskVersionId ∧ o.publicBlobName = stateBlobName e.id ∧ o.dedupeKey = stateKey e.id

structure Store.OutboxOk (s : Store) (o : OutboxRow) : Prop where
  stems : s.Stems o
  pending : o.status = .pending → s.Releasable o

structure Store.TaskOk (s : Store) (t : TaskRow) : Prop where
  logged : ∃ e ∈ s.events, e.id = t.lastEventId ∧ e.taskVersionId = t.id ∧ e.toState = t.state
  opened : ∃ e ∈ s.events, e.id = initialEventId t.id ∧ e.taskVersionId = t.id
  backs : s.Backs t

/-- Only the opening event of a task has its name. -/
def EventOk (e : EventRow) : Prop :=
  ∀ id, e.id = initialEventId id ∨ e.idempotencyKey = initialEventId id →
    e.id = initialEventId id ∧ e.taskVersionId = id ∧ e.toState = .opened

/-- The invariant of the tables. -/
structure Store.Sound (s : Store) : Prop where
  keys : s.Keys
  tasks : ∀ t ∈ s.tasks, s.TaskOk t
  events : ∀ e ∈ s.events, EventOk e
  submissions : ∀ p ∈ s.submissions, s.SubmissionOk p
  finals : ∀ f ∈ s.finals, s.FinalOk f
  appeals : ∀ a ∈ s.appeals, s.AppealOk a
  outbox : ∀ o ∈ s.outbox, s.OutboxOk o

section Grows

variable {s s' : Store} (hg : s.Grows s')
include hg

theorem Store.Releasable.grows {o : OutboxRow} (h : s.Releasable o) : s'.Releasable o := by
  intro hkind
  refine hg.exists_submission (fun p p' hpp hp => ?_) (h hkind)
  rw [hpp]
  exact ⟨hp.1, fun hi => ⟨(hp.2 hi).1.grows hg, (hp.2 hi).2.grows hg⟩⟩

theorem Store.Bound.grows {p : Submission} (h : s.Bound p) : s'.Bound p := by
  unfold Store.Bound at *
  split at h
  · trivial
  · obtain ⟨ha, hb, hf⟩ := h
    refine ⟨hg.exists_submission (fun p p' hpp hp => ?_) ha, hg.exists_submission (fun p p' hpp hp => ?_) hb, hf.grows hg⟩
    · rw [hpp]
      exact hp
    · rw [hpp]
      exact hp
  · obtain ⟨hf, hagree⟩ := h
    refine ⟨hf.grows hg, fun hd => ?_⟩
    obtain ⟨f, hf, hprimary, hsecondary, hstatus⟩ := hagree hd
    obtain ⟨f', hf', hff⟩ := hg.finals f hf
    refine ⟨f', hf', hff.primary.trans hprimary, ?_, ?_⟩
    · rw [hff.secondary (by rcases hstatus with h | h <;> simp [h]), hsecondary]
    · exact hstatus.elim hff.active (fun h => .inr (hff.revoked h))

theorem Store.SubmissionOk.grows {p : Submission} (h : s.SubmissionOk p) : s'.SubmissionOk p where
  active := h.active
  round := h.round.grows hg
  reached := by
    obtain ⟨t, ht, hid, hn⟩ := h.reached
    obtain ⟨t', ht', htt⟩ := hg.tasks t ht
    exact ⟨t', ht', htt.id.trans hid, hn.trans htt.round⟩
  participates := by
    obtain ⟨q, hq, heq⟩ := h.participates
    exact ⟨q, hg.participations hq, heq⟩
  family := h.family.grows hg
  bound := h.bound.grows hg

theorem Store.FinalOk.grows {f : FinalResult} (h : s.FinalOk f) : s'.FinalOk f where
  primary := by
    refine hg.exists_submission (fun p p' hpp hp => ?_) h.primary
    rw [hpp]
    exact hp
  proposed := h.proposed
  seconded hs := by
    refine hg.exists_submission (fun p p' hpp hp => ?_) (h.seconded hs)
    rw [hpp]
    exact hp
  status := h.status

theorem Store.AppealOk.grows {a : Appeal} (h : s.AppealOk a) : s'.AppealOk a := by
  obtain ⟨f, hf, h1, h2, h3, hstatus⟩ := h
  obtain ⟨f', hf', hff⟩ := hg.finals f hf
  exact ⟨f', hf', hff.primary.trans h1, hff.task.trans h2, hff.round.trans h3,
    hstatus.elim hff.active (fun h => .inr (hff.revoked h))⟩

theorem Store.Stems.grows {o : OutboxRow} (h : s.Stems o) : s'.Stems o := by
  unfold Store.Stems at *
  split at h
  · refine hg.exists_submission (fun p p' hpp hp => ?_) h
    rw [hpp]
    exact hp
  · obtain ⟨⟨t, ht, hid⟩, e, he, heq⟩ := h
    obtain ⟨t', ht', htt⟩ := hg.tasks t ht
    exact ⟨⟨t', ht', htt.id.trans hid⟩, e, hg.events he, heq⟩

theorem Store.OutboxOk.grows {o : OutboxRow} (h : s.OutboxOk o) : s'.OutboxOk o :=
  ⟨h.stems.grows hg, fun hp => (h.pending hp).grows hg⟩

theorem Store.TaskOk.grows {t : TaskRow} (h : s.TaskOk t) : s'.TaskOk t where
  logged := by
    obtain ⟨e, he, heq⟩ := h.logged
    exact ⟨e, hg.events he, heq⟩
  opened := by
    obtain ⟨e, he, heq⟩ := h.opened
    exact ⟨e, hg.events he, heq⟩
  backs := h.backs.grows hg

end Grows

end Portal
end Adg
