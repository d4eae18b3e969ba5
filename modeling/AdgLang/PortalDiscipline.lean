import AdgLang.PortalFacts
/-!
# PortalDiscipline — where a command may be run

`Write.Fact` says what has to hold of the tables where a command is run: which transitions the handlers make and on what
grounds, what a submission was checked against, what a release, a receipt or a delivery is about.  Commands that are run
so keep the invariant (`Write.keeps`).
-/
namespace Adg
namespace Portal

open Js Consensus

/-! ## Keys of events -/

/-- The handlers tell the keys of their events apart by how they begin. -/
theorem ne_of_take {a b : Text} (n : Nat) (h : a.take n ≠ b.take n) : a ≠ b := fun hab => h (hab ▸ rfl)

theorem isUuid_head {t : Text} (h : isUuid t = true) : ∃ c rest, t = c :: rest ∧ isHexDigit c = true := by
  have hpattern : uuidPattern = isHexDigit :: uuidPattern.tail := rfl
  simp only [isUuid, Bool.and_eq_true, decide_eq_true_eq] at h
  cases t with
  | nil => rw [hpattern] at h; simp at h
  | cons c rest =>
    rw [hpattern] at h
    simp only [List.zip_cons_cons, List.all_cons, Bool.and_eq_true] at h
    exact ⟨c, rest, rfl, h.2.1⟩

theorem uuid_ne_initialEventId (u : Uuid) (id : Text) : u.1 ≠ initialEventId id := by
  intro h
  obtain ⟨c, rest, hc, hhex⟩ := isUuid_head u.2
  have hhead : (initialEventId id).head? = some 't' := rfl
  rw [← h, hc, List.head?_cons, Option.some.injEq] at hhead
  rw [hhead] at hhex
  revert hhex
  decide

theorem initialEventId_inj {a b : Text} (h : initialEventId a = initialEventId b) : a = b := List.append_cancel_left h

/-! ## Grounds -/

/-- The transitions that the handlers make of a task that they read, and on what grounds. -/
inductive Store.Legit (s : Store) (task : TaskRow) : Transition → Prop
  | openIndependent (userId : Text) (round : RoundRow) (hstate : task.state = .opened) :
      Legit s task (openIndependent userId task round)
  | quorum (round : RoundRow) (a b : Submission) (passed : Bool) (hstate : task.state = .independentReview)
      (hround : s.IsRound round.id task.id task.currentRound) (ha : s.Filled round.id .a) (hb : s.Filled round.id .b) :
      Legit s task (quorum round a b passed)
  | proposal (round : RoundRow) (primary : Submission) (novelCount : Nat) (hstate : task.state = .discussion)
      (hround : s.IsRound round.id task.id task.currentRound) (hstands : s.Stands primary)
      (hprimary : primary.roundId = round.id) (hnovel : primary.novelDecisions = some novelCount) :
      Legit s task (proposal round primary novelCount)
  | ratification (round : RoundRow) (secondary : Submission) (decision : Decision) (primaryReceiptId root : Text)
      (now : Nat) (hstate : task.state = .finalReview) (hround : s.IsRound round.id task.id task.currentRound)
      (hstands : s.Stands secondary) (hsecondary : secondary.roundId = round.id)
      (hartifact : secondary.artifact = .ratification decision primaryReceiptId root) :
      Legit s task (ratification round secondary decision primaryReceiptId now)
  | expiry (round : RoundRow) (hround : s.IsRound round.id task.id task.currentRound) : Legit s task (expiry round)
  | appealEscalation (appeal : Appeal) (subjectHash : Option Text) (hstate : task.state = .approved)
      (haccepted : s.Accepted appeal) (htask : appeal.taskVersionId = task.id)
      (hrevoked : s.Revoked appeal.finalReceiptId) : Legit s task (appealEscalation appeal subjectHash)
  | reissue (call : ReissueCall) (currentRound : RoundRow)
      (hround : s.IsRound currentRound.id task.id task.currentRound) : Legit s task (call.reissue currentRound)
  | openReview (call : ReissueCall) (reissued : TaskRow) : Legit s task (call.openReview reissued)
  | publication (taskVersionId : Text) (final : FinalResult) (receipt : RepositoryReceipt) (guardAt : Nat)
      (hstate : task.state = .approved) (htask : taskVersionId = task.id)
      (hstands : ∃ f ∈ s.finals, FinalGrows final f) (hfinaltask : final.taskVersionId = task.id)
      (hactive : final.status = .active) (hfinal : task.activeFinalReceiptId = some final.primaryReceiptId)
      (hreceipt : receipt ∈ s.receipts) (hreceipttask : receipt.taskVersionId = task.id)
      (hround : receipt.roundId = final.roundId) (hroot : receipt.finalMerkleRoot = final.finalMerkleRoot)
      (hguard : guardAt ≤ s.clock) : Legit s task (publication taskVersionId final receipt guardAt)

/-- The task and the round admit the role. -/
def Store.Live (s : Store) (roundId : Text) (role : Role) : Prop :=
  ∃ t ∈ s.tasks, ∃ r ∈ s.rounds, r.id = roundId ∧ r.taskVersionId = t.id ∧ r.roundNumber = t.currentRound ∧
    r.status = .opened ∧ t.state ∈ role.allowedStates

/-- The round admitted the role: it still does, or its deadline was handled, or the role was filled. -/
def Store.Admitted (s : Store) (roundId : Text) (role : Role) : Prop :=
  s.Live roundId role ∨ s.Expired roundId ∨ s.Filled roundId role

/-- What `validateBinding` found. -/
def Store.BindsTo (s : Store) (p : Submission) : Prop :=
  match p.artifact with
  | .annotated _ => True
  | .adjudication annotationA annotationB _ _ =>
    (∃ a ∈ s.submissions, a.roundId = p.roundId ∧ a.artifact = .annotated ⟨.a, annotationA⟩) ∧
      (∃ b ∈ s.submissions, b.roundId = p.roundId ∧ b.artifact = .annotated ⟨.b, annotationB⟩)
  | .ratification _ primary root => s.HasFinal primary p.taskVersionId p.roundId root

/-- What a submission was checked against before its batch. -/
structure Store.Admits (s : Store) (b : SubmitBatch) : Prop where
  user : b.row.userId = b.account.userId
  active : b.row.active = true
  round : s.IsRound b.row.roundId b.row.taskVersionId b.row.consensusRound
  reached : ∃ t ∈ s.tasks, t.id = b.row.taskVersionId ∧ b.row.consensusRound ≤ t.currentRound
  family : s.HasFamily b.row.taskVersionId b.row.holdoutId
  admitted : s.Admitted b.row.roundId b.row.role
  bound : s.BindsTo b.row
  delivery : ∃ id receivedAt, b.delivery = submissionDelivery id b.row receivedAt
  assignment : ∀ a, b.assignment = some a → a.isOf b.row.taskVersionId b.row.roundId b.row.role = true ∧
    a.admits b.account = true ∧ ∃ r ∈ s.assignments, AssignmentGrows a r

/-- A row of the outbox that may be delivered. -/
def Store.Deliverable (s : Store) (id : Text) : Prop := ∃ o ∈ s.outbox, o.id = id ∧ s.Releasable o

/-- The blobs of a row of the outbox are in the object store. -/
def Store.HasBlobs (s : Store) (o : OutboxRow) : Prop :=
  (.submissions, o.publicBlobName) ∈ s.archive ∧ ∀ fileName, o.identityBlobName = some fileName →
    (.identities, fileName) ∈ s.archive

def Store.Archived (s : Store) (id : Text) : Prop := ∃ o ∈ s.outbox, o.id = id ∧ s.HasBlobs o

/-- The rows that a registration of the task inserts, or a row of the catalogue that stands for it. -/
def Store.Prepared (s : Store) (item : SyncItem) : Prop :=
  match item.registration with
  | some row => ∃ packet root, row = { taskVersionIdentity packet root with metricPolicyJson := packet.metricPolicy.text } ∧
      item.row.taskVersionId = row.id ∧ item.row.packetMerkleRoot = root
  | none => ∃ r ∈ s.catalogue, r.taskVersionId = item.row.taskVersionId

/-- What an account is shown: the submissions of the round of its assignment, or of a task that it took part in. -/
def Store.Presents (s : Store) (shown : Shown) : Prop :=
  ∀ receiptId ∈ shown.receipts, ∃ p ∈ s.submissions, p.receiptId = receiptId ∧
    match shown.assignmentId with
    | some id => ∃ a ∈ s.assignments, a.id = id ∧ a.taskVersionId = p.taskVersionId ∧ a.role.isIndependent = false
    | none => ∃ q ∈ s.submissions, q.userId = shown.userId ∧ q.taskVersionId = p.taskVersionId

/-- What has to hold of the tables where a command is run. -/
def Write.Fact (w : Write) (s : Store) : Prop :=
  match w with
  | .transition task tr => s.Seen task ∧ tr.toState ∈ allowedTransitions task.state ∧ s.Legit task tr
  | .openRound _ currentRound reissued =>
    s.IsRound currentRound.id reissued.id currentRound.roundNumber ∧ s.Spent currentRound.id
  | .closeRound roundId => s.Filled roundId .j2
  | .release _ roundId receiptA receiptB =>
    (∃ a ∈ s.submissions, a.receiptId = receiptA ∧ a.roundId = roundId ∧ a.role = .a) ∧
      ∃ b ∈ s.submissions, b.receiptId = receiptB ∧ b.roundId = roundId ∧ b.role = .b
  | .submit b => s.Admits b
  | .stateEvidence row => ∃ id now task, (∃ t ∈ s.tasks, t.id = task.id) ∧ ∃ e ∈ s.events, e.id = task.lastEventId ∧
      e.taskVersionId = task.id ∧ e.toState = task.state ∧ row = Portal.stateEvidence id now task e
  | .revokeFinal primaryReceiptId => ∃ a, s.Accepted a ∧ a.finalReceiptId = primaryReceiptId
  | .receipt row primaryReceiptId =>
    (∃ e ∈ s.events, e.id = row.nonce ∧ e.taskVersionId = row.taskVersionId ∧ e.roundId = some row.roundId ∧
      e.toState = .approved) ∧
      s.HasFinal primaryReceiptId row.taskVersionId row.roundId row.finalMerkleRoot
  | .stateReceipt row => ∃ e ∈ s.events, e.id = row.eventId ∧ e.toState ≠ .approved
  | .stateAccepted _ eventId => ∃ r ∈ s.stateReceipts, r.eventId = eventId
  | .delivered id => s.Deliverable id ∧ s.Archived id
  | .undelivered id status _ _ _ => s.Deliverable id ∧ (status = .failed ∨ status = .pending)
  | .claimEvidence _ marker now => (∃ nonce, marker = repositoryEvidenceClaimMarker nonce) ∧ now ≤ s.clock
  | .handOut marker _ _ => ∃ nonce, marker = repositoryEvidenceClaimMarker nonce
  | .insertAssignment row => s.HasFamily row.taskVersionId row.holdoutId
  | .sync items _ _ => ∀ item ∈ items, s.Prepared item
  | .present shown => s.Presents shown
  | _ => True

/-! ## Facts that stay -/

section Grows

variable {s s' : Store} (hg : s.Grows s')
include hg

theorem Store.BindsTo.grows {p : Submission} (h : s.BindsTo p) : s'.BindsTo p := by
  unfold Store.BindsTo at *
  split at h
  · trivial
  · obtain ⟨ha, hb⟩ := h
    refine ⟨hg.exists_submission (fun p p' hpp hp => ?_) ha, hg.exists_submission (fun p p' hpp hp => ?_) hb⟩
    · rw [hpp]
      exact hp
    · rw [hpp]
      exact hp
  · exact h.grows hg

theorem Store.Deliverable.grows {id : Text} (h : s.Deliverable id) : s'.Deliverable id := by
  obtain ⟨o, ho, hid, hrel⟩ := h
  obtain ⟨o', ho', hoo⟩ := hg.outbox o ho
  refine ⟨o', ho', hoo.id.trans hid, fun hkind => ?_⟩
  obtain ⟨p, hp, hrelated, hquorum⟩ := (hrel.grows hg) (hoo.kind ▸ hkind)
  exact ⟨p, hp, hrelated.trans hoo.related.symm, hquorum⟩

theorem Store.HasBlobs.grows {o o' : OutboxRow} (hoo : OutboxGrows o o') (h : s.HasBlobs o) : s'.HasBlobs o' := by
  refine ⟨?_, fun fileName hname => hg.archive (h.2 fileName (hoo.identity ▸ hname))⟩
  rw [hoo.blob]
  exact hg.archive h.1

theorem Store.Archived.grows {id : Text} (h : s.Archived id) : s'.Archived id := by
  obtain ⟨o, ho, hid, hblobs⟩ := h
  obtain ⟨o', ho', hoo⟩ := hg.outbox o ho
  exact ⟨o', ho', hoo.id.trans hid, hblobs.grows hg hoo⟩

end Grows

/-! ## One row of each role -/

theorem role_of_annotated {p : Submission} {root : AnnotationRoot} (hp : p.artifact = .annotated root) :
    p.role = match root.slot with | .a => .a | .b => .b := by
  unfold Submission.role
  rw [hp]
  obtain ⟨slot, digest⟩ := root
  cases slot <;> rfl

namespace Store.Sound

variable {s : Store} (h : s.Sound)
include h

/-- A round is known by its identifier, and by its task and number. -/
theorem round_inj {rid rid' tid tid' : Text} {n n' : Nat} (hr : s.IsRound rid tid n) (hr' : s.IsRound rid' tid' n')
    (heq : rid = rid' ∨ (tid = tid' ∧ n = n')) : rid = rid' ∧ tid = tid' ∧ n = n' := by
  obtain ⟨r, hmem, rfl, rfl, rfl⟩ := hr
  obtain ⟨r', hmem', rfl, rfl, rfl⟩ := hr'
  have : r = r' := by
    rcases heq with heq | ⟨htask, hnumber⟩
    · exact h.keys.consensus.roundIds.eq_of_key hmem hmem' heq
    · exact h.keys.consensus.roundNumbers.eq_of_key hmem hmem' (Prod.ext htask hnumber)
  subst this
  exact ⟨rfl, rfl, rfl⟩

/-- A role of a round is filled once. -/
theorem eq_of_role {p q : Submission} (hp : p ∈ s.submissions) (hq : q ∈ s.submissions) (hround : p.roundId = q.roundId)
    (hrole : p.role = q.role) : p = q := by
  obtain ⟨-, htask, hnumber⟩ := h.round_inj (h.submissions p hp).round (h.submissions q hq).round (.inl hround)
  refine h.keys.participation.submissionRoles.eq_of_key hp hq ?_
  simp only [htask, hnumber, hrole]

theorem eq_of_receipt {p q : Submission} (hp : p ∈ s.submissions) (hq : q ∈ s.submissions)
    (hreceipt : p.receiptId = q.receiptId) : p = q :=
  h.keys.participation.receiptIds.eq_of_key hp hq hreceipt

/-- J2 has a J1 before it, and J1 has A and B. -/
theorem filled_of_j1 {rid : Text} (hj : s.Filled rid .j1) : s.Filled rid .a ∧ s.Filled rid .b := by
  obtain ⟨p, hp, hround, hrole⟩ := hj
  have hbound := (h.submissions p hp).bound
  unfold Store.Bound at hbound
  split at hbound
  · rename_i root hart
    rw [role_of_annotated hart] at hrole
    cases hslot : root.slot <;> rw [hslot] at hrole <;> cases hrole
  · obtain ⟨⟨a, ha, haround, haart⟩, ⟨b, hb, hbround, hbart⟩, -⟩ := hbound
    exact ⟨⟨a, ha, haround.trans hround, role_of_annotated haart⟩, ⟨b, hb, hbround.trans hround, role_of_annotated hbart⟩⟩
  · rename_i hart
    simp [Submission.role, hart, Artifact.consensusRole] at hrole

theorem filled_of_j2 {rid : Text} (hj : s.Filled rid .j2) (role : Role) : s.Filled rid role := by
  have hj1 : s.Filled rid .j1 := by
    obtain ⟨p, hp, hround, hrole⟩ := hj
    have hbound := (h.submissions p hp).bound
    unfold Store.Bound at hbound
    split at hbound
    · rename_i root hart
      rw [role_of_annotated hart] at hrole
      cases hslot : root.slot <;> rw [hslot] at hrole <;> cases hrole
    · rename_i hart
      simp [Submission.role, hart, Artifact.consensusRole] at hrole
    · obtain ⟨⟨f, hf, -, -, hfround, -⟩, -⟩ := hbound
      obtain ⟨j, hj, -, -, hjround, a, b, n, hjart⟩ := (h.finals f hf).primary
      exact ⟨j, hj, hjround.trans (hfround.trans hround), by simp [Submission.role, hjart, Artifact.consensusRole]⟩
  cases role with
  | a => exact (h.filled_of_j1 hj1).1
  | b => exact (h.filled_of_j1 hj1).2
  | j1 => exact hj1
  | j2 => exact hj

theorem filled_of_novel {rid : Text} {role : Role} (hn : s.Novel rid) (hrole : role ≠ .j2) : s.Filled rid role := by
  obtain ⟨p, hp, hround, n, hnovel, -⟩ := hn
  have hj1 : s.Filled rid .j1 := by
    refine ⟨p, hp, hround, ?_⟩
    unfold Submission.novelDecisions at hnovel
    split at hnovel
    · rename_i hart
      simp [Submission.role, hart, Artifact.consensusRole]
    · cases hnovel
  cases role with
  | a => exact (h.filled_of_j1 hj1).1
  | b => exact (h.filled_of_j1 hj1).2
  | j1 => exact hj1
  | j2 => exact absurd rfl hrole

end Store.Sound

end Portal
end Adg
