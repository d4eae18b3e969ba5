import AdgLang.PortalOutbox
import AdgLang.Approval
/-!
# EvidenceExport — what keeps an approved result from being exported

A receipt of the repository names the approval that it is about, a receipt of a task's state never names one, and the
evidence of an event is neither held nor cancelled.  An approved result that has no receipt is therefore offered, unless
the task still counts as accepted from an earlier round or its evidence could not be delivered (`approved_offered`).
-/
namespace Adg
namespace Portal

open Js Consensus

/-- The task is approved with the result, no receipt of it is stored, and the evidence of its approval is in the outbox. -/
structure Store.Unreceived (s : Store) (t : TaskRow) (f : FinalResult) (o : OutboxRow) : Prop where
  task : t ∈ s.tasks
  approved : t.state = .approved
  final : f ∈ s.finals
  active : f.status = .active
  result : t.activeFinalReceiptId = some f.primaryReceiptId
  unreceived : ∀ r ∈ s.receipts, ¬ (r.taskVersionId = t.id ∧ r.roundId = f.roundId ∧ r.finalMerkleRoot = f.finalMerkleRoot)
  evidence : o ∈ s.outbox
  kind : o.kind = .taskState
  event : o.relatedId = t.lastEventId

/-- The row is among those that are offered, once a running claim or delivery of it has expired, by a selection whose limit
leaves room for the rows that are as old. -/
def Store.Offers (s : Store) (o : OutboxRow) : Prop :=
  ∀ now limit, (o.status = .sending → o.nextAttemptAt ≤ now) →
    s.outbox.countP (fun r => decide (r.createdAt ≤ o.createdAt)) ≤ limit → o ∈ s.claimableRepositoryEvidence now limit

/-- Where the receipts come from, and what becomes of the evidence of events. -/
structure Store.Exports (s : Store) : Prop where
  states : ∀ r ∈ s.stateReceipts, ∃ e ∈ s.events, e.id = r.eventId ∧ e.toState ≠ .approved
  receipts : ∀ r ∈ s.receipts, (∃ e ∈ s.events, e.id = r.nonce ∧ e.taskVersionId = r.taskVersionId ∧
    e.roundId = some r.roundId) ∧ ∃ primary, s.HasFinal primary r.taskVersionId r.roundId r.finalMerkleRoot
  unheld : ∀ o ∈ s.outbox, o.kind = .taskState → o.status ≠ .held ∧ o.status ≠ .cancelled

theorem Store.Exports.empty : Store.empty.Exports where
  states := fun _ h => absurd h List.not_mem_nil
  receipts := fun _ h => absurd h List.not_mem_nil
  unheld := fun _ h => absurd h List.not_mem_nil

section Step

variable {x : Outside} {w : Write} {s s' : Store} (hfact : w.Fact s) (happly : w.apply x.uuid.1 s = some s')
include hfact happly

theorem unheld_step (hi : s.Exports) :
    ∀ o' ∈ s'.outbox, o'.kind = .taskState → o'.status ≠ .held ∧ o'.status ≠ .cancelled := by
  intro o' ho' hkind
  obtain hsame | ⟨o, ho, hstep⟩ | ⟨b, rfl, rfl⟩ | rfl := w.outbox_cases happly ho'
  · exact hi.unheld o' hsame hkind
  · cases hstep with
    | cancel reason currentRound reissued hheld =>
      simp only [Store.isHeldOf, Bool.and_eq_true, decide_eq_true_eq] at hheld
      exact absurd (hheld.1.1.2.symm.trans hkind) nofun
    | release taskVersionId roundId receiptA receiptB hheld => exact ⟨nofun, nofun⟩
    | receipt row primaryReceiptId hstate hrelated => exact ⟨nofun, nofun⟩
    | evidenceReceipt row hsubmission hrelated => exact ⟨nofun, nofun⟩
    | stateAccepted taskVersionId eventId hstate htask hrelated => exact ⟨nofun, nofun⟩
    | sending nextAttemptAt hpending => exact ⟨nofun, nofun⟩
    | deliveredHere hsending => exact ⟨nofun, nofun⟩
    | delivered => exact ⟨nofun, nofun⟩
    | undelivered status attempts retryAt lastError => rcases hfact.2 with rfl | rfl <;> exact ⟨nofun, nofun⟩
    | claim ids marker now hid hfree => exact ⟨nofun, nofun⟩
  · obtain ⟨id, receivedAt, hdelivery⟩ := Store.Admits.delivery hfact
    rw [hdelivery] at hkind
    cases hkind
  · obtain ⟨id, now, task, -, e, -, -, -, -, rfl⟩ := hfact
    exact ⟨nofun, nofun⟩

theorem exports_step (hg : s.Grows s') (hi : s.Exports) : s'.Exports where
  states r hr := by
    obtain hold | rfl := w.stateReceipts_cases happly hr
    · obtain ⟨e, he, hevent⟩ := hi.states r hold
      exact ⟨e, hg.events he, hevent⟩
    · obtain ⟨e, he, hevent⟩ := hfact
      exact ⟨e, hg.events he, hevent⟩
  receipts r hr := by
    obtain hold | ⟨primary, rfl⟩ := w.receipts_cases happly hr
    · obtain ⟨⟨e, he, hevent⟩, primary, hfinal⟩ := hi.receipts r hold
      exact ⟨⟨e, hg.events he, hevent⟩, primary, hfinal.grows hg⟩
    · obtain ⟨⟨e, he, hid, htask, hround, -⟩, hfinal⟩ := hfact
      exact ⟨⟨e, hg.events he, hid, htask, hround⟩, primary, hfinal.grows hg⟩
  unheld := unheld_step hfact happly hi

end Step

/-- A round has one result. -/
theorem Store.Sound.final_of_round {s : Store} (h : s.Sound) {f g : FinalResult} (hf : f ∈ s.finals) (hg : g ∈ s.finals)
    (hround : f.roundId = g.roundId) : f = g := by
  obtain ⟨p, hp, hpreceipt, -, hpround, a, b, n, hpart⟩ := (h.finals f hf).primary
  obtain ⟨q, hq, hqreceipt, -, hqround, a', b', n', hqart⟩ := (h.finals g hg).primary
  have hrole : p.role = q.role := by simp [Submission.role, hpart, hqart, Artifact.consensusRole]
  obtain rfl := h.eq_of_role hp hq (hpround.trans (hround.trans hqround.symm)) hrole
  exact h.keys.result.finals.eq_of_key hf hg (hpreceipt.symm.trans hqreceipt)

/-- **No receipt is in the way of an approval that has none.** -/
theorem Store.Unreceived.unanswered {s : Store} (h : s.Sound) (hi : s.Exports) {t : TaskRow} {f : FinalResult}
    {o : OutboxRow} (hu : s.Unreceived t f o) :
    (∀ r ∈ s.stateReceipts, r.eventId ≠ o.relatedId) ∧ ∀ r ∈ s.receipts, r.nonce ≠ o.relatedId := by
  obtain ⟨e, he, hid, htask, hstate⟩ := (h.tasks t hu.task).logged
  refine ⟨fun r hr hevent => ?_, fun r hr hnonce => ?_⟩
  · obtain ⟨e', he', hid', hne⟩ := hi.states r hr
    obtain rfl := h.keys.consensus.events.eq_of_key he he' (hid.trans (hu.event.symm.trans (hevent.symm.trans hid'.symm)))
    exact hne (hstate.trans hu.approved)
  · obtain ⟨⟨e', he', hid', htask', hround'⟩, primary, g, hg, hgprimary, hgtask, hground, hgroot⟩ := hi.receipts r hr
    obtain rfl := h.keys.consensus.events.eq_of_key he he' (hid.trans (hu.event.symm.trans (hnonce.symm.trans hid'.symm)))
    obtain ⟨rid, hrid, hratified, e₂, he₂, hid₂, hround₂⟩ := (Store.backs_approved hu.approved).1 (h.tasks t hu.task).backs
    obtain rfl := h.keys.consensus.events.eq_of_key he he₂ (hid.trans hid₂.symm)
    have hr' : r.roundId = rid := Option.some.inj (hround'.symm.trans hround₂)
    -- the result of the round is the one that the task is approved with
    obtain ⟨f', hf', hresult, -, hround, -⟩ := h.final_of_approved hu.task (.inl hu.approved)
    obtain rfl : f = f' := h.keys.result.finals.eq_of_key hu.final hf'
      (Option.some.inj (hu.result.symm.trans hresult))
    obtain ⟨hfr, -⟩ := h.round_inj hround hrid (.inr ⟨rfl, rfl⟩)
    obtain rfl := h.final_of_round hu.final hg (hfr.trans (hr'.symm.trans hground.symm))
    exact hu.unreceived r hr ⟨htask'.symm.trans htask, hr'.trans hfr.symm, hgroot.symm⟩

/-- **An approved result without a receipt is offered**, just where the task does not count as accepted and its evidence
has not failed. -/
theorem approved_offered {env : Env} {w : PortalState} (hrun : (portalWorld env).Reaches portalStart w) {t : TaskRow}
    {f : FinalResult} {o : OutboxRow} (hu : w.store.Unreceived t f o) :
    w.store.Offers o ↔ t.id ∉ w.store.accepted ∧ o.status ≠ .failed := by
  obtain ⟨h, hi, -⟩ := portal_log (I := Store.Exports) .empty
    (fun _ _ _ _ _ hfact _ happly _ hg hi => exports_step hfact happly hg hi) (portalRun_of_reaches hrun)
  obtain ⟨hstates, hreceipts⟩ := hu.unanswered h hi
  obtain ⟨hheld, hcancelled⟩ := hi.unheld o hu.evidence hu.kind
  have htask : o.taskVersionId = t.id := by
    have hstems := (h.outbox o hu.evidence).stems
    simp only [Store.Stems, hu.kind] at hstems
    obtain ⟨-, e, he, hid, hetask, -⟩ := hstems
    obtain ⟨e', he', hid', hetask', -⟩ := (h.tasks t hu.task).logged
    obtain rfl := h.keys.consensus.events.eq_of_key he he' (hid.trans (hu.event.trans hid'.symm))
    exact hetask.symm.trans hetask'
  constructor
  · intro hoffers
    have hmem := hoffers o.nextAttemptAt w.store.outbox.length (fun _ => le_refl _) List.countP_le_length
    obtain ⟨-, hsel⟩ := List.mem_filter.1 ((List.mem_insertionSort _).1 (List.mem_of_mem_take hmem))
    simp only [Store.isClaimable, hu.kind, Bool.and_eq_true, Bool.not_eq_true', List.contains_eq_mem,
      decide_eq_false_iff_not] at hsel
    refine ⟨htask ▸ hsel.1.2, fun hfailed => ?_⟩
    have hfree := hsel.2
    simp [OutboxRow.isFree, hfailed] at hfree
  · rintro ⟨hnot, hfailed⟩ now limit hexpired hcount
    refine mem_oldest (List.mem_filter.2 ⟨hu.evidence, ?_⟩) (le_trans ?_ hcount)
    · rw [Bool.and_eq_true]
      refine ⟨?_, ?_⟩
      · simp only [Store.isClaimable, hu.kind, Bool.and_eq_true, Bool.not_eq_true', List.any_eq_false, List.any_eq_true,
          decide_eq_true_eq, List.contains_eq_mem, decide_eq_false_iff_not]
        exact ⟨⟨⟨hstates, hreceipts⟩, t, hu.task, htask.symm⟩, htask.symm ▸ hnot⟩
      · simp only [OutboxRow.isFree, Bool.or_eq_true, Bool.and_eq_true, decide_eq_true_eq]
        cases hstatus : o.status with
        | held => exact absurd hstatus hheld
        | pending => exact .inl (.inl rfl)
        | sending => exact .inr ⟨rfl, hexpired hstatus⟩
        | sent => exact .inl (.inr rfl)
        | failed => exact absurd hstatus hfailed
        | cancelled => exact absurd hstatus hcancelled
    · rw [List.countP_filter]
      exact List.countP_mono_left (fun r _ hr => (Bool.and_eq_true_iff.1 hr).1)

/-- A task, its result and a row that are as `Unreceived` says, where the row is or is not among those offered. -/
def Store.hasUnreceived (s : Store) (offered : Bool) : Prop :=
  ∃ t ∈ s.tasks, ∃ f ∈ s.finals, ∃ o ∈ s.outbox, (t.state = .approved ∧ f.status = .active ∧
    t.activeFinalReceiptId = some f.primaryReceiptId ∧ (∀ r ∈ s.receipts, ¬ (r.taskVersionId = t.id ∧
      r.roundId = f.roundId ∧ r.finalMerkleRoot = f.finalMerkleRoot)) ∧ o.kind = .taskState ∧ o.relatedId = t.lastEventId) ∧
    decide (t.id ∉ s.accepted) = offered ∧ o.status ≠ .failed ∧
      decide (o ∈ s.claimableRepositoryEvidence o.nextAttemptAt s.outbox.length) = offered

instance (s : Store) (offered : Bool) : Decidable (s.hasUnreceived offered) := by
  unfold Store.hasUnreceived
  infer_instance

/-- The evidence of a first approval. -/
theorem approved_offered_first : ∃ w t f o, (portalWorld sampleEnv).Reaches portalStart w ∧ w.store.Unreceived t f o ∧
    w.store.Offers o := by
  obtain ⟨w, hrun, hp⟩ := reaches_play sampleEnv approvedTask (p := fun w => decide (w.store.hasUnreceived true))
    (by decide +kernel)
  obtain ⟨t, ht, f, hf, o, ho, ⟨happroved, hactive, hresult, hnone, hkind, hevent⟩, hnot, hfailed, -⟩ := of_decide_eq_true hp
  have hu : w.store.Unreceived t f o := ⟨ht, happroved, hf, hactive, hresult, hnone, ho, hkind, hevent⟩
  exact ⟨w, t, f, o, hrun, hu, (approved_offered hrun hu).2 ⟨of_decide_eq_true hnot, hfailed⟩⟩

/-- The first approval is exported, A's appeal against it is accepted, and the next round approves the task again. -/
def approvedAgain : List Part :=
  approvedTask ++ [.request (.appeal (sampleAccount "a") primaryReceipt), .go 4 6,
    .request (.repositoryReceipt ⟨"receipt".toList, "x:v1".toList, "x:v1:r1".toList, "root".toList, approvalEvent⟩), .go 5 5,
    .request (.review (sampleUuidText 129) true none), .go 6 26, .request (annotates "e" .a), .go 7 22,
    .request (annotates "f" .b), .go 8 32,
    .request (submits "g" (.adjudication "e".toList "f".toList "second".toList (some 0))), .go 9 31,
    .request (submits "h" (.ratification .agree (sampleUuidText 231) "second".toList)), .go 10 33]

theorem approved_not_offered : ¬ ∀ (env : Env) (w : PortalState), (portalWorld env).Reaches portalStart w →
    ∀ t f o, w.store.Unreceived t f o → w.store.Offers o := by
  intro h
  obtain ⟨w, hrun, hp⟩ := reaches_play sampleEnv approvedAgain (p := fun w => decide (w.store.hasUnreceived false))
    (by decide +kernel)
  obtain ⟨t, ht, f, hf, o, ho, ⟨happroved, hactive, hresult, hnone, hkind, hevent⟩, -, -, hmissing⟩ := of_decide_eq_true hp
  have hu : w.store.Unreceived t f o := ⟨ht, happroved, hf, hactive, hresult, hnone, ho, hkind, hevent⟩
  have hmem := h sampleEnv w hrun t f o hu o.nextAttemptAt w.store.outbox.length (fun _ => le_refl _) List.countP_le_length
  exact of_decide_eq_false hmissing hmem

end Portal
end Adg
