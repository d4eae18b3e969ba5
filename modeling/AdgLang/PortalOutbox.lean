import AdgLang.PortalRows
/-!
# PortalOutbox — what commands do to the outbox

A command leaves the rows of the outbox in their places, each as it was or changed in one of ten ways (`OutboxStep`), and
adds the delivery of a submission or the evidence of an event (`Write.outbox_eq`).  A row that a claim may not take is
never one that it may take later (`Store.isClaimable_of_grows`).
-/
namespace Adg
namespace Portal

open Js Consensus

/-- What a command may make of a row of the outbox, and under which guard. -/
inductive OutboxStep (s : Store) (o : OutboxRow) : Write → OutboxRow → Prop
  | cancel (reason : ReissueReason) (currentRound : RoundRow) (reissued : TaskRow)
      (hheld : s.isHeldOf reissued.id currentRound.id o = true) :
      OutboxStep s o (.openRound reason currentRound reissued)
        { o with status := .cancelled, lastError := some "Independent quorum closed before release.".toList }
  | release (taskVersionId roundId receiptA receiptB : Text)
      (hheld : s.isReleased taskVersionId roundId receiptA receiptB o = true) :
      OutboxStep s o (.release taskVersionId roundId receiptA receiptB)
        { o with status := .pending, nextAttemptAt := s.clock }
  | receipt (row : RepositoryReceipt) (primaryReceiptId : Text) (hkind : o.kind = .taskState)
      (hrelated : o.relatedId = row.nonce) :
      OutboxStep s o (.receipt row primaryReceiptId) { o with status := .sent, lastError := none }
  | evidenceReceipt (row : EvidenceReceipt) (hkind : o.kind = .submission) (hrelated : o.relatedId = row.relatedId) :
      OutboxStep s o (.evidenceReceipt row) { o with status := .sent, lastError := none }
  | stateAccepted (taskVersionId eventId : Text) (hkind : o.kind = .taskState)
      (htask : o.taskVersionId = taskVersionId) (hrelated : o.relatedId = eventId) :
      OutboxStep s o (.stateAccepted taskVersionId eventId) { o with status := .sent, lastError := none }
  | sending (nextAttemptAt : Nat) (hstatus : o.status = .pending) :
      OutboxStep s o (.sending o.id nextAttemptAt) { o with status := .sending, nextAttemptAt := nextAttemptAt }
  | deliveredHere (hstatus : o.status = .sending) :
      OutboxStep s o (.deliveredHere o.id) { o with status := .sent, lastError := none }
  | delivered : OutboxStep s o (.delivered o.id)
      { o with status := .sent, attempts := o.attempts + 1, lastError := none }
  | undelivered (status : OutboxStatus) (attempts retryAt : Nat) (lastError : Text) :
      OutboxStep s o (.undelivered o.id status attempts retryAt lastError)
        { o with status := status, attempts := attempts, nextAttemptAt := retryAt, lastError := some lastError }
  | claim (ids : List Text) (marker : Text) (now : Nat) (hid : o.id ∈ ids) (hfree : o.isFree now = true) :
      OutboxStep s o (.claimEvidence ids marker now) { o with
        status := .sending, nextAttemptAt := now + repositoryEvidenceClaimHoldMs, lastError := some marker }

theorem OutboxStep.grows {s : Store} {w : Write} {o o' : OutboxRow} (h : OutboxStep s o w o') : OutboxGrows o o' := by
  cases h <;> exact ⟨rfl, rfl, rfl, rfl, rfl, rfl, rfl, rfl⟩

/-- The delivery that a submission adds, or the evidence of an event. -/
def IsAdded (w : Write) (o : OutboxRow) : Prop := (∃ b, w = .submit b ∧ o = b.delivery) ∨ w = .stateEvidence o

theorem step_of_update {s : Store} {w : Write} {p : OutboxRow → Bool} {f : OutboxRow → OutboxRow}
    (h : ∀ o, p o = true → OutboxStep s o w (f o)) (o : OutboxRow) :
    (if p o then f o else o) = o ∨ OutboxStep s o w (if p o then f o else o) := by
  by_cases hp : p o = true
  · rw [if_pos hp]
    exact .inr (h o hp)
  · rw [if_neg hp]
    exact .inl rfl

section Outbox

variable {x : Outside} {w : Write} {s s' : Store} (happly : w.apply x.uuid.1 s = some s')
include happly

omit happly in
/-- An update in place that is one of the ten. -/
theorem Write.outbox_of_update {p : OutboxRow → Bool} {f : OutboxRow → OutboxRow}
    (houtbox : s'.outbox = Table.update p f s.outbox) (h : ∀ o, p o = true → OutboxStep s o w (f o)) :
    ∃ g added, s'.outbox = s.outbox.map g ++ added ∧ (∀ o, g o = o ∨ OutboxStep s o w (g o)) ∧
      ∀ o ∈ added, IsAdded w o :=
  ⟨_, [], by rw [houtbox, List.append_nil]; rfl, step_of_update h, fun _ ho => absurd ho List.not_mem_nil⟩

omit happly in
theorem Write.outbox_of_same (houtbox : s'.outbox = s.outbox) :
    ∃ g added, s'.outbox = s.outbox.map g ++ added ∧ (∀ o, g o = o ∨ OutboxStep s o w (g o)) ∧
      ∀ o ∈ added, IsAdded w o :=
  ⟨id, [], by rw [houtbox, List.map_id, List.append_nil], fun _ => .inl rfl, fun _ ho => absurd ho List.not_mem_nil⟩

/-- **The outbox after a command**: its rows in place, and what the command adds. -/
theorem Write.outbox_eq : ∃ g added, s'.outbox = s.outbox.map g ++ added ∧
    (∀ o, g o = o ∨ OutboxStep s o w (g o)) ∧ ∀ o ∈ added, IsAdded w o := by
  cases w with
  | register row now => exact outbox_of_same (by rw [register_eq happly]; rfl)
  | sync items row now =>
    obtain ⟨s₁, h₁, rfl⟩ := Option.map_eq_some_iff.1 happly
    have hkept := syncItems_keep (P := fun s₁ => s₁.outbox = s.outbox) (fun s₁ s₂ row hr h => ?_)
      (fun s₁ s₂ new hu h => ?_) h₁ rfl
    · exact outbox_of_same hkept
    · rw [register_eq hr]
      exact h
    · rw [upsertCatalogue_eq hu]
      exact h
  | transition task tr =>
    obtain ⟨r, -, rfl⟩ := Option.map_eq_some_iff.1 happly
    exact outbox_of_same rfl
  | openRound reason currentRound reissued =>
    have hs : s.openRound reason currentRound reissued = some s' := happly
    unfold Store.openRound at hs
    split at hs
    · obtain rfl := Option.some.inj hs
      exact outbox_of_update rfl (fun o ho => .cancel reason currentRound reissued ho)
    · cases hs
  | submit b =>
    obtain rfl := Option.some.inj happly
    exact ⟨id, [b.delivery], by rw [List.map_id]; rfl, fun _ => .inl rfl,
      fun o ho => .inl ⟨b, rfl, List.mem_singleton.1 ho⟩⟩
  | stateEvidence row =>
    obtain rfl := Option.some.inj happly
    show ∃ g added, insertOrIgnore _ row s.outbox = _ ∧ _
    unfold insertOrIgnore
    split
    · exact ⟨id, [], by rw [List.map_id, List.append_nil], fun _ => .inl rfl, fun _ ho => absurd ho List.not_mem_nil⟩
    · exact ⟨id, [row], by rw [List.map_id], fun _ => .inl rfl, fun o ho => .inr (by rw [List.mem_singleton.1 ho])⟩
  | release taskVersionId roundId receiptA receiptB =>
    obtain rfl := Option.some.inj happly
    exact outbox_of_update rfl (fun o ho => .release taskVersionId roundId receiptA receiptB ho)
  | receipt row primaryReceiptId =>
    obtain rfl := Option.some.inj happly
    refine outbox_of_update rfl (fun o ho => ?_)
    simp only [Bool.and_eq_true, decide_eq_true_eq] at ho
    exact .receipt row primaryReceiptId ho.1 ho.2
  | evidenceReceipt row =>
    obtain rfl := Option.some.inj happly
    refine outbox_of_update rfl (fun o ho => ?_)
    simp only [Bool.and_eq_true, decide_eq_true_eq] at ho
    exact .evidenceReceipt row ho.1 ho.2
  | stateAccepted taskVersionId eventId =>
    obtain rfl := Option.some.inj happly
    refine outbox_of_update rfl (fun o ho => ?_)
    simp only [Bool.and_eq_true, decide_eq_true_eq] at ho
    exact .stateAccepted taskVersionId eventId ho.1.1 ho.1.2 ho.2
  | sending id nextAttemptAt =>
    obtain rfl := Option.some.inj happly
    refine outbox_of_update rfl (fun o ho => ?_)
    simp only [Bool.and_eq_true, decide_eq_true_eq] at ho
    obtain ⟨rfl, hstatus⟩ := ho
    exact .sending nextAttemptAt hstatus
  | deliveredHere id =>
    obtain rfl := Option.some.inj happly
    refine outbox_of_update rfl (fun o ho => ?_)
    simp only [Bool.and_eq_true, decide_eq_true_eq] at ho
    obtain ⟨rfl, hstatus⟩ := ho
    exact .deliveredHere hstatus
  | delivered id =>
    obtain rfl := Option.some.inj happly
    refine outbox_of_update rfl (fun o ho => ?_)
    obtain rfl : o.id = id := of_decide_eq_true ho
    exact .delivered
  | undelivered id status attempts retryAt lastError =>
    obtain rfl := Option.some.inj happly
    refine outbox_of_update rfl (fun o ho => ?_)
    obtain rfl : o.id = id := of_decide_eq_true ho
    exact .undelivered status attempts retryAt lastError
  | claimEvidence ids marker now =>
    obtain rfl := Option.some.inj happly
    refine outbox_of_update rfl (fun o ho => ?_)
    simp only [Bool.and_eq_true, decide_eq_true_eq] at ho
    exact .claim ids marker now ho.1 ho.2
  | _ =>
    obtain rfl := Option.some.inj happly
    exact outbox_of_same rfl

/-- Where a row of the outbox comes from. -/
theorem Write.outbox_cases {o' : OutboxRow} (ho' : o' ∈ s'.outbox) :
    o' ∈ s.outbox ∨ (∃ o ∈ s.outbox, OutboxStep s o w o') ∨ IsAdded w o' := by
  obtain ⟨g, added, houtbox, hg, hadded⟩ := w.outbox_eq happly
  rw [houtbox] at ho'
  rcases List.mem_append.1 ho' with ho' | ho'
  · obtain ⟨o, ho, rfl⟩ := List.mem_map.1 ho'
    obtain hsame | hstep := hg o
    · exact .inl (hsame.symm ▸ ho)
    · exact .inr (.inl ⟨o, ho, hstep⟩)
  · exact .inr (.inr (hadded o' ho'))

/-- What becomes of a row of the outbox. -/
theorem Write.outbox_goes {o : OutboxRow} (ho : o ∈ s.outbox) :
    o ∈ s'.outbox ∨ ∃ o' ∈ s'.outbox, OutboxStep s o w o' := by
  obtain ⟨g, added, houtbox, hg, -⟩ := w.outbox_eq happly
  have hmem : g o ∈ s'.outbox := by
    rw [houtbox]
    exact List.mem_append_left _ (List.mem_map.2 ⟨o, ho, rfl⟩)
  obtain hsame | hstep := hg o
  · exact .inl (hsame ▸ hmem)
  · exact .inr ⟨g o, hmem, hstep⟩

/-- Claims are answered by one command only. -/
theorem Write.handed_eq (hw : ∀ marker limit last, w ≠ .handOut marker limit last) : s'.handed = s.handed := by
  by_cases hconsensus : w.isConsensus = true
  · rw [w.consensus_eq hconsensus happly]
    rfl
  cases w with
  | handOut marker limit last => exact absurd rfl (hw marker limit last)
  | register row now => exact absurd rfl hconsensus
  | transition task tr => exact absurd rfl hconsensus
  | openRound reason currentRound reissued => exact absurd rfl hconsensus
  | sync items row now => exact absurd rfl hconsensus
  | _ =>
    obtain rfl := Option.some.inj happly
    rfl

end Outbox

/-- A row that is added is as its grounds say. -/
theorem IsAdded.fresh {w : Write} {s : Store} {o : OutboxRow} (hfact : w.Fact s) (h : IsAdded w o) :
    (o.status = .held ∨ o.status = .pending) ∧ o.lastError = none := by
  obtain ⟨b, rfl, rfl⟩ | rfl := h
  · obtain ⟨id, receivedAt, hdelivery⟩ := Store.Admits.delivery hfact
    rw [hdelivery]
    refine ⟨?_, rfl⟩
    unfold submissionDelivery
    cases b.row.role.isIndependent with
    | true => exact .inl rfl
    | false => exact .inr rfl
  · obtain ⟨id, now, task, -, e, -, -, -, -, rfl⟩ := hfact
    exact ⟨.inr rfl, rfl⟩

/-- **What a claim may not take stays so.** -/
theorem Store.isClaimable_of_grows {s s' : Store} (h : s.Sound) (h' : s'.Sound) (hg : s.Grows s') {o o' : OutboxRow}
    (ho : o ∈ s.outbox) (hoo : OutboxGrows o o') (hclaimable : s'.isClaimable o' = true) : s.isClaimable o = true := by
  have hstems := (h.outbox o ho).stems
  unfold Store.isClaimable at hclaimable ⊢
  unfold Store.Stems at hstems
  rw [hoo.kind, hoo.related, hoo.task] at hclaimable
  split at hstems <;> rename_i hkind <;> simp only [hkind] at hclaimable ⊢
  · obtain ⟨p, hp, hreceipt, -⟩ := hstems
    simp only [Bool.and_eq_true, Bool.not_eq_true', List.any_eq_false, List.any_eq_true, decide_eq_true_eq] at hclaimable ⊢
    obtain ⟨hnone, q, hq, hqreceipt, hqimported⟩ := hclaimable
    refine ⟨fun r hr => hnone r (hg.evidenceReceipts hr), p, hp, hreceipt, ?_⟩
    obtain ⟨p', hp', hpp⟩ := hg.imports p hp
    obtain rfl := h'.eq_of_receipt hq hp' (hqreceipt.trans (hpp.receipt.trans hreceipt).symm)
    cases himported : p.imported with
    | false => rfl
    | true => exact absurd (hpp.imported himported) (by rw [hqimported]; nofun)
  · obtain ⟨⟨t, ht, hid⟩, -⟩ := hstems
    simp only [Bool.and_eq_true, Bool.not_eq_true', List.any_eq_false, List.any_eq_true, decide_eq_true_eq,
      List.contains_eq_mem, decide_eq_false_iff_not] at hclaimable ⊢
    obtain ⟨⟨⟨hstate, hreceipts⟩, -⟩, haccepted⟩ := hclaimable
    exact ⟨⟨⟨fun r hr => hstate r (hg.stateReceipts hr), fun r hr => hreceipts r (hg.receipts hr)⟩, t, ht, hid⟩,
      fun hmem => haccepted (hg.accepted hmem)⟩

/-! ## The oldest rows -/

/-- A row is among the oldest ones if few rows are as old. -/
theorem mem_oldest {ρ : Type} {at_ : ρ → Nat} {limit : Nat} {rows : List ρ} {r : ρ} (hr : r ∈ rows)
    (hcount : rows.countP (fun q => decide (at_ q ≤ at_ r)) ≤ limit) : r ∈ oldest at_ limit rows := by
  have : Std.Total (fun a b : ρ => at_ a ≤ at_ b) := ⟨fun a b => le_total (at_ a) (at_ b)⟩
  have : IsTrans ρ (fun a b => at_ a ≤ at_ b) := ⟨fun _ _ _ h h' => le_trans h h'⟩
  have hperm := List.perm_insertionSort (fun a b : ρ => at_ a ≤ at_ b) rows
  have hsorted := List.pairwise_insertionSort (fun a b : ρ => at_ a ≤ at_ b) rows
  rw [← hperm.countP_eq] at hcount
  unfold oldest
  obtain ⟨before, after, hsplit⟩ := List.append_of_mem (hperm.mem_iff.2 hr)
  rw [hsplit] at hsorted hcount ⊢
  -- whatever stands before the row is as old
  have hold : before.countP (fun q => decide (at_ q ≤ at_ r)) = before.length :=
    List.countP_eq_length.2 (fun q hq => decide_eq_true ((List.pairwise_append.1 hsorted).2.2 q hq r (by simp)))
  rw [List.countP_append, List.countP_cons_of_pos (by simp), hold] at hcount
  rw [List.take_append, List.take_of_length_le (by omega)]
  refine List.mem_append_right _ ?_
  obtain ⟨n, hn⟩ : ∃ n, limit - before.length = n + 1 := ⟨limit - before.length - 1, by omega⟩
  rw [hn, List.take_succ_cons]
  exact List.mem_cons_self

end Portal
end Adg
