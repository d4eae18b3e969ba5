import AdgLang.PortalOutbox
import AdgLang.PortalRuns
/-!
# EvidenceClaims — claims of the outbox are exclusive and repeatable

A row that a claim was given is given to no other claim while the first holds it, and a claim that is repeated receives
no row that it did not receive the first time.  Both hold in the runs where nobody else writes a row that a claim holds,
and where a claim that was answered takes no other rows (`claims_exclusive`).
-/
namespace Adg
namespace Portal

open Js Consensus

/-! ## What claims guarantee -/

/-- The first answer under a marker. -/
def Store.firstAnswer (s : Store) (marker : Text) : Option HandedOut := s.handed.find? (fun h => decide (h.marker = marker))

/-- The rows of an answer. -/
def HandedOut.ids (h : HandedOut) : List Text := h.rows.map Prod.fst

structure ClaimsExclusive (s : Store) : Prop where
  /-- A row of an answer is in no later answer under another marker, until its hold has run out. -/
  apart : s.handed.Pairwise (fun h k => h.marker ≠ k.marker → ∀ r ∈ h.rows, r.1 ∈ k.ids → r.2 ≤ k.handedAt)
  /-- No answer holds a row that the first one under its marker did not. -/
  repeats : ∀ k ∈ s.handed, ∀ h ∈ s.firstAnswer k.marker, k.ids ⊆ h.ids

instance (s : Store) : Decidable (ClaimsExclusive s) :=
  decidable_of_iff (_ ∧ _) ⟨fun ⟨h₁, h₂⟩ => ⟨h₁, h₂⟩, fun ⟨h₁, h₂⟩ => ⟨h₁, h₂⟩⟩

/-- A row that was handed out, whose hold has not run out, and which may still be claimed. -/
def Store.isHeldByClaim (s : Store) (o : OutboxRow) : Bool :=
  decide (o.status = .sending) && decide (s.clock < o.nextAttemptAt) && s.isClaimable o &&
    s.handed.any (fun h => h.rows.contains (o.id, o.nextAttemptAt))

/-- The rows under a marker. -/
def Store.isClaimedBy (s : Store) (marker : Text) (o : OutboxRow) : Bool :=
  s.isClaimable o && decide (o.status = .sending) && decide (o.lastError = some marker)

/-- A claim that was answered takes no rows but those of its first answer, which its limit does not cut; nobody else
writes a row that a claim holds, and no error of the object store reads like a claim. -/
def ClaimsUndisturbed (_ : Outside) (w : Write) (s : Store) : Prop :=
  match w with
  | .claimEvidence ids marker now => ∀ k ∈ s.firstAnswer marker, ∀ o ∈ s.outbox, o.id ∈ ids → o.isFree now = true → o.id ∈ k.ids
  | .handOut marker limit _ => (s.firstAnswer marker).isSome = true ∨ s.outbox.countP (s.isClaimedBy marker) ≤ limit
  | .deliveredHere id => ∀ o ∈ s.outbox, o.id = id → s.isHeldByClaim o = false
  | .delivered id => ∀ o ∈ s.outbox, o.id = id → s.isHeldByClaim o = false
  | .undelivered id _ _ _ lastError => (∀ o ∈ s.outbox, o.id = id → s.isHeldByClaim o = false) ∧
      (repositoryEvidenceClaimMarker []).isPrefixOf lastError = false
  | .receipt row _ => ∀ o ∈ s.outbox, o.relatedId = row.nonce → s.isHeldByClaim o = true → ∀ r ∈ s.receipts,
      r.id = row.id ∨ (r.taskVersionId = row.taskVersionId ∧ r.finalMerkleRoot = row.finalMerkleRoot) → r.nonce = row.nonce
  | _ => True

instance (x : Outside) (w : Write) (s : Store) : Decidable (ClaimsUndisturbed x w s) := by
  induction w using Write.casesOn with
  | claimEvidence ids marker now =>
    exact inferInstanceAs (Decidable (∀ k ∈ s.firstAnswer marker, ∀ o ∈ s.outbox, o.id ∈ ids → o.isFree now = true →
      o.id ∈ k.ids))
  | handOut marker limit last =>
    exact inferInstanceAs (Decidable ((s.firstAnswer marker).isSome = true ∨
      s.outbox.countP (s.isClaimedBy marker) ≤ limit))
  | deliveredHere id => exact inferInstanceAs (Decidable (∀ o ∈ s.outbox, o.id = id → s.isHeldByClaim o = false))
  | delivered id => exact inferInstanceAs (Decidable (∀ o ∈ s.outbox, o.id = id → s.isHeldByClaim o = false))
  | undelivered id status attempts retryAt lastError =>
    exact inferInstanceAs (Decidable ((∀ o ∈ s.outbox, o.id = id → s.isHeldByClaim o = false) ∧
      (repositoryEvidenceClaimMarker []).isPrefixOf lastError = false))
  | receipt row primaryReceiptId =>
    exact inferInstanceAs (Decidable (∀ o ∈ s.outbox, o.relatedId = row.nonce → s.isHeldByClaim o = true →
      ∀ r ∈ s.receipts, r.id = row.id ∨ (r.taskVersionId = row.taskVersionId ∧ r.finalMerkleRoot = row.finalMerkleRoot) →
        r.nonce = row.nonce))
  | _ => exact .isTrue trivial

/-! ## The invariant -/

/-- A row that was handed out is still held, or its hold has run out, or no claim may take it. -/
def Store.Holds (s : Store) (marker : Text) (r : Text × Nat) : Prop :=
  ∃ o ∈ s.outbox, o.id = r.1 ∧ (r.2 ≤ s.clock ∨ s.isClaimable o = false ∨
    (o.status = .sending ∧ o.lastError = some marker ∧ o.nextAttemptAt = r.2))

structure ClaimsKept (s : Store) : Prop where
  exclusive : ClaimsExclusive s
  marked : ∀ h ∈ s.handed, ∃ nonce, h.marker = repositoryEvidenceClaimMarker nonce
  holds : ∀ h ∈ s.handed, ∀ r ∈ h.rows, s.Holds h.marker r
  /-- What is under an answered marker was in its first answer. -/
  first : ∀ marker h, s.firstAnswer marker = some h → ∀ o ∈ s.outbox, s.isClaimedBy marker o = true → o.id ∈ h.ids
  unmarked : ∀ o ∈ s.outbox, o.status = .held ∨ o.status = .pending →
    ∀ nonce, o.lastError ≠ some (repositoryEvidenceClaimMarker nonce)

theorem ClaimsKept.empty : ClaimsKept .empty where
  exclusive := ⟨.nil, fun _ h => absurd h List.not_mem_nil⟩
  marked := fun _ h => absurd h List.not_mem_nil
  holds := fun _ h => absurd h List.not_mem_nil
  first := fun _ _ h => absurd h (by simp [Store.firstAnswer, Store.empty])
  unmarked := fun _ h => absurd h List.not_mem_nil

theorem isPrefixOf_append (p t : Text) : (p ++ []).isPrefixOf (p ++ t) = true := by
  rw [List.append_nil, List.isPrefixOf_iff_prefix]
  exact List.prefix_append p t

theorem isPrefixOf_marker (nonce : Text) :
    (repositoryEvidenceClaimMarker []).isPrefixOf (repositoryEvidenceClaimMarker nonce) = true :=
  isPrefixOf_append "repository-claim:".toList nonce

theorem Store.isClaimedBy_iff {s : Store} {marker : Text} {o : OutboxRow} : s.isClaimedBy marker o = true ↔
    s.isClaimable o = true ∧ o.status = .sending ∧ o.lastError = some marker := by
  simp only [isClaimedBy, Bool.and_eq_true, decide_eq_true_eq, and_assoc]

section Step

variable {x : Outside} {w : Write} {s s' : Store} (h : s.Sound) (h' : s'.Sound) (hg : s.Grows s') (hfact : w.Fact s)
  (hC : ClaimsUndisturbed x w s) (happly : w.apply x.uuid.1 s = some s')
include h h' hg hfact hC happly

omit h h' hg in
theorem unmarked_step (hi : ClaimsKept s) : ∀ o' ∈ s'.outbox, o'.status = .held ∨ o'.status = .pending →
    ∀ nonce, o'.lastError ≠ some (repositoryEvidenceClaimMarker nonce) := by
  intro o' ho' hstatus nonce
  obtain hsame | ⟨o, ho, hstep⟩ | hadded := w.outbox_cases happly ho'
  · exact hi.unmarked o' hsame hstatus nonce
  · cases hstep with
    | cancel reason currentRound reissued hheld => rcases hstatus with hs | hs <;> cases hs
    | release taskVersionId roundId receiptA receiptB hheld =>
      simp only [Store.isReleased, Bool.and_eq_true, decide_eq_true_eq] at hheld
      exact hi.unmarked o ho (.inl hheld.1.1.2) nonce
    | receipt row primaryReceiptId hkind hrelated => rcases hstatus with hs | hs <;> cases hs
    | evidenceReceipt row hkind hrelated => rcases hstatus with hs | hs <;> cases hs
    | stateAccepted taskVersionId eventId hkind htask hrelated => rcases hstatus with hs | hs <;> cases hs
    | sending nextAttemptAt hpending => rcases hstatus with hs | hs <;> cases hs
    | deliveredHere hsending => rcases hstatus with hs | hs <;> cases hs
    | delivered => rcases hstatus with hs | hs <;> cases hs
    | undelivered status attempts retryAt lastError =>
      intro heq
      obtain rfl := Option.some.inj heq
      exact absurd (isPrefixOf_marker nonce) (by rw [hC.2]; exact Bool.false_ne_true)
    | claim ids marker now hid hfree => rcases hstatus with hs | hs <;> cases hs
  · rw [(hadded.fresh hfact).2]
    rintro ⟨⟩

/-- A row comes under an answered marker only by a claim, and an answered claim takes no other rows. -/
theorem first_step (hi : ClaimsKept s) {marker : Text} {k : HandedOut} (hfirst : s.firstAnswer marker = some k) :
    ∀ o' ∈ s'.outbox, s'.isClaimedBy marker o' = true → o'.id ∈ k.ids := by
  intro o' ho' hclaimed
  obtain ⟨hclaimable, hsending, hmarker⟩ := Store.isClaimedBy_iff.1 hclaimed
  obtain hsame | ⟨o, ho, hstep⟩ | hadded := w.outbox_cases happly ho'
  · refine hi.first marker k hfirst o' hsame (Store.isClaimedBy_iff.2 ⟨?_, hsending, hmarker⟩)
    exact Store.isClaimable_of_grows h h' hg hsame (.refl o') hclaimable
  · cases hstep with
    | cancel reason currentRound reissued hheld => cases hsending
    | release taskVersionId roundId receiptA receiptB hheld => cases hsending
    | receipt row primaryReceiptId hkind hrelated => cases hsending
    | evidenceReceipt row hkind hrelated => cases hsending
    | stateAccepted taskVersionId eventId hkind htask hrelated => cases hsending
    | sending nextAttemptAt hpending =>
      have hmem : k ∈ s.handed := List.mem_of_find?_eq_some hfirst
      obtain ⟨nonce, hnonce⟩ := hi.marked k hmem
      have hk : k.marker = marker := by simpa using List.find?_some hfirst
      exact absurd (hmarker.trans (by rw [← hk, hnonce])) (hi.unmarked o ho (.inr hpending) nonce)
    | deliveredHere hsent => cases hsending
    | delivered => cases hsending
    | undelivered status attempts retryAt lastError =>
      rcases hfact.2 with rfl | rfl <;> cases hsending
    | claim ids marker' now hid hfree =>
      obtain rfl := Option.some.inj hmarker
      exact hC k hfirst o ho hid hfree
  · rcases (hadded.fresh hfact).1 with hs | hs <;> rw [hs] at hsending <;> cases hsending

/-- A row that was handed out is freed by nobody. -/
theorem holds_step (hi : ClaimsKept s) {k : HandedOut} (hk : k ∈ s.handed) {r : Text × Nat} (hr : r ∈ k.rows) :
    s'.Holds k.marker r := by
  obtain ⟨o, ho, hid, hholds⟩ := hi.holds k hk r hr
  have hunclaimable : ∀ o' : OutboxRow, OutboxGrows o o' → s.isClaimable o = false → s'.isClaimable o' = false := by
    intro o' hoo hnot
    rw [Bool.eq_false_iff] at hnot ⊢
    exact fun hclaimable => hnot (Store.isClaimable_of_grows h h' hg ho hoo hclaimable)
  obtain hsame | ⟨o', ho', hstep⟩ := w.outbox_goes happly ho
  · exact ⟨o, hsame, hid, hholds.imp (fun hd => hd.trans hg.clock) (fun hd => hd.imp_left (hunclaimable o (.refl o)))⟩
  refine ⟨o', ho', hstep.grows.id.trans hid, ?_⟩
  obtain hover | hnot | ⟨hsending, hmarker, huntil⟩ := hholds
  · exact .inl (hover.trans hg.clock)
  · exact .inr (.inl (hunclaimable o' hstep.grows hnot))
  -- a row that is held is written by its receipts, and by a claim once its hold has run out
  by_cases hover : r.2 ≤ s.clock
  · exact .inl (hover.trans hg.clock)
  by_cases hclaimable : s.isClaimable o = true
  swap
  · exact .inr (.inl (hunclaimable o' hstep.grows (Bool.eq_false_iff.2 hclaimable)))
  have hheldby : s.isHeldByClaim o = true := by
    simp only [Store.isHeldByClaim, Bool.and_eq_true, decide_eq_true_eq, List.any_eq_true, List.contains_eq_mem]
    refine ⟨⟨⟨hsending, by omega⟩, hclaimable⟩, k, hk, ?_⟩
    rw [hid, huntil]
    exact hr
  cases hstep with
  | cancel reason currentRound reissued hheld =>
    simp only [Store.isHeldOf, Bool.and_eq_true, decide_eq_true_eq] at hheld
    exact absurd (hheld.1.2.symm.trans hsending) (by decide)
  | release taskVersionId roundId receiptA receiptB hheld =>
    simp only [Store.isReleased, Bool.and_eq_true, decide_eq_true_eq] at hheld
    exact absurd (hheld.1.1.2.symm.trans hsending) (by decide)
  | receipt row primaryReceiptId hkind hrelated =>
    refine .inr (.inl ?_)
    obtain rfl := Option.some.inj happly
    have hstored : ∃ q ∈ insertOrIgnore (fun q : RepositoryReceipt => decide (q.id = row.id) || decide (q.nonce = row.nonce) ||
        decide ((q.taskVersionId, q.finalMerkleRoot) = (row.taskVersionId, row.finalMerkleRoot))) row s.receipts,
          q.nonce = row.nonce := by
      unfold insertOrIgnore
      split
      · rename_i hany
        obtain ⟨q, hq, hconflict⟩ := List.any_eq_true.1 hany
        simp only [Bool.or_eq_true, decide_eq_true_eq, Prod.mk.injEq] at hconflict
        obtain (hconflict | hnonce) | hconflict := hconflict
        · exact ⟨q, hq, hC o ho hrelated hheldby q hq (.inl hconflict)⟩
        · exact ⟨q, hq, hnonce⟩
        · exact ⟨q, hq, hC o ho hrelated hheldby q hq (.inr hconflict)⟩
      · exact ⟨row, List.mem_append_right _ (List.mem_singleton.2 rfl), rfl⟩
    obtain ⟨q, hq, hnonce⟩ := hstored
    simp only [Store.isClaimable, hkind, Bool.and_eq_false_iff, Bool.not_eq_false', List.any_eq_true, decide_eq_true_eq]
    exact .inl (.inl (.inr ⟨q, hq, hnonce.trans hrelated.symm⟩))
  | evidenceReceipt row hkind hrelated =>
    refine .inr (.inl ?_)
    obtain rfl := Option.some.inj happly
    simp only [Store.isClaimable, hkind, Bool.and_eq_false_iff, List.any_eq_false, Bool.and_eq_true, decide_eq_true_eq,
      Bool.not_eq_true', not_and, Bool.not_eq_false]
    refine .inr (fun p hp hreceipt => ?_)
    obtain ⟨p₀, hp₀, rfl⟩ := Table.mem_update.1 hp
    by_cases hmatch : decide (p₀.receiptId = row.relatedId) = true
    · rw [if_pos hmatch]
    · rw [if_neg hmatch] at hreceipt
      exact absurd (decide_eq_true (hreceipt.trans hrelated)) hmatch
  | stateAccepted taskVersionId eventId hkind htask hrelated =>
    refine .inr (.inl ?_)
    obtain ⟨q, hq, hevent⟩ := hfact
    simp only [Store.isClaimable, hkind, Bool.and_eq_false_iff, Bool.not_eq_false', List.any_eq_true, decide_eq_true_eq]
    exact .inl (.inl (.inl ⟨q, hg.stateReceipts hq, hevent.trans hrelated.symm⟩))
  | sending nextAttemptAt hpending => exact absurd (hpending.symm.trans hsending) (by decide)
  | deliveredHere hsent => exact absurd hheldby (by rw [hC o ho rfl]; exact Bool.false_ne_true)
  | delivered => exact absurd hheldby (by rw [hC o ho rfl]; exact Bool.false_ne_true)
  | undelivered status attempts retryAt lastError => exact absurd hheldby (by rw [hC.1 o ho rfl]; exact Bool.false_ne_true)
  | claim ids marker now hid' hfree =>
    have hnow : now ≤ s.clock := hfact.2
    simp only [OutboxRow.isFree, hsending, Bool.or_eq_true, Bool.and_eq_true, decide_eq_true_eq] at hfree
    obtain (hfree | hfree) | hfree := hfree
    · cases hfree
    · cases hfree
    · exact absurd (huntil ▸ hfree.2.trans hnow) hover

end Step

/-! ## Answers -/

theorem Store.answers_cases (s : Store) (marker : Text) (limit : Nat) (last : Bool) :
    s.answers marker limit last = [] ∨ s.answers marker limit last =
      [⟨marker, (s.claimedRepositoryEvidence marker limit).map (fun r => (r.id, r.nextAttemptAt)), s.clock⟩] := by
  simp only [Store.answers]
  split
  · exact .inl rfl
  · exact .inr rfl

theorem Store.mem_claimed {s : Store} {marker : Text} {limit : Nat} {o : OutboxRow}
    (ho : o ∈ s.claimedRepositoryEvidence marker limit) : o ∈ s.outbox ∧ s.isClaimedBy marker o = true := by
  have hmem := (List.mem_insertionSort _).1 (List.mem_of_mem_take ho)
  exact List.mem_filter.1 hmem

/-- An answer that is not cut holds every row under its marker. -/
theorem Store.claimed_of_count {s : Store} {marker : Text} {limit : Nat}
    (hcount : s.outbox.countP (s.isClaimedBy marker) ≤ limit) {o : OutboxRow} (ho : o ∈ s.outbox)
    (hclaimed : s.isClaimedBy marker o = true) : o ∈ s.claimedRepositoryEvidence marker limit := by
  have hlength : (s.outbox.filter (s.isClaimedBy marker)).length ≤ limit := by
    rw [← List.countP_eq_length_filter]
    exact hcount
  show o ∈ oldest OutboxRow.createdAt limit (s.outbox.filter (s.isClaimedBy marker))
  unfold oldest
  rw [List.take_of_length_le (by rw [List.length_insertionSort]; exact hlength), List.mem_insertionSort]
  exact List.mem_filter.2 ⟨ho, hclaimed⟩

/-- An answer keeps the invariant. -/
theorem ClaimsKept.answer {s : Store} (h : s.Sound) {marker : Text} {limit : Nat} {last : Bool}
    (hmarker : ∃ nonce, marker = repositoryEvidenceClaimMarker nonce)
    (hcut : (s.firstAnswer marker).isSome = true ∨ s.outbox.countP (s.isClaimedBy marker) ≤ limit) (hi : ClaimsKept s) :
    ClaimsKept { s with handed := s.handed ++ s.answers marker limit last } := by
  obtain hnone | hone := s.answers_cases marker limit last
  · rw [hnone, List.append_nil]
    exact hi
  rw [hone]
  generalize hk : (⟨marker, (s.claimedRepositoryEvidence marker limit).map (fun r => (r.id, r.nextAttemptAt)), s.clock⟩ :
    HandedOut) = k
  have hkm : k.marker = marker := by rw [← hk]
  have hrow : ∀ r ∈ k.rows, ∃ o ∈ s.outbox, s.isClaimedBy marker o = true ∧ r = (o.id, o.nextAttemptAt) := by
    intro r hr
    rw [← hk] at hr
    obtain ⟨o, ho, rfl⟩ := List.mem_map.1 hr
    exact ⟨o, (Store.mem_claimed ho).1, (Store.mem_claimed ho).2, rfl⟩
  have hids : ∀ id ∈ k.ids, ∃ o ∈ s.outbox, s.isClaimedBy marker o = true ∧ id = o.id := by
    intro id hid
    obtain ⟨r, hr, rfl⟩ := List.mem_map.1 hid
    obtain ⟨o, ho, hclaimed, rfl⟩ := hrow r hr
    exact ⟨o, ho, hclaimed, rfl⟩
  have hfirst : ∀ m j, Store.firstAnswer { s with handed := s.handed ++ [k] } m = some j →
      s.firstAnswer m = some j ∨ (s.firstAnswer m = none ∧ m = marker ∧ j = k) := by
    intro m j hj
    unfold Store.firstAnswer at hj ⊢
    rw [List.find?_append] at hj
    cases hold : s.handed.find? (fun q => decide (q.marker = m)) with
    | some q =>
      rw [hold] at hj
      exact .inl hj
    | none =>
      rw [hold, Option.none_or, List.find?_singleton] at hj
      split at hj
      · rename_i hm
        exact .inr ⟨rfl, (of_decide_eq_true hm).symm.trans hkm, (Option.some.inj hj).symm⟩
      · cases hj
  refine ⟨⟨?_, ?_⟩, ?_, ?_, ?_, hi.unmarked⟩
  · refine List.pairwise_append.2 ⟨hi.exclusive.apart, List.pairwise_singleton _ _, fun j hj q hq hne r hr hrq => ?_⟩
    obtain rfl := List.mem_singleton.1 hq
    obtain ⟨o, ho, hclaimed, hid⟩ := hids r.1 hrq
    obtain ⟨o₂, ho₂, hid₂, hholds⟩ := hi.holds j hj r hr
    obtain rfl := h.keys.outbox.outbox.eq_of_key ho₂ ho (hid₂.trans hid)
    obtain ⟨hclaimable, -, hmark⟩ := Store.isClaimedBy_iff.1 hclaimed
    obtain hover | hnot | ⟨-, hmark', -⟩ := hholds
    · rw [← hk]
      exact hover
    · rw [hnot] at hclaimable
      cases hclaimable
    · rw [hmark] at hmark'
      exact absurd ((Option.some.inj hmark').symm.trans hkm.symm) hne
  · intro q hq j hj
    obtain hold | ⟨hnone, -, rfl⟩ := hfirst q.marker j hj
    · rcases List.mem_append.1 hq with hq | hq
      · exact hi.exclusive.repeats q hq j hold
      · obtain rfl := List.mem_singleton.1 hq
        intro id hid
        obtain ⟨o, ho, hclaimed, rfl⟩ := hids id hid
        exact hi.first marker j (hkm ▸ hold) o ho hclaimed
    · rcases List.mem_append.1 hq with hq | hq
      · exact absurd (decide_eq_true rfl) (List.find?_eq_none.1 hnone q hq)
      · obtain rfl := List.mem_singleton.1 hq
        exact List.Subset.refl _
  · intro q hq
    rcases List.mem_append.1 hq with hq | hq
    · exact hi.marked q hq
    · obtain rfl := List.mem_singleton.1 hq
      exact hkm ▸ hmarker
  · intro q hq r hr
    rcases List.mem_append.1 hq with hq | hq
    · exact hi.holds q hq r hr
    · obtain rfl := List.mem_singleton.1 hq
      obtain ⟨o, ho, hclaimed, rfl⟩ := hrow r hr
      obtain ⟨-, hsending, hmark⟩ := Store.isClaimedBy_iff.1 hclaimed
      exact ⟨o, ho, rfl, .inr (.inr ⟨hsending, hkm ▸ hmark, rfl⟩)⟩
  · intro m j hj o ho hclaimed
    obtain hold | ⟨hnone, rfl, rfl⟩ := hfirst m j hj
    · exact hi.first m j hold o ho hclaimed
    · have hcount := hcut.resolve_left (by rw [hnone]; nofun)
      rw [← hk]
      exact List.mem_map.2 ⟨_, List.mem_map.2 ⟨o, Store.claimed_of_count hcount ho hclaimed, rfl⟩, rfl⟩

/-! ## Runs -/

theorem claims_step {x : Outside} {w : Write} {s s' : Store} (h : s.Sound) (hfact : w.Fact s)
    (hC : ClaimsUndisturbed x w s) (happly : w.apply x.uuid.1 s = some s') (h' : s'.Sound) (hg : s.Grows s')
    (hi : ClaimsKept s) : ClaimsKept s' := by
  by_cases hanswer : ∃ marker limit last, w = .handOut marker limit last
  · obtain ⟨marker, limit, last, rfl⟩ := hanswer
    obtain rfl := Option.some.inj happly
    exact hi.answer h hfact hC
  have hhanded : s'.handed = s.handed :=
    w.handed_eq happly (fun marker limit last hw => hanswer ⟨marker, limit, last, hw⟩)
  have hanswered : ∀ marker, s'.firstAnswer marker = s.firstAnswer marker := by
    intro marker
    rw [Store.firstAnswer, hhanded, Store.firstAnswer]
  refine ⟨⟨?_, ?_⟩, ?_, ?_, ?_, unmarked_step hfact hC happly hi⟩
  · rw [hhanded]
    exact hi.exclusive.apart
  · intro k hk j hj
    rw [hhanded] at hk
    rw [hanswered] at hj
    exact hi.exclusive.repeats k hk j hj
  · rw [hhanded]
    exact hi.marked
  · intro k hk r hr
    rw [hhanded] at hk
    exact holds_step h h' hg hfact hC happly hi hk hr
  · intro marker k hk
    rw [hanswered] at hk
    exact first_step h h' hg hfact hC happly hi hk

/-- **Claims are exclusive and repeatable** where nobody disturbs them. -/
theorem claims_exclusive {env : Env} {w : PortalState} (hrun : PortalRun env ClaimsUndisturbed w) :
    ClaimsExclusive w.store :=
  (portal_log (I := ClaimsKept) .empty (fun _ _ _ _ h hfact hC happly h' hg hi => claims_step h hfact hC happly h' hg hi)
    hrun).2.1.exclusive

/-- A submits, then B, and a claim for one row is given that of A. -/
def claimedOnce : List Part :=
  [.request (annotates "a" .a), .go 0 30, .request (annotates "b" .b), .go 1 32,
    .request (.evidenceClaim "nonce".toList 1), .go 2 5]

/-- The identifier that the submission of A draws for its receipt. -/
def firstReceipt : Text := sampleUuidText 13

/-- Two claims are answered, each with a row of its own. -/
theorem claims_exclusive_two : ∃ w, PortalRun sampleEnv ClaimsUndisturbed w ∧
    w.store.handed.map (fun h => h.rows.length) = [1, 3] ∧ ClaimsExclusive w.store := by
  obtain ⟨w, hrun, hp⟩ := run_play sampleEnv ClaimsUndisturbed
    (claimedOnce ++ [.request (.evidenceClaim "other".toList 50), .go 3 5])
    (p := fun w => decide (w.store.handed.map (fun h => h.rows.length) = [1, 3])) (by decide +kernel) (by decide +kernel)
  exact ⟨w, hrun, of_decide_eq_true hp, claims_exclusive hrun⟩

/-- The repository takes the row, and the claim is repeated. -/
theorem claims_not_exclusive :
    ¬ ∀ (env : Env) (w : PortalState), (portalWorld env).Reaches portalStart w → ClaimsExclusive w.store := by
  intro h
  obtain ⟨w, hrun, hp⟩ := reaches_play sampleEnv
    (claimedOnce ++ [.request (.evidenceReceipt ⟨"import".toList, firstReceipt⟩), .go 3 2,
      .request (.evidenceClaim "nonce".toList 1), .go 4 5])
    (p := fun w => decide (¬ ClaimsExclusive w.store)) (by decide +kernel)
  exact of_decide_eq_true hp (h sampleEnv w hrun)

end Portal
end Adg
