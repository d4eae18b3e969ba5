import Mathlib.Algebra.BigOperators.Field
import Mathlib.Algebra.Order.BigOperators.Group.Finset
import Mathlib.Algebra.Order.Field.Rat
import Mathlib.Data.Rat.BigOperators
import Mathlib.Tactic.FieldSimp
import Mathlib.Tactic.Linarith
import Mathlib.Tactic.Positivity
/-!
# Kappa — agreement beyond chance

Two raters label the same units; a unit is the pair of its labels.  `observed` is the share of the units on which they
agree, `expected` the share on which raters with their label frequencies would agree by chance, and `kappa` what they
agree beyond chance, of what there is to agree.  It lies between -1 and 1 (`neg_one_le_kappa`, `kappa_le_one`); the lower
bound is a bound on the chance agreement (`expected_le`), label by label.
-/
namespace Kappa

variable {α : Type} [DecidableEq α]

/-- The units with equal labels. -/
def agreeing (pairs : List (α × α)) : List (α × α) := pairs.filter (fun p => decide (p.1 = p.2))

/-- The share of units that have a label in a list of labels. -/
def share (labels : List α) (units : Nat) (label : α) : ℚ := (labels.count label : ℚ) / units

def labels (pairs : List (α × α)) : Finset α := (pairs.map Prod.fst ++ pairs.map Prod.snd).toFinset

def observed (pairs : List (α × α)) : ℚ := ((agreeing pairs).length : ℚ) / pairs.length

def expected (pairs : List (α × α)) : ℚ := ∑ label ∈ labels pairs,
  share (pairs.map Prod.fst) pairs.length label * share (pairs.map Prod.snd) pairs.length label

/-- The kappa of some units; none where chance agreement is certain. -/
def kappa (pairs : List (α × α)) : Option ℚ :=
  if pairs = [] then none
  else if expected pairs = 1 then none
  else some ((observed pairs - expected pairs) / (1 - expected pairs))

variable {pairs : List (α × α)}

/-! ## Order and sides -/

theorem mem_labels {label : α} : label ∈ labels pairs ↔ label ∈ pairs.map Prod.fst ∨ label ∈ pairs.map Prod.snd := by
  rw [labels, List.mem_toFinset, List.mem_append]

theorem agreeing_perm {pairs' : List (α × α)} (h : pairs.Perm pairs') : (agreeing pairs).Perm (agreeing pairs') :=
  h.filter _

theorem expected_perm {pairs' : List (α × α)} (h : pairs.Perm pairs') : expected pairs = expected pairs' := by
  have hlabels : labels pairs = labels pairs' := by
    ext label
    rw [mem_labels, mem_labels, (h.map Prod.fst).mem_iff, (h.map Prod.snd).mem_iff]
  rw [expected, expected, hlabels]
  refine Finset.sum_congr rfl (fun label _ => ?_)
  rw [share, share, share, share, (h.map Prod.fst).count_eq, (h.map Prod.snd).count_eq, h.length_eq]

theorem kappa_perm {pairs' : List (α × α)} (h : pairs.Perm pairs') : kappa pairs = kappa pairs' := by
  have hnil : pairs = [] ↔ pairs' = [] := ⟨fun he => (he ▸ h).symm.eq_nil, fun he => (he ▸ h).eq_nil⟩
  have hobserved : observed pairs = observed pairs' := by
    rw [observed, observed, (agreeing_perm h).length_eq, h.length_eq]
  simp only [kappa, hnil, expected_perm h, hobserved]

theorem agreeing_swap (pairs : List (α × α)) : agreeing (pairs.map Prod.swap) = (agreeing pairs).map Prod.swap := by
  rw [agreeing, agreeing, List.filter_map]
  congr 1
  exact List.filter_congr (fun p _ => by simp [eq_comm])

theorem expected_swap (pairs : List (α × α)) : expected (pairs.map Prod.swap) = expected pairs := by
  have hfst : (pairs.map Prod.swap).map Prod.fst = pairs.map Prod.snd := by simp [List.map_map, Function.comp_def]
  have hsnd : (pairs.map Prod.swap).map Prod.snd = pairs.map Prod.fst := by simp [List.map_map, Function.comp_def]
  have hlabels : labels (pairs.map Prod.swap) = labels pairs := by
    ext label
    rw [mem_labels, mem_labels, hfst, hsnd, or_comm]
  rw [expected, expected, hlabels, hfst, hsnd, List.length_map]
  exact Finset.sum_congr rfl (fun label _ => mul_comm _ _)

theorem kappa_swap (pairs : List (α × α)) : kappa (pairs.map Prod.swap) = kappa pairs := by
  have hobserved : observed (pairs.map Prod.swap) = observed pairs := by
    rw [observed, observed, agreeing_swap, List.length_map, List.length_map]
  simp only [kappa, List.map_eq_nil_iff, expected_swap, hobserved]

/-! ## Shares -/

theorem share_nonneg (ls : List α) (n : Nat) (label : α) : 0 ≤ share ls n label := by
  unfold share
  positivity

/-- The shares of the labels of a list add up to the list. -/
theorem sum_share {ls : List α} {n : Nat} {s : Finset α} (h : ∀ label ∈ ls, label ∈ s) :
    ∑ label ∈ s, share ls n label = (ls.length : ℚ) / n := by
  have hcount : ∑ label ∈ s, ls.count label = ls.length := by
    simpa using Multiset.sum_count_eq_card (s := s) (m := (ls : Multiset α)) (by simpa using h)
  simp only [share]
  rw [← Finset.sum_div, ← hcount, Nat.cast_sum]

/-- The units to which both raters gave a label. -/
def together (pairs : List (α × α)) (label : α) : ℚ := share ((agreeing pairs).map Prod.fst) pairs.length label

/-- A label is given by one rater, or by both, to no more than all units. -/
theorem counts_le (label : α) (pairs : List (α × α)) : (pairs.map Prod.fst).count label + (pairs.map Prod.snd).count label ≤
    pairs.length + ((agreeing pairs).map Prod.fst).count label := by
  induction pairs with
  | nil => simp
  | cons p pairs ih =>
    obtain ⟨a, b⟩ := p
    simp only [agreeing, List.map_cons, List.count_cons, List.length_cons, List.filter_cons] at ih ⊢
    by_cases hab : a = b
    · subst hab
      simp only [decide_true, if_true, List.map_cons, List.count_cons]
      split <;> omega
    · simp only [hab, decide_false, Bool.false_eq_true, if_false]
      by_cases ha : a = label
      · have hb : b ≠ label := fun hb => hab (ha.trans hb.symm)
        simp only [ha, beq_self_eq_true, if_true, beq_iff_eq, hb, if_false]
        omega
      · simp only [beq_iff_eq, ha, if_false]
        split <;> omega

theorem count_agreeing_le (label : α) (pairs : List (α × α)) :
    ((agreeing pairs).map Prod.fst).count label ≤ (pairs.map Prod.fst).count label ∧
      ((agreeing pairs).map Prod.fst).count label ≤ (pairs.map Prod.snd).count label := by
  have hsub : (agreeing pairs).Sublist pairs := List.filter_sublist
  have hsides : (agreeing pairs).map Prod.fst = (agreeing pairs).map Prod.snd :=
    List.map_congr_left (fun p hp => of_decide_eq_true (List.mem_filter.1 hp).2)
  exact ⟨(hsub.map Prod.fst).count_le label, hsides ▸ (hsub.map Prod.snd).count_le label⟩

/-- Of one label: chance agreement is bounded by the frequencies and the agreement there is. -/
theorem mul_le_of_shares {x y z : ℚ} (hx : 0 ≤ x) (hy : 0 ≤ y) (hz : 0 ≤ z) (hx1 : x ≤ 1) (hy1 : y ≤ 1)
    (hsum : x + y ≤ 1 + z) : x * y ≤ (x + y) / 4 + z / 2 := by
  have hsquare : x * y ≤ (x + y) * (x + y) / 4 := by nlinarith [mul_self_nonneg (x - y)]
  by_cases hle : x + y ≤ 1
  · have hshort : (x + y) * (x + y) ≤ x + y := by nlinarith
    linarith
  · have hlong : 0 ≤ (x + y - 1) * (2 - (x + y)) := mul_nonneg (by linarith) (by linarith)
    nlinarith

theorem share_map {β : Type} (side : β → α) (units : List β) (n : Nat) (label : α) :
    share (units.map side) n label = (units.countP (fun u => decide (side u = label)) : ℚ) / n := by
  rw [share, List.count, List.countP_map]
  congr 3

theorem share_mono {ls ls' : List α} {n : Nat} {label : α} (h : ls.count label ≤ ls'.count label) :
    share ls n label ≤ share ls' n label := by
  unfold share
  gcongr

/-! ## Bounds -/

theorem length_pos {β : Type} {l : List β} (hne : l ≠ []) : (0 : ℚ) < l.length := by
  exact_mod_cast List.length_pos_of_ne_nil hne

theorem share_le_one (hne : pairs ≠ []) {ls : List α} (h : ls.length = pairs.length) (label : α) :
    share ls pairs.length label ≤ 1 := by
  have hpos := length_pos hne
  rw [share, div_le_one hpos]
  exact_mod_cast h ▸ List.count_le_length

theorem sum_fst (hne : pairs ≠ []) : ∑ label ∈ labels pairs, share (pairs.map Prod.fst) pairs.length label = 1 := by
  rw [sum_share (fun label h => mem_labels.2 (.inl h)), List.length_map, div_self (length_pos hne).ne']

theorem sum_snd (hne : pairs ≠ []) : ∑ label ∈ labels pairs, share (pairs.map Prod.snd) pairs.length label = 1 := by
  rw [sum_share (fun label h => mem_labels.2 (.inr h)), List.length_map, div_self (length_pos hne).ne']

theorem sum_together (pairs : List (α × α)) : ∑ label ∈ labels pairs, together pairs label = observed pairs := by
  have hmem : ∀ label ∈ (agreeing pairs).map Prod.fst, label ∈ labels pairs := fun label h =>
    mem_labels.2 (.inl ((List.filter_sublist.map Prod.fst).subset h))
  simp only [together, sum_share hmem, List.length_map, observed]

theorem shares_le (hne : pairs ≠ []) (label : α) : share (pairs.map Prod.fst) pairs.length label +
    share (pairs.map Prod.snd) pairs.length label ≤ 1 + together pairs label := by
  have hpos := length_pos hne
  have hcounts : ((pairs.map Prod.fst).count label : ℚ) + (pairs.map Prod.snd).count label ≤
      pairs.length + ((agreeing pairs).map Prod.fst).count label := by exact_mod_cast counts_le label pairs
  rw [together, share, share, share, ← add_div, div_le_iff₀ hpos, add_mul, div_mul_cancel₀ _ hpos.ne']
  linarith

/-- **Chance agreement is at most half of certainty and observed agreement together.** -/
theorem expected_le (hne : pairs ≠ []) : expected pairs ≤ (1 + observed pairs) / 2 := by
  calc expected pairs
      ≤ ∑ label ∈ labels pairs, ((share (pairs.map Prod.fst) pairs.length label +
          share (pairs.map Prod.snd) pairs.length label) / 4 + together pairs label / 2) := by
        refine Finset.sum_le_sum (fun label _ => ?_)
        exact mul_le_of_shares (share_nonneg _ _ _) (share_nonneg _ _ _) (share_nonneg _ _ _)
          (share_le_one hne (List.length_map _) label) (share_le_one hne (List.length_map _) label) (shares_le hne label)
    _ = (1 + observed pairs) / 2 := by
        rw [Finset.sum_add_distrib, ← Finset.sum_div, ← Finset.sum_div, Finset.sum_add_distrib, sum_fst hne, sum_snd hne,
          sum_together]
        linarith

theorem expected_le_one (hne : pairs ≠ []) : expected pairs ≤ 1 := by
  rw [← sum_fst hne]
  refine Finset.sum_le_sum (fun label _ => ?_)
  exact mul_le_of_le_one_right (share_nonneg _ _ _) (share_le_one hne (List.length_map _) label)

theorem observed_le_one (hne : pairs ≠ []) : observed pairs ≤ 1 := by
  rw [observed, div_le_one (length_pos hne)]
  exact_mod_cast List.length_filter_le _ _

theorem observed_eq_one_iff (hne : pairs ≠ []) : observed pairs = 1 ↔ (agreeing pairs).length = pairs.length := by
  rw [observed, div_eq_one_iff_eq (length_pos hne).ne']
  exact Nat.cast_inj

/-- **A kappa lies between -1 and 1, and is 1 exactly when the raters agree on every unit.** -/
theorem kappa_bounds {k : ℚ} (h : kappa pairs = some k) :
    -1 ≤ k ∧ k ≤ 1 ∧ (k = 1 ↔ (agreeing pairs).length = pairs.length) := by
  unfold kappa at h
  split at h
  · cases h
  rename_i hne
  split at h
  · cases h
  rename_i hcertain
  obtain rfl := Option.some.inj h
  have hpos : 0 < 1 - expected pairs := sub_pos.2 (lt_of_le_of_ne (expected_le_one hne) hcertain)
  have hhalf := expected_le hne
  have hone := observed_le_one hne
  refine ⟨?_, ?_, ?_⟩
  · rw [le_div_iff₀ hpos]
    linarith
  · rw [div_le_one hpos]
    linarith
  · rw [div_eq_one_iff_eq hpos.ne', ← observed_eq_one_iff hne]
    exact sub_left_inj

theorem share_pos (hne : pairs ≠ []) {label : α} (h : label ∈ pairs.map Prod.fst) :
    0 < share (pairs.map Prod.fst) pairs.length label :=
  div_pos (by exact_mod_cast List.count_pos_iff.2 h) (length_pos hne)

theorem eq_of_share_eq_one (hne : pairs ≠ []) {label : α} (h : share (pairs.map Prod.snd) pairs.length label = 1) :
    ∀ p ∈ pairs, p.2 = label := by
  have hcount : (pairs.map Prod.snd).count label = pairs.length := by
    rw [share, div_eq_one_iff_eq (length_pos hne).ne'] at h
    exact_mod_cast h
  have hall := List.count_eq_length.1 (hcount.trans (List.length_map Prod.snd).symm)
  exact fun p hp => (hall p.2 (List.mem_map_of_mem hp)).symm

/-- Chance agreement is certain exactly when both raters give one label to all units. -/
theorem expected_eq_one_iff (hne : pairs ≠ []) : expected pairs = 1 ↔ ∃ label, ∀ p ∈ pairs, p = (label, label) := by
  constructor
  · intro h
    let x := share (pairs.map Prod.fst) pairs.length
    let y := share (pairs.map Prod.snd) pairs.length
    have hzero : ∑ label ∈ labels pairs, x label * (1 - y label) = 0 := by
      simp only [mul_sub, mul_one, Finset.sum_sub_distrib]
      exact sub_eq_zero.2 ((sum_fst hne).trans h.symm)
    have hnonneg : ∀ label ∈ labels pairs, 0 ≤ x label * (1 - y label) := fun label _ =>
      mul_nonneg (share_nonneg _ _ _) (sub_nonneg.2 (share_le_one hne (List.length_map _) label))
    have hall := (Finset.sum_eq_zero_iff_of_nonneg hnonneg).1 hzero
    have hsecond : ∀ p ∈ pairs, ∀ q ∈ pairs, q.2 = p.1 := fun p hp => by
      have hmem : p.1 ∈ pairs.map Prod.fst := List.mem_map_of_mem hp
      have hy := (mul_eq_zero.1 (hall p.1 (mem_labels.2 (.inl hmem)))).resolve_left (share_pos hne hmem).ne'
      exact eq_of_share_eq_one hne (sub_eq_zero.1 hy).symm
    obtain ⟨first, rest, rfl⟩ := List.exists_cons_of_ne_nil hne
    refine ⟨first.2, fun p hp => Prod.ext ?_ ?_⟩
    · exact (hsecond p hp first List.mem_cons_self).symm
    · exact (hsecond first List.mem_cons_self p hp).trans (hsecond first List.mem_cons_self first List.mem_cons_self).symm
  · rintro ⟨label, h⟩
    have hshare : ∀ side : α × α → α, side (label, label) = label →
        share (pairs.map side) pairs.length label = 1 := fun side hside => by
      have hcount : (pairs.map side).count label = pairs.length := by
        rw [← List.length_map side]
        refine List.count_eq_length.2 (fun a ha => ?_)
        obtain ⟨p, hp, rfl⟩ := List.mem_map.1 ha
        rw [h p hp, hside]
      rw [share, hcount, div_self (length_pos hne).ne']
    have hmem : label ∈ labels pairs := by
      obtain ⟨first, rest, rfl⟩ := List.exists_cons_of_ne_nil hne
      exact mem_labels.2 (.inl (by rw [List.map_cons, h first List.mem_cons_self]; exact List.mem_cons_self))
    refine le_antisymm (expected_le_one hne) ?_
    have hterm : ∀ a ∈ labels pairs, 0 ≤ share (pairs.map Prod.fst) pairs.length a *
        share (pairs.map Prod.snd) pairs.length a := fun a _ => mul_nonneg (share_nonneg _ _ _) (share_nonneg _ _ _)
    have hsingle := Finset.single_le_sum hterm hmem
    rwa [hshare Prod.fst rfl, hshare Prod.snd rfl, one_mul] at hsingle

/-- **There is no kappa exactly when there are no units, or one label was given to all of them by both.** -/
theorem kappa_eq_none_iff (pairs : List (α × α)) :
    kappa pairs = none ↔ pairs = [] ∨ ∃ label, ∀ p ∈ pairs, p = (label, label) := by
  unfold kappa
  split
  · rename_i hnil
    simp [hnil]
  · rename_i hne
    rw [← expected_eq_one_iff hne]
    split
    · rename_i h
      simp [h]
    · rename_i h
      simp [h, hne]

end Kappa
