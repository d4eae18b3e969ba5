import Mathlib.Data.List.Basic
import Mathlib.Algebra.Order.Group.Nat
import Mathlib.Algebra.GroupWithZero.Nat
/-!
# Pieces — lists cut into pieces of one size

`cut size l` takes `size` items at a time off the front of `l` until nothing is left, as a reader of blocks does.  All
pieces but the last are full; their sizes depend on the length alone (`pieces`) and determine it.
-/

def piecesFrom (size : Nat) : Nat → Nat → List Nat
  | 0, _ => []
  | fuel + 1, total => if size = 0 ∨ total = 0 then [] else min size total :: piecesFrom size fuel (total - size)

attribute [grind =] piecesFrom

/-- The sizes of the pieces of `total` items, `size` at a time. -/
def pieces (size total : Nat) : List Nat := piecesFrom size total total

def cutFrom {α : Type} (size : Nat) : Nat → List α → List (List α)
  | 0, _ => []
  | fuel + 1, l => if size = 0 ∨ l.isEmpty then [] else l.take size :: cutFrom size fuel (l.drop size)

attribute [grind =] cutFrom

/-- The pieces of a list. -/
def cut {α : Type} (size : Nat) (l : List α) : List (List α) := cutFrom size l.length l

theorem piecesFrom_enough {size : Nat} (hsize : 0 < size) : ∀ {fuel total : Nat}, total ≤ fuel →
    piecesFrom size fuel total = pieces size total := by
  suffices h : ∀ fuel fuel' total : Nat, total ≤ fuel → total ≤ fuel' → piecesFrom size fuel total = piecesFrom size fuel' total from
    fun {_ _} hfuel => h _ _ _ hfuel (Nat.le_refl _)
  intro fuel
  induction fuel with
  | zero =>
    intro fuel' total hfuel _
    obtain rfl : total = 0 := by omega
    cases fuel' with
    | zero => rfl
    | succ fuel' => rw [piecesFrom, piecesFrom, if_pos (Or.inr rfl)]
  | succ fuel ih =>
    intro fuel' total hfuel hfuel'
    cases fuel' with
    | zero =>
      obtain rfl : total = 0 := by omega
      rw [piecesFrom, piecesFrom, if_pos (Or.inr rfl)]
    | succ fuel' =>
      rw [piecesFrom, piecesFrom]
      split
      · rfl
      · rw [ih fuel' (total - size) (by omega) (by omega)]

theorem cutFrom_enough {α : Type} {size : Nat} (hsize : 0 < size) : ∀ {fuel : Nat} {l : List α}, l.length ≤ fuel →
    cutFrom size fuel l = cut size l := by
  suffices h : ∀ (fuel fuel' : Nat) (l : List α), l.length ≤ fuel → l.length ≤ fuel' →
      cutFrom size fuel l = cutFrom size fuel' l from fun {_ _} hfuel => h _ _ _ hfuel (Nat.le_refl _)
  intro fuel
  induction fuel with
  | zero =>
    intro fuel' l hfuel _
    obtain rfl : l = [] := List.eq_nil_of_length_eq_zero (by omega)
    cases fuel' with
    | zero => rfl
    | succ fuel' => rw [cutFrom, cutFrom, if_pos (Or.inr List.isEmpty_nil)]
  | succ fuel ih =>
    intro fuel' l hfuel hfuel'
    cases fuel' with
    | zero =>
      obtain rfl : l = [] := List.eq_nil_of_length_eq_zero (by omega)
      rw [cutFrom, cutFrom, if_pos (Or.inr List.isEmpty_nil)]
    | succ fuel' =>
      rw [cutFrom, cutFrom]
      split
      · rfl
      · rw [ih fuel' (l.drop size) (by rw [List.length_drop]; omega) (by rw [List.length_drop]; omega)]

theorem pieces_zero (size : Nat) : pieces size 0 = [] := rfl

theorem pieces_zero_size (total : Nat) : pieces 0 total = [] := by
  cases total with
  | zero => rfl
  | succ total => rw [pieces, piecesFrom, if_pos (Or.inl rfl)]

theorem pieces_pos {size total : Nat} (hsize : 0 < size) (htotal : 0 < total) :
    pieces size total = min size total :: pieces size (total - size) := by
  obtain ⟨fuel, rfl⟩ := Nat.exists_eq_succ_of_ne_zero (Nat.ne_of_gt htotal)
  rw [pieces, piecesFrom, if_neg (by omega), piecesFrom_enough hsize (by omega)]

theorem cut_nil {α : Type} (size : Nat) : cut size ([] : List α) = [] := rfl

theorem cut_pos {α : Type} {size : Nat} {l : List α} (hsize : 0 < size) (hl : l ≠ []) :
    cut size l = l.take size :: cut size (l.drop size) := by
  obtain ⟨a, rest, rfl⟩ := List.exists_cons_of_ne_nil hl
  have hneither : ¬ (size = 0 ∨ (a :: rest).isEmpty = true) := by
    rw [List.isEmpty_cons, not_or]
    exact ⟨Nat.ne_of_gt hsize, Bool.false_ne_true⟩
  rw [cut, List.length_cons, cutFrom, if_neg hneither, cutFrom_enough hsize]
  rw [List.length_drop, List.length_cons]
  omega

/-- To read to the end block by block: what the first block does, and what the rest does. -/
theorem cut_induction {α : Type} {size : Nat} (hsize : 0 < size) {P : List α → Prop} (nil : P [])
    (step : ∀ l, l ≠ [] → P (l.drop size) → P l) (l : List α) : P l := by
  induction hn : l.length using Nat.strong_induction_on generalizing l with
  | _ n ih =>
    by_cases hl : l = []
    · rw [hl]
      exact nil
    · have hpos : 0 < l.length := List.length_pos_iff.2 hl
      refine step l hl (ih (l.drop size).length ?_ (l.drop size) rfl)
      rw [List.length_drop]
      omega

theorem lengths_cut {α : Type} {size : Nat} (hsize : 0 < size) (l : List α) :
    (cut size l).map List.length = pieces size l.length := by
  induction l using cut_induction hsize with
  | nil =>
    rw [cut_nil, List.length_nil, pieces_zero]
    rfl
  | step l hl ih =>
    rw [cut_pos hsize hl, List.map_cons, ih, pieces_pos hsize (List.length_pos_iff.2 hl), List.length_take, List.length_drop]

/-- The pieces in their order are the list. -/
theorem flatten_cut {α : Type} {size : Nat} (hsize : 0 < size) (l : List α) : (cut size l).flatten = l := by
  induction l using cut_induction hsize with
  | nil =>
    rw [cut_nil]
    rfl
  | step l hl ih => rw [cut_pos hsize hl, List.flatten_cons, ih, List.take_append_drop]

theorem sum_pieces {size : Nat} (hsize : 0 < size) (total : Nat) : (pieces size total).sum = total := by
  induction total using Nat.strong_induction_on with
  | _ total ih =>
    rcases Nat.eq_zero_or_pos total with rfl | htotal
    · rw [pieces_zero]
      rfl
    · rw [pieces_pos hsize htotal, List.sum_cons, ih _ (by omega)]
      omega

/-- Full pieces and a last one that is not empty. -/
theorem eq_pieces {size : Nat} : ∀ {sizes : List Nat}, (∀ i n : Nat, sizes[i]? = some n → 1 ≤ n ∧ n ≤ size) →
    (∀ i n : Nat, sizes[i]? = some n → i + 1 < sizes.length → n = size) → sizes = pieces size sizes.sum := by
  intro sizes
  induction sizes with
  | nil =>
    intro _ _
    rw [List.sum_nil, pieces_zero]
  | cons n sizes ih =>
    intro hbound hfull
    obtain ⟨hpos, hle⟩ := hbound 0 n rfl
    have hrest := ih (fun i m hm => hbound (i + 1) m hm)
      (fun i m hm hi => hfull (i + 1) m hm (by rw [List.length_cons]; omega))
    rw [List.sum_cons, pieces_pos (by omega) (by omega)]
    cases sizes with
    | nil =>
      rw [List.sum_nil, Nat.add_zero, Nat.min_eq_right hle, Nat.sub_eq_zero_of_le hle, pieces_zero]
    | cons m sizes =>
      have hn : n = size := hfull 0 n rfl (by rw [List.length_cons, List.length_cons]; omega)
      rw [hn, Nat.add_sub_cancel_left, ← hrest, Nat.min_eq_left (by omega)]

theorem mem_pieces {size total n : Nat} (h : n ∈ pieces size total) : 1 ≤ n ∧ n ≤ size := by
  induction total using Nat.strong_induction_on with
  | _ total ih =>
    rcases Nat.eq_zero_or_pos size with rfl | hsize
    · rw [pieces_zero_size] at h
      cases h
    rcases Nat.eq_zero_or_pos total with rfl | htotal
    · rw [pieces_zero] at h
      cases h
    · rw [pieces_pos hsize htotal, List.mem_cons] at h
      rcases h with rfl | h
      · omega
      · exact ih _ (by omega) h

/-- Every piece that another follows is full. -/
theorem getElem?_pieces {size total : Nat} : ∀ {i n : Nat}, (pieces size total)[i]? = some n →
    i + 1 < (pieces size total).length → n = size := by
  induction total using Nat.strong_induction_on with
  | _ total ih =>
    intro i n h hlast
    rcases Nat.eq_zero_or_pos size with rfl | hsize
    · rw [pieces_zero_size] at h
      cases h
    rcases Nat.eq_zero_or_pos total with rfl | htotal
    · rw [pieces_zero] at h
      cases h
    · rw [pieces_pos hsize htotal] at h hlast
      cases i with
      | zero =>
        have hmore : 0 < (pieces size (total - size)).length := by
          rw [List.length_cons] at hlast
          omega
        rcases Nat.lt_or_ge size total with hlt | hge
        · cases h
          omega
        · rw [Nat.sub_eq_zero_of_le hge, pieces_zero] at hmore
          exact absurd hmore (Nat.lt_irrefl 0)
      | succ i =>
        rw [List.length_cons] at hlast
        exact ih _ (by omega) h (by omega)

/-- The largest piece cuts the list again into the same pieces. -/
theorem cut_max {α : Type} {size : Nat} (hsize : 0 < size) {l : List α} {largest : Nat}
    (hmax : largest ∈ (cut size l).map List.length) (hle : ∀ n ∈ (cut size l).map List.length, n ≤ largest) :
    cut largest l = cut size l := by
  have hl : l ≠ [] := fun hnil => by
    rw [hnil, cut_nil] at hmax
    cases hmax
  have hpos : 0 < l.length := List.length_pos_iff.2 hl
  rw [lengths_cut hsize, pieces_pos hsize hpos] at hmax hle
  rcases Nat.lt_or_ge l.length size with hlt | hge
  · rw [Nat.min_eq_right (by omega), Nat.sub_eq_zero_of_le (by omega), pieces_zero, List.mem_singleton] at hmax
    rw [hmax, cut_pos hpos hl, cut_pos hsize hl, List.take_of_length_le (Nat.le_refl _), List.take_of_length_le (by omega),
      List.drop_of_length_le (Nat.le_refl _), List.drop_of_length_le (by omega), cut_nil, cut_nil]
  · have hlarge : size ≤ largest := by
      have h := hle (min size l.length) List.mem_cons_self
      rwa [Nat.min_eq_left hge] at h
    have hsmall : largest ≤ size := by
      rw [← pieces_pos hsize hpos] at hmax
      exact (mem_pieces hmax).2
    rw [Nat.le_antisymm hsmall hlarge]
