import AdgLang.JsUtf8
import Mathlib.Data.List.Forall2
import Mathlib.Data.List.TakeWhile
/-!
# JsCapture — what the groups of an anchored expression capture

An expression between `^` and `$` whose parts stand in a row, each a set or a run of a set: the parts take their texts in
the order in which the matcher tries them, a greedy run the longest first and a lazy one the shortest.  `capture_spec`
says that the texts taken make up the whole; `capture_greedy` and `capture_lazy_last` say which match comes first.
-/
namespace Js

inductive Piece
  /-- One unit of a set. -/
  | one (set : UInt16 → Bool)
  /-- `min` units of a set at least, as many as there are. -/
  | greedy (set : UInt16 → Bool) (min : Nat)
  /-- `min` units of a set at least, as few as will do. -/
  | lazy (set : UInt16 → Bool) (min : Nat)

namespace Piece

def set : Piece → UInt16 → Bool
  | .one p | .greedy p _ | .lazy p _ => p

/-- The lengths that the piece tries at the head of a text, in order. -/
def tries (s : Str) : Piece → List Nat
  | .one p => if s.head?.any p then [1] else []
  | .greedy p min => ((List.range ((s.takeWhile p).length + 1)).drop min).reverse
  | .lazy p min => (List.range ((s.takeWhile p).length + 1)).drop min

/-- What each piece takes of the whole text in the first match. -/
def capture : List Piece → Str → Option (List Str)
  | [], s => if s = [] then some [] else none
  | a :: as, s => (a.tries s).findSome? (fun n => (capture as (s.drop n)).map (fun ws => s.take n :: ws))

attribute [grind =] capture

theorem units_of_tries {a : Piece} {s : Str} {n : Nat} (h : n ∈ a.tries s) : ∀ u ∈ s.take n, a.set u = true := by
  have hwhile : ∀ p : UInt16 → Bool, n ≤ (s.takeWhile p).length → ∀ u ∈ s.take n, p u = true := by
    intro p hn u hu
    have htake : s.take n = (s.takeWhile p).take n := by
      conv_lhs => rw [← List.takeWhile_append_dropWhile (p := p) (l := s)]
      rw [List.take_append_of_le_length hn]
    rw [htake] at hu
    exact List.mem_takeWhile_imp (List.mem_of_mem_take hu)
  cases a with
  | one p =>
    rw [tries] at h
    split at h
    · rename_i hp
      obtain rfl := List.mem_singleton.1 h
      cases s with
      | nil => cases hp
      | cons v rest =>
        intro u hu
        rw [List.take_succ_cons, List.take_zero, List.mem_singleton] at hu
        rw [hu]
        exact (by simpa using hp : p v = true)
    · cases h
  | greedy p min =>
    rw [tries, List.mem_reverse] at h
    exact hwhile p (by have := List.mem_range.1 (List.mem_of_mem_drop h); omega)
  | lazy p min =>
    rw [tries] at h
    exact hwhile p (by have := List.mem_range.1 (List.mem_of_mem_drop h); omega)

/-- **The texts taken make up the whole, each of units of its piece.** -/
theorem capture_spec : ∀ {as : List Piece} {s : Str} {ws : List Str}, capture as s = some ws →
    ws.flatten = s ∧ List.Forall₂ (fun a w => ∀ u ∈ w, a.set u = true) as ws
  | [], s, ws, h => by
    rw [capture] at h
    split at h
    · rename_i hs
      obtain rfl := Option.some.inj h
      exact ⟨hs.symm, .nil⟩
    · cases h
  | a :: as, s, ws, h => by
    rw [capture] at h
    obtain ⟨n, hn, hrest⟩ := List.exists_of_findSome?_eq_some h
    obtain ⟨vs, hvs, rfl⟩ := Option.map_eq_some_iff.1 hrest
    obtain ⟨hflat, hsets⟩ := capture_spec hvs
    exact ⟨by rw [List.flatten_cons, hflat, List.take_append_drop], .cons (units_of_tries hn) hsets⟩

theorem flatten_of_forall₂ {P : UInt16 → Prop} {as : List Piece} {ws : List Str}
    (h : List.Forall₂ (fun a w => ∀ u ∈ w, a.set u = true) as ws) (hP : ∀ a ∈ as, ∀ u, a.set u = true → P u) :
    ∀ u ∈ ws.flatten, P u := by
  induction h with
  | nil => nofun
  | cons hw _ ih =>
    intro u hu
    rw [List.flatten_cons, List.mem_append] at hu
    rcases hu with hu | hu
    · exact hP _ (by simp) u (hw u hu)
    · exact ih (fun a ha => hP a (List.mem_cons_of_mem _ ha)) u hu

/-- What stands around the text of one piece is of units of the other pieces. -/
theorem capture_around {P : UInt16 → Prop} {as : List Piece} {s w : Str} {ws : List Str} {i : Nat}
    (h : capture as s = some ws) (hw : ws[i]? = some w)
    (hP : ∀ a ∈ as.take i ++ as.drop (i + 1), ∀ u, a.set u = true → P u) :
    ∃ a b, s = a ++ w ++ b ∧ (∀ u ∈ a, P u) ∧ ∀ u ∈ b, P u := by
  obtain ⟨hflat, hsets⟩ := capture_spec h
  obtain ⟨hi, rfl⟩ := List.getElem?_eq_some_iff.1 hw
  refine ⟨(ws.take i).flatten, (ws.drop (i + 1)).flatten, ?_,
    flatten_of_forall₂ (List.forall₂_take i hsets) (fun a ha => hP a (List.mem_append_left _ ha)),
    flatten_of_forall₂ (List.forall₂_drop (i + 1) hsets) (fun a ha => hP a (List.mem_append_right _ ha))⟩
  rw [← hflat]
  conv_lhs => rw [← List.take_append_drop i ws, List.drop_eq_getElem_cons hi]
  rw [List.flatten_append, List.flatten_cons, List.append_assoc]

/-! ## Which match comes first -/

variable {as : List Piece} {p : UInt16 → Bool} {k : Nat} {w s : Str}

/-- One unit has no choice. -/
theorem capture_one {u : UInt16} (hu : p u = true) :
    capture (.one p :: as) (u :: s) = (capture as s).map (fun ws => [u] :: ws) := by
  rw [capture, tries, if_pos (by simpa using hu), List.findSome?_cons]
  cases h : capture as s with
  | none => simp [h]
  | some ws => simp [h]

/-- The run of a set ends where the set does. -/
theorem takeWhile_run (hw : ∀ u ∈ w, p u = true) (hs : ∀ u, s.head? = some u → p u = false) :
    (w ++ s).takeWhile p = w := by
  rw [List.takeWhile_append_of_pos hw]
  cases s with
  | nil => rw [List.takeWhile_nil, List.append_nil]
  | cons u rest => rw [List.takeWhile_cons_of_neg (by rw [hs u rfl]; nofun), List.append_nil]

/-- A greedy run takes all there is where the rest then matches. -/
theorem capture_greedy {ws : List Str} (hw : ∀ u ∈ w, p u = true) (hs : ∀ u, s.head? = some u → p u = false)
    (hmin : k ≤ w.length) (h : capture as s = some ws) :
    capture (.greedy p k :: as) (w ++ s) = some (w :: ws) := by
  rw [capture, tries, takeWhile_run hw hs]
  have htries : ((List.range (w.length + 1)).drop k).reverse =
      w.length :: ((List.range w.length).drop k).reverse := by
    rw [List.range_succ, List.drop_append_of_le_length (by rw [List.length_range]; exact hmin), List.reverse_append]
    rfl
  rw [htries, List.findSome?_cons, List.drop_left, h, Option.map_some, List.take_left]

/-- Runs of a set to the end are all that a greedy run before the end matches. -/
theorem capture_greedy_last (hs : ∀ u ∈ s, p u = true) : capture [.greedy p 0] s = some [s] := by
  have h : capture [.greedy p 0] (s ++ []) = some [s] := capture_greedy hs nofun (Nat.zero_le _) rfl
  rwa [List.append_nil] at h

theorem capture_greedy_none {u : UInt16} (hu : u ∈ s) (hp : p u = false) : capture [.greedy p 0] s = none := by
  cases h : capture [.greedy p 0] s with
  | none => rfl
  | some ws =>
    obtain ⟨hflat, hsets⟩ := capture_spec h
    obtain ⟨v, vs, hv, hvs, rfl⟩ := List.forall₂_cons_left_iff.1 hsets
    obtain rfl := List.forall₂_nil_left_iff.1 hvs
    rw [List.flatten_cons, List.flatten_nil, List.append_nil] at hflat
    subst hflat
    have := hv u hu
    rw [show (Piece.greedy p 0).set u = p u from rfl, hp] at this
    cases this

/-- **A lazy run before a greedy one to the end takes the text up to its last unit outside the other set.** -/
theorem capture_lazy_last {q : UInt16 → Bool} (hw : ∀ u ∈ w, p u = true) (hmin : k ≤ w.length)
    (hlast : ∀ u, w.getLast? = some u → q u = false) (hs : ∀ u ∈ s, q u = true) :
    capture [.lazy p k, .greedy q 0] (w ++ s) = some [w, s] := by
  rw [capture, tries]
  have hlong : w.length ≤ ((w ++ s).takeWhile p).length := by
    rw [List.takeWhile_append_of_pos hw, List.length_append]
    exact Nat.le_add_right _ _
  have hsplit : (List.range (((w ++ s).takeWhile p).length + 1)).drop k =
      (List.range w.length).drop k ++ w.length ::
        (List.range (((w ++ s).takeWhile p).length - w.length)).map (fun j => w.length + 1 + j) := by
    have hrange : List.range (((w ++ s).takeWhile p).length + 1) = List.range w.length ++
        w.length :: (List.range (((w ++ s).takeWhile p).length - w.length)).map (fun j => w.length + 1 + j) := by
      rw [show ((w ++ s).takeWhile p).length + 1 =
        w.length + 1 + (((w ++ s).takeWhile p).length - w.length) by omega, List.range_add, List.range_succ,
        List.append_assoc]
      rfl
    rw [hrange, List.drop_append_of_le_length (by rw [List.length_range]; exact hmin)]
  have hshort : ∀ n ∈ (List.range w.length).drop k,
      (capture [.greedy q 0] ((w ++ s).drop n)).map (fun ws => (w ++ s).take n :: ws) = none := by
    intro n hn
    have hlt : n < w.length := List.mem_range.1 (List.mem_of_mem_drop hn)
    have hne : w ≠ [] := by rintro rfl; exact absurd hlt (Nat.not_lt_zero n)
    rw [List.drop_append_of_le_length (Nat.le_of_lt hlt), Option.map_eq_none_iff]
    refine capture_greedy_none (List.mem_append_left s (?_ : w.getLast hne ∈ w.drop n))
      (hlast _ (List.getLast?_eq_some_getLast hne))
    have hrest : w.drop n ≠ [] := by
      rw [Ne, List.drop_eq_nil_iff]
      omega
    rw [← List.getLast_drop hrest]
    exact List.getLast_mem hrest
  rw [hsplit, List.findSome?_append, List.findSome?_eq_none_iff.2 hshort, Option.none_or, List.findSome?_cons,
    List.drop_left, capture_greedy_last hs, Option.map_some, List.take_left]

end Piece

/-! ## Well-formed parts of a well-formed text -/

/-- Neither half of a surrogate pair. -/
def isWhole (u : UInt16) : Bool := !isLead u && !isTrail u

theorem wellFormedFrom_of_append {s t : Str} (ht : ∀ u ∈ t, isWhole u = true) :
    ∀ lead, wellFormedFrom lead (s ++ t) = true → wellFormedFrom lead s = true := by
  induction s with
  | nil =>
    intro lead h
    cases lead with
    | none => rfl
    | some l =>
      cases t with
      | nil => exact h
      | cons u rest =>
        have hu := ht u (by simp)
        rw [isWhole, Bool.and_eq_true, Bool.not_eq_true', Bool.not_eq_true'] at hu
        rw [List.nil_append, wellFormedFrom, hu.2] at h
        cases h
  | cons u s ih =>
    intro lead h
    cases lead with
    | none =>
      rw [List.cons_append, wellFormedFrom] at h
      rw [wellFormedFrom]
      split at h
      · rw [if_pos ‹_›]
        exact ih _ h
      · rw [Bool.and_eq_true] at h
        rw [if_neg ‹_›, h.1, ih _ h.2]
        rfl
    | some l =>
      rw [List.cons_append, wellFormedFrom, Bool.and_eq_true] at h
      rw [wellFormedFrom, h.1, ih _ h.2]
      rfl

theorem isWellFormed_whole_append {s t : Str} (hs : ∀ u ∈ s, isWhole u = true) :
    isWellFormed (s ++ t) = isWellFormed t := by
  induction s with
  | nil => rfl
  | cons u s ih =>
    have hu := hs u (by simp)
    rw [isWhole, Bool.and_eq_true, Bool.not_eq_true', Bool.not_eq_true'] at hu
    rw [List.cons_append, isWellFormed, wellFormedFrom, hu.1, hu.2]
    exact ih (fun v hv => hs v (by simp [hv]))

/-- **What stands between whole units in a well-formed text is well formed.** -/
theorem isWellFormed_between {s t r : Str} (hs : ∀ u ∈ s, isWhole u = true) (hr : ∀ u ∈ r, isWhole u = true)
    (h : isWellFormed (s ++ t ++ r) = true) : isWellFormed t = true := by
  rw [List.append_assoc, isWellFormed_whole_append hs] at h
  exact wellFormedFrom_of_append hr none h

end Js
