import Mathlib.Data.Fintype.Card
import Mathlib.Data.List.Perm.Basic
import Mathlib.Logic.Relation
import Mathlib.Order.WellFounded
import Mathlib.Data.Set.Finite.Basic
/-!
# DependencyOrder — an order taken in rounds

Some items refer to others.  An order is taken in rounds: a round takes items that refer to nothing left, and anything
only where every item left refers to one that is left (`Taken`).  Each round takes something, so the order holds each
item once; and where no item refers to itself through others, each item comes after those it refers to.
-/
namespace DependencyOrder

variable {α : Type} {refers : α → α → Prop}

/-- No item refers to itself, directly or through others. -/
def Acyclic (refers : α → α → Prop) : Prop := ∀ a, ¬ Relation.TransGen refers a a

/-- The item refers to nothing that is left. -/
def Ready (refers : α → α → Prop) (left : List α) (a : α) : Prop := ∀ b ∈ left, ¬ refers a b

/-- Each item of the order comes after the items of the list to which it refers. -/
def Sorted (refers : α → α → Prop) (all order : List α) : Prop :=
  ∀ before a after, order = before ++ a :: after → ∀ b ∈ all, refers a b → b ∈ before

/-- The order in which rounds take what is left. -/
inductive Taken (refers : α → α → Prop) : List α → List α → Prop
  | nil : Taken refers [] []
  | round {left next rest order : List α} (hsplit : left.Perm (next ++ rest))
      (hready : (∃ a ∈ left, Ready refers left a) → ∀ a ∈ next, Ready refers left a) (h : Taken refers rest order) :
      Taken refers left (next ++ order)

theorem Taken.perm {left order : List α} (h : Taken refers left order) : order.Perm left := by
  induction h with
  | nil => exact .refl _
  | round hsplit _ _ ih => exact (ih.append_left _).trans hsplit.symm

/-- **Where no item refers to itself through others**, some item refers to nothing left. -/
theorem Acyclic.exists_ready (hacyclic : Acyclic refers) {left : List α} (hne : left ≠ []) :
    ∃ a ∈ left, Ready refers left a := by
  classical
  -- the items left are finitely many, so following references ends
  let below (a b : { a // a ∈ left }) : Prop := Relation.TransGen refers b.1 a.1
  have htrans : IsTrans _ below := ⟨fun a b c hab hbc => Relation.TransGen.trans hbc hab⟩
  have hirrefl : Std.Irrefl below := ⟨fun a haa => hacyclic a.1 haa⟩
  have hfinite : Finite { a // a ∈ left } := List.finite_toSet left
  have hwf : WellFounded below := Finite.wellFounded_of_trans_of_irrefl below
  obtain ⟨a, ha⟩ := List.exists_mem_of_ne_nil left hne
  obtain ⟨least, -, hleast⟩ := hwf.has_min Set.univ ⟨⟨a, ha⟩, trivial⟩
  exact ⟨least.1, least.2, fun b hb hrefers => hleast ⟨b, hb⟩ trivial (.single hrefers)⟩

/-- The items of a round are ready, and what follows is in order. -/
theorem Sorted.append {left next rest order : List α} (hsplit : left.Perm (next ++ rest))
    (hready : ∀ a ∈ next, Ready refers left a) (hsorted : Sorted refers rest order) :
    Sorted refers left (next ++ order) := by
  intro before a after heq b hb hrefers
  rcases List.append_eq_append_iff.1 heq with ⟨before', rfl, horder⟩ | ⟨after', hnext, -⟩
  · rcases List.mem_append.1 (hsplit.mem_iff.1 hb) with hb | hb
    · exact List.mem_append_left _ hb
    · exact List.mem_append_right _ (hsorted before' a after horder b hb hrefers)
  · cases after' with
    | nil =>
      rw [List.append_nil] at hnext
      subst hnext
      rcases List.mem_append.1 (hsplit.mem_iff.1 hb) with hb' | hb'
      · exact hb'
      · rw [List.append_cancel_left_eq] at heq
        exact absurd (hsorted [] a after heq b hb' hrefers) (by simp)
    | cons c after' =>
      subst hnext
      rw [List.append_assoc, List.append_cancel_left_eq, List.cons_append, List.cons.injEq] at heq
      exact absurd hrefers (heq.1 ▸ hready c (by simp) b hb)

/-- **Each item comes after those it refers to**, where no item refers to itself through others. -/
theorem Taken.sorted (hacyclic : Acyclic refers) {left order : List α} (h : Taken refers left order) :
    Sorted refers left order := by
  induction h with
  | nil => intro before a after heq; simp at heq
  | @round left next rest order hsplit hready _ ih =>
    refine .append hsplit (fun a ha => ?_) ih
    have hne : left ≠ [] := fun hnil => by
      rw [hnil] at hsplit
      exact absurd ha (by simp [(List.append_eq_nil_iff.1 (List.nil_perm.1 hsplit)).1])
    exact hready (hacyclic.exists_ready hne) a ha

end DependencyOrder
