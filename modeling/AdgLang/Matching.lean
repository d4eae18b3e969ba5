import Mathlib.Data.List.Perm.Subperm
/-!
# Matching — two lists paired off by a relation

`Matched R l l'`: the second list, reordered, is related item by item to the first, so that every item of either list has
one partner in the other.  It is enough that every item has a related one, no two items share one and the lists are of one
length (`Matched.of_cover`).
-/

/-- The items of one list are paired with those of the other. -/
def Matched {α β : Type} (R : α → β → Prop) (l : List α) (l' : List β) : Prop :=
  Relation.Comp (List.Forall₂ R) List.Perm l l'

namespace Matched

variable {α β γ : Type} {R : α → β → Prop} {l : List α} {l' : List β}

theorem length_eq (h : Matched R l l') : l.length = l'.length := by
  obtain ⟨m, hm, hperm⟩ := h
  rw [hm.length_eq, hperm.length_eq]

theorem flip (h : Matched R l l') : Matched (fun b a => R a b) l' l := by
  obtain ⟨m, hm, hperm⟩ := h
  exact List.perm_comp_forall₂ hperm.symm hm.flip

theorem exists_right (h : Matched R l l') {a : α} (ha : a ∈ l) : ∃ b ∈ l', R a b := by
  obtain ⟨m, hm, hperm⟩ := h
  obtain ⟨i, hi, rfl⟩ := List.getElem_of_mem ha
  have hi' : i < m.length := hm.length_eq ▸ hi
  exact ⟨m[i], hperm.subset (List.getElem_mem hi'), hm.get hi hi'⟩

theorem exists_left (h : Matched R l l') {b : β} (hb : b ∈ l') : ∃ a ∈ l, R a b := h.flip.exists_right hb

theorem mono {S : α → β → Prop} (h : Matched R l l') (hRS : ∀ a ∈ l, ∀ b ∈ l', R a b → S a b) : Matched S l l' := by
  obtain ⟨m, hm, hperm⟩ := h
  refine ⟨m, ?_, hperm⟩
  have hmem : ∀ b ∈ m, b ∈ l' := fun b hb => hperm.subset hb
  clear hperm
  induction hm with
  | nil => exact .nil
  | @cons a b l m hab _ ih =>
    exact .cons (hRS a List.mem_cons_self b (hmem b List.mem_cons_self) hab)
      (ih (fun a ha b hb => hRS a (List.mem_cons_of_mem _ ha) b hb) (fun b hb => hmem b (List.mem_cons_of_mem _ hb)))

/-- Lists paired with one list are paired with each other. -/
theorem comp {S : β → γ → Prop} {l'' : List γ} (h : Matched R l l') (h' : Matched S l' l'') :
    Matched (fun a c => ∃ b, R a b ∧ S b c) l l'' := by
  obtain ⟨m, hm, hperm⟩ := h
  obtain ⟨n, hn, hnperm⟩ := h'
  obtain ⟨k, hk, hkperm⟩ := List.perm_comp_forall₂ hperm hn
  refine ⟨k, ?_, hkperm.trans hnperm⟩
  clear hperm hn hnperm hkperm
  induction hm generalizing k with
  | nil =>
    cases hk
    exact .nil
  | cons hab _ ih =>
    cases hk with
    | cons hbc hk => exact .cons ⟨_, hab, hbc⟩ (ih _ hk)

/-- **Lists of one length are paired off when every item has a related one that it shares with no other.** -/
theorem of_cover (hlength : l.length = l'.length) (hcover : ∀ a ∈ l, ∃ b ∈ l', R a b)
    (hapart : l.Pairwise (fun a a' => ∀ b ∈ l', R a b → ¬ R a' b)) : Matched R l l' := by
  have hchoice : ∃ m, List.Forall₂ R l m ∧ m ⊆ l' ∧ m.Nodup := by
    clear hlength
    induction l with
    | nil => exact ⟨[], .nil, List.nil_subset _, List.nodup_nil⟩
    | cons a l ih =>
      obtain ⟨hne, hapart⟩ := List.pairwise_cons.1 hapart
      obtain ⟨b, hb, hab⟩ := hcover a List.mem_cons_self
      obtain ⟨m, hm, hsub, hnodup⟩ := ih (fun a' ha' => hcover a' (List.mem_cons_of_mem _ ha')) hapart
      refine ⟨b :: m, .cons hab hm, List.cons_subset.2 ⟨hb, hsub⟩, List.nodup_cons.2 ⟨fun hmem => ?_, hnodup⟩⟩
      obtain ⟨i, hi, rfl⟩ := List.getElem_of_mem hmem
      have hi' : i < l.length := hm.length_eq ▸ hi
      exact hne l[i] (List.getElem_mem hi') _ hb hab (hm.get hi' hi)
  obtain ⟨m, hm, hsub, hnodup⟩ := hchoice
  refine ⟨m, hm, (hnodup.subperm hsub).perm_of_length_le ?_⟩
  exact Nat.le_of_eq (hlength.symm.trans hm.length_eq)

/-- What holds of any two items of one list holds of their partners. -/
theorem pairwise {S : α → α → Prop} {T : β → β → Prop} (h : Matched R l l') (hl : l.Pairwise S)
    (hST : ∀ a b a' b', R a b → R a' b' → S a a' → T b b') (hT : ∀ {b b'}, T b b' → T b' b) : l'.Pairwise T := by
  obtain ⟨m, hm, hperm⟩ := h
  refine (hperm.pairwise_iff hT).1 ?_
  clear hperm
  induction hm with
  | nil => exact .nil
  | @cons a b l m hab hm ih =>
    obtain ⟨ha, hl⟩ := List.pairwise_cons.1 hl
    refine List.pairwise_cons.2 ⟨fun b' hb' => ?_, ih hl⟩
    obtain ⟨i, hi, rfl⟩ := List.getElem_of_mem hb'
    have hi' : i < l.length := hm.length_eq ▸ hi
    exact hST a b l[i] _ hab (hm.get hi' hi) (ha _ (List.getElem_mem hi'))

theorem append {m : List α} {m' : List β} (h : Matched R l l') (h' : Matched R m m') : Matched R (l ++ m) (l' ++ m') := by
  obtain ⟨n, hn, hperm⟩ := h
  obtain ⟨k, hk, hperm'⟩ := h'
  exact ⟨n ++ k, List.rel_append hn hk, hperm.append hperm'⟩

/-- Lists of paired items, the items of each pair matched, are matched item by item. -/
theorem flatMap {α' β' : Type} {S : α' → β' → Prop} {f : α → List α'} {g : β → List β'} (h : Matched R l l')
    (hRS : ∀ a b, R a b → Matched S (f a) (g b)) : Matched S (l.flatMap f) (l'.flatMap g) := by
  obtain ⟨m, hm, hperm⟩ := h
  have hflat : Matched S (l.flatMap f) (m.flatMap g) := by
    clear hperm
    induction hm with
    | nil => exact ⟨[], .nil, .nil⟩
    | @cons a b l m hab _ ih =>
      obtain ⟨n, hn, hnperm⟩ := hRS a b hab
      obtain ⟨n', hn', hnperm'⟩ := ih
      exact ⟨n ++ n', List.rel_append hn hn', hnperm.append hnperm'⟩
  obtain ⟨n, hn, hnperm⟩ := hflat
  exact ⟨n, hn, hnperm.trans (hperm.flatMap_right g)⟩

/-- What partners have in common, listed. -/
theorem perm_map {f : α → γ} {g : β → γ} (h : Matched R l l') (hfg : ∀ a b, R a b → f a = g b) :
    (l.map f).Perm (l'.map g) := by
  obtain ⟨m, hm, hperm⟩ := h
  have hsame : l.map f = m.map g := by
    clear hperm
    induction hm with
    | nil => rfl
    | cons hab _ ih => rw [List.map_cons, List.map_cons, hfg _ _ hab, ih]
  exact hsame ▸ hperm.map g

theorem perm_flatMap {f : α → List γ} {g : β → List γ} (h : Matched R l l') (hfg : ∀ a b, R a b → (f a).Perm (g b)) :
    (l.flatMap f).Perm (l'.flatMap g) := by
  obtain ⟨m, hm, hperm⟩ := h
  have hsame : (l.flatMap f).Perm (m.flatMap g) := by
    clear hperm
    induction hm with
    | nil => exact .nil
    | cons hab _ ih => exact (hfg _ _ hab).append ih
  exact hsame.trans (hperm.flatMap_right g)

end Matched
