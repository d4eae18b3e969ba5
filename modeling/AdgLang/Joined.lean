import AdgLang.Fallible
import AdgLang.Matching
import Mathlib.Data.List.Zip
/-!
# Joined — two lists joined by what their items have in common

A loop over one list that looks the partner of each item up in another list joins the two.  `JoinedBy J l l' ps` says what
such a loop made, and does not depend on the order of any of the lists, nor on which of the two was looped over
(`JoinedBy.perm`, `JoinedBy.swap`); a loop over lists of one length makes it (`joined_of_mapM`), and where it stands the loop
succeeds (`JoinedBy.exists_mapM`).
-/

/-- Every item of either list has its partner in the other, and the results are those of the partners. -/
def JoinedBy {α β γ : Type} (J : α → β → γ → Prop) (l : List α) (l' : List β) (ps : List γ) : Prop :=
  ∃ zs : List (α × β × γ), (zs.map (fun z => z.1)).Perm l ∧ (zs.map (fun z => z.2.1)).Perm l' ∧
    (zs.map (fun z => z.2.2)).Perm ps ∧ ∀ z ∈ zs, J z.1 z.2.1 z.2.2

namespace JoinedBy

variable {α β γ ε : Type} {J : α → β → γ → Prop} {l : List α} {l' : List β} {ps : List γ}

theorem perm {m : List α} {m' : List β} {qs : List γ} (h : JoinedBy J l l' ps) (hl : l.Perm m) (hl' : l'.Perm m')
    (hps : ps.Perm qs) : JoinedBy J m m' qs := by
  obtain ⟨zs, hfirst, hsecond, hresult, hJ⟩ := h
  exact ⟨zs, hfirst.trans hl, hsecond.trans hl', hresult.trans hps, hJ⟩

/-- The other list looped over, with results turned round. -/
theorem swap {K : β → α → γ → Prop} {f : γ → γ} (h : JoinedBy J l l' ps) (hJK : ∀ a b c, J a b c → K b a (f c)) :
    JoinedBy K l' l (ps.map f) := by
  obtain ⟨zs, hfirst, hsecond, hresult, hJ⟩ := h
  refine ⟨zs.map (fun z => (z.2.1, z.1, f z.2.2)), ?_, ?_, ?_, ?_⟩
  · rw [List.map_map]
    exact hsecond
  · rw [List.map_map]
    exact hfirst
  · rw [List.map_map]
    have h := hresult.map f
    rw [List.map_map] at h
    exact h
  · intro z' hz'
    obtain ⟨z, hz, rfl⟩ := List.mem_map.1 hz'
    exact hJK _ _ _ (hJ z hz)

end JoinedBy

variable {α β γ ε : Type} {J : α → β → γ → Prop} {l : List α} {l' : List β} {ps : List γ}

/-- A list of which another is an image, put in the order of that one. -/
theorem exists_perm_map {δ : Type} {f : δ → α} {zs : List δ} (h : (zs.map f).Perm l) :
    ∃ zs' : List δ, zs'.Perm zs ∧ zs'.map f = l := by
  have himage : List.Forall₂ (fun a z => f z = a) (zs.map f) zs := by
    rw [List.forall₂_map_left_iff]
    exact List.forall₂_same.2 (fun z _ => rfl)
  obtain ⟨zs', hzs', hperm⟩ := List.perm_comp_forall₂ h.symm himage
  refine ⟨zs', hperm, ?_⟩
  clear himage hperm h
  induction hzs' with
  | nil => rfl
  | cons hz _ ih => rw [List.map_cons, hz, ih]

/-- Related lists as one list of triples. -/
theorem exists_triples {us : List (α × γ)} {m : List β} (h : List.Forall₂ (fun u b => J u.1 b u.2) us m) :
    ∃ zs : List (α × β × γ), zs.map (fun z => (z.1, z.2.2)) = us ∧ zs.map (fun z => z.2.1) = m ∧
      ∀ z ∈ zs, J z.1 z.2.1 z.2.2 := by
  induction h with
  | nil => exact ⟨[], rfl, rfl, nofun⟩
  | @cons u b us m hub _ ih =>
    obtain ⟨zs, hus, hm, hJ⟩ := ih
    exact ⟨(u.1, b, u.2) :: zs, by rw [List.map_cons, hus], by rw [List.map_cons, hm], List.forall_mem_cons.2 ⟨hub, hJ⟩⟩

/-- **A loop that finds a partner of its own for every item joins the lists.** -/
theorem joined_of_mapM {f : α → Except ε γ} (h : l.mapM f = .ok ps) (hlength : l.length = l'.length)
    (hfound : ∀ a ∈ l, ∀ p, f a = .ok p → ∃ b ∈ l', J a b p)
    (hapart : l.Pairwise (fun a a' => ∀ b ∈ l', ∀ p p', J a b p → ¬ J a' b p')) : JoinedBy J l l' ps := by
  have hps := mapM_eq_ok h
  have hfst : (l.zip ps).map Prod.fst = l := List.map_fst_zip (Nat.le_of_eq hps.length_eq)
  have hsnd : (l.zip ps).map Prod.snd = ps := List.map_snd_zip (Nat.le_of_eq hps.length_eq.symm)
  have hmatched : Matched (fun (u : α × γ) b => J u.1 b u.2) (l.zip ps) l' := by
    refine .of_cover (by rw [List.length_zip, ← hps.length_eq, Nat.min_self, hlength]) (fun u hu => ?_) ?_
    · exact hfound u.1 (List.of_mem_zip hu).1 u.2 (List.forall₂_iff_zip.1 hps |>.2 hu)
    · rw [← hfst, List.pairwise_map] at hapart
      exact hapart.imp (fun {u u'} hne b hb hJ hJ' => hne b hb u.2 u'.2 hJ hJ')
  obtain ⟨m, hm, hperm⟩ := hmatched
  obtain ⟨zs, hus, hzm, hJ⟩ := exists_triples hm
  refine ⟨zs, ?_, hzm ▸ hperm, ?_, hJ⟩
  · rw [← hfst, ← hus, List.map_map]
    rfl
  · rw [← hsnd, ← hus, List.map_map]
    rfl

/-- **Where the lists are joined the loop succeeds**, with the results in the order of its list. -/
theorem JoinedBy.exists_mapM {f : α → Except ε γ} (h : JoinedBy J l l' ps)
    (hf : ∀ a ∈ l, ∀ b ∈ l', ∀ p, J a b p → f a = .ok p) : ∃ qs, l.mapM f = .ok qs ∧ qs.Perm ps := by
  obtain ⟨zs, hfirst, hsecond, hresult, hJ⟩ := h
  obtain ⟨zs', hperm, rfl⟩ := exists_perm_map hfirst
  refine ⟨zs'.map (fun z => z.2.2), mapM_ok_of_forall₂ ?_, (hperm.map _).trans hresult⟩
  rw [List.forall₂_map_left_iff, List.forall₂_map_right_iff]
  refine List.forall₂_same.2 (fun z hz => hf _ (List.mem_map_of_mem hz) z.2.1 ?_ _ (hJ z (hperm.subset hz)))
  exact hsecond.subset (List.mem_map_of_mem (hperm.subset hz))
