import Mathlib.Data.List.Nodup
/-!
# Table — rows, conditional updates and unique keys

A table is the list of its rows in insertion order.  `UPDATE .. SET f WHERE p` is `update p f`, with `changes p` the
number of rows it reports; a unique key is a function on rows whose values are distinct (`Keyed`), and a keyed table
answers `lookup` like a partial function.
-/
namespace Table

variable {ρ κ : Type}

/-- The rows after an update of those that satisfy `p`. -/
def update (p : ρ → Bool) (f : ρ → ρ) (t : List ρ) : List ρ :=
  t.map (fun r => if p r then f r else r)

/-- The number of rows an update or a deletion reports. -/
def changes (p : ρ → Bool) (t : List ρ) : Nat := t.countP p

/-- The rows after a deletion of those that satisfy `p`. -/
def delete (p : ρ → Bool) (t : List ρ) : List ρ := t.filter (fun r => !p r)

/-- The row with key `k`. -/
def lookup [DecidableEq κ] (key : ρ → κ) (k : κ) (t : List ρ) : Option ρ := t.find? (fun r => decide (key r = k))

/-- The values of `key` are distinct. -/
def Keyed (key : ρ → κ) (t : List ρ) : Prop := (t.map key).Nodup

variable {key : ρ → κ} {p : ρ → Bool} {f : ρ → ρ} {t : List ρ}

@[simp] theorem mem_delete {r : ρ} : r ∈ delete p t ↔ r ∈ t ∧ p r = false := by
  simp [delete]

theorem mem_update {r : ρ} : r ∈ update p f t ↔ ∃ x ∈ t, r = if p x then f x else x := by
  simp only [update, List.mem_map]
  constructor
  · rintro ⟨x, hx, rfl⟩; exact ⟨x, hx, rfl⟩
  · rintro ⟨x, hx, rfl⟩; exact ⟨x, hx, rfl⟩

/-- Rows that an update cannot produce are the rows it leaves alone. -/
theorem mem_update_of_not {q : ρ → Prop} (hf : ∀ r, ¬ q (f r)) {r : ρ} :
    (r ∈ update p f t ∧ q r) ↔ (r ∈ t ∧ q r) ∧ p r = false := by
  rw [mem_update]
  constructor
  · rintro ⟨⟨x, hx, rfl⟩, hq⟩
    cases hp : p x with
    | true => rw [hp] at hq; exact absurd hq (hf x)
    | false => rw [hp] at hq; exact ⟨⟨hx, hq⟩, hp⟩
  · rintro ⟨⟨hr, hq⟩, hp⟩
    exact ⟨⟨r, hr, by rw [hp]; rfl⟩, hq⟩

theorem update_eq_self (h : ∀ r ∈ t, p r = false) : update p f t = t := by
  unfold update
  rw [List.map_congr_left (g := id) (fun r hr => by simp [h r hr]), List.map_id]

theorem map_key_update (hf : ∀ r, key (f r) = key r) : (update p f t).map key = t.map key := by
  simp only [update, List.map_map]
  apply List.map_congr_left
  intro r _
  show key (if p r then f r else r) = key r
  split
  · exact hf r
  · rfl

theorem filter_update {q : ρ → Bool} (hf : ∀ r, q (f r) = q r) : (update p f t).filter q = update p f (t.filter q) := by
  unfold Table.update
  rw [List.filter_map]
  congr 1
  apply List.filter_congr
  intro r _
  show q (if p r then f r else r) = q r
  split
  · exact hf r
  · rfl

/-- An update to rows that fail a test leaves fewer that pass it. -/
theorem filter_update_sublist {q : ρ → Bool} (hf : ∀ r, q (f r) = false) :
    ∀ t : List ρ, ((update p f t).filter q).Sublist (t.filter q)
  | [] => .slnil
  | r :: t => by
    have ih := filter_update_sublist hf t
    simp only [update, List.map_cons, List.filter_cons] at ih ⊢
    cases hp : p r with
    | true =>
      simp only [if_true, hf r, Bool.false_eq_true, if_false]
      split
      · exact ih.cons r
      · exact ih
    | false =>
      simp only [Bool.false_eq_true, if_false]
      split
      · exact ih.cons₂ r
      · exact ih

/-- An update of rows that fail a test, to rows that fail it. -/
theorem filter_update_of_not {q : ρ → Bool} (hp : ∀ r, p r = true → q r = false) (hf : ∀ r, p r = true → q (f r) = false) :
    ∀ t : List ρ, (update p f t).filter q = t.filter q
  | [] => rfl
  | r :: t => by
    rw [update, List.map_cons, List.filter_cons, List.filter_cons, ← update, filter_update_of_not hp hf t]
    cases hr : p r with
    | true => simp [hf r hr, hp r hr]
    | false => simp

theorem Keyed.update (h : Keyed key t) (hf : ∀ r, key (f r) = key r) : Keyed key (update p f t) := by
  unfold Keyed
  rw [map_key_update hf]; exact h

theorem Keyed.delete (h : Keyed key t) : Keyed key (delete p t) :=
  h.sublist (List.filter_sublist.map key)

theorem Keyed.append (h : Keyed key t) {r : ρ} (hr : ∀ x ∈ t, key x ≠ key r) : Keyed key (t ++ [r]) := by
  unfold Keyed at *
  rw [List.map_append, List.nodup_append]
  refine ⟨h, by simp, ?_⟩
  rintro a ha b hb
  obtain ⟨x, hx, rfl⟩ := List.mem_map.1 ha
  simp only [List.map_cons, List.map_nil, List.mem_singleton] at hb
  subst hb
  exact hr x hx

/-- Two rows of a keyed table with one key are one row. -/
theorem Keyed.of_append {r : ρ} (h : Keyed key (t ++ [r])) : ∀ x ∈ t, key x ≠ key r := by
  intro x hx hk
  unfold Keyed at h
  rw [List.map_append, List.map_singleton, List.nodup_append] at h
  exact h.2.2 (key x) (List.mem_map_of_mem hx) (key r) (by simp) hk

theorem Keyed.eq_of_key (h : Keyed key t) {a b : ρ} (ha : a ∈ t) (hb : b ∈ t) (hab : key a = key b) : a = b :=
  List.inj_on_of_nodup_map h ha hb hab

section Lookup

variable [DecidableEq κ] {k : κ}

theorem lookup_some {r : ρ} (h : lookup key k t = some r) : r ∈ t ∧ key r = k := by
  refine ⟨List.mem_of_find?_eq_some h, ?_⟩
  have := List.find?_some h
  simpa using this

theorem lookup_none_iff : lookup key k t = none ↔ ∀ r ∈ t, key r ≠ k := by
  simp [lookup, List.find?_eq_none]

theorem Keyed.lookup_eq_some_iff (h : Keyed key t) {r : ρ} : lookup key k t = some r ↔ r ∈ t ∧ key r = k := by
  refine ⟨lookup_some, ?_⟩
  rintro ⟨hr, hk⟩
  cases hl : lookup key k t with
  | none => exact absurd hk (lookup_none_iff.1 hl r hr)
  | some x =>
    obtain ⟨hx, hxk⟩ := lookup_some hl
    rw [h.eq_of_key hx hr (hxk.trans hk.symm)]

/-- An update that keeps the keys acts on the row looked up. -/
theorem lookup_update (hf : ∀ r, key (f r) = key r) :
    lookup key k (update p f t) = (lookup key k t).map (fun r => if p r then f r else r) := by
  unfold lookup update
  rw [List.find?_map]
  congr 1
  apply congrArg (fun q => List.find? q t)
  funext r
  simp only [Function.comp_apply]
  split
  · rw [hf r]
  · rfl

theorem lookup_append (r : ρ) :
    lookup key k (t ++ [r]) = (lookup key k t).or (if key r = k then some r else none) := by
  unfold lookup
  rw [List.find?_append]
  congr 1
  by_cases h : key r = k <;> simp [h]

/-- An update confined to one key reports one row or none. -/
theorem Keyed.changes_eq (h : Keyed key t) (hp : ∀ r, p r = true → key r = k) :
    changes p t = if (lookup key k t).any p then 1 else 0 := by
  have hf : changes p t = (t.filter p).length := List.countP_eq_length_filter
  cases hl : lookup key k t with
  | none =>
    have hnil : t.filter p = [] := List.filter_eq_nil_iff.2 (fun r hr hpr => lookup_none_iff.1 hl r hr (hp r hpr))
    rw [hf, hnil]; rfl
  | some x =>
    obtain ⟨hx, hxk⟩ := lookup_some hl
    have hall : ∀ r ∈ t.filter p, r = x := fun r hr =>
      h.eq_of_key (List.mem_filter.1 hr).1 hx ((hp r (List.mem_filter.1 hr).2).trans hxk.symm)
    have hnd : (t.filter p).Nodup := (List.Nodup.of_map key h).filter p
    cases hpx : p x with
    | false =>
      have hnil : t.filter p = [] := List.filter_eq_nil_iff.2 (fun r hr hpr => by
        rw [hall r (List.mem_filter.2 ⟨hr, hpr⟩), hpx] at hpr; cases hpr)
      rw [hf, hnil]; simp [hpx]
    | true =>
      have hmem : x ∈ t.filter p := List.mem_filter.2 ⟨hx, hpx⟩
      have hone : t.filter p = [x] := by
        cases hL : t.filter p with
        | nil => rw [hL] at hmem; cases hmem
        | cons a as =>
          rw [hL] at hall hnd
          have ha : a = x := hall a List.mem_cons_self
          have has : as = [] := by
            cases as with
            | nil => rfl
            | cons b bs =>
              have hb : b = x := hall b (by simp)
              rw [ha, hb] at hnd; simp at hnd
          rw [ha, has]
      rw [hf, hone]; simp [hpx]

theorem Keyed.changes_le_one (h : Keyed key t) (hp : ∀ r ∈ t, p r = true → key r = k) : changes p t ≤ 1 := by
  have heq : changes p t = changes (fun r => p r && decide (key r = k)) t :=
    List.countP_congr (fun r hr => by
      simp only [Bool.and_eq_true, decide_eq_true_eq]
      exact ⟨fun hpr => ⟨hpr, hp r hr hpr⟩, fun hpr => hpr.1⟩)
  rw [heq, h.changes_eq (k := k) (fun r hr => by
    simp only [Bool.and_eq_true, decide_eq_true_eq] at hr; exact hr.2)]
  split <;> omega

end Lookup

/-! ## Tables that persist -/

section Persists

variable {R : ρ → ρ → Prop} {t t' t'' : List ρ}

/-- Every row is still there, changed at most as `R` allows. -/
def Persists (R : ρ → ρ → Prop) (t t' : List ρ) : Prop := ∀ r ∈ t, ∃ r' ∈ t', R r r'

theorem Persists.refl (hR : ∀ r, R r r) (t : List ρ) : Persists R t t := fun r hr => ⟨r, hr, hR r⟩

theorem Persists.trans (hR : ∀ a b c, R a b → R b c → R a c) (h : Persists R t t') (h' : Persists R t' t'') :
    Persists R t t'' := by
  intro r hr
  obtain ⟨r', hr', hrr'⟩ := h r hr
  obtain ⟨r'', hr'', hrr''⟩ := h' r' hr'
  exact ⟨r'', hr'', hR r r' r'' hrr' hrr''⟩

theorem Persists.append (hR : ∀ r, R r r) (t u : List ρ) : Persists R t (t ++ u) :=
  fun r hr => ⟨r, List.mem_append_left u hr, hR r⟩

theorem Persists.update {p : ρ → Bool} {f : ρ → ρ} (hR : ∀ r, R r r) (hf : ∀ r ∈ t, p r = true → R r (f r)) :
    Persists R t (update p f t) := by
  intro r hr
  refine ⟨if p r then f r else r, mem_update.2 ⟨r, hr, rfl⟩, ?_⟩
  split
  · rename_i hp
    exact hf r hr hp
  · exact hR r

end Persists

end Table
