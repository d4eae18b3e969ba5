import AdgLang.JsJson
import Mathlib.Data.List.Sort
/-!
# CanonicalJson — JSON with sorted keys

`canonicalJson` and `sortObject` of `protocol.js`.  Two values with one canonical text hold the same properties with the
same values at every level, in whatever order each has them (`upToOrder_of_canonicalJson`).
-/
namespace Adg
namespace Protocol

open Js

/-- The order in which `sort` puts strings: by their code units. -/
def strLe : Str → Str → Bool
  | [], _ => true
  | _ :: _, [] => false
  | a :: as, b :: bs => decide (a < b) || (decide (a = b) && strLe as bs)

attribute [grind =] strLe

theorem strLe_total (s t : Str) : strLe s t = true ∨ strLe t s = true := by
  induction s generalizing t with
  | nil => exact Or.inl rfl
  | cons a s ih =>
    cases t with
    | nil => exact Or.inr rfl
    | cons b t =>
      simp only [strLe, Bool.or_eq_true, Bool.and_eq_true, decide_eq_true_eq]
      obtain h | rfl | h : a < b ∨ a = b ∨ b < a := by
        rw [UInt16.lt_iff_toNat_lt, UInt16.lt_iff_toNat_lt, ← UInt16.toNat_inj]
        omega
      · exact Or.inl (Or.inl h)
      · exact (ih t).imp (fun h => Or.inr ⟨rfl, h⟩) (fun h => Or.inr ⟨rfl, h⟩)
      · exact Or.inr (Or.inl h)

theorem strLe_antisymm {s t : Str} (hst : strLe s t = true) (hts : strLe t s = true) : s = t := by
  induction s generalizing t with
  | nil =>
    cases t with
    | nil => rfl
    | cons b t => cases hts
  | cons a s ih =>
    cases t with
    | nil => cases hst
    | cons b t =>
      simp only [strLe, Bool.or_eq_true, Bool.and_eq_true, decide_eq_true_eq] at hst hts
      rcases hst with hab | ⟨rfl, hst⟩
      · rcases hts with hba | ⟨rfl, -⟩
        · exact absurd hab (UInt16.lt_asymm hba)
        · exact absurd hab (UInt16.lt_irrefl _)
      · rcases hts with hba | ⟨-, hts⟩
        · exact absurd hba (UInt16.lt_irrefl _)
        · rw [ih hst hts]

theorem strLe_trans {s t r : Str} (hst : strLe s t = true) (htr : strLe t r = true) : strLe s r = true := by
  induction s generalizing t r with
  | nil => rfl
  | cons a s ih =>
    cases t with
    | nil => cases hst
    | cons b t =>
      cases r with
      | nil => cases htr
      | cons c r =>
        simp only [strLe, Bool.or_eq_true, Bool.and_eq_true, decide_eq_true_eq] at hst htr ⊢
        rcases hst with hab | ⟨rfl, hst⟩
        · rcases htr with hbc | ⟨rfl, -⟩
          · exact Or.inl (UInt16.lt_trans hab hbc)
          · exact Or.inl hab
        · rcases htr with hbc | ⟨rfl, htr⟩
          · exact Or.inl hbc
          · exact Or.inr ⟨rfl, ih hst htr⟩

/-- The entries of an object, its keys sorted. -/
def sortEntries (entries : List (Str × Value)) : List (Str × Value) :=
  entries.insertionSort (fun a b => strLe a.1 b.1 = true)

mutual

def sortObject : Value → Value
  | .array items => .array (sortItems items)
  | .object properties => .object (placeAll (sortEntries (sortProperties properties)))
  | .undefined => .undefined
  | .null => .null
  | .bool b => .bool b
  | .number n => .number n
  | .bigint i => .bigint i
  | .string s => .string s
  | .bytes b => .bytes b

def sortItems : List Value → List Value
  | [] => []
  | v :: items => sortObject v :: sortItems items

def sortProperties : List (Str × Value) → List (Str × Value)
  | [] => []
  | (key, v) :: properties => (key, sortObject v) :: sortProperties properties

end

/-- `canonicalJson`, of a value that JSON can hold. -/
def canonicalJson (v : Value) : Str := (sortObject v).text

mutual

/-- Equal as JSON values, whatever the order of the properties in each object. -/
def UpToOrder : Value → Value → Prop
  | .array items, w => ∃ items', w = .array items' ∧ UpToOrderItems items items'
  | .object properties, w => ∃ properties', w = .object properties' ∧
      (properties.map Prod.fst).Perm (properties'.map Prod.fst) ∧ UpToOrderProperties properties properties'
  | .undefined, w => w = .undefined
  | .null, w => w = .null
  | .bool b, w => w = .bool b
  | .number n, w => w = .number n
  | .bigint i, w => w = .bigint i
  | .string s, w => w = .string s
  | .bytes b, w => w = .bytes b

def UpToOrderItems : List Value → List Value → Prop
  | [], items' => items' = []
  | v :: items, items' => ∃ w rest, items' = w :: rest ∧ UpToOrder v w ∧ UpToOrderItems items rest

/-- Each property has its counterpart. -/
def UpToOrderProperties : List (Str × Value) → List (Str × Value) → Prop
  | [], _ => True
  | (key, v) :: properties, properties' =>
    (∃ w, (key, w) ∈ properties' ∧ UpToOrder v w) ∧ UpToOrderProperties properties properties'

end

theorem sortItems_eq (items : List Value) : sortItems items = items.map sortObject := by
  induction items with
  | nil => rfl
  | cons v items ih => rw [sortItems, ih, List.map_cons]

theorem sortProperties_eq (properties : List (Str × Value)) :
    sortProperties properties = properties.map (fun p => (p.1, sortObject p.2)) := by
  induction properties with
  | nil => rfl
  | cons p properties ih =>
    obtain ⟨key, v⟩ := p
    rw [sortProperties, ih, List.map_cons]

/-- The entries that `sortObject` gives an object: its own ones, each value sorted, in some order. -/
theorem sortObject_entries {properties : List (Str × Value)} (h : orderedKeys (properties.map Prod.fst) = true) :
    (placeAll (sortEntries (sortProperties properties))).Perm (properties.map (fun p => (p.1, sortObject p.2))) ∧
      orderedKeys ((placeAll (sortEntries (sortProperties properties))).map Prod.fst) = true := by
  have hsort : (sortEntries (sortProperties properties)).Perm (properties.map (fun p => (p.1, sortObject p.2))) := by
    rw [sortEntries, sortProperties_eq]
    exact List.perm_insertionSort _ _
  have hkeys : ((sortEntries (sortProperties properties)).map Prod.fst).Nodup := by
    rw [(hsort.map Prod.fst).nodup_iff, List.map_map]
    exact nodup_of_orderedKeys h
  exact ⟨(placeAll_perm hkeys).trans hsort, orderedKeys_placeAll hkeys⟩

theorem sortObject_json (v : Value) : v.Json → (sortObject v).Json := by
  induction v using Value.induct with
  | leaf v hleaf =>
    intro h
    cases v with
    | array _ | object _ => cases hleaf
    | undefined | null | bool _ | number _ | bigint _ | string _ | bytes _ => exact h
  | array items ih =>
    intro h
    rw [sortObject, sortItems_eq]
    refine Value.json_array (fun w hw => ?_)
    obtain ⟨v, hv, rfl⟩ := List.mem_map.1 hw
    exact ih v hv (h.item v hv)
  | object properties ih =>
    intro h
    obtain ⟨hperm, hordered⟩ := sortObject_entries h.ordered
    refine Value.json_object hordered (fun q hq => ?_)
    obtain ⟨p, hp, rfl⟩ := List.mem_map.1 (hperm.mem_iff.1 hq)
    exact ih p hp (h.property p hp)

/-- Sorting and what JSON makes of numbers do not touch each other. -/
theorem reread_sortObject (v : Value) : (sortObject v).reread = sortObject v.reread := by
  induction v using Value.induct with
  | leaf v hleaf =>
    cases v with
    | array _ | object _ => cases hleaf
    | number n => cases n <;> rfl
    | undefined | null | bool _ | bigint _ | string _ | bytes _ => rfl
  | array items ih =>
    rw [sortObject, Value.reread, Value.reread, sortObject, sortItems_eq, sortItems_eq, Value.rereadItems_eq,
      Value.rereadItems_eq, List.map_map, List.map_map]
    congr 1
    exact List.map_congr_left ih
  | object properties ih =>
    have hsort : ∀ ps : List (Str × Value),
        (sortEntries ps).map (fun p => (p.1, p.2.reread)) = sortEntries (ps.map (fun p => (p.1, p.2.reread))) :=
      fun ps => List.map_insertionSort _ _ _ ps (fun _ _ _ _ => Iff.rfl)
    rw [sortObject, Value.reread, Value.reread, sortObject, Value.rereadProperties_eq, Value.rereadProperties_eq,
      ← placeAll_map, hsort, sortProperties_eq, sortProperties_eq, List.map_map, List.map_map]
    congr 3
    exact List.map_congr_left (fun p hp => by simp only [Function.comp_apply, ih p hp])

theorem upToOrder_items {items items' : List Value}
    (h : ∀ v ∈ items, ∀ w ∈ items', sortObject v = sortObject w → UpToOrder v w)
    (heq : items.map sortObject = items'.map sortObject) : UpToOrderItems items items' := by
  induction items generalizing items' with
  | nil => exact List.map_eq_nil_iff.1 heq.symm
  | cons v items ih =>
    cases items' with
    | nil => cases heq
    | cons w items' =>
      rw [List.map_cons, List.map_cons, List.cons.injEq] at heq
      exact ⟨w, items', rfl, h v (by simp) w (by simp) heq.1,
        ih (fun x hx y hy => h x (by simp [hx]) y (by simp [hy])) heq.2⟩

theorem upToOrder_properties {properties properties' : List (Str × Value)}
    (h : ∀ p ∈ properties, ∃ w, (p.1, w) ∈ properties' ∧ UpToOrder p.2 w) :
    UpToOrderProperties properties properties' := by
  induction properties with
  | nil => trivial
  | cons p properties ih => exact ⟨h p (by simp), ih (fun q hq => h q (by simp [hq]))⟩

/-- What is the same when sorted is the same up to order. -/
theorem upToOrder_of_sortObject (v : Value) :
    v.Json → ∀ w : Value, w.Json → sortObject v = sortObject w → UpToOrder v w := by
  induction v using Value.induct with
  | leaf v hleaf =>
    intro _ w _ h
    cases v with
    | array _ | object _ => cases hleaf
    | undefined | null | bool _ | number _ | bigint _ | string _ | bytes _ => cases w <;> cases h <;> rfl
  | array items ih =>
    intro hv w hw h
    cases w with
    | array items' =>
      rw [sortObject, sortObject, Value.array.injEq, sortItems_eq, sortItems_eq] at h
      exact ⟨items', rfl, upToOrder_items (fun x hx y hy => ih x hx (hv.item x hx) y (hw.item y hy)) h⟩
    | undefined | null | bool _ | number _ | bigint _ | string _ | bytes _ | object _ => cases h
  | object properties ih =>
    intro hv w hw h
    cases w with
    | object properties' =>
      rw [sortObject, sortObject, Value.object.injEq] at h
      obtain ⟨hperm, -⟩ := sortObject_entries hv.ordered
      obtain ⟨hperm', -⟩ := sortObject_entries hw.ordered
      rw [h] at hperm
      have hsame := hperm.symm.trans hperm'
      refine ⟨properties', rfl, ?_, upToOrder_properties (fun p hp => ?_)⟩
      · have hkeys := hsame.map Prod.fst
        rwa [List.map_map, List.map_map] at hkeys
      · have hmem : (p.1, sortObject p.2) ∈ properties'.map (fun p => (p.1, sortObject p.2)) :=
          hsame.mem_iff.1 (List.mem_map_of_mem hp)
        obtain ⟨⟨key, w⟩, hq, heq⟩ := List.mem_map.1 hmem
        obtain ⟨rfl, hsorted⟩ := Prod.mk.inj heq
        exact ⟨w, hq, ih p hp (hv.property p hp) w (hw.property _ hq) hsorted.symm⟩
    | undefined | null | bool _ | number _ | bigint _ | string _ | bytes _ | array _ => cases h

/-- What JSON makes of a value is one that it can hold. -/
theorem reread_json (v : Value) : v.Json → v.reread.Json := by
  induction v using Value.induct with
  | leaf v hleaf =>
    intro h
    cases v with
    | array _ | object _ => cases hleaf
    | number n => cases n <;> exact Value.json_leaf rfl rfl
    | undefined | null | bool _ | bigint _ | string _ | bytes _ => exact h
  | array items ih =>
    intro h
    rw [Value.reread, Value.rereadItems_eq]
    refine Value.json_array (fun w hw => ?_)
    obtain ⟨v, hv, rfl⟩ := List.mem_map.1 hw
    exact ih v hv (h.item v hv)
  | object properties ih =>
    intro h
    rw [Value.reread]
    refine Value.json_object (by rw [rereadProperties_keys]; exact h.ordered) (fun q hq => ?_)
    rw [Value.rereadProperties_eq] at hq
    obtain ⟨p, hp, rfl⟩ := List.mem_map.1 hq
    exact ih p hp (h.property p hp)

/-- **One canonical text is one value, up to the order of keys**, as far as JSON keeps its numbers. -/
theorem upToOrder_of_canonicalJson {v w : Value} (hv : v.Json) (hw : w.Json) (h : canonicalJson v = canonicalJson w) :
    UpToOrder v.reread w.reread := by
  have hread := parse_text (sortObject_json v hv)
  rw [← canonicalJson, h, canonicalJson, parse_text (sortObject_json w hw), Option.some.injEq, reread_sortObject,
    reread_sortObject] at hread
  exact upToOrder_of_sortObject _ (reread_json v hv) _ (reread_json w hw) hread.symm

end Protocol
end Adg
