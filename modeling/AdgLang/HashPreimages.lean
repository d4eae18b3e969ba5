import AdgLang.Fallible
import AdgLang.PacketRoots
import Mathlib.Data.List.Perm.Subperm
/-!
# HashPreimages — what a hash is taken of

`CanonicalHashBuilder` of `protocol.js` joins the parts of its values, each a text behind the number of its bytes.  A text
with more units has more bytes, halves of surrogate pairs or not (`length_encodeUtf8_lt`), so that no part begins another
and the values come back from the parts that are joined (`joined_injective`).  `consensusEventHash` is taken of a canonical
JSON text, which is the same exactly for values that are equal up to the order of keys (`canonicalJson_eq_iff`).
-/
namespace Adg
namespace Protocol

open Js

/-! ## Bytes of longer texts -/

theorem length_utf8_pos (n : Scalar) : 0 < (utf8 n).length := List.length_pos_iff.2 (utf8_prefixFree.nonempty n)

theorem length_utf8_pair (lead trail : UInt16) : (utf8 (pair lead trail)).length = 4 := by
  have hlarge : 0x10000 ≤ (pair lead trail).1 := by
    rw [pair]
    dsimp only
    omega
  rw [utf8, if_neg (by omega), if_neg (by omega), if_neg (by omega)]
  rfl

/-- The number of bytes of a text after a lead surrogate, or after none. -/
def bytesFrom (lead : Option UInt16) (s : Str) : Nat := ((scalarsFrom lead s).flatMap utf8).length

theorem bytesFrom_cons_none (u : UInt16) (s : Str) : bytesFrom none (u :: s) =
    if isLead u then bytesFrom (some u) s else (utf8 (single u)).length + bytesFrom none s := by
  rw [bytesFrom, scalarsFrom]
  split
  · rfl
  · rw [List.flatMap_cons, List.length_append, bytesFrom]

theorem bytesFrom_cons_some (l u : UInt16) (s : Str) : bytesFrom (some l) (u :: s) =
    if isTrail u then 4 + bytesFrom none s else if isLead u then 3 + bytesFrom (some u) s
    else 3 + ((utf8 (single u)).length + bytesFrom none s) := by
  rw [bytesFrom, scalarsFrom]
  split
  · rw [List.flatMap_cons, List.length_append, length_utf8_pair, bytesFrom]
  split
  · rw [List.flatMap_cons, List.length_append, bytesFrom]
    rfl
  · rw [List.flatMap_cons, List.flatMap_cons, List.length_append, List.length_append, bytesFrom]
    rfl

/-- After half a pair there are three bytes, or more. -/
theorem le_bytesFrom_some (l : UInt16) (s : Str) : 3 ≤ bytesFrom (some l) s := by
  cases s with
  | nil => exact le_refl 3
  | cons u s =>
    rw [bytesFrom_cons_some]
    split
    · omega
    split <;> omega

/-- **What comes next adds bytes**, and where it completes a pair makes four of three. -/
theorem bytesFrom_lt {t : Str} (ht : t ≠ []) : ∀ (s : Str) (lead : Option UInt16),
    bytesFrom lead s < bytesFrom lead (s ++ t)
  | [], none => by
    obtain ⟨u, t, rfl⟩ := List.exists_cons_of_ne_nil ht
    have hempty : bytesFrom none [] = 0 := rfl
    have hsingle := length_utf8_pos (single u)
    have hhalf := le_bytesFrom_some u t
    rw [List.nil_append, hempty, bytesFrom_cons_none]
    split <;> omega
  | [], some l => by
    obtain ⟨u, t, rfl⟩ := List.exists_cons_of_ne_nil ht
    have hempty : bytesFrom (some l) [] = 3 := rfl
    have hsingle := length_utf8_pos (single u)
    have hhalf := le_bytesFrom_some u t
    rw [List.nil_append, hempty, bytesFrom_cons_some]
    split
    · omega
    split <;> omega
  | u :: s, none => by
    have hnone := bytesFrom_lt ht s none
    have hsome := bytesFrom_lt ht s (some u)
    rw [List.cons_append, bytesFrom_cons_none, bytesFrom_cons_none]
    split <;> omega
  | u :: s, some l => by
    have hnone := bytesFrom_lt ht s none
    have hsome := bytesFrom_lt ht s (some u)
    rw [List.cons_append, bytesFrom_cons_some, bytesFrom_cons_some]
    split
    · omega
    split <;> omega

/-- **A text that goes on has more bytes.** -/
theorem length_encodeUtf8_lt (s : Str) {t : Str} (ht : t ≠ []) : (encodeUtf8 s).length < (encodeUtf8 (s ++ t)).length :=
  bytesFrom_lt ht s none

/-! ## Parts of texts and of null -/

def nullOrString : Value → Bool
  | .null | .string _ => true
  | _ => false

/-- A value that is null or a string. -/
abbrev Added := { v : Value // nullOrString v = true }

/-- The part of a text, or of null. -/
def textPart (v : Added) : Str :=
  match v.1 with
  | .string s => natStr (encodeUtf8 s).length ++ unit ':' :: s
  | _ => str "-1:"

theorem part_eq (v : Added) : part v.1 = .ok (textPart v) := by
  obtain ⟨v, hv⟩ := v
  cases v with
  | null | string _ => rfl
  | undefined | bool _ | number _ | bigint _ | bytes _ | array _ | object _ => cases hv

/-- The text before the first colon, and the text after it. -/
theorem split_colon {digits digits' x y : Str} (h : unit ':' ∉ digits) (h' : unit ':' ∉ digits')
    (heq : digits ++ unit ':' :: x = digits' ++ unit ':' :: y) : digits = digits' ∧ x = y := by
  have htake : ∀ {digits x : Str}, unit ':' ∉ digits →
      (digits ++ unit ':' :: x).takeWhile (fun u => decide (u ≠ unit ':')) = digits := fun {digits x} h => by
    rw [List.takeWhile_append_of_pos (p := fun u => decide (u ≠ unit ':'))
      (fun u hu => decide_eq_true (fun he => h (he ▸ hu)))]
    simp
  have hsame : digits = digits' := by rw [← htake h, heq, htake h']
  subst hsame
  exact ⟨rfl, (List.cons.inj (List.append_cancel_left heq)).2⟩

theorem not_mem_natStr (n : Nat) : unit ':' ∉ natStr n := fun hmem => by
  have hdigit := isDigit_natStr n _ hmem
  revert hdigit
  decide

/-- Texts of one number of bytes that begin two equal texts are one text. -/
theorem eq_of_append {s t x y : Str} (hlength : (encodeUtf8 s).length = (encodeUtf8 t).length) (h : s ++ x = t ++ y) :
    s = t := by
  have hshorter : ∀ {s t : Str}, (encodeUtf8 s).length = (encodeUtf8 t).length → s <+: t → s = t := fun {s t} hlength => by
    rintro ⟨rest, rfl⟩
    by_cases hrest : rest = []
    · rw [hrest, List.append_nil]
    · exact absurd hlength (Nat.ne_of_lt (length_encodeUtf8_lt s hrest))
  obtain hbegins | hbegins := List.prefix_or_prefix_of_prefix (List.prefix_append s x) (h ▸ List.prefix_append t y)
  · exact hshorter hlength hbegins
  · exact (hshorter hlength.symm hbegins).symm

/-- **No part begins another**, not even where the texts look like parts. -/
theorem textPart_prefixFree : PrefixFree textPart where
  nonempty := fun ⟨v, hv⟩ => by
    cases v with
    | null => exact (by decide : str "-1:" ≠ [])
    | string s => simp [textPart]
    | undefined | bool _ | number _ | bigint _ | bytes _ | array _ | object _ => cases hv
  split := by
    have hminus : ∀ {n x y}, str "-1:" ++ x ≠ natStr n ++ unit ':' :: y := fun {n x y} h => by
      have hcolon : unit ':' ∉ str "-1" := by decide
      have hdigits := (split_colon hcolon (not_mem_natStr n) h).1
      have hdigit := isDigit_natStr n (unit '-') (hdigits ▸ List.mem_cons_self)
      revert hdigit
      decide
    rintro ⟨v, hv⟩ ⟨w, hw⟩ x y h
    refine Subtype.ext ?_
    cases v <;> cases hv <;> cases w <;> cases hw
    · rfl
    · rw [textPart, textPart, List.append_assoc, List.cons_append] at h
      exact absurd h hminus
    · rw [textPart, textPart, List.append_assoc, List.cons_append] at h
      exact absurd h.symm hminus
    · rw [textPart, textPart, List.append_assoc, List.append_assoc, List.cons_append, List.cons_append] at h
      obtain ⟨hnumber, htexts⟩ := split_colon (not_mem_natStr _) (not_mem_natStr _) h
      exact congrArg Value.string (eq_of_append (natStr_injective hnumber) htexts)

/-- What `digest` encodes: the parts of the values that were added, joined. -/
def joined (values : List Value) : Except Str Str := do
  return (← values.mapM part).flatten

theorem joined_eq (values : List Added) : joined (values.map Subtype.val) = .ok (values.flatMap textPart) := by
  have hparts : (values.map Subtype.val).mapM part = .ok (values.map textPart) := by
    refine mapM_ok_of_forall₂ ?_
    rw [List.forall₂_map_left_iff, List.forall₂_map_right_iff]
    exact List.forall₂_same.2 (fun v _ => part_eq v)
  rw [joined, hparts]
  exact congrArg Except.ok List.flatMap_def.symm

theorem joined_injective {values values' : List Added}
    (h : joined (values.map Subtype.val) = joined (values'.map Subtype.val)) : values = values' := by
  rw [joined_eq, joined_eq] at h
  exact textPart_prefixFree.flatMap_injective (Except.ok.inj h)

/-- The bytes of joined parts say what is hashed of each value. -/
theorem hashed_of_bytes {values values' : List Added}
    (h : encodeUtf8 (values.flatMap textPart) = encodeUtf8 (values'.flatMap textPart)) :
    (values.map Subtype.val).map hashed = (values'.map Subtype.val).map hashed := by
  have hwords : ∀ values : List Added, encodeUtf8 (values.flatMap textPart) =
      ((values.map Subtype.val).map hashed).flatMap word := fun values => by
    have hparts : (values.map Subtype.val).mapM part = .ok (values.map textPart) := by
      refine mapM_ok_of_forall₂ ?_
      rw [List.forall₂_map_left_iff, List.forall₂_map_right_iff]
      exact List.forall₂_same.2 (fun v _ => part_eq v)
    rw [List.flatMap_def]
    exact (encodeUtf8_parts hparts).1
  rw [hwords, hwords] at h
  exact word_prefixFree.flatMap_injective h

/-- A value without half a surrogate pair. -/
def wellFormedValue : Value → Bool
  | .string s => isWellFormed s
  | _ => true

theorem eq_of_hashed {v w : Added} (hv : wellFormedValue v.1 = true) (hw : wellFormedValue w.1 = true)
    (h : hashed v.1 = hashed w.1) : v = w := by
  obtain ⟨v, hnull⟩ := v
  obtain ⟨w, hnull'⟩ := w
  refine Subtype.ext ?_
  cases v <;> cases hnull <;> cases w <;> cases hnull'
  · rfl
  · cases h
  · cases h
  · exact congrArg Value.string (encodeUtf8_injective hv hw (Option.some.inj h))

theorem eq_of_map_hashed : ∀ {values values' : List Added},
    (values.map Subtype.val).map hashed = (values'.map Subtype.val).map hashed →
    (∀ v ∈ values ++ values', wellFormedValue v.1 = true) → values = values'
  | [], [], _, _ => rfl
  | [], _ :: _, h, _ => by cases h
  | _ :: _, [], h, _ => by cases h
  | v :: values, w :: values', h, hwellFormed => by
    rw [List.map_cons, List.map_cons, List.map_cons, List.map_cons, List.cons.injEq] at h
    simp only [List.cons_append, List.mem_cons, List.mem_append, forall_eq_or_imp] at hwellFormed
    have hfirst := eq_of_hashed hwellFormed.1 (hwellFormed.2 w (.inr (.inl rfl))) h.1
    have hrest : ∀ u ∈ values ++ values', wellFormedValue u.1 = true := fun u hu =>
      hwellFormed.2 u ((List.mem_append.1 hu).imp_right .inr)
    rw [hfirst, eq_of_map_hashed h.2 hrest]

/-! ## Canonical JSON -/

/-- Values that are the same up to order have the same entries when sorted, in some order. -/
theorem entries_perm {properties properties' : List (Str × Value)} (hnodup : (properties.map Prod.fst).Nodup)
    (hkeys : (properties.map Prod.fst).Perm (properties'.map Prod.fst))
    (h : ∀ p ∈ properties, ∃ w, (p.1, w) ∈ properties' ∧ sortObject p.2 = sortObject w) :
    (properties.map (fun p => (p.1, sortObject p.2))).Perm (properties'.map (fun p => (p.1, sortObject p.2))) := by
  have hentries : (properties.map (fun p => (p.1, sortObject p.2))).Nodup := by
    refine List.Nodup.of_map Prod.fst ?_
    rwa [List.map_map]
  refine (hentries.subperm (fun entry hentry => ?_)).perm_of_length_le ?_
  · obtain ⟨p, hp, rfl⟩ := List.mem_map.1 hentry
    obtain ⟨w, hw, hsame⟩ := h p hp
    exact List.mem_map.2 ⟨(p.1, w), hw, by rw [hsame]⟩
  · have hlength := hkeys.length_eq
    rw [List.length_map, List.length_map] at hlength ⊢
    exact hlength.ge

/-- Entries with distinct keys are sorted in one way. -/
theorem sortEntries_perm {entries entries' : List (Str × Value)} (hnodup : (entries.map Prod.fst).Nodup)
    (h : entries.Perm entries') : sortEntries entries = sortEntries entries' := by
  have hsorted : ∀ entries : List (Str × Value),
      (sortEntries entries).Pairwise (fun a b => strLe a.1 b.1 = true) := fun entries => by
    have htotal : Std.Total (fun a b : Str × Value => strLe a.1 b.1 = true) := ⟨fun a b => strLe_total a.1 b.1⟩
    have htrans : IsTrans (Str × Value) (fun a b => strLe a.1 b.1 = true) := ⟨fun _ _ _ => strLe_trans⟩
    exact List.pairwise_insertionSort _ entries
  refine List.Perm.eq_of_pairwise (fun a b ha hb hab hba => ?_) (hsorted _) (hsorted _)
    ((List.perm_insertionSort _ _).trans (h.trans (List.perm_insertionSort _ _).symm))
  have ha := (List.perm_insertionSort _ _).subset ha
  have hb := h.symm.subset ((List.perm_insertionSort _ _).subset hb)
  exact List.inj_on_of_nodup_map hnodup ha hb (strLe_antisymm hab hba)

theorem upToOrderProperties_iff {properties properties' : List (Str × Value)} :
    UpToOrderProperties properties properties' ↔ ∀ p ∈ properties, ∃ w, (p.1, w) ∈ properties' ∧ UpToOrder p.2 w := by
  induction properties with
  | nil => exact ⟨fun _ => nofun, fun _ => trivial⟩
  | cons p properties ih => rw [UpToOrderProperties, ih, List.forall_mem_cons]

/-- What is the same up to order is the same when sorted. -/
theorem sortObject_of_upToOrder (v : Value) : v.Json → ∀ w : Value, w.Json → UpToOrder v w → sortObject v = sortObject w := by
  induction v using Value.induct with
  | leaf v hleaf =>
    intro _ w _ h
    cases v with
    | array _ | object _ => cases hleaf
    | undefined | null | bool _ | number _ | bigint _ | string _ | bytes _ =>
      rw [UpToOrder] at h
      rw [h]
  | array items ih =>
    intro hv w hw h
    obtain ⟨items', rfl, hitems⟩ := h
    rw [sortObject, sortObject, Value.array.injEq, sortItems_eq, sortItems_eq]
    have hjson := hv.item
    have hjson' := hw.item
    clear hv hw
    induction items generalizing items' with
    | nil =>
      obtain rfl := hitems
      rfl
    | cons v items ihItems =>
      obtain ⟨w, rest, rfl, hvw, hrest⟩ := hitems
      rw [List.forall_mem_cons] at ih hjson hjson'
      rw [List.map_cons, List.map_cons, ih.1 hjson.1 w hjson'.1 hvw, ihItems ih.2 rest hrest hjson.2 hjson'.2]
  | object properties ih =>
    intro hv w hw h
    obtain ⟨properties', rfl, hkeys, hproperties⟩ := h
    rw [upToOrderProperties_iff] at hproperties
    have hperm := entries_perm (nodup_of_orderedKeys hv.ordered) hkeys (fun p hp => by
      obtain ⟨w, hw', hsame⟩ := hproperties p hp
      exact ⟨w, hw', ih p hp (hv.property p hp) w (hw.property _ hw') hsame⟩)
    have hnodup : ((properties.map (fun p => (p.1, sortObject p.2))).map Prod.fst).Nodup := by
      rw [List.map_map]
      exact nodup_of_orderedKeys hv.ordered
    rw [sortObject, sortObject, sortProperties_eq, sortProperties_eq, sortEntries_perm hnodup hperm]

/-- **One canonical text is one value up to the order of keys**, as JSON writes its numbers. -/
theorem canonicalJson_eq_iff {v w : Value} (hv : v.Json) (hw : w.Json) :
    canonicalJson v = canonicalJson w ↔ UpToOrder v.reread w.reread := by
  refine ⟨upToOrder_of_canonicalJson hv hw, fun h => ?_⟩
  have hsorted := sortObject_of_upToOrder _ (reread_json v hv) _ (reread_json w hw) h
  rw [← reread_sortObject, ← reread_sortObject] at hsorted
  rw [canonicalJson, canonicalJson, ← Value.text_reread, hsorted, Value.text_reread]

/-- The bytes that `consensusEventHash` hashes. -/
def eventPreimage (event : Value) : List UInt8 := encodeUtf8 (canonicalJson event)

theorem eventPreimage_eq_iff {v w : Value} (hv : v.Json) (hw : w.Json) :
    eventPreimage v = eventPreimage w ↔ UpToOrder v.reread w.reread := by
  rw [← canonicalJson_eq_iff hv hw]
  exact ⟨encodeUtf8_injective (isWellFormed_text _ (sortObject_json v hv)) (isWellFormed_text _ (sortObject_json w hw)),
    congrArg encodeUtf8⟩

/-- **Pre-images of hashes are decodable**: values that are null or strings come back from their joined parts, from the
bytes of these where no text has half a surrogate pair in it, and canonical texts, or their bytes, are equal exactly for
JSON values that are equal up to the order of keys. -/
theorem preimages_decodable :
    (∀ values values' : List Added, (∃ text, joined (values.map Subtype.val) = .ok text) ∧
      (joined (values.map Subtype.val) = joined (values'.map Subtype.val) → values = values') ∧
      ∀ text text', joined (values.map Subtype.val) = .ok text → joined (values'.map Subtype.val) = .ok text' →
        encodeUtf8 text = encodeUtf8 text' →
        (values.map Subtype.val).map hashed = (values'.map Subtype.val).map hashed ∧
        ((∀ v ∈ values ++ values', wellFormedValue v.1 = true) → values = values')) ∧
    ∀ v w : Value, v.Json → w.Json →
      (canonicalJson v = canonicalJson w ↔ UpToOrder v.reread w.reread) ∧
      (eventPreimage v = eventPreimage w ↔ UpToOrder v.reread w.reread) ∧
      (v.all Value.isKept = true → w.all Value.isKept = true → (canonicalJson v = canonicalJson w ↔ UpToOrder v w)) := by
  refine ⟨fun values values' => ⟨⟨_, joined_eq values⟩, joined_injective, fun text text' h h' hbytes => ?_⟩,
    fun v w hv hw => ⟨canonicalJson_eq_iff hv hw, eventPreimage_eq_iff hv hw, fun hkept hkept' => ?_⟩⟩
  · rw [joined_eq, Except.ok.injEq] at h h'
    subst h h'
    have hhashed := hashed_of_bytes hbytes
    exact ⟨hhashed, eq_of_map_hashed hhashed⟩
  · have hiff := canonicalJson_eq_iff hv hw
    rwa [(Value.reread_eq_iff v).2 hkept, (Value.reread_eq_iff w).2 hkept'] at hiff

/-- An object with two keys, the one or the other first. -/
def swapped (first second : String) : Value :=
  .object [(str first, .number (Number.ofNat first.length)), (str second, .number (Number.ofNat second.length))]

theorem preimages_decodable_swapped : canonicalJson (swapped "a" "bc") = canonicalJson (swapped "bc" "a") := by
  have hjson : (swapped "a" "bc").Json := ⟨by decide +kernel, by decide +kernel⟩
  have hjson' : (swapped "bc" "a").Json := ⟨by decide +kernel, by decide +kernel⟩
  refine ((preimages_decodable.2 _ _ hjson hjson').2.2 (by decide +kernel) (by decide +kernel)).2 ?_
  refine ⟨_, rfl, .swap _ _ _, ⟨_, ?_, rfl⟩, ⟨_, ?_, rfl⟩, trivial⟩
  · exact List.mem_cons_of_mem _ List.mem_cons_self
  · exact List.mem_cons_self

/-- A text may look like parts. -/
example : joined [.null, .string (str "-1:")] = .ok (str "-1:3:-1:") := by decide

end Protocol
end Adg
