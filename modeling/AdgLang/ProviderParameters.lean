import AdgLang.SqlTranslation
import AdgLang.JsBase64
/-!
# ProviderParameters — a parameter on its way to the provider

The container adapter encodes each normalized parameter (`encodeProviderParameter` of `database.js`), sends it as JSON,
and the provider decodes it (`decodeParameter` of `server.mjs`).  The encoder goes into arrays and objects, the decoder
looks at the parameter itself: the two back ends bind one value exactly for the parameters of `agrees`.
-/
namespace Adg
namespace Database

open Js

/-! ## The adapter -/

def protoKey : Str := str "__proto__"

/-- `encoded[key] = value` on an object literal: the key `__proto__` sets the prototype and no own property. -/
def assign (key : Str) (value : Value) (properties : List (Str × Value)) : List (Str × Value) :=
  if key = protoKey then properties else place key value properties

/-- The object by which a value is sent that JSON does not have. -/
def tagged (tag : String) (value : Str) : Value :=
  .object [(str "__adgType", .string (str tag)), (str "value", .string value)]

mutual

def encodeProviderParameter : Value → Value
  | .undefined => .null
  | .null => .null
  | .bigint i => tagged "bigint" (intStr i)
  | .bytes b => tagged "bytes-base64" (btoa b)
  | .array items => .array (encodeItems items)
  | .object properties => .object ((encodeProperties properties).foldl (fun o p => assign p.1 p.2 o) [])
  | .bool b => .bool b
  | .number n => .number n
  | .string s => .string s

def encodeItems : List Value → List Value
  | [] => []
  | v :: items => encodeProviderParameter v :: encodeItems items

def encodeProperties : List (Str × Value) → List (Str × Value)
  | [] => []
  | (key, v) :: properties => (key, encodeProviderParameter v) :: encodeProperties properties

end

/-! ## The provider -/

/-- The tag of a decoded body's parameter: that of an object, if it is a string. -/
def tagOf (value : Value) : Option Str :=
  match value.property "__adgType" with
  | .string tag => some tag
  | _ => none

/-- `decodeParameter`; `none` is the `TypeError` of `String(value.value)`. -/
def decodeParameter (value : Value) : Option Value :=
  if tagOf value = some (str "bigint") then (value.property "value").toText.map .string
  else if tagOf value = some (str "bytes-base64") then
    (if (value.property "value").truthy then value.property "value" else .string []).toText.map
      (fun t => .bytes (bufferFromBase64 t))
  else some value

/-- What the provider binds for a parameter: encoded, written and read as JSON, decoded. -/
def boundByProvider (v : Value) : Option Value := do
  let text ← ((stringify (encodeProviderParameter (normalizeParameter v))).toOption).join
  let received ← parse text
  decodeParameter received

/-! ## What the trip keeps -/

/-- A part of a parameter that is sent as it is and read as it was. -/
def isPlain : Value → Bool
  | .undefined | .bigint _ | .bytes _ => false
  | .number n => n.isFinite && decide (n ≠ .zero true)
  | .object properties => !(properties.map Prod.fst).contains protoKey
  | .null | .bool _ | .string _ | .array _ => true

/-- The parameters of which both back ends bind one value. -/
def agrees : Value → Bool
  | .undefined | .bigint _ | .bytes _ => true
  | .object properties =>
    (Value.object properties).all isPlain && decide (tagOf (.object properties) ≠ some (str "bigint")) &&
      decide (tagOf (.object properties) ≠ some (str "bytes-base64"))
  | v => v.all isPlain

theorem encodeItems_eq (items : List Value) : encodeItems items = items.map encodeProviderParameter := by
  induction items with
  | nil => rfl
  | cons v items ih => rw [encodeItems, ih, List.map_cons]

theorem encodeProperties_eq (properties : List (Str × Value)) :
    encodeProperties properties = properties.map (fun p => (p.1, encodeProviderParameter p.2)) := by
  induction properties with
  | nil => rfl
  | cons p properties ih =>
    obtain ⟨key, v⟩ := p
    rw [encodeProperties, ih, List.map_cons]

theorem foldl_assign (properties acc : List (Str × Value)) :
    properties.foldl (fun o p => assign p.1 p.2 o) acc =
      (properties.filter (fun p => decide (p.1 ≠ protoKey))).foldl (fun o p => place p.1 p.2 o) acc := by
  induction properties generalizing acc with
  | nil => rfl
  | cons p properties ih =>
    by_cases h : p.1 = protoKey
    · rw [List.foldl_cons, assign, if_pos h, ih, List.filter_cons_of_neg (by simp [h])]
    · rw [List.foldl_cons, assign, if_neg h, ih, List.filter_cons_of_pos (by simp [h]), List.foldl_cons]

theorem orderedKeys_filter {properties : List (Str × Value)} (p : Str × Value → Bool)
    (h : orderedKeys (properties.map Prod.fst) = true) : orderedKeys ((properties.filter p).map Prod.fst) = true :=
  decide_eq_true ((of_decide_eq_true h).sublist (List.filter_sublist.map _))

/-- The own properties of an encoded object. -/
theorem encode_object {properties : List (Str × Value)} (h : orderedKeys (properties.map Prod.fst) = true) :
    encodeProviderParameter (.object properties) =
      .object ((properties.filter (fun p => decide (p.1 ≠ protoKey))).map
        (fun p => (p.1, encodeProviderParameter p.2))) := by
  have hkeys : ((properties.map (fun p => (p.1, encodeProviderParameter p.2))).filter
      (fun p => decide (p.1 ≠ protoKey))) =
      (properties.filter (fun p => decide (p.1 ≠ protoKey))).map (fun p => (p.1, encodeProviderParameter p.2)) :=
    List.filter_map
  rw [encodeProviderParameter, encodeProperties_eq, foldl_assign, hkeys]
  congr 1
  refine placeAll_ordered ?_
  rw [List.map_map]
  exact orderedKeys_filter _ h

theorem tagged_json (tag : String) (value : Str) : (tagged tag value).Json := by
  refine Value.json_object (show orderedKeys [str "__adgType", str "value"] = true by decide +kernel) ?_
  simp only [List.mem_cons, List.not_mem_nil, or_false, forall_eq_or_imp, forall_eq]
  exact ⟨Value.json_leaf rfl rfl, Value.json_leaf rfl rfl⟩

theorem ordered_item {items : List Value} (h : (Value.array items).all Value.isOrdered = true) :
    ∀ v ∈ items, v.all Value.isOrdered = true := by
  rw [Value.all, Value.allItems_eq, Bool.and_eq_true, List.all_eq_true] at h
  exact h.2

theorem ordered_property {properties : List (Str × Value)}
    (h : (Value.object properties).all Value.isOrdered = true) :
    orderedKeys (properties.map Prod.fst) = true ∧ ∀ p ∈ properties, p.2.all Value.isOrdered = true := by
  rw [Value.all, Value.allProperties_eq, Bool.and_eq_true, List.all_eq_true] at h
  exact h

/-- What the adapter sends is what JSON can hold. -/
theorem encode_json (v : Value) : v.all Value.isOrdered = true → (encodeProviderParameter v).Json := by
  induction v using Value.induct with
  | leaf v hleaf =>
    intro _
    cases v with
    | array _ | object _ => cases hleaf
    | bigint i => exact tagged_json _ _
    | bytes b => exact tagged_json _ _
    | undefined | null | bool _ | number _ | string _ => exact Value.json_leaf rfl rfl
  | array items ih =>
    intro h
    rw [encodeProviderParameter, encodeItems_eq]
    refine Value.json_array (fun w hw => ?_)
    obtain ⟨v, hv, rfl⟩ := List.mem_map.1 hw
    exact ih v hv (ordered_item h v hv)
  | object properties ih =>
    intro h
    obtain ⟨hkeys, hproperties⟩ := ordered_property h
    rw [encode_object hkeys]
    refine Value.json_object ?_ (fun q hq => ?_)
    · rw [List.map_map]
      exact orderedKeys_filter _ hkeys
    · obtain ⟨p, hp, rfl⟩ := List.mem_map.1 hq
      have hp := (List.mem_filter.1 hp).1
      exact ih p hp (hproperties p hp)

/-- **A parameter comes through encoder and JSON as itself exactly if it is plain in each of its parts.** -/
theorem reread_encode_iff (v : Value) : v.all Value.isOrdered = true →
    ((encodeProviderParameter v).reread = v ↔ v.all isPlain = true) := by
  induction v using Value.induct with
  | leaf v hleaf =>
    intro _
    cases v with
    | array _ | object _ => cases hleaf
    | number n =>
      cases n with
      | nan | infinite _ => exact ⟨by rintro ⟨⟩, by rintro ⟨⟩⟩
      | zero negative => cases negative <;> simp [encodeProviderParameter, Value.reread, Value.all, isPlain, Number.isFinite]
      | finite d => simp [encodeProviderParameter, Value.reread, Value.all, isPlain, Number.isFinite]
    | undefined | bigint _ | bytes _ => exact ⟨by rintro ⟨⟩, by rintro ⟨⟩⟩
    | null | bool _ | string _ => exact ⟨fun _ => rfl, fun _ => rfl⟩
  | array items ih =>
    intro h
    have hmap : items.map (fun v => (encodeProviderParameter v).reread) = items ↔
        ∀ v ∈ items, (encodeProviderParameter v).reread = v := by
      have h := List.map_inj_left (f := fun v => (encodeProviderParameter v).reread) (g := id) (l := items)
      rwa [List.map_id] at h
    rw [encodeProviderParameter, encodeItems_eq, Value.reread, Value.rereadItems_eq, List.map_map, Value.all,
      Value.allItems_eq, Value.array.injEq, Bool.and_eq_true, List.all_eq_true]
    refine hmap.trans ⟨fun hall => ⟨rfl, fun v hv => (ih v hv (ordered_item h v hv)).1 (hall v hv)⟩,
      fun hall v hv => (ih v hv (ordered_item h v hv)).2 (hall.2 v hv)⟩
  | object properties ih =>
    intro h
    obtain ⟨hkeys, hproperties⟩ := ordered_property h
    have hmap : ∀ ps : List (Str × Value), ps.map (fun p => (p.1, (encodeProviderParameter p.2).reread)) = ps ↔
        ∀ p ∈ ps, (encodeProviderParameter p.2).reread = p.2 := fun ps => by
      have h := List.map_inj_left (f := fun p : Str × Value => (p.1, (encodeProviderParameter p.2).reread)) (g := id)
        (l := ps)
      rw [List.map_id] at h
      rw [h]
      refine forall₂_congr (fun p _ => ?_)
      obtain ⟨key, v⟩ := p
      simp
    rw [encode_object hkeys, Value.reread, Value.rereadProperties_eq, List.map_map, Value.all, Value.allProperties_eq,
      Value.object.injEq, Bool.and_eq_true, List.all_eq_true]
    constructor
    · intro heq
      -- a dropped key makes the list shorter
      have hlength : (properties.filter (fun p => decide (p.1 ≠ protoKey))).length = properties.length := by
        have := congrArg List.length heq
        rwa [List.length_map] at this
      have hkept : ∀ p ∈ properties, decide (p.1 ≠ protoKey) = true := List.length_filter_eq_length_iff.1 hlength
      have hself : properties.filter (fun p => decide (p.1 ≠ protoKey)) = properties := List.filter_eq_self.2 hkept
      rw [hself] at heq
      refine ⟨?_, fun p hp => (ih p hp (hproperties p hp)).1 ((hmap properties).1 heq p hp)⟩
      rw [isPlain, Bool.not_eq_true', Bool.eq_false_iff]
      intro hcontains
      obtain ⟨p, hp, hkey⟩ := List.mem_map.1 (List.elem_iff.1 hcontains)
      exact of_decide_eq_true (hkept p hp) hkey
    · rintro ⟨hproto, hall⟩
      have hkept : ∀ p ∈ properties, decide (p.1 ≠ protoKey) = true := fun p hp => by
        refine decide_eq_true (fun hkey => ?_)
        rw [isPlain, Bool.not_eq_true', Bool.eq_false_iff] at hproto
        exact hproto (List.elem_iff.2 (hkey ▸ List.mem_map_of_mem hp))
      rw [List.filter_eq_self.2 hkept]
      exact (hmap properties).2 (fun p hp => (ih p hp (hproperties p hp)).2 (hall p hp))

theorem ordered_normalize {v : Value} (h : v.all Value.isOrdered = true) :
    (normalizeParameter v).all Value.isOrdered = true := by
  cases v with
  | bigint i =>
    rw [normalizeParameter]
    split <;> rfl
  | undefined | null | bool _ | number _ | string _ | bytes _ => rfl
  | array _ | object _ => exact h

theorem boundByProvider_eq (v : BuiltValue) :
    boundByProvider v.1 = decodeParameter (encodeProviderParameter (normalizeParameter v.1)).reread := by
  have hjson := encode_json _ (ordered_normalize v.2)
  rw [boundByProvider, stringify_json hjson]
  show (parse _).bind decodeParameter = _
  rw [parse_text hjson]
  rfl

theorem decodeParameter_untagged {v : Value} (h : tagOf v ≠ some (str "bigint"))
    (h' : tagOf v ≠ some (str "bytes-base64")) : decodeParameter v = some v := by
  rw [decodeParameter, if_neg h, if_neg h']

/-- A tagged object is never decoded to an object. -/
theorem decodeParameter_tagged {v : Value} {properties : List (Str × Value)}
    (h : tagOf v = some (str "bigint") ∨ tagOf v = some (str "bytes-base64")) :
    decodeParameter v ≠ some (.object properties) := by
  intro hdecode
  rw [decodeParameter] at hdecode
  split at hdecode
  · obtain ⟨t, -, ht⟩ := Option.map_eq_some_iff.1 hdecode
    cases ht
  split at hdecode
  · obtain ⟨t, -, ht⟩ := Option.map_eq_some_iff.1 hdecode
    cases ht
  · exact h.elim ‹_› ‹_›

/-- A byte array is decoded from its tag. -/
theorem decodeParameter_bytes (b : List UInt8) :
    decodeParameter (encodeProviderParameter (.bytes b)).reread = some (.bytes b) := by
  have hreread : (encodeProviderParameter (.bytes b)).reread = tagged "bytes-base64" (btoa b) := rfl
  have htag : tagOf (tagged "bytes-base64" (btoa b)) = some (str "bytes-base64") := rfl
  have hvalue : (tagged "bytes-base64" (btoa b)).property "value" = .string (btoa b) := rfl
  have htext : (if (Value.string (btoa b)).truthy then Value.string (btoa b) else .string []).toText = some (btoa b) := by
    cases btoa b <;> rfl
  rw [hreread, decodeParameter, htag, if_neg (by decide), if_pos rfl, hvalue, htext, Option.map_some,
    bufferFromBase64_btoa]

/-- **Both back ends bind one value exactly for the parameters of `agrees`.** -/
theorem boundByProvider_iff (v : BuiltValue) :
    boundByProvider v.1 = some (normalizeParameter v.1) ↔ agrees v.1 = true := by
  rw [boundByProvider_eq]
  obtain ⟨v, hv⟩ := v
  have huntagged : ∀ w : Value, tagOf (encodeProviderParameter w).reread = none → w.all Value.isOrdered = true →
      (decodeParameter (encodeProviderParameter w).reread = some w ↔ w.all isPlain = true) := fun w htag hw => by
    rw [decodeParameter_untagged (by rw [htag]; nofun) (by rw [htag]; nofun), Option.some.injEq]
    exact reread_encode_iff w hw
  cases v with
  | undefined => exact ⟨fun _ => rfl, fun _ => rfl⟩
  | bytes b => exact ⟨fun _ => rfl, fun _ => decodeParameter_bytes b⟩
  | bigint i =>
    refine ⟨fun _ => rfl, fun _ => ?_⟩
    simp only [normalizeParameter]
    split
    · rename_i hsafe
      obtain ⟨hfinite, hzero⟩ := Number.ofBigInt_kept hsafe
      have hplain : (Value.number (Number.ofBigInt i)).all isPlain = true := by
        simp [Value.all, isPlain, hfinite, hzero]
      refine (huntagged _ ?_ rfl).2 hplain
      cases Number.ofBigInt i <;> rfl
    · exact (huntagged _ rfl rfl).2 rfl
  | null | bool _ | string _ => exact huntagged _ rfl rfl
  | number n => exact huntagged _ (by cases n <;> rfl) rfl
  | array items => exact huntagged _ rfl hv
  | object properties =>
    have hplain := reread_encode_iff (.object properties) hv
    show decodeParameter (encodeProviderParameter (.object properties)).reread = some (.object properties) ↔ _
    rw [agrees, Bool.and_eq_true, Bool.and_eq_true, decide_eq_true_eq, decide_eq_true_eq, ← hplain]
    constructor
    · intro h
      by_cases htag : tagOf (encodeProviderParameter (.object properties)).reread = some (str "bigint") ∨
          tagOf (encodeProviderParameter (.object properties)).reread = some (str "bytes-base64")
      · exact absurd h (decodeParameter_tagged htag)
      · rw [not_or] at htag
        rw [decodeParameter_untagged htag.1 htag.2, Option.some.injEq] at h
        rw [h] at htag
        exact ⟨⟨h, htag.1⟩, htag.2⟩
    · rintro ⟨⟨h, hbigint⟩, hbytes⟩
      rw [h, decodeParameter_untagged hbigint hbytes]

/-- A BigInt in an array is bound as the object that stands for it. -/
theorem boundByProvider_nested :
    boundByProvider (.array [.bigint 5]) ≠ some (normalizeParameter (.array [.bigint 5])) := by
  rw [boundByProvider_eq ⟨.array [.bigint 5], rfl⟩]
  have h : decodeParameter (encodeProviderParameter (normalizeParameter (.array [.bigint 5]))).reread =
      some (.array [tagged "bigint" (intStr 5)]) := rfl
  rw [h]
  nofun

end Database
end Adg
