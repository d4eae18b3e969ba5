import AdgLang.CanonicalJson
import AdgLang.ExportMigration
import AdgLang.JsBase64
import Mathlib.Logic.Function.Basic
/-!
# RowProfiles — the profile of a set of rows

`buildRowSetProfile` and `canonicalizeValue` of `migrate-d1-export-to-postgres.mjs`.  A row is written as the JSON of its
columns, each with the kind of its value; the lines of the rows are sorted and joined, and hashed.  The bytes hashed are
those of one multiset of rows: two row sets have the same bytes exactly when they are equal (`profileInput_eq_iff`).
-/
namespace Adg
namespace Migration

open Js
open Protocol (strLe)

/-! ## Values -/

/-- A part of a JSON document that was parsed: its numbers are finite. -/
def isDocumentPart : Value → Bool
  | .number n => n.isFinite
  | v => v.isJson

/-- A value that a column can hold: of a plain kind, or a JSON document. -/
def isContent : Value → Bool
  | .undefined => false
  | .array items => (Value.array items).all isDocumentPart && (Value.array items).all Value.isOrdered
  | .object properties =>
    (Value.object properties).all isDocumentPart && (Value.object properties).all Value.isOrdered
  | .null | .bool _ | .number _ | .bigint _ | .string _ | .bytes _ => true

abbrev Content := { v : Value // isContent v = true }

/-- A row as a driver gives it: the value under each column. -/
abbrev Row := Str → Content

def entry (kind : String) (payload : Value) : Value := .array [.string (str kind), payload]

def canonicalizeValue : Value → Except String Value
  | .null => .ok (entry "null" .null)
  | .bigint i => .ok (entry "bigint" (.string (intStr i)))
  | .number n => .ok (entry "number" (if n.isFinite then .number n else .string n.toText))
  | .string s => .ok (entry "string" (.string s))
  | .bool b => .ok (entry "boolean" (.bool b))
  | .bytes b => .ok (entry "blob" (.string (btoa b)))
  | v => do
    let text ← stringify v
    return entry "json" ((text.map Value.string).getD .undefined)

/-- The line of a row. -/
def rowString (columns : List Column) (row : Row) : Except String Str := do
  let cells ← columns.mapM (fun column => do
    let value ← canonicalizeValue (row column.name).1
    return Value.array [.string column.name, value])
  let text ← stringify (.array cells)
  return text.getD (str "undefined")

/-- `sort` of strings. -/
def sortStrings (strings : List Str) : List Str := strings.insertionSort (fun a b => strLe a b = true)

def newline : UInt16 := 0x0A

/-- `join` with a line feed. -/
def joinLines : List Str → Str
  | [] => []
  | line :: lines => line ++ lines.flatMap (newline :: ·)

/-- The bytes that `buildRowSetProfile` hashes. -/
def profileInput (columns : List Column) (rows : List Row) : Except String (List UInt8) := do
  let rowStrings ← rows.mapM (rowString columns)
  return encodeUtf8 (joinLines (sortStrings rowStrings))

structure Profile (δ : Type) where
  count : Nat
  sha256 : δ
deriving DecidableEq

def buildRowSetProfile {δ : Type} (sha256 : List UInt8 → δ) (columns : List Column) (rows : List Row) :
    Except String (Profile δ) := do
  let input ← profileInput columns rows
  return ⟨rows.length, sha256 input⟩

/-! ## What is equal -/

/-- A value without the sign of its zeros, which `===` does not see. -/
def unsigned : Value → Value
  | .number (.zero _) => .number (.zero false)
  | .number n => .number n
  | v => v.reread

/-- The values of a row in the columns. -/
def cells (columns : List Column) (row : Row) : List Value := columns.map (fun column => unsigned (row column.name).1)

/-! ## The line of a row -/

/-- What the profile tells apart of the values of columns. -/
inductive Kind
  | null | bigint | number | string | boolean | blob | json
deriving DecidableEq

def Kind.tag : Kind → String
  | .null => "null"
  | .bigint => "bigint"
  | .number => "number"
  | .string => "string"
  | .boolean => "boolean"
  | .blob => "blob"
  | .json => "json"

theorem Kind.tag_injective : ∀ k l : Kind, str k.tag = str l.tag → k = l := by
  intro k l
  cases k <;> cases l <;> decide

def kindOf : Value → Kind
  | .null => .null
  | .bigint _ => .bigint
  | .number _ => .number
  | .string _ => .string
  | .bool _ => .boolean
  | .bytes _ => .blob
  | .undefined | .array _ | .object _ => .json

def payloadOf : Value → Value
  | .null => .null
  | .bigint i => .string (intStr i)
  | .number n => if n.isFinite then .number n else .string n.toText
  | .string s => .string s
  | .bool b => .bool b
  | .bytes b => .string (btoa b)
  | .undefined => .undefined
  | .array items => .string (Value.array items).text
  | .object properties => .string (Value.object properties).text

theorem document_json {v : Value} (h : v.all isDocumentPart = true) (hordered : v.all Value.isOrdered = true) : v.Json :=
  ⟨Value.all_mono (fun w hw => by cases w <;> first | rfl | cases hw) v h, hordered⟩

theorem canonicalizeValue_content (v : Content) : canonicalizeValue v.1 = .ok (entry (kindOf v.1).tag (payloadOf v.1)) := by
  obtain ⟨v, hv⟩ := v
  cases v with
  | undefined => cases hv
  | null | bool _ | number _ | bigint _ | string _ | bytes _ => rfl
  | array items =>
    have hboth := (Bool.and_eq_true _ _).mp hv
    show (stringify _ >>= _) = _
    rw [stringify_json (document_json hboth.1 hboth.2)]
    rfl
  | object properties =>
    have hboth := (Bool.and_eq_true _ _).mp hv
    show (stringify _ >>= _) = _
    rw [stringify_json (document_json hboth.1 hboth.2)]
    rfl

theorem payloadOf_json (v : Content) : (payloadOf v.1).Json := by
  obtain ⟨v, hv⟩ := v
  cases v with
  | undefined => cases hv
  | number n =>
    rw [payloadOf]
    split <;> exact Value.json_leaf rfl rfl
  | null | bool _ | bigint _ | string _ | bytes _ | array _ | object _ => exact Value.json_leaf rfl rfl

theorem intStr_injective {i j : Int} (h : intStr i = intStr j) : i = j := by
  have hminus : ∀ n : Nat, unit '-' ∉ natStr n := fun n hmem => absurd (isDigit_natStr n _ hmem) (by decide)
  rw [intStr, intStr] at h
  by_cases hi : i < 0 <;> by_cases hj : j < 0 <;> simp only [hi, hj, decide_true, decide_false, sign, if_true,
    Bool.false_eq_true, if_false, List.nil_append, List.cons_append, List.cons.injEq, true_and] at h
  · have habs := natStr_injective h
    omega
  · exact absurd (h ▸ List.mem_cons_self) (hminus _)
  · exact absurd (h ▸ List.mem_cons_self) (hminus _)
  · have habs := natStr_injective h
    omega

theorem btoa_injective {a b : List UInt8} (h : btoa a = btoa b) : a = b := by
  have hread := atob_btoa a
  rw [h, atob_btoa b] at hread
  exact (Option.some.inj hread).symm

theorem reread_string (s : Str) : (Value.string s).reread = .string s := rfl

/-- Numbers are written alike when they are the same but for the sign of zero. -/
theorem number_payload_iff (m n : Number) :
    (payloadOf (.number m)).reread = (payloadOf (.number n)).reread ↔ unsigned (.number m) = unsigned (.number n) := by
  have hinfinite : ∀ b c : Bool, (Number.infinite b).toText = (Number.infinite c).toText ↔ b = c := by decide
  have hnan : ∀ b : Bool, (Number.infinite b).toText ≠ Number.nan.toText := by decide
  cases m <;> cases n <;>
    simp [payloadOf, Number.isFinite, Value.reread, unsigned, hinfinite, hnan, (hnan _).symm]

theorem kindOf_unsigned (v : Value) : kindOf (unsigned v) = kindOf v := by
  cases v with
  | number n => cases n <;> rfl
  | undefined | null | bool _ | bigint _ | string _ | bytes _ | array _ | object _ => rfl

/-- What a document is written as. -/
theorem document_payload {v : Value} (hv : isContent v = true) (hkind : kindOf v = .json) :
    v.Json ∧ payloadOf v = .string v.text ∧ unsigned v = v.reread := by
  cases v with
  | undefined => cases hv
  | null | bool _ | number _ | bigint _ | string _ | bytes _ => cases hkind
  | array items =>
    have hboth := (Bool.and_eq_true _ _).mp hv
    exact ⟨document_json hboth.1 hboth.2, rfl, rfl⟩
  | object properties =>
    have hboth := (Bool.and_eq_true _ _).mp hv
    exact ⟨document_json hboth.1 hboth.2, rfl, rfl⟩

/-- Two values of one kind, not documents, are written alike when they are the same. -/
theorem plain_payload_iff {v w : Value} (hkind : kindOf v = kindOf w) (hplain : kindOf v ≠ .json) :
    (payloadOf v).reread = (payloadOf w).reread ↔ unsigned v = unsigned w := by
  cases v with
  | undefined | array _ | object _ => exact absurd rfl hplain
  | null => cases w <;> first | (simp only [kindOf, reduceCtorEq] at hkind; done) | simp [payloadOf, unsigned, Value.reread]
  | bool b => cases w <;> first | (simp only [kindOf, reduceCtorEq] at hkind; done) | simp [payloadOf, unsigned, Value.reread]
  | number n => cases w <;> first | (simp only [kindOf, reduceCtorEq] at hkind; done) | exact number_payload_iff n _
  | string s => cases w <;> first | (simp only [kindOf, reduceCtorEq] at hkind; done) | simp [payloadOf, unsigned, Value.reread]
  | bigint i =>
    cases w <;> first | (simp only [kindOf, reduceCtorEq] at hkind; done) | skip
    simp only [payloadOf, unsigned, Value.reread, Value.string.injEq, Value.bigint.injEq]
    exact ⟨intStr_injective, congrArg intStr⟩
  | bytes b =>
    cases w <;> first | (simp only [kindOf, reduceCtorEq] at hkind; done) | skip
    simp only [payloadOf, unsigned, Value.reread, Value.string.injEq, Value.bytes.injEq]
    exact ⟨btoa_injective, congrArg btoa⟩

/-- **The kind and what is written of a value** say which value it is, but for the sign of zeros. -/
theorem payload_eq_iff (v w : Content) :
    (kindOf v.1 = kindOf w.1 ∧ (payloadOf v.1).reread = (payloadOf w.1).reread) ↔ unsigned v.1 = unsigned w.1 := by
  obtain ⟨v, hv⟩ := v
  obtain ⟨w, hw⟩ := w
  show kindOf v = kindOf w ∧ _ ↔ _
  by_cases hkind : kindOf v = kindOf w
  · rw [and_iff_right hkind]
    by_cases hjson : kindOf v = .json
    · obtain ⟨hvjson, hvpayload, hvunsigned⟩ := document_payload hv hjson
      obtain ⟨hwjson, hwpayload, hwunsigned⟩ := document_payload hw (hkind ▸ hjson)
      rw [hvpayload, hwpayload, hvunsigned, hwunsigned, ← Value.text_eq_iff hvjson hwjson, reread_string, reread_string,
        Value.string.injEq]
    · exact plain_payload_iff hkind hjson
  · exact iff_of_false (fun h => hkind h.1) (fun h => hkind (by rw [← kindOf_unsigned v, h, kindOf_unsigned]))

/-! ## The line of a row -/

/-- What is written of a row. -/
def rowValue (columns : List Column) (row : Row) : Value :=
  .array (columns.map (fun column =>
    Value.array [.string column.name, entry (kindOf (row column.name).1).tag (payloadOf (row column.name).1)]))

theorem entry_json {kind : String} {payload : Value} (h : payload.Json) : (entry kind payload).Json :=
  Value.json_array (by
    rintro v (_ | ⟨_, _ | ⟨_, ⟨⟩⟩⟩)
    · exact Value.json_leaf rfl rfl
    · exact h)

theorem rowValue_json (columns : List Column) (row : Row) : (rowValue columns row).Json :=
  Value.json_array (fun v hv => by
    obtain ⟨column, -, rfl⟩ := List.mem_map.1 hv
    refine Value.json_array (fun w hw => ?_)
    rcases List.mem_cons.1 hw with rfl | hw
    · exact Value.json_leaf rfl rfl
    · rw [List.mem_singleton.1 hw]
      exact entry_json (payloadOf_json _))

theorem mapM_ok {ε α β : Type} (f : α → Except ε β) (g : α → β) (l : List α) (h : ∀ a ∈ l, f a = .ok (g a)) :
    l.mapM f = .ok (l.map g) := by
  induction l with
  | nil => rfl
  | cons a l ih =>
    rw [List.mapM_cons, h a (by simp), ih (fun b hb => h b (by simp [hb]))]
    rfl

theorem rowString_eq (columns : List Column) (row : Row) : rowString columns row = .ok (rowValue columns row).text := by
  rw [rowString, mapM_ok _ (fun column => Value.array [.string column.name,
    entry (kindOf (row column.name).1).tag (payloadOf (row column.name).1)]) columns
    (fun column _ => by rw [canonicalizeValue_content]; rfl)]
  show (stringify (rowValue columns row) >>= _) = _
  rw [stringify_json (rowValue_json columns row)]
  rfl

/-- **Rows have one line exactly when they are equal** in the columns. -/
theorem rowValue_text_iff (columns : List Column) (row other : Row) :
    (rowValue columns row).text = (rowValue columns other).text ↔ cells columns row = cells columns other := by
  rw [Value.text_eq_iff (rowValue_json columns row) (rowValue_json columns other), rowValue, rowValue, cells, cells,
    Value.reread, Value.reread, Value.rereadItems_eq, Value.rereadItems_eq, List.map_map, List.map_map,
    Value.array.injEq, List.map_inj_left, List.map_inj_left]
  refine forall₂_congr (fun column _ => ?_)
  rw [← payload_eq_iff]
  simp only [Function.comp_apply, entry, Value.reread, Value.rereadItems, Value.array.injEq, List.cons.injEq,
    Value.string.injEq, and_true, true_and]
  exact and_congr_left (fun _ => ⟨Kind.tag_injective _ _, congrArg (fun kind : Kind => str kind.tag)⟩)

/-! ## The lines of the rows -/

theorem quote_printed (s : Str) : ∀ u ∈ quote s, 0x20 ≤ u.toNat := by
  have hhex : ∀ n < 16, 0x20 ≤ (hexDigit n).toNat := by decide
  have hescape : ∀ u : UInt16, ∀ v ∈ unicodeEscape u, 0x20 ≤ v.toNat := fun u v hv => by
    have hu := u.toNat_lt
    simp only [unicodeEscape, List.mem_cons, List.not_mem_nil, or_false] at hv
    rcases hv with rfl | rfl | rfl | rfl | rfl | rfl
    · decide
    · decide
    all_goals exact hhex _ (by omega)
  have hshort : ∀ e ∈ shortEscapes, 0x20 ≤ e.2.toNat := forall_mem_of_all (by decide)
  have hunit : ∀ u : UInt16, ∀ v ∈ quoteUnit u, 0x20 ≤ v.toNat := fun u v hv => by
    rw [quoteUnit] at hv
    split at hv
    · rename_i e hfind
      rcases List.mem_cons.1 hv with rfl | hv
      · decide
      · rw [List.mem_singleton.1 hv]
        exact hshort e (List.mem_of_find?_eq_some hfind)
    · split at hv
      · exact hescape u v hv
      · rename_i hlt
        rw [List.mem_singleton.1 hv]
        exact Nat.not_lt.1 (fun h => hlt (UInt16.lt_iff_toNat_lt.2 h))
  have hunits : ∀ (afterLead : Bool) (s : Str), ∀ v ∈ quoteUnits afterLead s, 0x20 ≤ v.toNat := by
    intro afterLead s
    induction s generalizing afterLead with
    | nil => exact List.forall_mem_nil _
    | cons u s ih =>
      intro v hv
      rw [quoteUnits] at hv
      rcases List.mem_append.1 hv with hv | hv
      · split at hv
        · exact hescape u v hv
        · exact hunit u v hv
      · exact ih _ v hv
  intro v hv
  rcases List.mem_cons.1 hv with rfl | hv
  · decide
  rcases List.mem_append.1 hv with hv | hv
  · exact hunits false s v hv
  · rw [List.mem_singleton.1 hv]
    decide

theorem commas_printed (ts : List Str) (h : ∀ t ∈ ts, ∀ u ∈ t, 0x20 ≤ u.toNat) : ∀ u ∈ commas ts, 0x20 ≤ u.toNat := by
  cases ts with
  | nil => nofun
  | cons t ts =>
    intro u hu
    rcases List.mem_append.1 hu with hu | hu
    · exact h t (by simp) u hu
    · obtain ⟨w, hw, hu⟩ := List.mem_flatMap.1 hu
      rcases List.mem_cons.1 hu with rfl | hu
      · decide
      · exact h w (by simp [hw]) u hu

/-- **JSON is written on one line**, and holds no control characters. -/
theorem text_printed (v : Value) : v.Json → ∀ u ∈ v.text, 0x20 ≤ u.toNat := by
  have hatom : ∀ u : UInt16, isAtomUnit u = true → 0x20 ≤ u.toNat := fun u hu => by
    simp only [isAtomUnit, isDigit, Bool.or_eq_true, Bool.and_eq_true, decide_eq_true_eq, beq_iff_eq] at hu
    omega
  induction v using Value.induct with
  | leaf v hleaf =>
    intro h
    have hkind := h.isJson
    cases v with
    | array _ | object _ => cases hleaf
    | undefined | bigint _ | bytes _ => cases hkind
    | null => exact show ∀ u ∈ str "null", 0x20 ≤ u.toNat by decide
    | bool b => cases b <;> exact show ∀ u ∈ str _, 0x20 ≤ u.toNat by decide
    | number n =>
      cases n with
      | nan | infinite _ => exact show ∀ u ∈ str "null", 0x20 ≤ u.toNat by decide
      | zero _ => exact show ∀ u ∈ str "0", 0x20 ≤ u.toNat by decide
      | finite d => exact fun u hu => hatom u (isAtomUnit_toText d u hu)
    | string s => exact quote_printed s
  | array items ih =>
    intro h
    have hitems : ∀ t ∈ Value.itemTexts items, ∀ u ∈ t, 0x20 ≤ u.toNat := by
      have hall : ∀ v ∈ items, ∀ u ∈ v.text, 0x20 ≤ u.toNat := fun v hv => ih v hv (h.item v hv)
      clear ih h
      induction items with
      | nil => exact List.forall_mem_nil _
      | cons v items ih =>
        simp only [Value.itemTexts, List.mem_cons, forall_eq_or_imp]
        exact ⟨hall v (by simp), ih (fun w hw => hall w (by simp [hw]))⟩
    intro u hu
    rcases List.mem_cons.1 hu with rfl | hu
    · decide
    rcases List.mem_append.1 hu with hu | hu
    · exact commas_printed _ hitems u hu
    · rw [List.mem_singleton.1 hu]
      decide
  | object properties ih =>
    intro h
    have hproperties : ∀ t ∈ Value.propertyTexts properties, ∀ u ∈ t, 0x20 ≤ u.toNat := by
      have hall : ∀ p ∈ properties, p.2.isJson = true ∧ ∀ u ∈ p.2.text, 0x20 ≤ u.toNat :=
        fun p hp => ⟨(h.property p hp).isJson, ih p hp (h.property p hp)⟩
      clear ih h
      induction properties with
      | nil => exact List.forall_mem_nil _
      | cons p properties ih =>
        obtain ⟨key, v⟩ := p
        obtain ⟨hjson, hprinted⟩ := hall (key, v) (by simp)
        rw [propertyTexts_cons key hjson]
        simp only [List.mem_cons, forall_eq_or_imp]
        refine ⟨fun u hu => ?_, ih (fun q hq => hall q (by simp [hq]))⟩
        rcases List.mem_append.1 hu with hu | hu
        · exact quote_printed key u hu
        rcases List.mem_cons.1 hu with rfl | hu
        · decide
        · exact hprinted u hu
    intro u hu
    rcases List.mem_cons.1 hu with rfl | hu
    · decide
    rcases List.mem_append.1 hu with hu | hu
    · exact commas_printed _ hproperties u hu
    · rw [List.mem_singleton.1 hu]
      decide

/-- A line: a text without a line feed. -/
abbrev Line := { t : Str // newline ∉ t }

theorem line_prefixFree : PrefixFree (fun line : Line => line.1 ++ [newline]) where
  nonempty line := by simp
  split line other x y h := by
    have htake : ∀ (l : Line) (z : Str), (l.1 ++ [newline] ++ z).takeWhile (· ≠ newline) = l.1 := fun l z => by
      rw [List.append_assoc, List.takeWhile_append_of_pos (fun u hu => by
        exact decide_eq_true (fun heq => l.2 (heq ▸ hu)))]
      simp
    have heq := congrArg (List.takeWhile (· ≠ newline)) h
    rw [htake, htake] at heq
    exact Subtype.ext heq

theorem joinLines_cons_cons (line other : Str) (lines : List Str) :
    joinLines (line :: other :: lines) = line ++ newline :: joinLines (other :: lines) := by
  rw [joinLines, joinLines, List.flatMap_cons, List.cons_append]

/-- Joined lines, with the line feed after the last of them. -/
theorem joinLines_terminated (line : Str) (lines : List Str) :
    joinLines (line :: lines) ++ [newline] = (line :: lines).flatMap (· ++ [newline]) := by
  induction lines generalizing line with
  | nil => simp [joinLines]
  | cons other lines ih =>
    rw [joinLines_cons_cons, List.append_assoc, List.cons_append, ih other, List.flatMap_cons (x := line),
      List.append_assoc]
    rfl

/-- **Joined lines are read back**, of lines that are not empty. -/
theorem joinLines_injective {lines others : List Str} (hlines : ∀ t ∈ lines, newline ∉ t ∧ t ≠ [])
    (hothers : ∀ t ∈ others, newline ∉ t ∧ t ≠ []) (h : joinLines lines = joinLines others) : lines = others := by
  have hempty : ∀ (t : Str) (ts : List Str), t ≠ [] → joinLines (t :: ts) ≠ [] := fun t ts ht heq =>
    ht (List.append_eq_nil_iff.1 heq).1
  cases lines with
  | nil =>
    cases others with
    | nil => rfl
    | cons t others => exact absurd h.symm (hempty t others (hothers t (by simp)).2)
  | cons t lines =>
    cases others with
    | nil => exact absurd h (hempty t lines (hlines t (by simp)).2)
    | cons t' others =>
      have heq := congrArg (· ++ [newline]) h
      simp only [joinLines_terminated] at heq
      have hlift : ∀ l : List Str, (∀ t ∈ l, newline ∉ t ∧ t ≠ []) → ∃ m : List Line, m.map Subtype.val = l := fun l hl =>
        ⟨l.attach.map (fun t => ⟨t.1, (hl t.1 t.2).1⟩), by simp⟩
      obtain ⟨m, hm⟩ := hlift _ hlines
      obtain ⟨m', hm'⟩ := hlift _ hothers
      rw [← hm, ← hm', List.flatMap_map, List.flatMap_map] at heq
      rw [← hm, ← hm', line_prefixFree.flatMap_injective heq]

/-- Two lists are sorted alike exactly when each is the other in another order. -/
theorem sortStrings_eq_iff {strings others : List Str} : sortStrings strings = sortStrings others ↔ strings.Perm others := by
  have htotal : Std.Total (fun s t : Str => strLe s t = true) := ⟨Protocol.strLe_total⟩
  have htrans : IsTrans Str (fun s t : Str => strLe s t = true) := ⟨fun _ _ _ => Protocol.strLe_trans⟩
  constructor
  · intro h
    refine (List.perm_insertionSort (fun s t => strLe s t = true) strings).symm.trans ?_
    rw [show strings.insertionSort (fun s t => strLe s t = true) = sortStrings others from h]
    exact List.perm_insertionSort _ others
  · intro h
    have hperm : (sortStrings strings).Perm (sortStrings others) :=
      ((List.perm_insertionSort _ strings).trans h).trans (List.perm_insertionSort _ others).symm
    exact hperm.eq_of_pairwise (fun s t _ _ hst hts => Protocol.strLe_antisymm hst hts)
      (List.pairwise_insertionSort _ strings) (List.pairwise_insertionSort _ others)

/-- Functions that tell the same apart make the same multisets equal. -/
theorem map_perm_iff {α β γ : Type} {f : α → β} {g : α → γ} (h : ∀ a b, f a = f b ↔ g a = g b) (l l' : List α) :
    (l.map f).Perm (l'.map f) ↔ (l.map g).Perm (l'.map g) := by
  have hone : ∀ {β γ : Type} (f : α → β) (g : α → γ), (∀ a b, f a = f b → g a = g b) →
      (l.map f).Perm (l'.map f) → (l.map g).Perm (l'.map g) := fun {β γ} f g h hperm => by
    cases l with
    | nil => rw [List.map_nil, List.nil_perm, List.map_eq_nil_iff] at hperm; rw [hperm]
    | cons a l =>
      have hfactors : g.FactorsThrough f := fun a b hab => h a b hab
      have hmap : ∀ l : List α, l.map g = (l.map f).map (f.extend g (fun _ => g a)) := fun l => by
        rw [List.map_map]
        exact List.map_congr_left (fun b _ => (hfactors.extend_apply _ b).symm)
      rw [hmap, hmap]
      exact hperm.map _
  exact ⟨hone f g (fun a b => (h a b).1), hone g f (fun a b => (h a b).2)⟩

theorem profileInput_eq (columns : List Column) (rows : List Row) : profileInput columns rows =
    .ok (encodeUtf8 (joinLines (sortStrings (rows.map (fun row => (rowValue columns row).text))))) := by
  rw [profileInput, mapM_ok _ (fun row => (rowValue columns row).text) rows (fun row _ => rowString_eq columns row)]
  rfl

/-- **Two row sets have one hash input exactly when they are equal as multisets of rows.** -/
theorem profileInput_iff (columns : List Column) (rows others : List Row) :
    profileInput columns rows = profileInput columns others ↔
      (rows.map (cells columns)).Perm (others.map (cells columns)) := by
  have hline : ∀ (rows : List Row), ∀ t ∈ sortStrings (rows.map (fun row => (rowValue columns row).text)),
      (newline ∉ t ∧ t ≠ []) ∧ isWellFormed t = true := fun rows t ht => by
    obtain ⟨row, -, rfl⟩ := List.mem_map.1 ((List.mem_insertionSort _).1 ht)
    have hjson := rowValue_json columns row
    exact ⟨⟨fun hmem => absurd (text_printed _ hjson _ hmem) (by decide), List.cons_ne_nil _ _⟩,
      isWellFormed_text _ hjson⟩
  have hwf : ∀ lines : List Str, (∀ t ∈ lines, isWellFormed t = true) → isWellFormed (joinLines lines) = true := by
    intro lines h
    cases lines with
    | nil => rfl
    | cons t lines =>
      induction lines generalizing t with
      | nil => simpa [joinLines] using h t (by simp)
      | cons other lines ih =>
        rw [joinLines_cons_cons]
        exact isWellFormed_append (h t (by simp)) (isWellFormed_append (s := [newline]) (by decide)
          (ih other (fun w hw => h w (by simp at hw ⊢; tauto))))
  rw [profileInput_eq, profileInput_eq, Except.ok.injEq, ← map_perm_iff (rowValue_text_iff columns), ← sortStrings_eq_iff]
  constructor
  · intro h
    exact joinLines_injective (fun t ht => (hline rows t ht).1) (fun t ht => (hline others t ht).1)
      (encodeUtf8_injective (hwf _ (fun t ht => (hline rows t ht).2)) (hwf _ (fun t ht => (hline others t ht).2)) h)
  · intro h
    rw [h]

end Migration
end Adg
