import AdgLang.JsNumber
import AdgLang.JsUtf8
/-!
# JsJson — JavaScript values, `JSON.stringify` and `JSON.parse`

A value is what a parameter or a parsed document can hold.  An object is the list of its own properties in the order
in which they are enumerated: the array indices ascending, then the other keys as they were added; `place` is the
assignment that keeps this order.  `text` writes a value, `parse` reads one, and `parse_text` says what comes back:
the value itself but for its numbers, of which JSON keeps neither a sign of zero nor what is not finite.
-/
namespace Js

inductive Value
  | undefined
  | null
  | bool (b : Bool)
  | number (n : Number)
  | bigint (i : Int)
  | string (s : Str)
  | bytes (b : List UInt8)
  | array (items : List Value)
  | object (properties : List (Str × Value))

/-- The array index a property key is, if it is one. -/
def arrayIndex (key : Str) : Option Nat :=
  if key = natStr (natOf key) ∧ natOf key < 2 ^ 32 - 1 then some (natOf key) else none

/-- A key is enumerated before the other whenever they were added. -/
def precedes (a b : Str) : Bool :=
  match arrayIndex a, arrayIndex b with
  | some m, some n => decide (m < n)
  | some _, none => true
  | none, _ => false

/-- Assigns an own property: in place if the key is there, else where its key is enumerated. -/
def place {α : Type} (key : Str) (value : α) : List (Str × α) → List (Str × α)
  | [] => [(key, value)]
  | p :: properties =>
    if p.1 = key then (key, value) :: properties
    else if precedes key p.1 then (key, value) :: p :: properties
    else p :: place key value properties

attribute [grind =] place

/-- The object whose properties were assigned in this order. -/
def placeAll {α : Type} (properties : List (Str × α)) : List (Str × α) :=
  properties.foldl (fun o p => place p.1 p.2 o) []

/-- Keys as the own properties of an object have them: none twice, in the order of enumeration. -/
def orderedKeys (keys : List Str) : Bool := decide (keys.Pairwise (fun a b => a ≠ b ∧ precedes b a = false))

theorem place_last {α : Type} {key : Str} {value : α} {properties : List (Str × α)}
    (h : ∀ p ∈ properties, p.1 ≠ key ∧ precedes key p.1 = false) :
    place key value properties = properties ++ [(key, value)] := by
  induction properties with
  | nil => rfl
  | cons p properties ih =>
    obtain ⟨hne, hbefore⟩ := h p (by simp)
    rw [place, if_neg hne, hbefore, ih (fun q hq => h q (by simp [hq]))]
    rfl

theorem foldl_place {α : Type} (properties acc : List (Str × α))
    (h : orderedKeys ((acc ++ properties).map Prod.fst) = true) :
    properties.foldl (fun o p => place p.1 p.2 o) acc = acc ++ properties := by
  induction properties generalizing acc with
  | nil => simp
  | cons p properties ih =>
    have hlast : ∀ q ∈ acc, q.1 ≠ p.1 ∧ precedes p.1 q.1 = false := fun q hq => by
      have hpairs := of_decide_eq_true h
      rw [List.map_append, List.pairwise_append] at hpairs
      exact hpairs.2.2 q.1 (List.mem_map_of_mem hq) p.1 (by simp)
    rw [List.foldl_cons, place_last hlast, ih (acc ++ [p]) (by simpa using h), List.append_assoc]
    rfl

theorem placeAll_ordered {α : Type} {properties : List (Str × α)} (h : orderedKeys (properties.map Prod.fst) = true) :
    placeAll properties = properties := foldl_place properties [] h

theorem precedes_trans {a b c : Str} (hab : precedes a b = true) (hbc : precedes b c = true) : precedes a c = true := by
  revert hab hbc
  rw [precedes, precedes, precedes]
  cases arrayIndex a <;> cases arrayIndex b <;> cases arrayIndex c <;> simp
  omega

theorem precedes_asymm {a b : Str} (hab : precedes a b = true) : precedes b a = false := by
  revert hab
  rw [precedes, precedes]
  cases arrayIndex a <;> cases arrayIndex b <;> simp
  omega

theorem place_perm {α : Type} {key : Str} {value : α} {properties : List (Str × α)}
    (h : key ∉ properties.map Prod.fst) : (place key value properties).Perm ((key, value) :: properties) := by
  induction properties with
  | nil => exact .refl _
  | cons p properties ih =>
    rw [List.map_cons, List.mem_cons, not_or] at h
    rw [place, if_neg (Ne.symm h.1)]
    split
    · exact .refl _
    · exact ((ih h.2).cons p).trans (.swap _ _ _)

theorem orderedKeys_place {α : Type} {key : Str} {value : α} {properties : List (Str × α)}
    (h : key ∉ properties.map Prod.fst) (hordered : orderedKeys (properties.map Prod.fst) = true) :
    orderedKeys ((place key value properties).map Prod.fst) = true := by
  have hpairs := of_decide_eq_true hordered
  refine decide_eq_true ?_
  clear hordered
  induction properties with
  | nil => simp [place]
  | cons p properties ih =>
    rw [List.map_cons, List.mem_cons, not_or] at h
    rw [List.map_cons, List.pairwise_cons] at hpairs
    rw [place, if_neg (Ne.symm h.1)]
    split
    · rename_i hbefore
      rw [List.map_cons, List.map_cons, List.pairwise_cons, List.pairwise_cons]
      refine ⟨fun k hk => ?_, hpairs⟩
      rcases List.mem_cons.1 hk with rfl | hk
      · exact ⟨h.1, precedes_asymm hbefore⟩
      · refine ⟨fun heq => h.2 (by rw [show key = k from heq]; exact hk), ?_⟩
        by_contra hafter
        rw [Bool.not_eq_false] at hafter
        have hbetween := precedes_trans hafter hbefore
        rw [(hpairs.1 k hk).2] at hbetween
        cases hbetween
    · rename_i hbefore
      rw [List.map_cons, List.pairwise_cons]
      refine ⟨fun k hk => ?_, ih h.2 hpairs.2⟩
      have hk := ((place_perm h.2).map Prod.fst).mem_iff.1 hk
      rcases List.mem_cons.1 hk with rfl | hk
      · exact ⟨Ne.symm h.1, Bool.not_eq_true _ ▸ hbefore⟩
      · exact hpairs.1 k hk

theorem place_map {α β : Type} (f : α → β) (key : Str) (value : α) (properties : List (Str × α)) :
    place key (f value) (properties.map (fun p => (p.1, f p.2))) =
      (place key value properties).map (fun p => (p.1, f p.2)) := by
  induction properties with
  | nil => rfl
  | cons p properties ih =>
    rw [List.map_cons, place, place]
    split
    · rfl
    split
    · rfl
    · rw [ih, List.map_cons]

theorem foldl_place_map {α β : Type} (f : α → β) (properties acc : List (Str × α)) :
    (properties.map (fun p => (p.1, f p.2))).foldl (fun o p => place p.1 p.2 o) (acc.map (fun p => (p.1, f p.2))) =
      (properties.foldl (fun o p => place p.1 p.2 o) acc).map (fun p => (p.1, f p.2)) := by
  induction properties generalizing acc with
  | nil => rfl
  | cons p properties ih =>
    have hplace := place_map f p.1 p.2 acc
    rw [List.map_cons, List.foldl_cons, List.foldl_cons, ← ih (place p.1 p.2 acc), ← hplace]

theorem placeAll_map {α β : Type} (f : α → β) (properties : List (Str × α)) :
    placeAll (properties.map (fun p => (p.1, f p.2))) = (placeAll properties).map (fun p => (p.1, f p.2)) :=
  foldl_place_map f properties []

/-- Properties with different keys stay the same properties, in the order of enumeration. -/
theorem foldl_place_spec {α : Type} (properties acc : List (Str × α))
    (hkeys : ((acc ++ properties).map Prod.fst).Nodup) (hordered : orderedKeys (acc.map Prod.fst) = true) :
    (properties.foldl (fun o p => place p.1 p.2 o) acc).Perm (acc ++ properties) ∧
      orderedKeys ((properties.foldl (fun o p => place p.1 p.2 o) acc).map Prod.fst) = true := by
  induction properties generalizing acc with
  | nil => exact ⟨by rw [List.append_nil]; exact .refl _, hordered⟩
  | cons p properties ih =>
    have hnew : p.1 ∉ acc.map Prod.fst := fun hmem => by
      rw [List.map_append, List.map_cons, List.nodup_append] at hkeys
      exact hkeys.2.2 _ hmem _ (by simp) rfl
    have hplace : (place p.1 p.2 acc).Perm ((p.1, p.2) :: acc) := place_perm hnew
    have hperm : (place p.1 p.2 acc ++ properties).Perm (acc ++ p :: properties) :=
      (hplace.append_right properties).trans List.perm_middle.symm
    obtain ⟨hrest, hrest'⟩ := ih (place p.1 p.2 acc) ((hperm.map Prod.fst).nodup_iff.2 hkeys)
      (orderedKeys_place hnew hordered)
    exact ⟨hrest.trans hperm, hrest'⟩

theorem placeAll_perm {α : Type} {properties : List (Str × α)} (h : (properties.map Prod.fst).Nodup) :
    (placeAll properties).Perm properties := (foldl_place_spec properties [] h rfl).1

theorem orderedKeys_placeAll {α : Type} {properties : List (Str × α)} (h : (properties.map Prod.fst).Nodup) :
    orderedKeys ((placeAll properties).map Prod.fst) = true := (foldl_place_spec properties [] h rfl).2

theorem nodup_of_orderedKeys {keys : List Str} (h : orderedKeys keys = true) : keys.Nodup :=
  (of_decide_eq_true h).imp (fun hab => hab.1)

/-- The texts with commas between them. -/
def commas : List Str → Str
  | [] => []
  | t :: ts => t ++ ts.flatMap (unit ',' :: ·)

/-- A byte array is written as the object of its indices. -/
def bytesText (b : List UInt8) : Str :=
  unit '\x7b' :: (commas (b.mapIdx (fun i u => quote (natStr i) ++ unit ':' :: natStr u.toNat)) ++ [unit '\x7d'])

namespace Value

def isUndefined : Value → Bool
  | .undefined => true
  | _ => false

mutual

/-- A property of a value and of everything in it. -/
def all (p : Value → Bool) : Value → Bool
  | .array items => p (.array items) && allItems p items
  | .object properties => p (.object properties) && allProperties p properties
  | .undefined => p .undefined
  | .null => p .null
  | .bool b => p (.bool b)
  | .number n => p (.number n)
  | .bigint i => p (.bigint i)
  | .string s => p (.string s)
  | .bytes b => p (.bytes b)

def allItems (p : Value → Bool) : List Value → Bool
  | [] => true
  | v :: items => all p v && allItems p items

def allProperties (p : Value → Bool) : List (Str × Value) → Bool
  | [] => true
  | (_, v) :: properties => all p v && allProperties p properties

end

attribute [grind =] all allItems allProperties

mutual

/-- `SerializeJSONProperty`, of a value in which no BigInt is; an item that is undefined is written as null. -/
def text : Value → Str
  | .undefined => str "null"
  | .null => str "null"
  | .bool b => if b then str "true" else str "false"
  | .number n => if n.isFinite then n.toText else str "null"
  | .bigint _ => []
  | .string s => quote s
  | .bytes b => bytesText b
  | .array items => unit '[' :: (commas (itemTexts items) ++ [unit ']'])
  | .object properties => unit '\x7b' :: (commas (propertyTexts properties) ++ [unit '\x7d'])

def itemTexts : List Value → List Str
  | [] => []
  | v :: items => text v :: itemTexts items

/-- A property that is undefined is left out. -/
def propertyTexts : List (Str × Value) → List Str
  | [] => []
  | (key, v) :: properties =>
    if v.isUndefined then propertyTexts properties
    else (quote key ++ unit ':' :: text v) :: propertyTexts properties

end

attribute [grind =] text itemTexts propertyTexts

def isBigInt : Value → Bool
  | .bigint _ => true
  | _ => false

end Value

/-- `JSON.stringify`: a BigInt anywhere makes it throw, and of undefined there is no text. -/
def stringify (v : Value) : Except String (Option Str) :=
  if v.all (fun w => !w.isBigInt) then .ok (if v.isUndefined then none else some v.text)
  else .error "Do not know how to serialize a BigInt"

/-- The white space of JSON. -/
def skip (t : Str) : Str := t.dropWhile (fun u => u == 0x20 || u == 0x09 || u == 0x0A || u == 0x0D)

/-- What a run of letters, digits and signs stands for. -/
def readAtom (run : Str) : Option Value :=
  if run = str "null" then some .null
  else if run = str "true" then some (.bool true)
  else if run = str "false" then some (.bool false)
  else (readNumber run).map .number

mutual

def readValue : Nat → Str → Option (Value × Str)
  | 0, _ => none
  | fuel + 1, t =>
    let t := skip t
    if t.head? = some (unit '"') then (readString t.tail).map (fun r => (.string r.1, r.2))
    else if t.head? = some (unit '[') then
      if (skip t.tail).head? = some (unit ']') then some (.array [], (skip t.tail).tail)
      else (readItems fuel t.tail).map (fun r => (.array r.1, r.2))
    else if t.head? = some (unit '\x7b') then
      if (skip t.tail).head? = some (unit '\x7d') then some (.object [], (skip t.tail).tail)
      else (readProperties fuel t.tail).map (fun r => (.object (placeAll r.1), r.2))
    else (readAtom (t.takeWhile isAtomUnit)).map (fun v => (v, t.dropWhile isAtomUnit))

/-- The items of an array up to its end, at least one. -/
def readItems : Nat → Str → Option (List Value × Str)
  | 0, _ => none
  | fuel + 1, t => do
    let (v, rest) ← readValue fuel t
    let rest := skip rest
    if rest.head? = some (unit ',') then
      let (items, rest) ← readItems fuel rest.tail
      return (v :: items, rest)
    else if rest.head? = some (unit ']') then return ([v], rest.tail)
    else none

/-- The properties of an object up to its end, at least one, in the order of the text. -/
def readProperties : Nat → Str → Option (List (Str × Value) × Str)
  | 0, _ => none
  | fuel + 1, t => do
    let t := skip t
    if t.head? ≠ some (unit '"') then none
    let (key, rest) ← readString t.tail
    let rest := skip rest
    if rest.head? ≠ some (unit ':') then none
    let (v, rest) ← readValue fuel rest.tail
    let rest := skip rest
    if rest.head? = some (unit ',') then
      let (properties, rest) ← readProperties fuel rest.tail
      return ((key, v) :: properties, rest)
    else if rest.head? = some (unit '\x7d') then return ([(key, v)], rest.tail)
    else none

end

attribute [grind =] readValue readItems readProperties

/-- `JSON.parse`; `none` is the `SyntaxError` it throws. -/
def parse (t : Str) : Option Value :=
  match readValue (t.length + 1) t with
  | some (v, rest) => if skip rest = [] then some v else none
  | none => none

namespace Value

/-- An own property of an object; any other value has none of the keys that are read here. -/
def property (key : String) : Value → Value
  | .object properties => ((properties.find? (fun p => p.1 == str key)).map Prod.snd).getD .undefined
  | _ => .undefined

/-- `ToBoolean`. -/
def truthy : Value → Bool
  | .undefined | .null => false
  | .bool b => b
  | .number n => match n with
    | .nan | .zero _ => false
    | .infinite _ | .finite _ => true
  | .bigint i => decide (i ≠ 0)
  | .string s => !s.isEmpty
  | .bytes _ | .array _ | .object _ => true

mutual

/-- `ToString`; `none` is the `TypeError` that an object throws whose own `toString` is no function. -/
def toText : Value → Option Str
  | .undefined => some (str "undefined")
  | .null => some (str "null")
  | .bool b => some (if b then str "true" else str "false")
  | .number n => some n.toText
  | .bigint i => some (intStr i)
  | .string s => some s
  | .bytes b => some (commas (b.map (fun u => natStr u.toNat)))
  | .array items => (itemStrings items).map commas
  | .object properties =>
    if (properties.map Prod.fst).contains (str "toString") then none else some (str "[object Object]")

/-- The items as `join` writes them, undefined and null as nothing. -/
def itemStrings : List Value → Option (List Str)
  | [] => some []
  | v :: items => do
    let t ← toText v
    let ts ← itemStrings items
    return (match v with | .undefined | .null => [] | _ => t) :: ts

end

attribute [grind =] toText itemStrings

/-- `ToNumber`; `none` is the `TypeError` of `toText`. -/
def toNumber : Value → Option Number
  | .undefined => some .nan
  | .null => some (.zero false)
  | .bool b => some (if b then Number.ofDecimal false 1 0 else .zero false)
  | .number n => some n
  | .bigint i => some (Number.ofBigInt i)
  | .string s => some (Number.ofText s)
  | v => v.toText.map Number.ofText

end Value

namespace Value

mutual

/-- What JSON makes of a value: a number that is not finite becomes null, and zero loses its sign. -/
def reread : Value → Value
  | .number n =>
    match n with
    | .nan | .infinite _ => .null
    | .zero _ => .number (.zero false)
    | .finite d => .number (.finite d)
  | .array items => .array (rereadItems items)
  | .object properties => .object (rereadProperties properties)
  | .undefined => .undefined
  | .null => .null
  | .bool b => .bool b
  | .bigint i => .bigint i
  | .string s => .string s
  | .bytes b => .bytes b

def rereadItems : List Value → List Value
  | [] => []
  | v :: items => reread v :: rereadItems items

def rereadProperties : List (Str × Value) → List (Str × Value)
  | [] => []
  | (key, v) :: properties => (key, reread v) :: rereadProperties properties

end

attribute [grind =] reread rereadItems rereadProperties

/-- A value of a kind that JSON has. -/
def isJson : Value → Bool
  | .undefined | .bigint _ | .bytes _ => false
  | .null | .bool _ | .number _ | .string _ | .array _ | .object _ => true

/-- The own properties of an object are in the order of enumeration. -/
def isOrdered : Value → Bool
  | .object properties => orderedKeys (properties.map Prod.fst)
  | _ => true

/-- JSON keeps the value if it is a number. -/
def isKept : Value → Bool
  | .number n => n.isFinite && decide (n ≠ .zero true)
  | _ => true

theorem allItems_eq (p : Value → Bool) (items : List Value) : allItems p items = items.all (all p) := by
  induction items with
  | nil => rfl
  | cons v items ih => rw [allItems, ih, List.all_cons]

theorem allProperties_eq (p : Value → Bool) (properties : List (Str × Value)) :
    allProperties p properties = properties.all (fun q => all p q.2) := by
  induction properties with
  | nil => rfl
  | cons q properties ih =>
    obtain ⟨key, v⟩ := q
    rw [allProperties, ih, List.all_cons]

end Value

/-! Reading back what is written. -/

/-- What follows a value in a text: nothing, or a unit that is no part of an atom. -/
def Delimited (rest : Str) : Prop := ∀ u, rest.head? = some u → isAtomUnit u = false

theorem delimited_cons {u : UInt16} (h : isAtomUnit u = false) (rest : Str) : Delimited (u :: rest) := by
  intro v hv
  obtain rfl : u = v := Option.some.inj hv
  exact h

theorem skip_cons {u : UInt16} (h : isSpace u = false) (rest : Str) : skip (u :: rest) = u :: rest := by
  have hspace : (u == 0x20 || u == 0x09 || u == 0x0A || u == 0x0D) = false := by
    by_contra hu
    rw [Bool.not_eq_false] at hu
    simp only [Bool.or_eq_true, beq_iff_eq] at hu
    rcases hu with ((rfl | rfl) | rfl) | rfl <;> revert h <;> decide
  rw [skip, List.dropWhile_cons_of_neg (by simp only [hspace, Bool.false_eq_true, not_false_eq_true])]

theorem isSpace_of_isAtomUnit {u : UInt16} (h : isAtomUnit u = true) : isSpace u = false := by
  simp only [isAtomUnit, isDigit, Bool.or_eq_true, Bool.and_eq_true, decide_eq_true_eq, beq_iff_eq] at h
  simp only [isSpace, Bool.or_eq_false_iff, Bool.and_eq_false_iff, decide_eq_false_iff_not, beq_eq_false_iff_ne]
  omega

/-- What `readAtom` reads is no punctuation. -/
theorem punctuation_of_isAtomUnit {u : UInt16} (h : isAtomUnit u = true) :
    u ≠ unit '"' ∧ u ≠ unit '[' ∧ u ≠ unit '\x7b' := by
  refine ⟨?_, ?_, ?_⟩ <;> rintro rfl <;> revert h <;> decide

theorem readValue_atom {run rest : Str} {v : Value} (hne : run ≠ []) (hunits : ∀ u ∈ run, isAtomUnit u = true)
    (hrest : Delimited rest) (hv : readAtom run = some v) (fuel : Nat) :
    readValue (fuel + 1) (run ++ rest) = some (v, rest) := by
  have hspan : (run ++ rest).takeWhile isAtomUnit = run ∧ (run ++ rest).dropWhile isAtomUnit = rest := by
    rw [List.takeWhile_append_of_pos hunits, List.dropWhile_append_of_pos hunits]
    cases rest with
    | nil => simp
    | cons u rest => simp [hrest u rfl]
  obtain ⟨u, run', rfl⟩ := List.exists_cons_of_ne_nil hne
  obtain ⟨hmark, hbracket, hbrace⟩ := punctuation_of_isAtomUnit (hunits u (by simp))
  rw [List.cons_append] at hspan
  rw [readValue, List.cons_append, skip_cons (isSpace_of_isAtomUnit (hunits u (by simp)))]
  simp only [List.head?_cons, Option.some.injEq, if_neg hmark, if_neg hbracket, if_neg hbrace, hspan.1, hspan.2, hv,
    Option.map_some]

theorem readAtom_toText (d : Decimal) : readAtom (Number.finite d).toText = some (.number (.finite d)) := by
  have hread := readNumber_toText d
  have hword : ∀ w, readNumber w = none → (Number.finite d).toText ≠ w := by
    rintro w hw rfl
    rw [hread] at hw
    cases hw
  rw [readAtom, if_neg (hword _ (by decide)), if_neg (hword _ (by decide)), if_neg (hword _ (by decide)), hread]
  rfl

theorem isAtomUnit_toText (d : Decimal) : ∀ u ∈ (Number.finite d).toText, isAtomUnit u = true := by
  intro u hu
  rw [Number.toText, List.mem_append] at hu
  rcases hu with hu | hu
  · rw [sign] at hu
    split at hu
    · obtain rfl := List.mem_singleton.1 hu
      decide
    · cases hu
  · exact isAtomUnit_magnitude d u hu

theorem toText_ne_nil (d : Decimal) : (Number.finite d).toText ≠ [] := fun h => by
  have := readNumber_toText d
  rw [h] at this
  revert this
  simp [readNumber, readLiteral, readExponent, Literal.isJson]

/-- A number is an atom, whatever it is. -/
theorem readValue_number (n : Number) {rest : Str} (hrest : Delimited rest) (fuel : Nat) :
    readValue (fuel + 1) ((Value.number n).text ++ rest) = some ((Value.number n).reread, rest) := by
  cases n with
  | nan => exact readValue_atom (show str "null" ≠ [] by decide) (forall_mem_of_all (by decide)) hrest rfl fuel
  | infinite negative => exact readValue_atom (show str "null" ≠ [] by decide) (forall_mem_of_all (by decide)) hrest rfl fuel
  | zero negative => exact readValue_atom (show str "0" ≠ [] by decide) (forall_mem_of_all (by decide)) hrest rfl fuel
  | finite d => exact readValue_atom (toText_ne_nil d) (isAtomUnit_toText d) hrest (readAtom_toText d) fuel

theorem delimited_of_mem {u : UInt16} (rest : Str) (h : u ∈ [unit ',', unit ']', unit '\x7d']) : Delimited (u :: rest) :=
  delimited_cons (forall_mem_of_all (p := fun u => isAtomUnit u = false) (by decide) u h) rest

/-- The first unit of a value's text is no white space and closes nothing. -/
theorem text_head {v : Value} (h : v.isJson = true) :
    ∃ u t, v.text = u :: t ∧ isSpace u = false ∧ u ≠ unit ']' ∧ u ≠ unit '\x7d' := by
  have hatom : ∀ run, run ≠ [] → (∀ u ∈ run, isAtomUnit u = true) →
      ∃ u t, run = u :: t ∧ isSpace u = false ∧ u ≠ unit ']' ∧ u ≠ unit '\x7d' := fun run hne hunits => by
    obtain ⟨u, t, rfl⟩ := List.exists_cons_of_ne_nil hne
    have hu := hunits u (by simp)
    exact ⟨u, t, rfl, isSpace_of_isAtomUnit hu, by rintro rfl; revert hu; decide, by rintro rfl; revert hu; decide⟩
  cases v with
  | undefined | bigint _ | bytes _ => cases h
  | null => exact hatom (str "null") (by decide) (forall_mem_of_all (by decide))
  | bool b => cases b <;> exact hatom (str _) (by decide) (forall_mem_of_all (by decide))
  | number n =>
    cases n with
    | nan | infinite _ => exact hatom (str "null") (by decide) (forall_mem_of_all (by decide))
    | zero _ => exact hatom (str "0") (by decide) (forall_mem_of_all (by decide))
    | finite d => exact hatom _ (toText_ne_nil d) (isAtomUnit_toText d)
  | string s => exact ⟨unit '"', _, rfl, by decide⟩
  | array items => exact ⟨unit '[', _, rfl, by decide⟩
  | object properties => exact ⟨unit '\x7b', _, rfl, by decide⟩

/-- A value is read back from its text wherever the text stands, with fuel for each of its units. -/
def ReadBack (v : Value) : Prop :=
  ∀ fuel rest, v.text.length < fuel → Delimited rest → readValue fuel (v.text ++ rest) = some (v.reread, rest)

/-- A value that JSON can hold in each of its parts. -/
def Value.Json (v : Value) : Prop := v.all Value.isJson = true ∧ v.all Value.isOrdered = true

/-- A value as the language builds it, the own properties of each object in the order of enumeration. -/
abbrev BuiltValue := { v : Value // v.all Value.isOrdered = true }

theorem Value.Json.isJson {v : Value} (h : v.Json) : v.isJson = true := by
  have h := h.1
  cases v <;> simp_all [Value.all, Value.isJson]

theorem Value.Json.item {items : List Value} (h : (Value.array items).Json) : ∀ v ∈ items, v.Json := by
  intro v hv
  obtain ⟨hjson, hordered⟩ := h
  rw [Value.all, Value.allItems_eq, Bool.and_eq_true, List.all_eq_true] at hjson hordered
  exact ⟨hjson.2 v hv, hordered.2 v hv⟩

theorem Value.Json.property {properties : List (Str × Value)} (h : (Value.object properties).Json) :
    ∀ p ∈ properties, p.2.Json := by
  intro p hp
  obtain ⟨hjson, hordered⟩ := h
  rw [Value.all, Value.allProperties_eq, Bool.and_eq_true, List.all_eq_true] at hjson hordered
  exact ⟨hjson.2 p hp, hordered.2 p hp⟩

theorem Value.Json.ordered {properties : List (Str × Value)} (h : (Value.object properties).Json) :
    orderedKeys (properties.map Prod.fst) = true := by
  have h := h.2
  rw [Value.all, Bool.and_eq_true] at h
  exact h.1

theorem rereadProperties_keys (properties : List (Str × Value)) :
    (Value.rereadProperties properties).map Prod.fst = properties.map Prod.fst := by
  induction properties with
  | nil => rfl
  | cons p properties ih =>
    obtain ⟨key, v⟩ := p
    rw [Value.rereadProperties, List.map_cons, List.map_cons, ih]

/-- The items of an array, each of which is read back, are read back up to the end of the array. -/
theorem readItems_texts (v : Value) (items : List Value) (h : ∀ w ∈ v :: items, ReadBack w) (fuel : Nat) (rest : Str)
    (hfuel : (commas (Value.itemTexts (v :: items))).length + 1 < fuel) :
    readItems fuel (commas (Value.itemTexts (v :: items)) ++ unit ']' :: rest) =
      some (Value.rereadItems (v :: items), rest) := by
  induction items generalizing v fuel with
  | nil =>
    obtain ⟨fuel, rfl⟩ : ∃ n, fuel = n + 1 := ⟨fuel - 1, by omega⟩
    have hread := h v (by simp) fuel (unit ']' :: rest)
      (by simp [Value.itemTexts, commas] at hfuel; omega) (delimited_of_mem rest (by simp))
    have hcomma : unit ']' ≠ unit ',' := by decide
    simp only [Value.itemTexts, commas, List.flatMap_nil, List.append_nil]
    rw [readItems, hread]
    simp [skip_cons (show isSpace (unit ']') = false by decide), Value.rereadItems, hcomma]
  | cons w items ih =>
    obtain ⟨fuel, rfl⟩ : ∃ n, fuel = n + 1 := ⟨fuel - 1, by omega⟩
    simp only [Value.itemTexts, commas, List.flatMap_cons, List.append_assoc, List.cons_append, List.length_append,
      List.length_cons] at hfuel ⊢
    have hread := h v (by simp) fuel
      (unit ',' :: (w.text ++ ((Value.itemTexts items).flatMap (unit ',' :: ·) ++ unit ']' :: rest)))
      (by omega) (delimited_of_mem _ (by simp))
    have hrest := ih w (fun x hx => h x (List.mem_cons_of_mem _ hx)) fuel
      (by simp only [Value.itemTexts, commas, List.length_append]; omega)
    simp only [Value.itemTexts, commas, List.append_assoc] at hrest
    rw [readItems, hread]
    simp [skip_cons (show isSpace (unit ',') = false by decide), hrest, Value.rereadItems]

theorem propertyTexts_cons (key : Str) {v : Value} (hv : v.isJson = true) (properties : List (Str × Value)) :
    Value.propertyTexts ((key, v) :: properties) =
      (quote key ++ unit ':' :: v.text) :: Value.propertyTexts properties := by
  have hdefined : v.isUndefined = false := by cases v <;> first | rfl | cases hv
  rw [Value.propertyTexts, hdefined, if_neg Bool.false_ne_true]

/-- A property written as `quote key : text` is read back up to what follows it. -/
theorem readProperties_text {key : Str} {v : Value} (h : ReadBack v) (fuel : Nat) {rest : Str}
    (hfuel : v.text.length < fuel) (hrest : Delimited rest) :
    readProperties (fuel + 1) (quote key ++ unit ':' :: (v.text ++ rest)) =
      if (skip rest).head? = some (unit ',') then
        (readProperties fuel (skip rest).tail).map (fun r => ((key, v.reread) :: r.1, r.2))
      else if (skip rest).head? = some (unit '\x7d') then some ([(key, v.reread)], (skip rest).tail)
      else none := by
  have hkey := readString_quoteUnits key (unit ':' :: (v.text ++ rest)) false
  have hquote : quote key ++ unit ':' :: (v.text ++ rest) =
      unit '"' :: (quoteUnits false key ++ unit '"' :: (unit ':' :: (v.text ++ rest))) := by
    simp [quote]
  rw [readProperties, hquote]
  simp [skip_cons (show isSpace (unit '"') = false by decide), skip_cons (show isSpace (unit ':') = false by decide),
    hkey, h fuel rest hfuel hrest, Option.map_eq_bind]

theorem readProperties_texts (p : Str × Value) (properties : List (Str × Value))
    (hjson : ∀ q ∈ p :: properties, q.2.isJson = true) (h : ∀ q ∈ p :: properties, ReadBack q.2) (fuel : Nat)
    (rest : Str) (hfuel : (commas (Value.propertyTexts (p :: properties))).length + 1 < fuel) :
    readProperties fuel (commas (Value.propertyTexts (p :: properties)) ++ unit '\x7d' :: rest) =
      some (Value.rereadProperties (p :: properties), rest) := by
  induction properties generalizing p fuel with
  | nil =>
    obtain ⟨fuel, rfl⟩ : ∃ n, fuel = n + 1 := ⟨fuel - 1, by omega⟩
    obtain ⟨key, v⟩ := p
    have hbrace : unit '\x7d' ≠ unit ',' := by decide
    rw [propertyTexts_cons key (hjson (key, v) (by simp))] at hfuel ⊢
    simp only [Value.propertyTexts, commas, List.flatMap_nil, List.append_nil, List.append_assoc, List.cons_append,
      List.length_append, List.length_cons] at hfuel ⊢
    rw [readProperties_text (show ReadBack v from h (key, v) (by simp)) fuel (by omega) (delimited_of_mem rest (by simp)),
      skip_cons (by decide)]
    simp [hbrace, Value.rereadProperties]
  | cons q properties ih =>
    obtain ⟨fuel, rfl⟩ : ∃ n, fuel = n + 1 := ⟨fuel - 1, by omega⟩
    obtain ⟨key, v⟩ := p
    obtain ⟨key', w⟩ := q
    have hw := propertyTexts_cons key' (hjson (key', w) (by simp)) properties
    rw [propertyTexts_cons key (hjson (key, v) (by simp)), hw] at hfuel ⊢
    simp only [commas, List.flatMap_cons, List.append_assoc, List.cons_append, List.length_append,
      List.length_cons] at hfuel ⊢
    have hrest := ih (key', w) (fun x hx => hjson x (List.mem_cons_of_mem _ hx))
      (fun x hx => h x (List.mem_cons_of_mem _ hx)) fuel
      (by rw [hw]; simp only [commas, List.length_append, List.length_cons]; omega)
    rw [hw] at hrest
    simp only [commas, List.append_assoc, List.cons_append] at hrest
    rw [readProperties_text (show ReadBack v from h (key, v) (by simp)) fuel (by omega) (delimited_of_mem _ (by simp)),
      skip_cons (by decide)]
    simp [hrest, Value.rereadProperties]

def Value.isLeaf : Value → Bool
  | .array _ | .object _ => false
  | _ => true

mutual

/-- **Induction over a value**: through the items of an array and the properties of an object. -/
theorem Value.induct {P : Value → Prop} (leaf : ∀ v, v.isLeaf = true → P v)
    (array : ∀ items, (∀ v ∈ items, P v) → P (.array items))
    (object : ∀ properties, (∀ p ∈ properties, P p.2) → P (.object properties)) : ∀ v, P v
  | .array items => array items (Value.induct_items leaf array object items)
  | .object properties => object properties (Value.induct_properties leaf array object properties)
  | .undefined => leaf _ rfl
  | .null => leaf _ rfl
  | .bool _ => leaf _ rfl
  | .number _ => leaf _ rfl
  | .bigint _ => leaf _ rfl
  | .string _ => leaf _ rfl
  | .bytes _ => leaf _ rfl

theorem Value.induct_items {P : Value → Prop} (leaf : ∀ v, v.isLeaf = true → P v)
    (array : ∀ items, (∀ v ∈ items, P v) → P (.array items))
    (object : ∀ properties, (∀ p ∈ properties, P p.2) → P (.object properties)) :
    ∀ items : List Value, ∀ v ∈ items, P v
  | [], _, hv => by cases hv
  | w :: items, v, hv => by
    rcases List.mem_cons.1 hv with h | hv
    · rw [h]
      exact Value.induct leaf array object w
    · exact Value.induct_items leaf array object items v hv

theorem Value.induct_properties {P : Value → Prop} (leaf : ∀ v, v.isLeaf = true → P v)
    (array : ∀ items, (∀ v ∈ items, P v) → P (.array items))
    (object : ∀ properties, (∀ p ∈ properties, P p.2) → P (.object properties)) :
    ∀ properties : List (Str × Value), ∀ p ∈ properties, P p.2
  | [], _, hp => by cases hp
  | (key, v) :: properties, p, hp => by
    rcases List.mem_cons.1 hp with h | hp
    · rw [h]
      exact Value.induct leaf array object v
    · exact Value.induct_properties leaf array object properties p hp

end

theorem readBack (v : Value) : v.Json → ReadBack v := by
  induction v using Value.induct with
  | leaf v hleaf =>
    intro hv fuel rest hfuel hrest
    obtain ⟨fuel, rfl⟩ : ∃ n, fuel = n + 1 := ⟨fuel - 1, by omega⟩
    have hkind := hv.isJson
    cases v with
    | undefined | bigint _ | bytes _ => cases hkind
    | array _ | object _ => cases hleaf
    | null => exact readValue_atom (show str "null" ≠ [] by decide) (forall_mem_of_all (by decide)) hrest rfl fuel
    | bool b => cases b <;> exact readValue_atom (show str _ ≠ [] by decide) (forall_mem_of_all (by decide)) hrest rfl fuel
    | number n => exact readValue_number n hrest fuel
    | string s =>
      have hread := readString_quoteUnits s rest false
      simp [Value.text, quote, readValue, skip_cons (show isSpace (unit '"') = false by decide), hread, Value.reread]
  | array items ih =>
    intro hv fuel rest hfuel hrest
    obtain ⟨fuel, rfl⟩ : ∃ n, fuel = n + 1 := ⟨fuel - 1, by omega⟩
    have hopen : unit '[' ≠ unit '"' := by decide
    cases items with
    | nil =>
      simp [Value.text, Value.itemTexts, commas, readValue, skip_cons (show isSpace (unit '[') = false by decide),
        skip_cons (show isSpace (unit ']') = false by decide), hopen, Value.reread, Value.rereadItems]
    | cons w items =>
      have hread := readItems_texts w items (fun x hx => ih x hx (hv.item x hx)) fuel rest
        (by simp only [Value.text, List.length_cons, List.length_append] at hfuel; omega)
      obtain ⟨u, t, ht, hspace, hclose, -⟩ := text_head (hv.item w (by simp)).isJson
      have hskip : (skip (commas (Value.itemTexts (w :: items)) ++ unit ']' :: rest)).head? ≠ some (unit ']') := by
        rw [Value.itemTexts, commas, ht, List.cons_append, List.cons_append, skip_cons hspace]
        simpa using hclose
      simp only [Value.text, List.cons_append, List.append_assoc, List.nil_append]
      rw [readValue, skip_cons (by decide)]
      simp only [List.head?_cons, Option.some.injEq, if_neg hopen, if_true, List.tail_cons, if_neg hskip, hread,
        Option.map_some, Value.reread]
  | object properties ih =>
    intro hv fuel rest hfuel hrest
    obtain ⟨fuel, rfl⟩ : ∃ n, fuel = n + 1 := ⟨fuel - 1, by omega⟩
    have hopen : unit '\x7b' ≠ unit '"' ∧ unit '\x7b' ≠ unit '[' := by decide
    cases properties with
    | nil =>
      simp [Value.text, Value.propertyTexts, commas, readValue, skip_cons (show isSpace (unit '\x7b') = false by decide),
        skip_cons (show isSpace (unit '\x7d') = false by decide), hopen, Value.reread, Value.rereadProperties]
    | cons p properties =>
      have hjson : ∀ q ∈ p :: properties, q.2.isJson = true := fun q hq => (hv.property q hq).isJson
      have hread := readProperties_texts p properties hjson (fun x hx => ih x hx (hv.property x hx)) fuel rest
        (by simp only [Value.text, List.length_cons, List.length_append] at hfuel; omega)
      have hskip : (skip (commas (Value.propertyTexts (p :: properties)) ++ unit '\x7d' :: rest)).head? ≠
          some (unit '\x7d') := by
        obtain ⟨key, v⟩ := p
        rw [propertyTexts_cons key (hjson (key, v) (by simp)), commas, quote, List.cons_append, List.cons_append,
          List.cons_append, skip_cons (by decide), List.head?_cons]
        decide
      have hplaced : placeAll (Value.rereadProperties (p :: properties)) = Value.rereadProperties (p :: properties) :=
        placeAll_ordered (by rw [rereadProperties_keys]; exact hv.ordered)
      simp only [Value.text, List.cons_append, List.append_assoc, List.nil_append]
      rw [readValue, skip_cons (by decide)]
      simp only [List.head?_cons, Option.some.injEq, if_neg hopen.1, if_neg hopen.2, if_true, List.tail_cons,
        if_neg hskip, hread, Option.map_some, hplaced, Value.reread]

/-- **What JSON gives back of a value**: the value, but for its numbers. -/
theorem parse_text {v : Value} (h : v.Json) : parse v.text = some v.reread := by
  have hread := readBack v h (v.text.length + 1) [] (by omega) (fun u hu => by cases hu)
  rw [List.append_nil] at hread
  rw [parse, hread]
  rfl

theorem Value.rereadItems_eq (items : List Value) : rereadItems items = items.map reread := by
  induction items with
  | nil => rfl
  | cons v items ih => rw [rereadItems, ih, List.map_cons]

theorem Value.rereadProperties_eq (properties : List (Str × Value)) :
    rereadProperties properties = properties.map (fun p => (p.1, reread p.2)) := by
  induction properties with
  | nil => rfl
  | cons p properties ih =>
    obtain ⟨key, v⟩ := p
    rw [rereadProperties, ih, List.map_cons]

theorem Value.isUndefined_reread (v : Value) : v.reread.isUndefined = v.isUndefined := by
  cases v with
  | number n => cases n <;> rfl
  | undefined | null | bool _ | bigint _ | string _ | bytes _ | array _ | object _ => rfl

/-- What JSON gives back is written as before. -/
theorem Value.text_reread (v : Value) : v.reread.text = v.text := by
  induction v using Value.induct with
  | leaf v hleaf =>
    cases v with
    | array _ | object _ => cases hleaf
    | number n => cases n <;> rfl
    | undefined | null | bool _ | bigint _ | string _ | bytes _ => rfl
  | array items ih =>
    have htexts : itemTexts (rereadItems items) = itemTexts items := by
      induction items with
      | nil => rfl
      | cons v items ihItems =>
        rw [rereadItems, itemTexts, itemTexts, ih v (by simp), ihItems (fun w hw => ih w (by simp [hw]))]
    rw [reread, text, text, htexts]
  | object properties ih =>
    have htexts : propertyTexts (rereadProperties properties) = propertyTexts properties := by
      induction properties with
      | nil => rfl
      | cons p properties ihProperties =>
        obtain ⟨key, v⟩ := p
        rw [rereadProperties, propertyTexts, propertyTexts, isUndefined_reread, ih (key, v) (by simp),
          ihProperties (fun q hq => ih q (by simp [hq]))]
    rw [reread, text, text, htexts]

/-- **Values are written alike exactly when JSON makes the same of them.** -/
theorem Value.text_eq_iff {v w : Value} (hv : v.Json) (hw : w.Json) : v.text = w.text ↔ v.reread = w.reread := by
  constructor
  · intro h
    have hread := parse_text hv
    rw [h, parse_text hw] at hread
    exact (Option.some.inj hread).symm
  · intro h
    rw [← text_reread v, h, text_reread w]

/-- JSON keeps exactly the values whose numbers are all finite and not the negative zero. -/
theorem Value.reread_eq_iff (v : Value) : v.reread = v ↔ v.all isKept = true := by
  induction v using Value.induct with
  | leaf v hleaf =>
    cases v with
    | array _ | object _ => cases hleaf
    | number n =>
      cases n with
      | nan | infinite _ => exact ⟨nofun, nofun⟩
      | zero negative => cases negative <;> simp [reread, all, isKept, Number.isFinite]
      | finite d => simp [reread, all, isKept, Number.isFinite]
    | undefined | null | bool _ | bigint _ | string _ | bytes _ => simp [reread, all, isKept]
  | array items ih =>
    rw [reread, rereadItems_eq, all, allItems_eq, Value.array.injEq]
    have hmap : items.map reread = items ↔ ∀ v ∈ items, reread v = v := by
      have h := List.map_inj_left (f := reread) (g := id) (l := items)
      rwa [List.map_id] at h
    rw [hmap, Bool.and_eq_true, List.all_eq_true]
    exact ⟨fun h => ⟨rfl, fun v hv => (ih v hv).1 (h v hv)⟩, fun h v hv => (ih v hv).2 (h.2 v hv)⟩
  | object properties ih =>
    rw [reread, rereadProperties_eq, all, allProperties_eq, Value.object.injEq]
    have hmap : properties.map (fun p => (p.1, reread p.2)) = properties ↔ ∀ p ∈ properties, reread p.2 = p.2 := by
      have h := List.map_inj_left (f := fun p => (p.1, reread p.2)) (g := id) (l := properties)
      rw [List.map_id] at h
      rw [h]
      refine forall₂_congr (fun p _ => ?_)
      obtain ⟨key, v⟩ := p
      simp
    rw [hmap, Bool.and_eq_true, List.all_eq_true]
    exact ⟨fun h => ⟨rfl, fun p hp => (ih p hp).1 (h p hp)⟩, fun h p hp => (ih p hp).2 (h.2 p hp)⟩

theorem Value.all_mono {p q : Value → Bool} (h : ∀ v, p v = true → q v = true) (v : Value) :
    v.all p = true → v.all q = true := by
  induction v using Value.induct with
  | leaf v hleaf =>
    cases v with
    | array _ | object _ => cases hleaf
    | undefined | null | bool _ | number _ | bigint _ | string _ | bytes _ => exact h _
  | array items ih =>
    rw [all, all, allItems_eq, allItems_eq, Bool.and_eq_true, Bool.and_eq_true, List.all_eq_true, List.all_eq_true]
    exact fun ⟨hp, hitems⟩ => ⟨h _ hp, fun v hv => ih v hv (hitems v hv)⟩
  | object properties ih =>
    rw [all, all, allProperties_eq, allProperties_eq, Bool.and_eq_true, Bool.and_eq_true, List.all_eq_true,
      List.all_eq_true]
    exact fun ⟨hp, hproperties⟩ => ⟨h _ hp, fun p hm => ih p hm (hproperties p hm)⟩

theorem Value.json_leaf {v : Value} (hleaf : v.isLeaf = true) (h : v.isJson = true) : v.Json := by
  cases v with
  | array _ | object _ => cases hleaf
  | undefined | bigint _ | bytes _ => cases h
  | null | bool _ | number _ | string _ => exact ⟨rfl, rfl⟩

theorem Value.json_array {items : List Value} (h : ∀ v ∈ items, v.Json) : (Value.array items).Json := by
  constructor <;> rw [all, allItems_eq, Bool.and_eq_true, List.all_eq_true]
  · exact ⟨rfl, fun v hv => (h v hv).1⟩
  · exact ⟨rfl, fun v hv => (h v hv).2⟩

theorem Value.json_object {properties : List (Str × Value)} (hordered : orderedKeys (properties.map Prod.fst) = true)
    (h : ∀ p ∈ properties, p.2.Json) : (Value.object properties).Json := by
  constructor <;> rw [all, allProperties_eq, Bool.and_eq_true, List.all_eq_true]
  · exact ⟨rfl, fun p hp => (h p hp).1⟩
  · exact ⟨hordered, fun p hp => (h p hp).2⟩

/-- A property that is there is one that JSON can hold. -/
theorem Value.Json.property_json {v : Value} (h : v.Json) {key : String}
    (hdefined : v.property key ≠ .undefined) : (v.property key).Json := by
  cases v with
  | object properties =>
    rw [Value.property] at hdefined ⊢
    cases hfind : properties.find? (fun p => p.1 == str key) with
    | none => rw [hfind] at hdefined; exact absurd rfl hdefined
    | some p => exact h.property p (List.mem_of_find?_eq_some hfind)
  | undefined | null | bool _ | number _ | bigint _ | string _ | bytes _ | array _ => exact absurd rfl hdefined

/-- Of a value that JSON can hold there is a text. -/
theorem stringify_json {v : Value} (h : v.Json) : stringify v = .ok (some v.text) := by
  have hbig : v.all (fun w => !w.isBigInt) = true :=
    Value.all_mono (fun w hw => by cases w <;> first | rfl | cases hw) v h.1
  have hdefined : v.isUndefined = false := by
    have hkind := h.isJson
    cases v <;> first | rfl | cases hkind
  rw [stringify, if_pos hbig, hdefined]
  rfl

/-! A JSON text has no half of a surrogate pair: the writer escapes it. -/

theorem quoteUnit_surrogate {u : UInt16} (h : isLead u = true ∨ isTrail u = true) : quoteUnit u = [u] := by
  rw [isLead_iff, isTrail_iff] at h
  have hshort : shortEscapes.find? (fun e => e.1 == u) = none := by
    rw [List.find?_eq_none]
    intro e he heq
    obtain rfl := beq_iff_eq.1 heq
    have hnot : ∀ e ∈ shortEscapes, ¬ (isLead e.1 = true ∨ isTrail e.1 = true) := forall_mem_of_all (by decide)
    rw [← isLead_iff, ← isTrail_iff] at h
    exact hnot e he h
  have hcontrol : ¬ u < 0x20 := by
    rw [UInt16.lt_iff_toNat_lt]
    have : (0x20 : UInt16).toNat = 0x20 := rfl
    omega
  rw [quoteUnit, hshort]
  simp only [if_neg hcontrol]

theorem isAscii_unicodeEscape (u : UInt16) : ∀ v ∈ unicodeEscape u, isAscii v = true := by
  have hdigit : ∀ n < 16, isAscii (hexDigit n) = true := by decide
  have hu := u.toNat_lt
  simp only [unicodeEscape, List.mem_cons, List.not_mem_nil, or_false, forall_eq_or_imp, forall_eq]
  exact ⟨by decide, by decide, hdigit _ (by omega), hdigit _ (by omega), hdigit _ (by omega), hdigit _ (by omega)⟩

theorem isWellFormed_quoteUnit {u : UInt16} (hlead : isLead u = false) (htrail : isTrail u = false) :
    isWellFormed (quoteUnit u) = true := by
  rw [quoteUnit]
  split
  · rename_i e he
    have hall : ∀ e ∈ shortEscapes, isWellFormed [unit '\\', e.2] = true :=
      forall_mem_of_all (by decide)
    exact hall e (List.mem_of_find?_eq_some he)
  · split
    · exact isWellFormed_ascii (isAscii_unicodeEscape u)
    · simp [isWellFormed, wellFormedFrom, hlead, htrail]

/-- Whether the unit before was a lead surrogate matters to a trail surrogate alone. -/
theorem quoteUnits_afterLead {s : Str} (h : startsTrail s = false) : quoteUnits true s = quoteUnits false s := by
  cases s with
  | nil => rfl
  | cons u s =>
    have hu : isTrail u = false := h
    rw [quoteUnits, quoteUnits, hu]
    rfl

theorem isWellFormed_quoteUnits (s : Str) : isWellFormed (quoteUnits false s) = true ∧
    (startsTrail s = true → ∀ l, wellFormedFrom (some l) (quoteUnits true s) = true) := by
  induction s with
  | nil => exact ⟨rfl, nofun⟩
  | cons u s ih =>
    have hescape := isWellFormed_ascii (isAscii_unicodeEscape u)
    constructor
    · rw [quoteUnits]
      by_cases hlead : isLead u = true
      · have htrail : isTrail u = false := by
          rw [Bool.eq_false_iff, Ne, isTrail_iff]
          rw [isLead_iff] at hlead
          omega
        rw [hlead, htrail]
        cases hnext : startsTrail s with
        | true =>
          have hunit : quoteUnit u = [u] := quoteUnit_surrogate (Or.inl hlead)
          simp only [Bool.not_true, Bool.and_false, Bool.false_and, Bool.or_self, Bool.false_eq_true, if_false, hunit]
          rw [isWellFormed, List.cons_append, wellFormedFrom, if_pos hlead]
          exact ih.2 hnext u
        | false =>
          rw [quoteUnits_afterLead hnext]
          exact isWellFormed_append hescape ih.1
      · rw [Bool.not_eq_true] at hlead
        rw [hlead]
        cases htrail : isTrail u with
        | true => exact isWellFormed_append hescape ih.1
        | false => exact isWellFormed_append (isWellFormed_quoteUnit hlead htrail) ih.1
    · intro htrail l
      have htrail : isTrail u = true := htrail
      have hlead : isLead u = false := by
        rw [Bool.eq_false_iff, Ne, isLead_iff]
        rw [isTrail_iff] at htrail
        omega
      have hunit : quoteUnit u = [u] := quoteUnit_surrogate (Or.inr htrail)
      rw [quoteUnits, hlead, htrail, hunit]
      simp only [Bool.not_true, Bool.and_false, Bool.false_and, Bool.or_self, Bool.false_eq_true, if_false]
      rw [List.cons_append, wellFormedFrom, htrail]
      exact ih.1

theorem isWellFormed_quote (s : Str) : isWellFormed (quote s) = true :=
  isWellFormed_append (s := [unit '"']) (by decide) (isWellFormed_append (isWellFormed_quoteUnits s).1 (by decide))

theorem isWellFormed_commas (ts : List Str) (h : ∀ t ∈ ts, isWellFormed t = true) : isWellFormed (commas ts) = true := by
  cases ts with
  | nil => rfl
  | cons t ts =>
    refine isWellFormed_append (h t (by simp)) ?_
    have hrest := fun w hw => h w (List.mem_cons_of_mem t hw)
    clear h
    induction ts with
    | nil => rfl
    | cons w ts ih =>
      rw [List.flatMap_cons]
      exact isWellFormed_append (isWellFormed_append (s := [unit ',']) (by decide) (hrest w (by simp)))
        (ih (fun x hx => hrest x (by simp [hx])))

theorem isAscii_of_isAtomUnit {u : UInt16} (h : isAtomUnit u = true) : isAscii u = true := by
  simp only [isAtomUnit, isDigit, Bool.or_eq_true, Bool.and_eq_true, decide_eq_true_eq, beq_iff_eq] at h
  exact decide_eq_true (by omega)

theorem isWellFormed_text (v : Value) : v.Json → isWellFormed v.text = true := by
  have hatom : ∀ s : Str, (∀ u ∈ s, isAtomUnit u = true) → isWellFormed s = true :=
    fun s hs => isWellFormed_ascii (fun u hu => isAscii_of_isAtomUnit (hs u hu))
  induction v using Value.induct with
  | leaf v hleaf =>
    intro h
    have hkind := h.isJson
    cases v with
    | array _ | object _ => cases hleaf
    | undefined | bigint _ | bytes _ => cases hkind
    | null => decide
    | bool b => cases b <;> decide
    | number n =>
      cases n with
      | nan | infinite _ => exact show isWellFormed (str "null") = true by decide
      | zero _ => exact show isWellFormed (str "0") = true by decide
      | finite d => exact hatom _ (isAtomUnit_toText d)
    | string s => exact isWellFormed_quote s
  | array items ih =>
    intro h
    have hitems : ∀ t ∈ Value.itemTexts items, isWellFormed t = true := by
      have hall : ∀ v ∈ items, isWellFormed v.text = true := fun v hv => ih v hv (h.item v hv)
      clear ih h
      induction items with
      | nil => nofun
      | cons v items ih =>
        simp only [Value.itemTexts, List.mem_cons, forall_eq_or_imp]
        exact ⟨hall v (by simp), ih (fun w hw => hall w (by simp [hw]))⟩
    exact isWellFormed_append (s := [unit '[']) (by decide)
      (isWellFormed_append (isWellFormed_commas _ hitems) (by decide))
  | object properties ih =>
    intro h
    have hproperties : ∀ t ∈ Value.propertyTexts properties, isWellFormed t = true := by
      have hall : ∀ p ∈ properties, p.2.isJson = true ∧ isWellFormed p.2.text = true :=
        fun p hp => ⟨(h.property p hp).isJson, ih p hp (h.property p hp)⟩
      clear ih h
      induction properties with
      | nil => nofun
      | cons p properties ih =>
        obtain ⟨key, v⟩ := p
        obtain ⟨hjson, hwf⟩ := hall (key, v) (by simp)
        rw [propertyTexts_cons key hjson]
        simp only [List.mem_cons, forall_eq_or_imp]
        exact ⟨isWellFormed_append (isWellFormed_quote key) (isWellFormed_append (s := [unit ':']) (by decide) hwf),
          ih (fun q hq => hall q (by simp [hq]))⟩
    exact isWellFormed_append (s := [unit '\x7b']) (by decide)
      (isWellFormed_append (isWellFormed_commas _ hproperties) (by decide))

end Js
