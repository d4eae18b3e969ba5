import Mathlib.Data.List.Basic
/-!
# JsString — JavaScript strings and their JSON quotation

A string is a list of UTF-16 code units; a surrogate need not have its other half.  `quote` is `QuoteJSONString`: a
control unit, a quotation mark, a backslash and a surrogate without its other half are escaped, anything else is
copied.  `readString` is the reader's side, and `readString_quoteUnits` says that it undoes the writer.
-/
namespace Js

abbrev Str := List UInt16

instance instLawfulBEqStr : LawfulBEq Str := inferInstance

/-- What is said of the units of a string is decided on the string, not on all units. -/
instance (priority := high) {p : UInt16 → Prop} [DecidablePred p] (s : Str) : Decidable (∀ u ∈ s, p u) :=
  List.decidableBAll p s

instance (priority := high) {p : UInt16 → Prop} [DecidablePred p] (s : Str) : Decidable (∃ u ∈ s, p u) :=
  List.decidableBEx p s

def unit (c : Char) : UInt16 := UInt16.ofNat c.toNat

/-- A string constant whose characters are all below U+10000. -/
def str (s : String) : Str := s.toList.map unit

def isLead (u : UInt16) : Bool := decide (0xD800 ≤ u) && decide (u ≤ 0xDBFF)

def isTrail (u : UInt16) : Bool := decide (0xDC00 ≤ u) && decide (u ≤ 0xDFFF)

/-- The string begins with a trail surrogate. -/
def startsTrail : Str → Bool
  | [] => false
  | u :: _ => isTrail u

/-- The hexadecimal digit of a number below 16, in lower case. -/
def hexDigit (n : Nat) : UInt16 := UInt16.ofNat (if n < 10 then 48 + n else 87 + n)

/-- What a hexadecimal digit stands for, of either case. -/
def hexValue (u : UInt16) : Option Nat :=
  let n := u.toNat
  if 48 ≤ n ∧ n ≤ 57 then some (n - 48)
  else if 97 ≤ n ∧ n ≤ 102 then some (n - 87)
  else if 65 ≤ n ∧ n ≤ 70 then some (n - 55)
  else none

/-- `UnicodeEscape`. -/
def unicodeEscape (u : UInt16) : Str :=
  [unit '\\', unit 'u', hexDigit (u.toNat / 4096), hexDigit (u.toNat / 256 % 16), hexDigit (u.toNat / 16 % 16),
    hexDigit (u.toNat % 16)]

/-- The units that have a short escape, with the letter of the escape. -/
def shortEscapes : List (UInt16 × UInt16) :=
  [(0x08, unit 'b'), (0x09, unit 't'), (0x0A, unit 'n'), (0x0C, unit 'f'), (0x0D, unit 'r'), (0x22, 0x22),
    (0x5C, 0x5C)]

/-- How a unit is written when it is no surrogate without its other half. -/
def quoteUnit (u : UInt16) : Str :=
  match shortEscapes.find? (fun e => e.1 == u) with
  | some e => [unit '\\', e.2]
  | none => if u < 0x20 then unicodeEscape u else [u]

/-- The inside of `QuoteJSONString`; `afterLead` says that the unit before was a lead surrogate. -/
def quoteUnits (afterLead : Bool) : Str → Str
  | [] => []
  | u :: rest =>
    (if isLead u && !startsTrail rest || isTrail u && !afterLead then unicodeEscape u else quoteUnit u) ++
      quoteUnits (isLead u) rest

attribute [grind =] quoteUnits

def quote (s : Str) : Str := unit '"' :: (quoteUnits false s ++ [unit '"'])

/-- The unit a short escape stands for. -/
def unescape (e : UInt16) : Option UInt16 :=
  if e = unit '/' then some e else (shortEscapes.find? (fun p => p.2 == e)).map Prod.fst

def readHex (a b c d : UInt16) : Option UInt16 :=
  match hexValue a, hexValue b, hexValue c, hexValue d with
  | some a, some b, some c, some d => some (UInt16.ofNat (((a * 16 + b) * 16 + c) * 16 + d))
  | _, _, _, _ => none

/-- Reads a string up to its closing quotation mark, the opening one behind it. -/
def readString : Str → Option (Str × Str)
  | [] => none
  | u :: rest =>
    if u = unit '"' then some ([], rest)
    else if u = unit '\\' then
      match rest with
      | [] => none
      | e :: rest =>
        if e = unit 'u' then
          match rest with
          | a :: b :: c :: d :: rest => do
            let v ← readHex a b c d
            let (s, rest) ← readString rest
            return (v :: s, rest)
          | _ => none
        else do
          let v ← unescape e
          let (s, rest) ← readString rest
          return (v :: s, rest)
    else if u < 0x20 then none
    else do
      let (s, rest) ← readString rest
      return (u :: s, rest)

attribute [grind =] readString

theorem hexValue_hexDigit : ∀ n < 16, hexValue (hexDigit n) = some n := by decide

theorem readHex_digits (u : UInt16) :
    readHex (hexDigit (u.toNat / 4096)) (hexDigit (u.toNat / 256 % 16)) (hexDigit (u.toNat / 16 % 16))
      (hexDigit (u.toNat % 16)) = some u := by
  have hu : u.toNat < 65536 := u.toNat_lt
  have hvalue : ((u.toNat / 4096 * 16 + u.toNat / 256 % 16) * 16 + u.toNat / 16 % 16) * 16 + u.toNat % 16 = u.toNat := by
    omega
  rw [readHex, hexValue_hexDigit _ (by omega), hexValue_hexDigit _ (by omega), hexValue_hexDigit _ (by omega),
    hexValue_hexDigit _ (by omega)]
  simp only [hvalue, UInt16.ofNat_toNat]

theorem readString_unicodeEscape (u : UInt16) (rest : Str) :
    readString (unicodeEscape u ++ rest) = (readString rest).map (fun r => (u :: r.1, r.2)) := by
  simp only [unicodeEscape, List.cons_append, List.nil_append]
  rw [readString, if_neg (by decide), if_pos rfl]
  simp only [if_true, readHex_digits]
  cases readString rest <;> rfl

/-- A test of each of finitely many units. -/
theorem forall_mem_of_all {α : Type} {p : α → Prop} [DecidablePred p] {l : List α}
    (h : l.all (fun a => decide (p a)) = true) : ∀ a ∈ l, p a :=
  fun a ha => of_decide_eq_true (List.all_eq_true.1 h a ha)

theorem unescape_shortEscape : ∀ e ∈ shortEscapes, e.2 ≠ unit 'u' ∧ unescape e.2 = some e.1 :=
  forall_mem_of_all (by decide)

/-- A unit written by itself is neither a mark, a backslash nor a control unit. -/
theorem plain_of_not_shortEscape {u : UInt16} (h : shortEscapes.find? (fun e => e.1 == u) = none) :
    u ≠ unit '"' ∧ u ≠ unit '\\' := by
  constructor <;> rintro rfl <;> revert h <;> decide

theorem readString_quoteUnit (u : UInt16) (rest : Str) :
    readString (quoteUnit u ++ rest) = (readString rest).map (fun r => (u :: r.1, r.2)) := by
  unfold quoteUnit
  cases h : shortEscapes.find? (fun e => e.1 == u) with
  | some e =>
    obtain ⟨hletter, hback⟩ := unescape_shortEscape e (List.mem_of_find?_eq_some h)
    have hunit : e.1 = u := by simpa using List.find?_some h
    simp only [List.cons_append, List.nil_append]
    rw [readString.eq_def]
    simp only [if_neg (show unit '\\' ≠ unit '"' by decide), if_true, if_neg hletter, hback, hunit]
    cases readString rest <;> rfl
  | none =>
    obtain ⟨hmark, hslash⟩ := plain_of_not_shortEscape h
    by_cases hcontrol : u < 0x20
    · simp only [if_pos hcontrol, readString_unicodeEscape]
    · simp only [if_neg hcontrol, List.cons_append, List.nil_append]
      rw [readString.eq_def]
      simp only [if_neg hmark, if_neg hslash, if_neg hcontrol]
      cases readString rest <;> rfl

/-- **The reader undoes the writer**, on every string: half a surrogate pair is written as an escape and read back. -/
theorem readString_quoteUnits (s rest : Str) :
    ∀ afterLead, readString (quoteUnits afterLead s ++ unit '"' :: rest) = some (s, rest) := by
  induction s with
  | nil =>
    intro afterLead
    rw [quoteUnits, List.nil_append, readString.eq_def]
    simp only [if_true]
  | cons u s ih =>
    intro afterLead
    rw [quoteUnits, List.append_assoc]
    split
    · rw [readString_unicodeEscape, ih]; rfl
    · rw [readString_quoteUnit, ih]; rfl

end Js
