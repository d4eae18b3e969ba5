import AdgLang.FunctionSyntax
import Mathlib.Data.Nat.Digits.Lemmas
/-!
# IntegerTexts — which texts denote 64-bit integers

A text denotes an integer when it is an optional minus sign before digits of the three scripts (`Denotes`).
`TryParseInteger` parses the magnitude into 64 bits before it applies the sign, so it reads every 64-bit integer but the
least one, which has no magnitude in that range (`tryParseInteger_iff`).
-/
namespace Adg
namespace FunctionSyntax

/-- The character is the digit, in ASCII, Arabic-Indic or extended Arabic-Indic. -/
def IsDigit (ch : Char) (digit : Nat) : Prop :=
  digit < 10 ∧ (ch.toNat = 0x30 + digit ∨ ch.toNat = 0x660 + digit ∨ ch.toNat = 0x6F0 + digit)

/-- A minus sign, ASCII or U+2212. -/
def IsMinus (ch : Char) : Prop := ch = '-' ∨ ch = '\u2212'

/-- The text is an optional minus sign and one or more digits, and this is the integer they denote. -/
inductive Denotes : Text → Int → Prop
  | positive {digits : Text} {values : List Nat} (hne : digits ≠ []) (hdigits : List.Forall₂ IsDigit digits values) :
      Denotes digits (Nat.ofDigits 10 values.reverse : Nat)
  | negative {ch : Char} {digits : Text} {values : List Nat} (hch : IsMinus ch) (hne : digits ≠ [])
      (hdigits : List.Forall₂ IsDigit digits values) : Denotes (ch :: digits) (-(Nat.ofDigits 10 values.reverse : Nat))

/-- The range of `long`. -/
def InLong (v : Int) : Prop := -2 ^ 63 ≤ v ∧ v ≤ 2 ^ 63 - 1

theorem digitValue_eq_some {ch : Char} {digit : Nat} : digitValue ch = some digit ↔ IsDigit ch digit := by
  simp only [digitValue, IsDigit]
  split
  · rw [Option.some.injEq]
    omega
  split
  · rw [Option.some.injEq]
    omega
  split
  · rw [Option.some.injEq]
    omega
  · rw [iff_false_left (by simp)]
    omega

theorem mapM_digitValue {digits : Text} {values : List Nat} :
    digits.mapM digitValue = some values ↔ List.Forall₂ IsDigit digits values := by
  induction digits generalizing values with
  | nil => simp [eq_comm]
  | cons ch digits ih =>
    rw [List.mapM_cons]
    constructor
    · intro h
      obtain ⟨value, hvalue, h⟩ := Option.bind_eq_some_iff.1 h
      obtain ⟨rest, hrest, h⟩ := Option.bind_eq_some_iff.1 h
      cases h
      exact .cons (digitValue_eq_some.1 hvalue) (ih.1 hrest)
    · rintro (_ | ⟨hvalue, hrest⟩)
      rw [digitValue_eq_some.2 hvalue, ih.2 hrest]
      rfl

/-- The loop reads decimal digits, the first one the most significant. -/
theorem foldl_digits (values : List Nat) :
    values.foldl (fun value digit => 10 * value + digit) 0 = Nat.ofDigits 10 values.reverse := by
  induction values using List.reverseRecOn with
  | nil => rfl
  | append_singleton values digit ih =>
    rw [List.foldl_append, ih, List.reverse_append, List.reverse_singleton, List.singleton_append, Nat.ofDigits_cons]
    simp [Nat.add_comm]

theorem parseDigits_eq_some {digits : Text} {parsed : Nat} : (digits.mapM digitValue).bind parseLong = some parsed ↔
    ∃ values, List.Forall₂ IsDigit digits values ∧ parsed = Nat.ofDigits 10 values.reverse ∧ parsed ≤ 2 ^ 63 - 1 := by
  rw [Option.bind_eq_some_iff]
  refine exists_congr (fun values => and_congr mapM_digitValue ?_)
  rw [parseLong, foldl_digits]
  split
  · rw [Option.some.injEq]
    exact ⟨fun h => ⟨h.symm, h ▸ ‹_›⟩, fun h => h.1.symm⟩
  · rw [iff_false_left (by simp)]
    rintro ⟨rfl, hle⟩
    contradiction

theorem isMinus_not_digit {ch : Char} (h : IsMinus ch) (digit : Nat) : ¬ IsDigit ch digit := by
  rcases h with rfl | rfl <;> rintro ⟨hlt, h⟩ <;> revert h <;> decide +revert

theorem tryParseInteger_negative {ch : Char} (hch : IsMinus ch) (digits : Text) (v : Int) :
    tryParseInteger (ch :: digits) = some v ↔
      digits ≠ [] ∧ ∃ parsed, (digits.mapM digitValue).bind parseLong = some parsed ∧ v = -(parsed : Int) := by
  have hsign : (ch = '-' ∨ ch = '\u2212') = True := eq_true hch
  simp only [tryParseInteger, hsign, if_true]
  by_cases hnil : digits = []
  · simp [hnil]
  · rw [if_neg hnil]
    cases (digits.mapM digitValue).bind parseLong with
    | none => simp
    | some parsed => simp [hnil, eq_comm]

theorem tryParseInteger_positive {ch : Char} (hch : ¬ IsMinus ch) (digits : Text) (v : Int) :
    tryParseInteger (ch :: digits) = some v ↔
      ∃ parsed, ((ch :: digits).mapM digitValue).bind parseLong = some parsed ∧ v = (parsed : Int) := by
  have hsign : (ch = '-' ∨ ch = '\u2212') = False := eq_false hch
  simp only [tryParseInteger, hsign, if_false, reduceCtorEq]
  cases ((ch :: digits).mapM digitValue).bind parseLong with
  | none => simp
  | some parsed => simp [eq_comm]

/-- **What `TryParseInteger` reads**: the integer that the text denotes, if its magnitude is in the range. -/
theorem tryParseInteger_eq_some (text : Text) (v : Int) :
    tryParseInteger text = some v ↔ Denotes text v ∧ v.natAbs ≤ 2 ^ 63 - 1 := by
  cases text with
  | nil =>
    refine iff_of_false (by simp [tryParseInteger]) ?_
    rintro ⟨h, -⟩
    cases h with
    | positive hne _ => exact hne rfl
  | cons ch digits =>
    by_cases hch : IsMinus ch
    · rw [tryParseInteger_negative hch]
      constructor
      · rintro ⟨hne, parsed, hparsed, rfl⟩
        obtain ⟨values, hvalues, rfl, hle⟩ := parseDigits_eq_some.1 hparsed
        exact ⟨.negative hch hne hvalues, by rw [Int.natAbs_neg, Int.natAbs_natCast]; exact hle⟩
      · rintro ⟨h, hle⟩
        cases h with
        | positive _ hdigits => cases hdigits with | cons hdigit _ => exact absurd hdigit (isMinus_not_digit hch _)
        | negative _ hne hdigits =>
          rw [Int.natAbs_neg, Int.natAbs_natCast] at hle
          exact ⟨hne, _, parseDigits_eq_some.2 ⟨_, hdigits, rfl, hle⟩, rfl⟩
    · rw [tryParseInteger_positive hch]
      constructor
      · rintro ⟨parsed, hparsed, rfl⟩
        obtain ⟨values, hvalues, rfl, hle⟩ := parseDigits_eq_some.1 hparsed
        exact ⟨.positive (List.cons_ne_nil _ _) hvalues, by rw [Int.natAbs_natCast]; exact hle⟩
      · rintro ⟨h, hle⟩
        cases h with
        | positive _ hdigits =>
          rw [Int.natAbs_natCast] at hle
          exact ⟨_, parseDigits_eq_some.2 ⟨_, hdigits, rfl, hle⟩, rfl⟩
        | negative hminus _ _ => exact absurd hminus hch

/-- The magnitude of the least 64-bit integer is out of range, and no other is. -/
theorem natAbs_le_iff (v : Int) : v.natAbs ≤ 2 ^ 63 - 1 ↔ InLong v ∧ v ≠ -2 ^ 63 := by
  rw [InLong]
  omega

/-- **`TryParseInteger` succeeds exactly on the texts of 64-bit integers, unless the text denotes the least of them.** -/
theorem tryParseInteger_iff (text : Text) :
    (∀ v, tryParseInteger text = some v ↔ Denotes text v ∧ InLong v) ↔ ¬ Denotes text (-2 ^ 63) := by
  constructor
  · intro h hleast
    have hread := (tryParseInteger_eq_some text (-2 ^ 63)).1 ((h (-2 ^ 63)).2 ⟨hleast, by decide, by decide⟩)
    exact ((natAbs_le_iff _).1 hread.2).2 rfl
  · intro h v
    rw [tryParseInteger_eq_some, natAbs_le_iff]
    refine and_congr_right (fun hdenotes => and_iff_left ?_)
    rintro rfl
    exact h hdenotes

theorem denotes_least : Denotes "-9223372036854775808".toList (-2 ^ 63) := by
  have hdigits : List.Forall₂ IsDigit "9223372036854775808".toList
      [9, 2, 2, 3, 3, 7, 2, 0, 3, 6, 8, 5, 4, 7, 7, 5, 8, 0, 8] := mapM_digitValue.1 (by decide)
  exact .negative (Or.inl rfl) (by decide) hdigits

/-- **The least 64-bit integer is not read.** -/
theorem not_tryParseInteger_least :
    ¬ ∀ (text : Text) (v : Int), tryParseInteger text = some v ↔ Denotes text v ∧ InLong v := fun h => by
  have hread := (h "-9223372036854775808".toList (-2 ^ 63)).2 ⟨denotes_least, by decide, by decide⟩
  have hnone : tryParseInteger "-9223372036854775808".toList = none := by decide
  rw [hnone] at hread
  cases hread

/-- The greatest one is, in any of the scripts. -/
example : tryParseInteger "\u2212٩۲2٣۳7٢۰3٦۸5٤۷7٥۸0٧".toList = some (-(2 ^ 63 - 1)) := by decide

end FunctionSyntax
end Adg
