import AdgLang.JsString
import Mathlib.Tactic.IntervalCases
import Mathlib.Tactic.Ring
import Mathlib.Algebra.Order.Group.Int
/-!
# JsNumber — JavaScript numbers and their decimal texts

A finite number other than zero is held by the decimal that stands for it: the shortest digits that read back to it,
with no zero at their end.  Numbers and these decimals are one to one, so nothing here rounds: `Number.toText` is
`Number::toString`, and a text it printed is read back to the number (`readNumber_toText`).
-/
namespace Js

/-- The number `± coefficient · 10 ^ exponent`. -/
structure Decimal where
  negative : Bool
  coefficient : Nat
  exponent : Int
  canonical : coefficient % 10 ≠ 0
deriving DecidableEq

inductive Number
  | nan
  | infinite (negative : Bool)
  | zero (negative : Bool)
  | finite (d : Decimal)
deriving DecidableEq

def isDigit (u : UInt16) : Bool := decide (48 ≤ u.toNat) && decide (u.toNat ≤ 57)

/-- The decimal digits of a number. -/
def natStr (n : Nat) : Str := (Nat.toDigits 10 n).map unit

/-- What a run of decimal digits stands for. -/
def natOf (ds : Str) : Nat := ds.foldl (fun a u => 10 * a + (u.toNat - 48)) 0

/-- The coefficient without the zeros at its end, and how many there were. -/
def dropZeros : Nat → Nat → Nat × Nat
  | 0, a => (a, 0)
  | fuel + 1, a => if a % 10 = 0 then ((dropZeros fuel (a / 10)).1, (dropZeros fuel (a / 10)).2 + 1) else (a, 0)

attribute [grind =] dropZeros

theorem dropZeros_canonical (fuel a : Nat) (ha : a ≠ 0) (hfuel : a ≤ fuel) : (dropZeros fuel a).1 % 10 ≠ 0 := by
  induction fuel generalizing a with
  | zero => omega
  | succ fuel ih =>
    rw [dropZeros]
    split
    · exact ih (a / 10) (by omega) (by omega)
    · assumption

theorem dropZeros_mul (m z fuel : Nat) (hm : m % 10 ≠ 0) (hfuel : z ≤ fuel) :
    dropZeros fuel (m * 10 ^ z) = (m, z) := by
  induction z generalizing fuel with
  | zero =>
    cases fuel with
    | zero => simp [dropZeros]
    | succ fuel => simp [dropZeros, hm]
  | succ z ih =>
    cases fuel with
    | zero => omega
    | succ fuel =>
      have hten : m * 10 ^ (z + 1) = m * 10 ^ z * 10 := by rw [Nat.pow_succ, Nat.mul_assoc]
      rw [dropZeros, hten, Nat.mul_mod_left, if_pos rfl, Nat.mul_div_cancel _ (by decide), ih fuel (by omega)]

namespace Number

/-- The number `± a · 10 ^ e`. -/
def ofDecimal (negative : Bool) (a : Nat) (e : Int) : Number :=
  if h : a = 0 then .zero negative
  else .finite ⟨negative, (dropZeros a a).1, e + (dropZeros a a).2, dropZeros_canonical a a h (Nat.le_refl a)⟩

def isFinite : Number → Bool
  | .nan | .infinite _ => false
  | .zero _ | .finite _ => true

def isInteger : Number → Bool
  | .nan | .infinite _ => false
  | .zero _ => true
  | .finite d => decide (0 ≤ d.exponent)

theorem ofDecimal_zero (negative : Bool) (e : Int) : ofDecimal negative 0 e = .zero negative := by
  rw [ofDecimal, dif_pos rfl]

/-- The zeros at the end of the coefficient go to the exponent. -/
theorem ofDecimal_mul (d : Decimal) (z : Nat) (e : Int) (he : e + z = d.exponent) :
    ofDecimal d.negative (d.coefficient * 10 ^ z) e = .finite d := by
  have hpos : 0 < d.coefficient := Nat.pos_of_ne_zero (fun h => d.canonical (by rw [h]))
  have hne : d.coefficient * 10 ^ z ≠ 0 := Nat.mul_ne_zero (by omega) (Nat.ne_of_gt (Nat.pow_pos (by decide)))
  have hz : z ≤ d.coefficient * 10 ^ z :=
    Nat.le_trans (Nat.le_of_lt (Nat.lt_pow_self (by decide))) (Nat.le_mul_of_pos_left _ hpos)
  rw [ofDecimal, dif_neg hne]
  simp only [dropZeros_mul _ z _ d.canonical hz, he]

/-- A coefficient that is already canonical stays. -/
theorem ofDecimal_canonical (d : Decimal) : ofDecimal d.negative d.coefficient d.exponent = .finite d := by
  simpa using ofDecimal_mul d 0 d.exponent (by simp)

end Number

/-- The exponent as `Number::toString` writes it, `e` and a sign before its digits. -/
def exponentText (e : Int) : Str := unit 'e' :: (if e < 0 then unit '-' else unit '+') :: natStr e.natAbs

/-- The digits of a finite number, laid out by the position of its decimal point. -/
def Decimal.magnitude (d : Decimal) : Str :=
  let digits := natStr d.coefficient
  let k : Int := digits.length
  let n := k + d.exponent
  if k ≤ n ∧ n ≤ 21 then digits ++ List.replicate d.exponent.toNat (unit '0')
  else if 0 < n ∧ n ≤ 21 then digits.take n.toNat ++ unit '.' :: digits.drop n.toNat
  else if -6 < n ∧ n ≤ 0 then unit '0' :: unit '.' :: (List.replicate (-n).toNat (unit '0') ++ digits)
  else if k = 1 then digits ++ exponentText (n - 1)
  else digits.take 1 ++ unit '.' :: (digits.drop 1 ++ exponentText (n - 1))

def sign (negative : Bool) : Str := if negative then [unit '-'] else []

/-- `Number::toString`, of radix ten. -/
def Number.toText : Number → Str
  | .nan => str "NaN"
  | .infinite negative => sign negative ++ str "Infinity"
  | .zero _ => str "0"
  | .finite d => sign d.negative ++ d.magnitude

/-- A decimal literal without its sign: the digits before and after the point, and the exponent. -/
structure Literal where
  whole : Str
  fraction : Str
  dotted : Bool
  exponent : Int

/-- What follows the digits of a literal: nothing, or an exponent. -/
def readExponent : Str → Option Int
  | [] => some 0
  | u :: rest =>
    if u = unit 'e' ∨ u = unit 'E' then
      match rest with
      | [] => none
      | v :: digits =>
        let unsigned := if v = unit '+' ∨ v = unit '-' then digits else rest
        if unsigned ≠ [] ∧ unsigned.all isDigit then
          some (if v = unit '-' then -(natOf unsigned : Int) else natOf unsigned)
        else none
    else none

/-- The parts of an unsigned decimal literal that takes up the whole text. -/
def readLiteral (t : Str) : Option Literal :=
  let rest := t.dropWhile isDigit
  if rest.head? = some (unit '.') then
    (readExponent (rest.tail.dropWhile isDigit)).map (⟨t.takeWhile isDigit, rest.tail.takeWhile isDigit, true, ·⟩)
  else (readExponent rest).map (⟨t.takeWhile isDigit, [], false, ·⟩)

def Literal.value (negative : Bool) (l : Literal) : Number :=
  Number.ofDecimal negative (natOf (l.whole ++ l.fraction)) (l.exponent - l.fraction.length)

/-- The literals of JSON: a digit on each side of a point, and no zero before another digit. -/
def Literal.isJson (l : Literal) : Bool :=
  !l.whole.isEmpty && (l.whole.head? != some (unit '0') || l.whole.length == 1) && (!l.dotted || !l.fraction.isEmpty)

/-- A number of a JSON text. -/
def readNumber (t : Str) : Option Number :=
  let negative := t.head? == some (unit '-')
  match readLiteral (if negative then t.tail else t) with
  | some l => if l.isJson then some (l.value negative) else none
  | none => none

/-- The white space of the language, line ends among it. -/
def isSpace (u : UInt16) : Bool :=
  let n := u.toNat
  (9 ≤ n && n ≤ 13) || n == 0x20 || n == 0xA0 || n == 0x1680 || (0x2000 ≤ n && n ≤ 0x200A) || n == 0x2028 ||
    n == 0x2029 || n == 0x202F || n == 0x205F || n == 0x3000 || n == 0xFEFF

/-- `StringToNumber`, without the literals of another radix. -/
def Number.ofText (s : Str) : Number :=
  let t := ((s.dropWhile isSpace).reverse.dropWhile isSpace).reverse
  let negative := t.head? == some (unit '-')
  let unsigned := if negative || t.head? == some (unit '+') then t.tail else t
  if t = [] then .zero false
  else if unsigned = str "Infinity" then .infinite negative
  else
    match readLiteral unsigned with
    | some l => if l.whole.isEmpty && l.fraction.isEmpty then .nan else l.value negative
    | none => .nan

namespace Number

/-- A finite number as a coefficient with its sign and an exponent. -/
def signed : Number → Int × Int
  | .finite d => (if d.negative then -d.coefficient else d.coefficient, d.exponent)
  | _ => (0, 0)

/-- `a < b`. -/
def lt (a b : Number) : Bool :=
  match a, b with
  | .nan, _ => false
  | _, .nan => false
  | .infinite negative, b => negative && decide (b ≠ .infinite true)
  | _, .infinite negative => !negative
  | a, b =>
    let e := min a.signed.2 b.signed.2
    decide (a.signed.1 * 10 ^ (a.signed.2 - e).toNat < b.signed.1 * 10 ^ (b.signed.2 - e).toNat)

def ofNat (n : Nat) : Number := ofDecimal false n 0

end Number

/-! What the digits of a text stand for. -/

theorem toNat_unit {c : Char} (h : c.isDigit = true) : (unit c).toNat = c.toNat := by
  have hhigh : c.toNat ≤ 57 := (Char.isDigit_iff_toNat.1 h).2
  rw [unit, UInt16.toNat_ofNat', Nat.mod_eq_of_lt (by omega)]

theorem isDigit_unit {c : Char} (h : c.isDigit = true) : isDigit (unit c) = true := by
  have hc : 48 ≤ c.toNat ∧ c.toNat ≤ 57 := Char.isDigit_iff_toNat.1 h
  rw [isDigit, toNat_unit h, decide_eq_true hc.1, decide_eq_true hc.2]
  rfl

theorem isDigit_natStr (n : Nat) : ∀ u ∈ natStr n, isDigit u = true := by
  intro u hu
  obtain ⟨c, hc, rfl⟩ := List.mem_map.1 hu
  exact isDigit_unit (Nat.isDigit_of_mem_toDigits (by decide) (by decide) hc)

theorem natStr_ne_nil (n : Nat) : natStr n ≠ [] := by
  simp [natStr, Nat.toDigits_ne_nil]

theorem natOf_cons_foldl (ds : Str) (a : Nat) :
    ds.foldl (fun a u => 10 * a + (u.toNat - 48)) a = a * 10 ^ ds.length + natOf ds := by
  induction ds generalizing a with
  | nil => simp [natOf]
  | cons u ds ih =>
    rw [natOf, List.foldl_cons, List.foldl_cons, ih, ih (10 * 0 + _), List.length_cons, Nat.pow_succ]
    ring

theorem natOf_append (a b : Str) : natOf (a ++ b) = natOf a * 10 ^ b.length + natOf b := by
  rw [natOf, List.foldl_append, natOf_cons_foldl]
  rfl

theorem natOf_zeros (z : Nat) : natOf (List.replicate z (unit '0')) = 0 := by
  induction z with
  | zero => rfl
  | succ z ih =>
    rw [List.replicate_succ', natOf_append, ih]
    rfl

theorem natOf_map_unit (cs : List Char) (h : ∀ c ∈ cs, c.isDigit = true) :
    natOf (cs.map unit) = Nat.ofDigitChars 10 cs 0 := by
  rw [natOf, Nat.ofDigitChars, List.foldl_map]
  generalize 0 = a
  induction cs generalizing a with
  | nil => rfl
  | cons c cs ih =>
    rw [List.foldl_cons, List.foldl_cons, toNat_unit (h c (by simp))]
    exact ih (fun c hc => h c (by simp [hc])) _

@[simp] theorem natOf_natStr (n : Nat) : natOf (natStr n) = n := by
  rw [natStr, natOf_map_unit _ (fun _ hc => Nat.isDigit_of_mem_toDigits (by decide) (by decide) hc)]
  exact Nat.ofDigitChars_ten_toDigits

theorem natStr_injective {a b : Nat} (h : natStr a = natStr b) : a = b := by
  rw [← natOf_natStr a, h, natOf_natStr]

/-- A number other than zero is written without a leading zero. -/
theorem natStr_head (n : Nat) (hn : n ≠ 0) : ∃ u ds, natStr n = u :: ds ∧ u ≠ unit '0' := by
  induction n using Nat.strong_induction_on with
  | _ n ih =>
    by_cases hlt : n < 10
    · refine ⟨unit n.digitChar, [], by rw [natStr, Nat.toDigits_of_lt_base hlt]; rfl, ?_⟩
      interval_cases n <;> first | contradiction | decide
    · obtain ⟨u, ds, hds, hu⟩ := ih (n / 10) (by omega) (by omega)
      refine ⟨u, ds ++ [unit (n % 10).digitChar], ?_, hu⟩
      rw [natStr, Nat.toDigits_of_base_le (by decide) (by omega), List.map_append, ← natStr, hds]
      rfl

/-! Reading back what is printed. -/

/-- A text begins with neither a digit nor a point, so that it ends the digits before it. -/
def EndsDigits (tail : Str) : Prop := ∀ u, tail.head? = some u → isDigit u = false ∧ u ≠ unit '.'

theorem endsDigits_nil : EndsDigits [] := nofun

theorem endsDigits_exponentText (e : Int) : EndsDigits (exponentText e) := by
  intro u hu
  obtain rfl : unit 'e' = u := Option.some.inj hu
  decide

theorem takeWhile_digits {ds tail : Str} (hds : ∀ u ∈ ds, isDigit u = true)
    (htail : ∀ u, tail.head? = some u → isDigit u = false) : (ds ++ tail).takeWhile isDigit = ds := by
  rw [List.takeWhile_append_of_pos hds]
  cases tail with
  | nil => simp
  | cons u tail => simp [htail u rfl]

theorem dropWhile_digits {ds tail : Str} (hds : ∀ u ∈ ds, isDigit u = true)
    (htail : ∀ u, tail.head? = some u → isDigit u = false) : (ds ++ tail).dropWhile isDigit = tail := by
  rw [List.dropWhile_append_of_pos hds]
  cases tail with
  | nil => rfl
  | cons u tail => simp [htail u rfl]

theorem readExponent_exponentText (e : Int) : readExponent (exponentText e) = some e := by
  have hdigits : (natStr e.natAbs).all isDigit = true := List.all_eq_true.2 (isDigit_natStr _)
  have hsign : unit '+' ≠ unit '-' := by decide
  by_cases he : e < 0
  · have habs : -|e| = e := by rw [abs_of_neg he, Int.neg_neg]
    simp [exponentText, readExponent, he, natStr_ne_nil, hdigits, habs]
  · have habs : |e| = e := abs_of_nonneg (by omega)
    simp [exponentText, readExponent, he, natStr_ne_nil, hdigits, habs, hsign]

theorem readLiteral_whole {ds tail : Str} (hds : ∀ u ∈ ds, isDigit u = true) (htail : EndsDigits tail) :
    readLiteral (ds ++ tail) = (readExponent tail).map (⟨ds, [], false, ·⟩) := by
  have hdigit : ∀ u, tail.head? = some u → isDigit u = false := fun u hu => (htail u hu).1
  have hpoint : tail.head? ≠ some (unit '.') := fun h => (htail _ h).2 rfl
  rw [readLiteral, dropWhile_digits hds hdigit, takeWhile_digits hds hdigit, if_neg hpoint]

theorem readLiteral_dotted {ds fs tail : Str} (hds : ∀ u ∈ ds, isDigit u = true) (hfs : ∀ u ∈ fs, isDigit u = true)
    (htail : EndsDigits tail) :
    readLiteral (ds ++ unit '.' :: (fs ++ tail)) = (readExponent tail).map (⟨ds, fs, true, ·⟩) := by
  have hdigit : ∀ u, tail.head? = some u → isDigit u = false := fun u hu => (htail u hu).1
  have hpoint : ∀ u, (unit '.' :: (fs ++ tail)).head? = some u → isDigit u = false := fun u hu => by
    obtain rfl : unit '.' = u := Option.some.inj hu
    decide
  rw [readLiteral, dropWhile_digits hds hpoint, takeWhile_digits hds hpoint]
  simp only [List.head?_cons, if_true, List.tail_cons, dropWhile_digits hfs hdigit, takeWhile_digits hfs hdigit]

theorem Decimal.coefficient_ne_zero (d : Decimal) : d.coefficient ≠ 0 := fun h => d.canonical (by rw [h])

/-- The text is a literal of JSON that stands for the number, its sign apart. -/
def Decimal.ReadFrom (d : Decimal) (t : Str) : Prop :=
  ∃ l, readLiteral t = some l ∧ l.isJson = true ∧ l.value d.negative = .finite d

namespace Decimal

variable {d : Decimal} {ds fs tail : Str} {e : Int}

theorem readFrom_whole (hds : ∀ u ∈ ds, isDigit u = true) (hhead : ∃ u, ds.head? = some u ∧ u ≠ unit '0')
    (htail : EndsDigits tail) (hexponent : readExponent tail = some e)
    (hvalue : Number.ofDecimal d.negative (natOf ds) e = .finite d) : d.ReadFrom (ds ++ tail) := by
  refine ⟨⟨ds, [], false, e⟩, by rw [readLiteral_whole hds htail, hexponent]; rfl, ?_, ?_⟩
  · obtain ⟨u, hu, hne⟩ := hhead
    cases ds with
    | nil => cases hu
    | cons v ds =>
      obtain rfl : v = u := Option.some.inj hu
      simp [Literal.isJson, hne]
  · simpa [Literal.value] using hvalue

theorem readFrom_dotted (hds : ∀ u ∈ ds, isDigit u = true)
    (hhead : (∃ u, ds.head? = some u ∧ u ≠ unit '0') ∨ ds = [unit '0']) (hfs : ∀ u ∈ fs, isDigit u = true)
    (hne : fs ≠ []) (htail : EndsDigits tail) (hexponent : readExponent tail = some e)
    (hvalue : Number.ofDecimal d.negative (natOf (ds ++ fs)) (e - fs.length) = .finite d) :
    d.ReadFrom (ds ++ unit '.' :: (fs ++ tail)) := by
  refine ⟨⟨ds, fs, true, e⟩, by rw [readLiteral_dotted hds hfs htail, hexponent]; rfl, ?_, hvalue⟩
  rcases hhead with ⟨u, hu, hzero⟩ | rfl
  · cases ds with
    | nil => cases hu
    | cons v ds =>
      obtain rfl : v = u := Option.some.inj hu
      simp [Literal.isJson, hzero, hne]
  · simp [Literal.isJson, hne]

/-- What a finite number prints, without its sign, reads back to it, wherever its point is. -/
theorem readFrom_magnitude (d : Decimal) : d.ReadFrom d.magnitude := by
  have hdigits := isDigit_natStr d.coefficient
  have hzeros : ∀ z, ∀ u ∈ List.replicate z (unit '0'), isDigit u = true := fun z u hu => by
    rw [(List.mem_replicate.1 hu).2]
    decide
  obtain ⟨u, ds, hds, hu⟩ := natStr_head d.coefficient d.coefficient_ne_zero
  have hhead : ∀ k, 1 ≤ k → ∃ v, ((natStr d.coefficient).take k).head? = some v ∧ v ≠ unit '0' := fun k hk => by
    obtain ⟨k, rfl⟩ : ∃ j, k = j + 1 := ⟨k - 1, by omega⟩
    exact ⟨u, by rw [hds, List.take_succ_cons, List.head?_cons], hu⟩
  have hdrop : ∀ k, (natStr d.coefficient).take k ++ (natStr d.coefficient).drop k = natStr d.coefficient :=
    fun k => List.take_append_drop _ _
  have htake : ∀ k, ∀ v ∈ (natStr d.coefficient).take k, isDigit v = true :=
    fun k v hv => hdigits v (List.mem_of_mem_take hv)
  have hrest : ∀ k, ∀ v ∈ (natStr d.coefficient).drop k, isDigit v = true :=
    fun k v hv => hdigits v (List.mem_of_mem_drop hv)
  have hcanonical : ∀ e, e = d.exponent → Number.ofDecimal d.negative d.coefficient e = .finite d := by
    rintro _ rfl
    exact Number.ofDecimal_canonical d
  rw [magnitude]
  generalize hk : (natStr d.coefficient).length = k
  have hone : 1 ≤ k := hk ▸ List.length_pos_iff.2 (natStr_ne_nil _)
  split
  · -- an integer with all its digits
    have hall : ∀ v ∈ natStr d.coefficient ++ List.replicate d.exponent.toNat (unit '0'), isDigit v = true :=
      fun v hv => (List.mem_append.1 hv).elim (hdigits v) (hzeros _ v)
    have hvalue := Number.ofDecimal_mul d d.exponent.toNat 0 (by omega)
    have h := readFrom_whole hall ⟨u, by rw [hds]; rfl, hu⟩ endsDigits_nil rfl
      (by simpa [natOf_append, natOf_zeros] using hvalue)
    rwa [List.append_nil] at h
  split
  · -- a point among the digits
    have h := readFrom_dotted (htake (k + d.exponent).toNat) (Or.inl (hhead _ (by omega)))
      (hrest (k + d.exponent).toNat) (List.ne_nil_of_length_pos (by rw [List.length_drop, hk]; omega))
      endsDigits_nil rfl
      (by rw [hdrop, natOf_natStr]; exact hcanonical _ (by rw [List.length_drop, hk]; omega))
    rwa [List.append_nil] at h
  split
  · -- zeros between the point and the digits
    have hall : ∀ v ∈ List.replicate (-(k + d.exponent)).toNat (unit '0') ++ natStr d.coefficient,
        isDigit v = true := fun v hv => (List.mem_append.1 hv).elim (hzeros _ v) (hdigits v)
    have hzero : natOf [unit '0'] = 0 := rfl
    have hvalue : natOf ([unit '0'] ++ (List.replicate (-(k + d.exponent)).toNat (unit '0') ++ natStr d.coefficient)) =
        d.coefficient := by
      rw [natOf_append, natOf_append, natOf_zeros, natOf_natStr, hzero, Nat.zero_mul, Nat.zero_mul, Nat.zero_add,
        Nat.zero_add]
    have h := readFrom_dotted (forall_mem_of_all (by decide)) (Or.inr rfl) hall (by simp [natStr_ne_nil]) endsDigits_nil rfl
      (by rw [hvalue]; exact hcanonical _ (by rw [List.length_append, List.length_replicate, hk]; omega))
    rwa [List.append_nil] at h
  split
  · -- one digit and an exponent
    exact readFrom_whole hdigits ⟨u, by rw [hds]; rfl, hu⟩ (endsDigits_exponentText _) (readExponent_exponentText _)
      (by rw [natOf_natStr]; exact hcanonical _ (by omega))
  · -- a point after the first digit and an exponent
    exact readFrom_dotted (htake 1) (Or.inl (hhead 1 (by omega))) (hrest 1)
      (List.ne_nil_of_length_pos (by rw [List.length_drop, hk]; omega)) (endsDigits_exponentText _)
      (readExponent_exponentText _)
      (by rw [hdrop, natOf_natStr]; exact hcanonical _ (by rw [List.length_drop, hk]; omega))

end Decimal

theorem readNumber_zero (negative : Bool) : readNumber (Number.zero negative).toText = some (.zero false) := by
  cases negative <;> decide

/-- **A finite number is read back from its text.** -/
theorem readNumber_toText (d : Decimal) : readNumber (Number.finite d).toText = some (.finite d) := by
  obtain ⟨l, hl, hjson, hvalue⟩ := Decimal.readFrom_magnitude d
  have hdigit : ∀ u, d.magnitude.head? = some u → isDigit u = true := fun u hu => by
    have hne : d.magnitude.takeWhile isDigit ≠ [] := fun h => by
      have hwhole : l.whole = d.magnitude.takeWhile isDigit := by
        rw [readLiteral] at hl
        split at hl <;> obtain ⟨e, -, rfl⟩ := Option.map_eq_some_iff.1 hl <;> rfl
      simp [Literal.isJson, hwhole, h] at hjson
    cases hm : d.magnitude with
    | nil => simp [hm] at hne
    | cons v t =>
      rw [hm] at hu hne
      obtain rfl : v = u := Option.some.inj hu
      by_contra hv
      simp [hv] at hne
  rw [Number.toText, readNumber]
  cases hsign : d.negative with
  | true =>
    rw [hsign] at hvalue
    simp [sign, hl, hjson, hvalue]
  | false =>
    have hminus : (d.magnitude.head? == some (unit '-')) = false := by
      refine beq_eq_false_iff_ne.2 (fun h => ?_)
      have := hdigit _ h
      revert this
      decide
    rw [hsign] at hvalue
    simp [sign, hminus, hl, hjson, hvalue]

/-- Reading the text of a number other than a finite one gives the number back too. -/
theorem ofText_toText (n : Number) (h : n.isFinite = false) : Number.ofText n.toText = n := by
  cases n with
  | nan => decide
  | infinite negative => cases negative <;> decide
  | zero _ | finite _ => cases h

/-- The units a number is written with: digits, letters, signs and a point. -/
def isAtomUnit (u : UInt16) : Bool :=
  let n := u.toNat
  isDigit u || (65 ≤ n && n ≤ 90) || (97 ≤ n && n ≤ 122) || n == 43 || n == 45 || n == 46

theorem isAtomUnit_of_isDigit {u : UInt16} (h : isDigit u = true) : isAtomUnit u = true := by
  simp [isAtomUnit, h]

theorem isAtomUnit_exponentText (e : Int) : ∀ u ∈ exponentText e, isAtomUnit u = true := by
  have hdigits : ∀ u ∈ natStr e.natAbs, isAtomUnit u = true := fun u hu => isAtomUnit_of_isDigit (isDigit_natStr _ u hu)
  have hletter : isAtomUnit (unit 'e') = true := by decide
  have hsigns : isAtomUnit (unit '-') = true ∧ isAtomUnit (unit '+') = true := by decide
  intro u hu
  rw [exponentText, List.mem_cons, List.mem_cons] at hu
  rcases hu with rfl | rfl | hu
  · exact hletter
  · split
    · exact hsigns.1
    · exact hsigns.2
  · exact hdigits u hu

theorem isAtomUnit_magnitude (d : Decimal) : ∀ u ∈ d.magnitude, isAtomUnit u = true := by
  have hdigits : ∀ u ∈ natStr d.coefficient, isAtomUnit u = true :=
    fun u hu => isAtomUnit_of_isDigit (isDigit_natStr _ u hu)
  have hconstants : isAtomUnit (unit '.') = true ∧ isAtomUnit (unit '0') = true := by decide
  intro u hu
  rw [Decimal.magnitude] at hu
  split at hu
  · rcases List.mem_append.1 hu with hu | hu
    · exact hdigits u hu
    · rw [(List.mem_replicate.1 hu).2]
      exact hconstants.2
  split at hu
  · rcases List.mem_append.1 hu with hu | hu
    · exact hdigits u (List.mem_of_mem_take hu)
    rcases List.mem_cons.1 hu with rfl | hu
    · exact hconstants.1
    · exact hdigits u (List.mem_of_mem_drop hu)
  split at hu
  · simp only [List.mem_cons, List.mem_append, List.mem_replicate] at hu
    rcases hu with rfl | rfl | ⟨-, rfl⟩ | hu
    · exact hconstants.2
    · exact hconstants.1
    · exact hconstants.2
    · exact hdigits u hu
  split at hu
  · rcases List.mem_append.1 hu with hu | hu
    · exact hdigits u hu
    · exact isAtomUnit_exponentText _ u hu
  · rcases List.mem_append.1 hu with hu | hu
    · exact hdigits u (List.mem_of_mem_take hu)
    rcases List.mem_cons.1 hu with rfl | hu
    · exact hconstants.1
    rcases List.mem_append.1 hu with hu | hu
    · exact hdigits u (List.mem_of_mem_drop hu)
    · exact isAtomUnit_exponentText _ u hu

/-! BigInts. -/

/-- `BigInt::toString`. -/
def intStr (i : Int) : Str := sign (decide (i < 0)) ++ natStr i.natAbs

/-- A natural number rounded to 53 significant bits, ties to even. -/
def roundNat (n : Nat) : Nat :=
  let e := n.log2 - 52
  let q := n / 2 ^ e
  let r := n % 2 ^ e
  if 2 ^ e < 2 * r ∨ (2 * r = 2 ^ e ∧ q % 2 = 1) then (q + 1) * 2 ^ e else q * 2 ^ e

namespace Number

/-- `Number` of a BigInt. -/
def ofBigInt (i : Int) : Number :=
  if 2 ^ 1024 ≤ roundNat i.natAbs then .infinite (decide (i < 0)) else ofDecimal (decide (i < 0)) (roundNat i.natAbs) 0

/-- `Number.isSafeInteger`. -/
def isSafeInteger : Number → Bool
  | .nan | .infinite _ => false
  | .zero _ => true
  | .finite d => decide (0 ≤ d.exponent) && decide (d.coefficient * 10 ^ d.exponent.toNat ≤ 2 ^ 53 - 1)

theorem dropZeros_value (fuel a : Nat) : (dropZeros fuel a).1 * 10 ^ (dropZeros fuel a).2 = a := by
  induction fuel generalizing a with
  | zero => simp [dropZeros]
  | succ fuel ih =>
    rw [dropZeros]
    split
    · have h := ih (a / 10)
      rw [Nat.pow_succ, ← Nat.mul_assoc, h]
      omega
    · simp

theorem isSafeInteger_ofDecimal (negative : Bool) (a : Nat) :
    isSafeInteger (ofDecimal negative a 0) = decide (a ≤ 2 ^ 53 - 1) := by
  rw [ofDecimal]
  split
  · rename_i h
    rw [h]
    rfl
  · simp [isSafeInteger, dropZeros_value]

theorem roundNat_small {n : Nat} (h : n < 2 ^ 53) : roundNat n = n := by
  have hlog : n.log2 - 52 = 0 := by
    have : n.log2 < 53 := by
      by_cases hn : n = 0
      · rw [hn]; decide
      · exact (Nat.log2_lt hn).2 h
    omega
  rw [roundNat, hlog, if_neg (by omega)]
  omega

theorem roundNat_large {n : Nat} (h : 2 ^ 53 ≤ n) : 2 ^ 53 ≤ roundNat n := by
  have hlog : 53 ≤ n.log2 := (Nat.le_log2 (by omega)).2 h
  have hself : 2 ^ n.log2 ≤ n := Nat.log2_self_le (by omega)
  -- the quotient keeps 53 bits, so that its multiple is at least the power below `n`
  have hq : 2 ^ 52 ≤ n / 2 ^ (n.log2 - 52) := by
    rw [Nat.le_div_iff_mul_le (Nat.pow_pos (by decide)), ← Nat.pow_add, Nat.add_sub_cancel' (by omega)]
    exact hself
  have hpow : 2 ≤ 2 ^ (n.log2 - 52) := Nat.pow_le_pow_right (n := 2) (by decide) (show 1 ≤ n.log2 - 52 by omega)
  have hmul : 2 ^ 52 * 2 ≤ n / 2 ^ (n.log2 - 52) * 2 ^ (n.log2 - 52) := Nat.mul_le_mul hq hpow
  rw [roundNat]
  split
  · refine Nat.le_trans (by omega) (Nat.le_trans hmul (Nat.mul_le_mul_right _ (Nat.le_succ _)))
  · omega

/-- **A BigInt is a safe integer of its own value, or none.** -/
theorem isSafeInteger_ofBigInt (i : Int) : isSafeInteger (ofBigInt i) = decide (i.natAbs ≤ 2 ^ 53 - 1) := by
  by_cases h : i.natAbs < 2 ^ 53
  · have hsmall : ¬ 2 ^ 1024 ≤ i.natAbs :=
      Nat.not_le.2 (Nat.lt_of_lt_of_le h (Nat.pow_le_pow_right (by decide) (by decide)))
    rw [ofBigInt, roundNat_small h, if_neg hsmall, isSafeInteger_ofDecimal]
  · have hlarge := roundNat_large (n := i.natAbs) (by omega)
    rw [ofBigInt]
    split
    · rw [isSafeInteger, eq_comm, decide_eq_false (by omega)]
    · rw [isSafeInteger_ofDecimal, decide_eq_false (by omega), decide_eq_false (by omega)]

/-- A BigInt that is safe becomes a number that JSON keeps. -/
theorem ofBigInt_kept {i : Int} (h : isSafeInteger (ofBigInt i) = true) :
    isFinite (ofBigInt i) = true ∧ ofBigInt i ≠ .zero true := by
  rw [isSafeInteger_ofBigInt, decide_eq_true_eq] at h
  have hround := roundNat_small (n := i.natAbs) (by omega)
  rw [ofBigInt] at *
  split
  · rename_i hlarge
    rw [hround] at hlarge
    exact absurd hlarge (Nat.not_le.2 (Nat.lt_of_lt_of_le (by omega : i.natAbs < 2 ^ 53)
      (Nat.pow_le_pow_right (by decide) (by decide))))
  · rw [ofDecimal]
    split
    · rename_i hzero
      have hi : i = 0 := by omega
      subst hi
      exact ⟨rfl, by decide⟩
    · exact ⟨rfl, nofun⟩

end Number

end Js
