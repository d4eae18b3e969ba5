import Mathlib.Data.List.Basic
/-!
# Text — character lists and the .NET text primitives the compiler calls

Text is a list of Unicode scalar values.  The primitives keep their .NET names: `trim` and `isWhiteSpace` are
`String.Trim` and `char.IsWhiteSpace`, `stripComment` cuts a line at its first `#`, `stripTashkeel` is
`ArabicText.StripTashkeel`.
-/
namespace Adg

abbrev Text := List Char

instance instLawfulBEqText : LawfulBEq Text := inferInstance

/-- What is said of the characters of a text is decided on the text, not on all characters. -/
instance (priority := high) {p : Char → Prop} [DecidablePred p] (t : Text) : Decidable (∀ c ∈ t, p c) :=
  List.decidableBAll p t

instance (priority := high) {p : Char → Prop} [DecidablePred p] (t : Text) : Decidable (∃ c ∈ t, p c) :=
  List.decidableBEx p t

/-- The decimal digits of a number, as `String(n)` and `ToString(InvariantCulture)` write them. -/
def decimal (n : Nat) : Text := Nat.toDigits 10 n

theorem decimal_injective : Function.Injective decimal := fun a b h => by
  rw [← Nat.ofDigitChars_ten_toDigits (n := a), ← Nat.ofDigitChars_ten_toDigits (n := b)]
  exact congrArg (Nat.ofDigitChars 10 · 0) h

/-- `char.IsWhiteSpace`; the class `\s` of a regular expression is the same set. -/
def isWhiteSpace (c : Char) : Bool :=
  let n := c.toNat
  (0x9 ≤ n && n ≤ 0xD) || n == 0x20 || n == 0x85 || n == 0xA0 || n == 0x1680 || (0x2000 ≤ n && n ≤ 0x200A) ||
    n == 0x2028 || n == 0x2029 || n == 0x202F || n == 0x205F || n == 0x3000

def trimStart (t : Text) : Text := t.dropWhile isWhiteSpace

def trimEnd (t : Text) : Text := (t.reverse.dropWhile isWhiteSpace).reverse

def trim (t : Text) : Text := trimEnd (trimStart t)

/-- `string.IsNullOrWhiteSpace`. -/
def isNullOrWhiteSpace (t : Text) : Bool := t.all isWhiteSpace

/-- A vowel mark of `ArabicText.StripTashkeel`: U+064B to U+065F, or U+0670. -/
def isTashkeel (c : Char) : Bool :=
  let n := c.toNat
  (0x64B ≤ n && n ≤ 0x65F) || n == 0x670

def stripTashkeel (value : Text) : Text := (trim value).filter (fun c => !isTashkeel c)

/-- `ToLowerInvariant` on the characters whose lower case is an ASCII letter, the Kelvin sign among them; the keyword
tables have no other cased letter. -/
def toLowerInvariant (t : Text) : Text := t.map (fun c => if c = '\u212A' then 'k' else c.toLower)

/-- `string.Equals(value, expected, OrdinalIgnoreCase)`, for an ASCII `expected`. -/
def equalsIgnoreCase (value expected : Text) : Bool := decide (value.map Char.toLower = expected.map Char.toLower)

/-- `line.StartsWith(start, OrdinalIgnoreCase)`, for an ASCII `start`. -/
def startsWithIgnoreCase (line start : Text) : Bool := equalsIgnoreCase (line.take start.length) start

/-- `Split(c)` without options. -/
def splitOn (c : Char) : Text → List Text
  | [] => [[]]
  | x :: xs =>
    if x = c then [] :: splitOn c xs
    else match splitOn c xs with
      | [] => [[x]]
      | y :: ys => (x :: y) :: ys

/-- `Split(' ', RemoveEmptyEntries | TrimEntries)`. -/
def splitSpace (t : Text) : List Text := ((splitOn ' ' t).map trim).filter (fun x => decide (x ≠ []))

/-- `Split((char[]?)null, RemoveEmptyEntries | TrimEntries)`: the runs without white space. -/
def splitWhiteSpace (t : Text) : List Text :=
  splitSpace (t.map (fun c => if isWhiteSpace c then ' ' else c))

/-- `string.Join(separator, parts)`. -/
def join (separator : Text) : List Text → Text
  | [] => []
  | [t] => t
  | t :: u :: ts => t ++ separator ++ join separator (u :: ts)

theorem mem_join {separator : Text} {c : Char} : ∀ {parts : List Text} {part : Text}, part ∈ parts → c ∈ part →
    c ∈ join separator parts
  | [t], part, hpart, hc => by
    rw [List.mem_singleton.1 hpart] at hc; exact hc
  | t :: u :: ts, part, hpart, hc => by
    rw [join]
    rcases List.mem_cons.1 hpart with rfl | hpart
    · exact List.mem_append_left _ (List.mem_append_left _ hc)
    · exact List.mem_append_right _ (mem_join hpart hc)

/-- A character that does not separate is in the joined text exactly when it is in a part. -/
theorem mem_join_iff {separator : Text} {c : Char} (hc : c ∉ separator) : ∀ {parts : List Text},
    c ∈ join separator parts ↔ ∃ part ∈ parts, c ∈ part
  | [] => by simp [join]
  | [t] => by simp [join]
  | t :: u :: ts => by
    rw [join, List.mem_append, List.mem_append, mem_join_iff hc]
    simp only [hc, or_false, List.mem_cons, exists_eq_or_imp]

/-- `StripComment`: the line up to its first `#`. -/
def stripComment (line : Text) : Text := line.takeWhile (fun c => c != '#')

theorem length_trim_le (t : Text) : (trim t).length ≤ t.length := by
  unfold trim trimEnd trimStart
  rw [List.length_reverse]
  have h := (List.dropWhile_sublist isWhiteSpace (l := (t.dropWhile isWhiteSpace).reverse)).length_le
  have h' := (List.dropWhile_sublist isWhiteSpace (l := t)).length_le
  rw [List.length_reverse] at h
  omega

theorem mem_dropWhile_of_not {p : Char → Bool} {c : Char} (hp : p c = false) : ∀ {t : Text}, c ∈ t → c ∈ t.dropWhile p
  | d :: t, hc => by
    rw [List.dropWhile_cons]
    split
    · rename_i hd
      rcases List.mem_cons.1 hc with rfl | hc
      · rw [hp] at hd; cases hd
      · exact mem_dropWhile_of_not hp hc
    · exact hc

/-- Trimming drops white space only. -/
theorem mem_trim {t : Text} {c : Char} (hc : c ∈ t) (hspace : isWhiteSpace c = false) : c ∈ trim t :=
  List.mem_reverse.2 (mem_dropWhile_of_not hspace (List.mem_reverse.2 (mem_dropWhile_of_not hspace hc)))

theorem mem_of_mem_trim {t : Text} {c : Char} (h : c ∈ trim t) : c ∈ t := by
  unfold trim trimEnd trimStart at h
  rw [List.mem_reverse] at h
  have h1 := (List.dropWhile_sublist _).subset h
  rw [List.mem_reverse] at h1
  exact (List.dropWhile_sublist _).subset h1

end Adg
