import AdgLang.IssuePublisher
import AdgLang.NormalForms
import AdgLang.RecoveryControl
import AdgLang.BackupLane
import Mathlib.Data.List.TakeWhile
/-!
# BackupFields — the fields of a backup descriptor

The normalisers of `cpoly-recovery.js` that read one field of a descriptor.  A field is text that is trimmed, a file
name, a time, a digest or a whole number that `Number.parseInt` finds at the beginning of a text; what a normaliser
returns is written as a value that the same normaliser returns again.
-/
namespace Adg
namespace Backup

open Js Protocol Issues
open Recovery.Control (RouteError)
open Recovery.Lane

inductive NormalizeError
  | route (error : RouteError)
  /-- `String` of an object whose own `toString` is no function. -/
  | typeError
deriving DecidableEq

def refusal (message : String) (status : Nat) : NormalizeError := .route ⟨message.toList, status⟩

def invalid (fieldName : String) : NormalizeError := refusal s!"{fieldName} is invalid." 400

def refuse (refused : Bool) (error : NormalizeError) : Except NormalizeError Unit :=
  if refused then .error error else .ok ()

theorem refuse_eq_ok {refused : Bool} {error : NormalizeError} {u : Unit} : refuse refused error = .ok u ↔ refused = false := by
  cases refused with
  | false => exact ⟨fun _ => rfl, fun _ => rfl⟩
  | true => exact ⟨nofun, nofun⟩

/-! ## Texts and numbers -/

/-- `String(value)`. -/
def textOf (value : Value) : Except NormalizeError Str :=
  match value.toText with
  | some t => .ok t
  | none => .error .typeError

/-- `String(value || fallback)`. -/
def textOr (value : Value) (fallback : Str) : Except NormalizeError Str :=
  if value.truthy then textOf value else .ok fallback

/-- `value ?? other`. -/
def coalesce (value other : Value) : Value := if isNullish value then other else value

/-- A value that is read only when it is neither null nor undefined. -/
def whenPresent {α : Type} (value : Value) (missing : α) (read : Value → Except NormalizeError α) : Except NormalizeError α :=
  if isNullish value then .ok missing else read value

/-- `toLowerCase`, as far as it leads to ASCII: of the units above 127 only the Kelvin sign does. -/
def toLowerCase (s : Str) : Str :=
  s.map (fun u => if 65 ≤ u.toNat ∧ u.toNat ≤ 90 then u + 32 else if u = 0x212A then unit 'k' else u)

/-- `Number.parseInt(text, 10)`; `none` is NaN.  A number above the safe ones stands for one that is rounded. -/
def parseInt (text : Str) : Option Int :=
  let t := text.dropWhile isSpace
  let negative := t.head? == some (unit '-')
  let unsigned := if negative || t.head? == some (unit '+') then t.tail else t
  let digits := unsigned.takeWhile isDigit
  if digits = [] then none else some (if negative then -(natOf digits : Int) else natOf digits)

def maxSafeInteger : Nat := 2 ^ 53 - 1

def isSafeInteger (n : Int) : Bool := decide (n.natAbs ≤ maxSafeInteger)

/-- Of a zero with a sign the zero is kept, as JSON and `===` do. -/
def positiveInteger (value : Value) (fieldName : String) (min max : Nat) : Except NormalizeError Nat := do
  match parseInt (← textOf value) with
  | some n =>
    if !isSafeInteger n || decide (n < min) || decide ((max : Int) < n) then .error (invalid fieldName) else .ok n.toNat
  | none => .error (invalid fieldName)

def boundedInteger (value : Value) (fallback min max : Nat) : Except NormalizeError Nat := do
  match parseInt (← whenPresent value (natStr fallback) textOf) with
  | some n => .ok (if isSafeInteger n then (Min.min (max : Int) (Max.max min n)).toNat else fallback)
  | none => .ok fallback

/-! ## Fields -/

def normalizeObject (value : Value) (fieldName : String) : Except NormalizeError Value :=
  match value with
  | .object properties => .ok (.object properties)
  | _ => .error (invalid fieldName)

def normalizeArray (value : Value) (fieldName : String) : Except NormalizeError (List Value) :=
  match value with
  | .array items => .ok items
  | _ => .error (invalid fieldName)

def normalizeBoolean (value : Value) (fieldName : String) : Except NormalizeError Bool :=
  match value with
  | .bool b => .ok b
  | _ => .error (invalid fieldName)

def normalizeNonEmptyString (value : Value) (fieldName : String) (maxLength : Nat) : Except NormalizeError Str := do
  let text := Issues.trim (← textOr value [])
  refuse (text.isEmpty || decide (maxLength < text.length)) (invalid fieldName)
  return text

def normalizeOptionalString (value : Value) (fieldName : String) (maxLength : Nat) : Except NormalizeError (Option Str) :=
  match value with
  | .undefined | .null | .string [] => .ok none
  | value => some <$> normalizeNonEmptyString value fieldName maxLength

/-- `SAFE_FILE_NAME_PATTERN`, `/^[A-Za-z0-9._-]+$/u`. -/
def safeFileNamePattern : Pattern := .whole (.plus (.set (fun u => isAlphanumeric u || isOneOf "._-" u)))

def normalizeSafeFileName (value : Value) (fieldName : String) (requiredSuffix : Option Pattern) : Except NormalizeError Str := do
  let text ← normalizeNonEmptyString value fieldName 256
  refuse (!safeFileNamePattern.test text || includes text (str "..") || includes text (str "/") ||
    includes text (str "\\")) (invalid fieldName)
  refuse (requiredSuffix.any (fun suffix => !suffix.test text)) (invalid fieldName)
  return text

def normalizeIsoTimestamp (parsesDate : Str → Bool) (value : Value) (fieldName : String) : Except NormalizeError Str := do
  let text ← normalizeNonEmptyString value fieldName 64
  refuse (!parsesDate text) (invalid fieldName)
  return text

def normalizeSha256Hex (value : Value) (fieldName : String) : Except NormalizeError HexDigest := do
  let text := toLowerCase (Issues.trim (← textOr value []))
  if h : digestPattern.test text = true then return ⟨text, h⟩ else .error (invalid fieldName)

/-- How an archive is encrypted; the format has several names. -/
inductive EncryptionFormat
  | unencrypted
  | openpgp
deriving DecidableEq

def EncryptionFormat.text : EncryptionFormat → Str
  | .unencrypted => str "none"
  | .openpgp => str "openpgp-symmetric-aes256"

def normalizeArchiveEncryptionFormat (value : Value) : Except NormalizeError EncryptionFormat := do
  let normalized := toLowerCase (Issues.trim (← textOr value EncryptionFormat.unencrypted.text))
  if normalized ∈ ["openpgp-symmetric-aes256", "aes256-openpgp", "gpg-aes256-symmetric",
      "openpgp-aes256-symmetric"].map str then return .openpgp
  else if normalized ∈ ["none", "plaintext", "custom-dump", "postgres-custom"].map str then return .unencrypted
  else .error (refusal "Backup archive encryption format was invalid." 400)

/-! ## Numbers that are written -/

/-- A whole number as a value. -/
def whole (n : Nat) : Value := .number (Number.ofNat n)

theorem not_isSpace_of_isDigit {u : UInt16} (h : isDigit u = true) : isSpace u = false := by
  rw [isDigit, Bool.and_eq_true, decide_eq_true_eq, decide_eq_true_eq] at h
  simp only [isSpace, Bool.or_eq_false_iff, Bool.and_eq_false_iff, decide_eq_false_iff_not, beq_eq_false_iff_ne]
  omega

theorem parseInt_digits {ds : Str} (hds : ∀ u ∈ ds, isDigit u = true) (hne : ds ≠ []) :
    parseInt ds = some (natOf ds : Int) := by
  have hspaces : ds.dropWhile isSpace = ds :=
    dropWhile_of_head (fun u hu => not_isSpace_of_isDigit (hds u (List.mem_of_mem_head? hu)))
  have hsign : ∀ c : UInt16, isDigit c = false → (ds.head? == some c) = false := fun c hc => by
    rw [beq_eq_false_iff_ne]
    intro hhead
    exact Bool.noConfusion (hc.symm.trans (hds c (List.mem_of_mem_head? hhead)))
  have hdigits : ds.takeWhile isDigit = ds := by
    rw [List.takeWhile_eq_self_iff]
    exact hds
  rw [parseInt, hspaces]
  simp only [hsign (unit '-') (by decide), hsign (unit '+') (by decide), Bool.or_self, Bool.false_eq_true, if_false, hdigits,
    if_neg hne]

/-- An integer below `10 ^ 16` is laid out with all its digits. -/
theorem magnitude_whole {d : Decimal} (hexponent : 0 ≤ d.exponent) (hd : d.coefficient * 10 ^ d.exponent.toNat < 10 ^ 16) :
    d.magnitude = natStr d.coefficient ++ List.replicate d.exponent.toNat (unit '0') := by
  have hpos : 0 < d.coefficient := Nat.pos_of_ne_zero d.coefficient_ne_zero
  have hz : d.exponent.toNat < 16 := by
    have hle : 10 ^ d.exponent.toNat ≤ d.coefficient * 10 ^ d.exponent.toNat := Nat.le_mul_of_pos_left _ hpos
    exact (Nat.pow_lt_pow_iff_right (by decide)).1 (Nat.lt_of_le_of_lt hle hd)
  have hlength : (natStr d.coefficient).length ≤ 16 - d.exponent.toNat := by
    rw [natStr, List.length_map, Nat.length_toDigits_le_iff (by decide) (by omega)]
    have hsplit : 10 ^ 16 = 10 ^ (16 - d.exponent.toNat) * 10 ^ d.exponent.toNat := by
      rw [← Nat.pow_add]
      congr 1
      omega
    rw [hsplit] at hd
    exact Nat.lt_of_mul_lt_mul_right hd
  rw [Decimal.magnitude, if_pos (by omega)]

/-- A safe number is written with all its digits. -/
theorem toText_ofNat {n : Nat} (hn : n ≤ maxSafeInteger) :
    (∀ u ∈ (Number.ofNat n).toText, isDigit u = true) ∧ (Number.ofNat n).toText ≠ [] ∧ natOf (Number.ofNat n).toText = n := by
  by_cases hzero : n = 0
  · subst hzero
    rw [Number.ofNat, Number.ofDecimal_zero]
    decide
  · have hvalue := Number.dropZeros_value n n
    have hbound : n < 10 ^ 16 := Nat.lt_of_le_of_lt hn (by decide)
    have hexponent : (0 : Int) ≤ 0 + ((dropZeros n n).2 : Int) := by omega
    rw [Number.ofNat, Number.ofDecimal, dif_neg hzero, Number.toText, magnitude_whole hexponent ?_]
    · simp only [sign, Bool.false_eq_true, if_false, List.nil_append, Int.zero_add, Int.toNat_natCast, natOf_append,
        natOf_natStr, natOf_zeros, List.length_replicate, Nat.add_zero, hvalue, and_true]
      constructor
      · intro u hu
        rcases List.mem_append.1 hu with hu | hu
        · exact isDigit_natStr _ u hu
        · rw [List.eq_of_mem_replicate hu]
          decide
      · intro hnil
        exact natStr_ne_nil _ (List.append_eq_nil_iff.1 hnil).1
    · rw [Int.zero_add, Int.toNat_natCast, hvalue]
      exact hbound

theorem parseInt_whole {n : Nat} (hn : n ≤ maxSafeInteger) : parseInt (Number.ofNat n).toText = some (n : Int) := by
  obtain ⟨hdigits, hne, hvalue⟩ := toText_ofNat hn
  rw [parseInt_digits hdigits hne, hvalue]

/-! ## Fields that are read again -/

theorem positiveInteger_spec {value : Value} {fieldName : String} {min max n : Nat}
    (h : positiveInteger value fieldName min max = .ok n) : min ≤ n ∧ n ≤ max ∧ n ≤ maxSafeInteger := by
  obtain ⟨text, -, h⟩ := bind_eq_ok.1 h
  split at h
  · rename_i parsed _
    split at h
    · cases h
    · rename_i hrefused
      cases h
      simp only [isSafeInteger, Bool.or_eq_true, Bool.not_eq_true', decide_eq_false_iff_not, decide_eq_true_eq, not_or,
        not_not, Int.not_lt] at hrefused
      omega
  · cases h

theorem positiveInteger_whole {fieldName : String} {min max n : Nat} (hmin : min ≤ n) (hmax : n ≤ max)
    (hsafe : n ≤ maxSafeInteger) : positiveInteger (whole n) fieldName min max = .ok n := by
  have hrefused : (!isSafeInteger (n : Int) || decide ((n : Int) < min) || decide ((max : Int) < n)) = false := by
    simp only [isSafeInteger, Bool.or_eq_false_iff, Bool.not_eq_false', decide_eq_true_eq, decide_eq_false_iff_not, Int.not_lt]
    omega
  refine bind_eq_ok.2 ⟨(Number.ofNat n).toText, rfl, ?_⟩
  rw [parseInt_whole hsafe]
  simp only [hrefused, Bool.false_eq_true, if_false, Int.toNat_natCast]

/-- A number is read again, also where more is allowed. -/
theorem settles_positiveInteger (fieldName : String) {min max max' : Nat} (hmax : max ≤ max') :
    Settles (positiveInteger · fieldName min max) (positiveInteger · fieldName min max') whole := fun _ _ h => by
  obtain ⟨hmin, hle, hsafe⟩ := positiveInteger_spec h
  exact positiveInteger_whole hmin (Nat.le_trans hle hmax) hsafe

theorem textOr_string {s : Str} (hs : s ≠ []) (fallback : Str) : textOr (.string s) fallback = .ok s := by
  cases s with
  | nil => exact absurd rfl hs
  | cons u s => rfl

/-- What `normalizeNonEmptyString` returns. -/
structure Kept (maxLength : Nat) (text : Str) : Prop where
  trimmed : Trimmed text
  ne_nil : text ≠ []
  length_le : text.length ≤ maxLength

/-- A text whose ends are no white space. -/
theorem kept_of_ends {maxLength : Nat} {text : Str} (hhead : text.head?.all (fun u => !isSpace u) = true)
    (hlast : text.getLast?.all (fun u => !isSpace u) = true) (hne : text ≠ []) (hlength : text.length ≤ maxLength) :
    Kept maxLength text := by
  have hplain : ∀ {u : UInt16} {o : Option UInt16}, o.all (fun u => !isSpace u) = true → o = some u → isSpace u = false :=
    fun h hu => by
      rw [hu, Option.all_some, Bool.not_eq_true'] at h
      exact h
  exact ⟨⟨fun _ => hplain hhead, fun _ => hplain hlast⟩, hne, hlength⟩

theorem kept_of_normalize {value : Value} {fieldName : String} {maxLength : Nat} {text : Str}
    (h : normalizeNonEmptyString value fieldName maxLength = .ok text) : Kept maxLength text := by
  obtain ⟨s, -, h⟩ := bind_eq_ok.1 h
  obtain ⟨_, hrefused, h⟩ := bind_eq_ok.1 h
  cases h
  have hrefused := refuse_eq_ok.1 hrefused
  rw [Bool.or_eq_false_iff, List.isEmpty_eq_false_iff, decide_eq_false_iff_not, Nat.not_lt] at hrefused
  exact ⟨trimmed_trim s, hrefused.1, hrefused.2⟩

theorem Kept.normalize {maxLength : Nat} {text : Str} (h : Kept maxLength text) (fieldName : String) :
    normalizeNonEmptyString (.string text) fieldName maxLength = .ok text := by
  have hrefused : (text.isEmpty || decide (maxLength < text.length)) = false := by
    rw [Bool.or_eq_false_iff, List.isEmpty_eq_false_iff, decide_eq_false_iff_not, Nat.not_lt]
    exact ⟨h.ne_nil, h.length_le⟩
  rw [normalizeNonEmptyString, textOr_string h.ne_nil]
  refine bind_eq_ok.2 ⟨text, rfl, ?_⟩
  simp only [trim_of_trimmed h.trimmed]
  exact bind_eq_ok.2 ⟨⟨⟩, refuse_eq_ok.2 hrefused, rfl⟩

theorem settles_normalizeNonEmptyString (fieldName : String) (maxLength : Nat) :
    Settles (normalizeNonEmptyString · fieldName maxLength) (normalizeNonEmptyString · fieldName maxLength) .string :=
  fun _ _ h => (kept_of_normalize h).normalize fieldName

theorem kept_of_optional {value : Value} {fieldName : String} {maxLength : Nat} {text : Str}
    (h : normalizeOptionalString value fieldName maxLength = .ok (some text)) : Kept maxLength text := by
  rw [normalizeOptionalString.eq_def] at h
  split at h
  · cases h
  · cases h
  · cases h
  · obtain ⟨t, ht, heq⟩ := map_eq_ok.1 h
    cases heq
    exact kept_of_normalize ht

/-- A text that is missing is written as nothing. -/
def optionalText : Option Str → Value
  | none => .undefined
  | some text => .string text

theorem optional_getD (text : Option Str) : (text.map Value.string).getD .undefined = optionalText text := by
  cases text <;> rfl

theorem Kept.optional {maxLength : Nat} {text : Str} (h : Kept maxLength text) (fieldName : String) :
    normalizeOptionalString (.string text) fieldName maxLength = .ok (some text) := by
  obtain ⟨u, rest, rfl⟩ := List.exists_cons_of_ne_nil h.ne_nil
  exact map_eq_ok.2 ⟨_, h.normalize fieldName, rfl⟩

theorem settles_normalizeOptionalString (fieldName : String) (maxLength : Nat) :
    Settles (normalizeOptionalString · fieldName maxLength) (normalizeOptionalString · fieldName maxLength) optionalText :=
  fun value text h => by
    cases text with
    | none => rfl
    | some text => exact (kept_of_optional h).optional fieldName

theorem settles_normalizeSafeFileName (fieldName : String) (requiredSuffix : Option Pattern) :
    Settles (normalizeSafeFileName · fieldName requiredSuffix) (normalizeSafeFileName · fieldName requiredSuffix) .string :=
  fun _ _ h => by
    obtain ⟨text, htext, h⟩ := bind_eq_ok.1 h
    obtain ⟨_, hname, h⟩ := bind_eq_ok.1 h
    obtain ⟨_, hsuffix, h⟩ := bind_eq_ok.1 h
    cases h
    exact bind_eq_ok.2 ⟨_, settles_normalizeNonEmptyString _ _ _ _ htext, bind_eq_ok.2 ⟨⟨⟩, hname,
      bind_eq_ok.2 ⟨⟨⟩, hsuffix, rfl⟩⟩⟩

theorem settles_normalizeIsoTimestamp (parsesDate : Str → Bool) (fieldName : String) :
    Settles (normalizeIsoTimestamp parsesDate · fieldName) (normalizeIsoTimestamp parsesDate · fieldName) .string :=
  fun _ _ h => by
    obtain ⟨text, htext, h⟩ := bind_eq_ok.1 h
    obtain ⟨_, hdate, h⟩ := bind_eq_ok.1 h
    cases h
    exact bind_eq_ok.2 ⟨_, settles_normalizeNonEmptyString _ _ _ _ htext, bind_eq_ok.2 ⟨⟨⟩, hdate, rfl⟩⟩

theorem isLowerHexDigit_of_mem (digest : HexDigest) : ∀ u ∈ digest.1, isLowerHexDigit u = true := by
  have hrow : (Pattern.row (List.replicate 64 isLowerHexDigit)).Within (fun u => isLowerHexDigit u = true) := by
    refine Pattern.within_seqs (fun a ha => ?_)
    obtain ⟨set, hset, rfl⟩ := List.mem_map.1 ha
    rw [List.eq_of_mem_replicate hset]
    exact fun _ hu => hu
  exact Pattern.mem_of_test_whole hrow digest.2

/-- A digit of a digest is neither white space nor a capital letter. -/
theorem lowerHexDigit_plain {u : UInt16} (h : isLowerHexDigit u = true) :
    isSpace u = false ∧ (if 65 ≤ u.toNat ∧ u.toNat ≤ 90 then u + 32 else if u = 0x212A then unit 'k' else u) = u := by
  have hall : ∀ v ∈ str "0123456789abcdef", isSpace v = false ∧
      (if 65 ≤ v.toNat ∧ v.toNat ≤ 90 then v + 32 else if v = 0x212A then unit 'k' else v) = v :=
    forall_mem_of_all (by decide)
  exact hall u (List.contains_iff_mem.1 h)

theorem toLowerCase_digest (digest : HexDigest) : toLowerCase digest.1 = digest.1 := by
  rw [toLowerCase]
  conv_rhs => rw [← List.map_id digest.1]
  exact List.map_congr_left (fun u hu => (lowerHexDigit_plain (isLowerHexDigit_of_mem digest u hu)).2)

theorem trimmed_digest (digest : HexDigest) : Trimmed digest.1 :=
  ⟨fun u hu => (lowerHexDigit_plain (isLowerHexDigit_of_mem digest u (List.mem_of_mem_head? hu))).1,
    fun u hu => (lowerHexDigit_plain (isLowerHexDigit_of_mem digest u (List.mem_of_getLast? hu))).1⟩

theorem digest_ne_nil (digest : HexDigest) : digest.1 ≠ [] := fun hnil => by
  have h : digestPattern.test digest.1 = true := digest.2
  rw [hnil] at h
  exact absurd h (by decide)

theorem normalizeSha256Hex_digest (digest : HexDigest) (fieldName : String) :
    normalizeSha256Hex (.string digest.1) fieldName = .ok digest := by
  rw [normalizeSha256Hex, textOr_string (digest_ne_nil digest)]
  refine bind_eq_ok.2 ⟨digest.1, rfl, ?_⟩
  simp only [trim_of_trimmed (trimmed_digest digest), toLowerCase_digest]
  rw [dif_pos digest.2]
  rfl

theorem settles_normalizeSha256Hex (fieldName : String) :
    Settles (normalizeSha256Hex · fieldName) (normalizeSha256Hex · fieldName) (fun digest => .string digest.1) :=
  fun _ digest _ => normalizeSha256Hex_digest digest fieldName

theorem settles_normalizeArchiveEncryptionFormat :
    Settles normalizeArchiveEncryptionFormat normalizeArchiveEncryptionFormat (fun format => .string format.text) :=
  fun _ format _ => by
    cases format with
    | unencrypted => rfl
    | openpgp => rfl

end Backup
end Adg
