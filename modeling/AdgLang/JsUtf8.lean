import AdgLang.JsString
/-!
# JsUtf8 — the UTF-8 bytes of a JavaScript string

`TextEncoder.encode` reads a string as code points, half a surrogate pair as U+FFFD, and writes each in one to four
bytes.  A code no word of which begins another is read back from any concatenation (`PrefixFree.flatMap_injective`);
UTF-8 is one, so that strings without halves of pairs have equal bytes only if they are equal (`encodeUtf8_injective`).
-/
namespace Js

/-! ## Prefix codes -/

/-- No word of a code begins another, and none is empty. -/
structure PrefixFree {α β : Type} (word : α → List β) : Prop where
  nonempty : ∀ a, word a ≠ []
  split : ∀ a b x y, word a ++ x = word b ++ y → a = b

/-- **A concatenation of words is read back.** -/
theorem PrefixFree.flatMap_injective {α β : Type} {word : α → List β} (h : PrefixFree word) :
    ∀ {as bs : List α}, as.flatMap word = bs.flatMap word → as = bs
  | [], [], _ => rfl
  | [], b :: bs, heq => by
    rw [List.flatMap_nil, List.flatMap_cons] at heq
    exact absurd (List.append_eq_nil_iff.1 heq.symm).1 (h.nonempty b)
  | a :: as, [], heq => by
    rw [List.flatMap_nil, List.flatMap_cons] at heq
    exact absurd (List.append_eq_nil_iff.1 heq).1 (h.nonempty a)
  | a :: as, b :: bs, heq => by
    rw [List.flatMap_cons, List.flatMap_cons] at heq
    obtain rfl := h.split a b _ _ heq
    rw [h.flatMap_injective (List.append_cancel_left heq)]

/-! ## Code points -/

/-- A code point that is no surrogate. -/
abbrev Scalar := { n : Nat // n < 0xD800 ∨ (0xE000 ≤ n ∧ n < 0x110000) }

/-- What an encoder reads in place of half a pair. -/
def replacement : Scalar := ⟨0xFFFD, by omega⟩

/-- A surrogate pair. -/
def pair (lead trail : UInt16) : Scalar :=
  ⟨0x10000 + (lead.toNat % 1024) * 1024 + trail.toNat % 1024, by omega⟩

/-- A unit by itself. -/
def single (u : UInt16) : Scalar :=
  if h : u.toNat < 0xD800 ∨ 0xE000 ≤ u.toNat then ⟨u.toNat, h.imp_right (fun h => ⟨h, by have := u.toNat_lt; omega⟩)⟩
  else replacement

/-- The code points of a string; `lead` is a lead surrogate just before it. -/
def scalarsFrom : Option UInt16 → Str → List Scalar
  | none, [] => []
  | some _, [] => [replacement]
  | none, u :: rest => if isLead u then scalarsFrom (some u) rest else single u :: scalarsFrom none rest
  | some l, u :: rest =>
    if isTrail u then pair l u :: scalarsFrom none rest
    else if isLead u then replacement :: scalarsFrom (some u) rest
    else replacement :: single u :: scalarsFrom none rest

attribute [grind =] scalarsFrom

def scalars (s : Str) : List Scalar := scalarsFrom none s

/-- A string without half a surrogate pair. -/
def wellFormedFrom : Option UInt16 → Str → Bool
  | none, [] => true
  | some _, [] => false
  | none, u :: rest => if isLead u then wellFormedFrom (some u) rest else !isTrail u && wellFormedFrom none rest
  | some _, u :: rest => isTrail u && wellFormedFrom none rest

attribute [grind =] wellFormedFrom

/-- `isWellFormed`. -/
def isWellFormed (s : Str) : Bool := wellFormedFrom none s

/-- The units of a code point. -/
def unitsOf (n : Scalar) : Str :=
  if n.1 < 0x10000 then [UInt16.ofNat n.1]
  else [UInt16.ofNat (0xD800 + (n.1 - 0x10000) / 1024), UInt16.ofNat (0xDC00 + (n.1 - 0x10000) % 1024)]

theorem isLead_iff (u : UInt16) : isLead u = true ↔ 0xD800 ≤ u.toNat ∧ u.toNat ≤ 0xDBFF := by
  rw [isLead, Bool.and_eq_true, decide_eq_true_eq, decide_eq_true_eq, UInt16.le_iff_toNat_le, UInt16.le_iff_toNat_le]
  rfl

theorem isTrail_iff (u : UInt16) : isTrail u = true ↔ 0xDC00 ≤ u.toNat ∧ u.toNat ≤ 0xDFFF := by
  rw [isTrail, Bool.and_eq_true, decide_eq_true_eq, decide_eq_true_eq, UInt16.le_iff_toNat_le, UInt16.le_iff_toNat_le]
  rfl

theorem unit_eq {u : UInt16} {n : Nat} (h : n = u.toNat) : UInt16.ofNat n = u := by
  rw [h, UInt16.ofNat_toNat]

theorem unitsOf_pair {l u : UInt16} (hl : isLead l = true) (hu : isTrail u = true) : unitsOf (pair l u) = [l, u] := by
  rw [isLead_iff] at hl
  rw [isTrail_iff] at hu
  rw [unitsOf, pair, if_neg (by simp only; omega), unit_eq (u := l) (by simp only; omega),
    unit_eq (u := u) (by simp only; omega)]

theorem unitsOf_single {u : UInt16} (hl : isLead u = false) (hu : isTrail u = false) : unitsOf (single u) = [u] := by
  have hsurrogate : u.toNat < 0xD800 ∨ 0xE000 ≤ u.toNat := by
    by_contra hne
    rw [Bool.eq_false_iff, Ne, isLead_iff] at hl
    rw [Bool.eq_false_iff, Ne, isTrail_iff] at hu
    omega
  have hlt := u.toNat_lt
  rw [single, dif_pos hsurrogate, unitsOf, if_pos (by simp only; omega), unit_eq rfl]

/-- A string without half a pair is read back from its code points. -/
theorem unitsOf_scalarsFrom (s : Str) : ∀ lead : Option UInt16, (∀ l, lead = some l → isLead l = true) →
    wellFormedFrom lead s = true → (scalarsFrom lead s).flatMap unitsOf = lead.toList ++ s := by
  induction s with
  | nil =>
    intro lead _ hwf
    cases lead with
    | none => rfl
    | some l => cases hwf
  | cons u s ih =>
    intro lead hlead hwf
    cases lead with
    | none =>
      rw [wellFormedFrom] at hwf
      rw [scalarsFrom]
      by_cases hu : isLead u = true
      · rw [if_pos hu] at hwf ⊢
        exact ih (some u) (fun l hl => Option.some.inj hl ▸ hu) hwf
      · rw [if_neg hu, Bool.and_eq_true, Bool.not_eq_true'] at hwf
        rw [if_neg hu, List.flatMap_cons, ih none nofun hwf.2, unitsOf_single (Bool.not_eq_true _ ▸ hu) hwf.1]
        rfl
    | some l =>
      rw [wellFormedFrom, Bool.and_eq_true] at hwf
      rw [scalarsFrom, if_pos hwf.1, List.flatMap_cons, ih none nofun hwf.2, unitsOf_pair (hlead l rfl) hwf.1]
      rfl

theorem scalars_injective {s t : Str} (hs : isWellFormed s = true) (ht : isWellFormed t = true)
    (h : scalars s = scalars t) : s = t := by
  have hs := unitsOf_scalarsFrom s none nofun hs
  have ht := unitsOf_scalarsFrom t none nofun ht
  rw [scalars, scalars] at h
  rw [h, ht] at hs
  exact hs.symm

/-- Two strings have the code points of each, when the second does not begin with a trail surrogate. -/
theorem scalarsFrom_append (s t : Str) (ht : startsTrail t = false) :
    ∀ lead, scalarsFrom lead (s ++ t) = scalarsFrom lead s ++ scalars t := by
  induction s with
  | nil =>
    intro lead
    cases lead with
    | none => rfl
    | some l =>
      cases t with
      | nil => rfl
      | cons u t =>
        have hu : isTrail u = false := ht
        simp only [List.nil_append, scalarsFrom, scalars, hu, Bool.false_eq_true, if_false]
        split <;> rfl
  | cons u s ih =>
    intro lead
    cases lead with
    | none =>
      rw [List.cons_append, scalarsFrom, scalarsFrom, ih, ih]
      split <;> simp
    | some l =>
      rw [List.cons_append, scalarsFrom, scalarsFrom, ih, ih]
      split
      · simp
      · split <;> simp

/-! ## Bytes -/

/-- The bytes of a code point. -/
def utf8 (n : Scalar) : List UInt8 :=
  if n.1 < 0x80 then [UInt8.ofNat n.1]
  else if n.1 < 0x800 then [UInt8.ofNat (0xC0 + n.1 / 64), UInt8.ofNat (0x80 + n.1 % 64)]
  else if n.1 < 0x10000 then
    [UInt8.ofNat (0xE0 + n.1 / 4096), UInt8.ofNat (0x80 + n.1 / 64 % 64), UInt8.ofNat (0x80 + n.1 % 64)]
  else
    [UInt8.ofNat (0xF0 + n.1 / 262144), UInt8.ofNat (0x80 + n.1 / 4096 % 64), UInt8.ofNat (0x80 + n.1 / 64 % 64),
      UInt8.ofNat (0x80 + n.1 % 64)]

/-- `TextEncoder.encode`. -/
def encodeUtf8 (s : Str) : List UInt8 := (scalars s).flatMap utf8

/-- The code point that bytes begin with. -/
def firstScalar : List UInt8 → Nat
  | [] => 0
  | b :: rest =>
    let tail := fun i => (rest.getD i 0).toNat - 0x80
    if b.toNat < 0x80 then b.toNat
    else if b.toNat < 0xE0 then (b.toNat - 0xC0) * 64 + tail 0
    else if b.toNat < 0xF0 then ((b.toNat - 0xE0) * 64 + tail 0) * 64 + tail 1
    else (((b.toNat - 0xF0) * 64 + tail 0) * 64 + tail 1) * 64 + tail 2

theorem byte_toNat {n : Nat} (h : n < 256) : (UInt8.ofNat n).toNat = n := by
  rw [UInt8.toNat_ofNat', Nat.mod_eq_of_lt h]

theorem firstScalar_utf8 (n : Scalar) (x : List UInt8) : firstScalar (utf8 n ++ x) = n.1 := by
  obtain ⟨n, hn⟩ := n
  rw [utf8]
  simp only
  split
  · rw [List.cons_append, firstScalar, byte_toNat (by omega), if_pos (by omega)]
  split
  · rw [List.cons_append, firstScalar, byte_toNat (by omega), if_neg (by omega), if_pos (by omega)]
    simp only [List.cons_append, List.getD_cons_zero, byte_toNat (show 0x80 + n % 64 < 256 by omega)]
    omega
  split
  · rw [List.cons_append, firstScalar, byte_toNat (by omega), if_neg (by omega), if_neg (by omega), if_pos (by omega)]
    simp only [List.cons_append, List.getD_cons_zero, List.getD_cons_succ,
      byte_toNat (show 0x80 + n / 64 % 64 < 256 by omega), byte_toNat (show 0x80 + n % 64 < 256 by omega)]
    omega
  · rw [List.cons_append, firstScalar, byte_toNat (by omega), if_neg (by omega), if_neg (by omega), if_neg (by omega)]
    simp only [List.cons_append, List.getD_cons_zero, List.getD_cons_succ,
      byte_toNat (show 0x80 + n / 4096 % 64 < 256 by omega), byte_toNat (show 0x80 + n / 64 % 64 < 256 by omega),
      byte_toNat (show 0x80 + n % 64 < 256 by omega)]
    omega

theorem utf8_prefixFree : PrefixFree utf8 where
  nonempty := fun n => by
    rw [utf8]
    split
    · simp
    split
    · simp
    split <;> simp
  split := fun a b x y h => by
    have hfirst := congrArg firstScalar h
    rw [firstScalar_utf8, firstScalar_utf8] at hfirst
    exact Subtype.ext hfirst

/-- **Strings without half a pair have equal bytes only if they are equal.** -/
theorem encodeUtf8_injective {s t : Str} (hs : isWellFormed s = true) (ht : isWellFormed t = true)
    (h : encodeUtf8 s = encodeUtf8 t) : s = t :=
  scalars_injective hs ht (utf8_prefixFree.flatMap_injective h)

theorem encodeUtf8_append {s t : Str} (ht : startsTrail t = false) :
    encodeUtf8 (s ++ t) = encodeUtf8 s ++ encodeUtf8 t := by
  rw [encodeUtf8, scalars, scalarsFrom_append s t ht none, List.flatMap_append]
  rfl

def isAscii (u : UInt16) : Bool := decide (u.toNat < 0x80)

theorem not_surrogate_of_isAscii {u : UInt16} (h : isAscii u = true) : isLead u = false ∧ isTrail u = false := by
  have h := of_decide_eq_true h
  rw [Bool.eq_false_iff, Ne, isLead_iff, Bool.eq_false_iff, Ne, isTrail_iff]
  omega

/-- The bytes of an ASCII text before anything. -/
theorem encodeUtf8_ascii {s : Str} (h : ∀ u ∈ s, isAscii u = true) (t : Str) :
    encodeUtf8 (s ++ t) = s.map (fun u => UInt8.ofNat u.toNat) ++ encodeUtf8 t := by
  induction s with
  | nil => rfl
  | cons u s ih =>
    have hu := h u (by simp)
    have hlt := of_decide_eq_true hu
    have hsingle : utf8 (single u) = [UInt8.ofNat u.toNat] := by
      rw [single, dif_pos (Or.inl (by omega)), utf8, if_pos hlt]
    have hcons : encodeUtf8 (u :: (s ++ t)) = UInt8.ofNat u.toNat :: encodeUtf8 (s ++ t) := by
      rw [encodeUtf8, scalars, scalarsFrom, (not_surrogate_of_isAscii hu).1]
      simp only [Bool.false_eq_true, if_false, List.flatMap_cons, hsingle]
      rfl
    rw [List.cons_append, hcons, ih (fun v hv => h v (by simp [hv])), List.map_cons, List.cons_append]

theorem wellFormedFrom_append {s t : Str} (ht : isWellFormed t = true) :
    ∀ lead, wellFormedFrom lead s = true → wellFormedFrom lead (s ++ t) = true := by
  induction s with
  | nil =>
    intro lead h
    cases lead with
    | none => exact ht
    | some l => cases h
  | cons u s ih =>
    intro lead h
    cases lead with
    | none =>
      rw [wellFormedFrom] at h
      rw [List.cons_append, wellFormedFrom]
      split at h
      · rw [if_pos ‹_›]
        exact ih _ h
      · rw [Bool.and_eq_true] at h
        rw [if_neg ‹_›, h.1, ih _ h.2]
        rfl
    | some l =>
      rw [wellFormedFrom, Bool.and_eq_true] at h
      rw [List.cons_append, wellFormedFrom, h.1, ih _ h.2]
      rfl

theorem isWellFormed_append {s t : Str} (hs : isWellFormed s = true) (ht : isWellFormed t = true) :
    isWellFormed (s ++ t) = true := wellFormedFrom_append ht none hs

theorem isWellFormed_ascii {s : Str} (h : ∀ u ∈ s, isAscii u = true) : isWellFormed s = true := by
  induction s with
  | nil => rfl
  | cons u s ih =>
    obtain ⟨hlead, htrail⟩ := not_surrogate_of_isAscii (h u (by simp))
    rw [isWellFormed, wellFormedFrom, hlead, htrail]
    exact ih (fun v hv => h v (by simp [hv]))

end Js
