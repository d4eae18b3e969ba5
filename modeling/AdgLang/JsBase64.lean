import AdgLang.JsString
/-!
# JsBase64 — Base64 as `btoa`, `atob` and `Buffer` have it

Bytes are cut into sextets; `btoa` writes one unit a sextet and pads.  `atob` takes the padding off and refuses a text
that is none, `bufferFromBase64` skips what it does not know.  Both give the bytes back (`atob_btoa`,
`bufferFromBase64_btoa`).
-/
namespace Js

/-- The sextets of bytes, three bytes giving four of them. -/
def sextets : List UInt8 → List Nat
  | a :: b :: c :: rest =>
    a.toNat / 4 :: (a.toNat % 4 * 16 + b.toNat / 16) :: (b.toNat % 16 * 4 + c.toNat / 64) :: c.toNat % 64 :: sextets rest
  | [a, b] => [a.toNat / 4, a.toNat % 4 * 16 + b.toNat / 16, b.toNat % 16 * 4]
  | [a] => [a.toNat / 4, a.toNat % 4 * 16]
  | [] => []

/-- The bytes that sextets fill; the bits left over are dropped. -/
def ofSextets : List Nat → List UInt8
  | a :: b :: c :: d :: rest =>
    UInt8.ofNat (a * 4 + b / 16) :: UInt8.ofNat (b % 16 * 16 + c / 4) :: UInt8.ofNat (c % 4 * 64 + d) :: ofSextets rest
  | [a, b, c] => [UInt8.ofNat (a * 4 + b / 16), UInt8.ofNat (b % 16 * 16 + c / 4)]
  | [a, b] => [UInt8.ofNat (a * 4 + b / 16)]
  | [_] => []
  | [] => []

def sextetUnit (n : Nat) : UInt16 :=
  UInt16.ofNat (if n < 26 then 65 + n else if n < 52 then 71 + n else if n < 62 then n - 4 else if n = 62 then 43 else 47)

def sextetOf (u : UInt16) : Option Nat :=
  let n := u.toNat
  if 65 ≤ n ∧ n ≤ 90 then some (n - 65)
  else if 97 ≤ n ∧ n ≤ 122 then some (n - 71)
  else if 48 ≤ n ∧ n ≤ 57 then some (n + 4)
  else if n = 43 then some 62
  else if n = 47 then some 63
  else none

def paddingUnit : UInt16 := unit '='

def btoa (bytes : List UInt8) : Str :=
  (sextets bytes).map sextetUnit ++ List.replicate ((3 - bytes.length % 3) % 3) paddingUnit

/-- The text without the padding at its end, of at most two units. -/
def dropPadding (t : Str) : Str :=
  ((t.reverse.take 2).dropWhile (· == paddingUnit) ++ t.reverse.drop 2).reverse

/-- `atob`: ASCII white space is dropped, and padding where the length allows it; `none` is the error it throws. -/
def atob (t : Str) : Option (List UInt8) :=
  let t := t.filter (fun u => !(u == 0x09 || u == 0x0A || u == 0x0C || u == 0x0D || u == 0x20))
  let t := if t.length % 4 = 0 then dropPadding t else t
  if t.length % 4 = 1 then none else (t.mapM sextetOf).map ofSextets

/-- `Buffer.from(t, "base64")`: up to the padding, of either alphabet, what is in none skipped. -/
def bufferFromBase64 (t : Str) : List UInt8 :=
  ofSextets ((t.takeWhile (fun u => !(u == paddingUnit))).filterMap (fun u =>
    if u = unit '-' then some 62 else if u = unit '_' then some 63 else sextetOf u))

theorem byte_eq {a : UInt8} {n : Nat} (h : n = a.toNat) : UInt8.ofNat n = a := by
  rw [h, UInt8.ofNat_toNat]

theorem ofSextets_sextets (bytes : List UInt8) : ofSextets (sextets bytes) = bytes := by
  fun_induction sextets bytes with
  | case1 a b c rest ih =>
    have hb := b.toNat_lt
    have hc := c.toNat_lt
    rw [ofSextets, ih, byte_eq (a := a) (by omega), byte_eq (a := b) (by omega), byte_eq (a := c) (by omega)]
  | case2 a b =>
    have hb := b.toNat_lt
    rw [ofSextets, byte_eq (a := a) (by omega), byte_eq (a := b) (by omega)]
  | case3 a => rw [ofSextets, byte_eq (a := a) (by omega)]
  | case4 => rfl

theorem sextets_lt (bytes : List UInt8) : ∀ n ∈ sextets bytes, n < 64 := by
  fun_induction sextets bytes with
  | case1 a b c rest ih =>
    have ha := a.toNat_lt
    have hb := b.toNat_lt
    have hc := c.toNat_lt
    simp only [List.mem_cons, forall_eq_or_imp]
    exact ⟨by omega, by omega, by omega, by omega, ih⟩
  | case2 a b =>
    have ha := a.toNat_lt
    have hb := b.toNat_lt
    simp only [List.mem_cons, forall_eq_or_imp]
    exact ⟨by omega, by omega, by omega, nofun⟩
  | case3 a =>
    have ha := a.toNat_lt
    simp only [List.mem_cons, forall_eq_or_imp]
    exact ⟨by omega, by omega, nofun⟩
  | case4 => nofun

theorem sextetUnit_spec : ∀ n < 64, sextetOf (sextetUnit n) = some n ∧ sextetUnit n ≠ paddingUnit ∧
    sextetUnit n ≠ unit '-' ∧ sextetUnit n ≠ unit '_' ∧ 0x20 < sextetUnit n := by decide

theorem length_sextets (bytes : List UInt8) :
    ((sextets bytes).length + (3 - bytes.length % 3) % 3) % 4 = 0 ∧ (sextets bytes).length % 4 ≠ 1 := by
  fun_induction sextets bytes with
  | case1 a b c rest ih =>
    simp only [List.length_cons]
    have hmod : (rest.length + 1 + 1 + 1) % 3 = rest.length % 3 := by omega
    rw [hmod]
    omega
  | case2 a b => simp
  | case3 a => simp
  | case4 => decide

theorem dropPadding_append {t : Str} (h : ∀ u ∈ t, u ≠ paddingUnit) {k : Nat} (hk : k ≤ 2) :
    dropPadding (t ++ List.replicate k paddingUnit) = t := by
  have hreverse : ∀ u ∈ t.reverse, (u == paddingUnit) = false := fun u hu =>
    beq_eq_false_iff_ne.2 (h u (List.mem_reverse.1 hu))
  have hkeep : ∀ n, (t.reverse.take n).dropWhile (· == paddingUnit) = t.reverse.take n := fun n => by
    cases hn : t.reverse.take n with
    | nil => rfl
    | cons u _ =>
      have hu : u ∈ t.reverse := List.mem_of_mem_take (by rw [hn]; simp : u ∈ t.reverse.take n)
      rw [List.dropWhile_cons_of_neg (by simp [hreverse u hu])]
  have hr : (t ++ List.replicate k paddingUnit).reverse = List.replicate k paddingUnit ++ t.reverse := by simp
  rw [dropPadding, hr]
  match k, hk with
  | 0, _ => simp [hkeep]
  | 1, _ =>
    simp only [List.replicate, List.cons_append, List.nil_append, List.take_succ_cons, List.drop_succ_cons, beq_self_eq_true,
      List.dropWhile_cons_of_pos, hkeep, List.take_append_drop, List.reverse_reverse]
  | 2, _ => simp [List.replicate]

theorem mapM_sextetOf (ns : List Nat) (h : ∀ n ∈ ns, n < 64) : (ns.map sextetUnit).mapM sextetOf = some ns := by
  induction ns with
  | nil => rfl
  | cons n ns ih =>
    rw [List.map_cons, List.mapM_cons, (sextetUnit_spec n (h n (by simp))).1, ih (fun m hm => h m (by simp [hm]))]
    rfl

/-- **`atob` undoes `btoa`.** -/
theorem atob_btoa (bytes : List UInt8) : atob (btoa bytes) = some bytes := by
  have hspec : ∀ u ∈ (sextets bytes).map sextetUnit, u ≠ paddingUnit ∧ 0x20 < u := fun u hu => by
    obtain ⟨n, hn, rfl⟩ := List.mem_map.1 hu
    obtain ⟨-, hpad, -, -, hlow⟩ := sextetUnit_spec n (sextets_lt bytes n hn)
    exact ⟨hpad, hlow⟩
  have hlow : ∀ u ∈ btoa bytes, 0x20 < u := fun u hu => by
    rcases List.mem_append.1 hu with hu | hu
    · exact (hspec u hu).2
    · rw [(List.mem_replicate.1 hu).2]
      decide
  have hspace : (btoa bytes).filter (fun u => !(u == 0x09 || u == 0x0A || u == 0x0C || u == 0x0D || u == 0x20)) =
      btoa bytes := by
    refine List.filter_eq_self.2 (fun u hu => ?_)
    have hu := hlow u hu
    by_contra hne
    simp only [Bool.not_eq_true', Bool.not_eq_false, Bool.or_eq_true, beq_iff_eq] at hne
    rcases hne with (((rfl | rfl) | rfl) | rfl) | rfl <;> revert hu <;> decide
  have hlength : (btoa bytes).length % 4 = 0 := by
    rw [btoa, List.length_append, List.length_map, List.length_replicate]
    exact (length_sextets bytes).1
  rw [atob, hspace]
  simp only [hlength, if_true]
  rw [btoa, dropPadding_append (fun u hu => (hspec u hu).1) (by omega), List.length_map,
    if_neg (length_sextets bytes).2, mapM_sextetOf _ (sextets_lt bytes), Option.map_some, ofSextets_sextets]

/-- **A buffer made from the text of `btoa` holds the bytes.** -/
theorem bufferFromBase64_btoa (bytes : List UInt8) : bufferFromBase64 (btoa bytes) = bytes := by
  have hspec : ∀ n ∈ sextets bytes, _ := fun n hn => sextetUnit_spec n (sextets_lt bytes n hn)
  have htake : (btoa bytes).takeWhile (fun u => !(u == paddingUnit)) = (sextets bytes).map sextetUnit := by
    rw [btoa, List.takeWhile_append_of_pos]
    · cases (3 - bytes.length % 3) % 3 with
      | zero => simp
      | succ k => simp [List.replicate_succ]
    · intro u hu
      obtain ⟨n, hn, rfl⟩ := List.mem_map.1 hu
      simpa using (hspec n hn).2.1
  rw [bufferFromBase64, htake, List.filterMap_map]
  have hread : ∀ n ∈ sextets bytes, ((fun u => if u = unit '-' then some 62 else if u = unit '_' then some 63
      else sextetOf u) ∘ sextetUnit) n = some n := fun n hn => by
    obtain ⟨hvalue, -, hminus, hunder, -⟩ := hspec n hn
    rw [Function.comp_apply, if_neg hminus, if_neg hunder, hvalue]
  rw [List.filterMap_congr hread, List.filterMap_some, ofSextets_sextets]

end Js
