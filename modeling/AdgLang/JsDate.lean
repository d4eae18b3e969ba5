import AdgLang.JsNumber
/-!
# JsDate — times and their ISO texts

A time is a number of milliseconds since the epoch.  `toISOString` writes its date and time, and `parseDate` reads such a
text back to the time (`parseDate_toISOString`).
-/
namespace Js

/-! ## Days -/

structure Civil where
  year : Nat
  month : Nat
  day : Nat
deriving DecidableEq

/-- A day by the era of 400 years, the century, the leap cycle and the year that begins in March, and how far it is into
that year. -/
structure MarchDay where
  era : Nat
  century : Nat
  cycle : Nat
  year : Nat
  ofYear : Nat

/-- The days from the first of March of the year 0 to the epoch. -/
@[irreducible] def epochDay : Nat := 719468

/-- The days of the year that begins in March before its month. -/
def daysBefore (month : Nat) : Nat := (153 * month + 2) / 5

/-- The parts of a day since the first of March of the year 0. -/
def marchDay (day : Nat) : MarchDay :=
  let century := min (day % 146097 / 36524) 3
  let ofCentury := day % 146097 - century * 36524
  let year := min (ofCentury % 1461 / 365) 3
  ⟨day / 146097, century, ofCentury / 1461, year, ofCentury % 1461 - year * 365⟩

/-- The date of a day that is so far into a year that begins in March. -/
def civilOfMarch (year ofYear : Nat) : Civil :=
  let month := (5 * ofYear + 2) / 153
  if month < 10 then ⟨year, month + 3, ofYear - daysBefore month + 1⟩
  else ⟨year + 1, month - 9, ofYear - daysBefore month + 1⟩

/-- The date of a day since the epoch. -/
def civilOfDays (days : Nat) : Civil :=
  let p := marchDay (days + epochDay)
  civilOfMarch (p.era * 400 + p.century * 100 + p.cycle * 4 + p.year) p.ofYear

/-- The days from the first of March of the year 0 to the one of a year. -/
def daysOfYear (year : Nat) : Nat := year / 400 * 146097 + (year % 400 * 365 + year % 400 / 4 - year % 400 / 100)

/-- The day of a date. -/
def daysOfCivil (d : Civil) : Nat :=
  let year := if d.month ≤ 2 then d.year - 1 else d.year
  daysOfYear year + (daysBefore ((d.month + 9) % 12) + (d.day - 1)) - epochDay

theorem daysOfYear_parts {era c q a : Nat} (hc : c ≤ 3) (hq : q ≤ 24) (ha : a ≤ 3) :
    daysOfYear (era * 400 + c * 100 + q * 4 + a) = era * 146097 + c * 36524 + q * 1461 + a * 365 := by
  have hmod : (era * 400 + c * 100 + q * 4 + a) % 400 = c * 100 + q * 4 + a := by omega
  have hdiv : (era * 400 + c * 100 + q * 4 + a) / 400 = era := by omega
  have hfour : (c * 100 + q * 4 + a) / 4 = c * 25 + q := by omega
  have hhundred : (c * 100 + q * 4 + a) / 100 = c := by omega
  rw [daysOfYear, hmod, hdiv, hfour, hhundred]
  omega

theorem marchDay_spec (day : Nat) : ∃ era c q a n, marchDay day = ⟨era, c, q, a, n⟩ ∧ c ≤ 3 ∧ q ≤ 24 ∧ a ≤ 3 ∧ n ≤ 365 ∧
    day = era * 146097 + c * 36524 + q * 1461 + a * 365 + n := by
  refine ⟨_, _, _, _, _, rfl, ?_⟩
  generalize hc : min (day % 146097 / 36524) 3 = c
  generalize hr : day % 146097 - c * 36524 = r
  generalize ha : min (r % 1461 / 365) 3 = a
  have hr : r < 36525 ∧ day % 146097 = c * 36524 + r := by omega
  have ha : a ≤ 3 ∧ a * 365 ≤ r % 1461 ∧ r % 1461 - a * 365 ≤ 365 := by omega
  omega

theorem daysOfCivil_civilOfMarch {year ofYear : Nat} (h : ofYear ≤ 365) :
    daysOfCivil (civilOfMarch year ofYear) = daysOfYear year + ofYear - epochDay := by
  unfold civilOfMarch
  generalize hm : (5 * ofYear + 2) / 153 = month
  have hbefore : daysBefore month ≤ ofYear ∧ month ≤ 11 := by
    unfold daysBefore
    omega
  dsimp only
  split
  · rename_i hlate
    have hmonth : (month + 3 + 9) % 12 = month := by omega
    have hnot : ¬ month + 3 ≤ 2 := by omega
    unfold daysOfCivil
    dsimp only
    rw [if_neg hnot, hmonth]
    omega
  · rename_i hearly
    have hmonth : (month - 9 + 9) % 12 = month := by omega
    have hfirst : month - 9 ≤ 2 := by omega
    unfold daysOfCivil
    dsimp only
    rw [if_pos hfirst, hmonth, Nat.add_sub_cancel]
    omega

/-- **The date of a day tells the day.** -/
theorem daysOfCivil_civilOfDays (days : Nat) : daysOfCivil (civilOfDays days) = days := by
  obtain ⟨era, c, q, a, n, hparts, hc, hq, ha, hn, hday⟩ := marchDay_spec (days + epochDay)
  rw [civilOfDays, hparts]
  dsimp only
  rw [daysOfCivil_civilOfMarch hn, daysOfYear_parts hc hq ha, ← hday, Nat.add_sub_cancel]

/-! ## Texts -/

/-- The last digits of a number, with zeros before them. -/
def padded : Nat → Nat → Str
  | 0, _ => []
  | width + 1, n => padded width (n / 10) ++ [UInt16.ofNat (48 + n % 10)]

theorem padded_length (width n : Nat) : (padded width n).length = width := by
  induction width generalizing n with
  | zero => rfl
  | succ width ih => rw [padded, List.length_append, ih]; rfl

theorem natOf_padded (width n : Nat) (h : n < 10 ^ width) : natOf (padded width n) = n := by
  induction width generalizing n with
  | zero =>
    obtain rfl : n = 0 := by simpa using h
    rfl
  | succ width ih =>
    have hten : n / 10 < 10 ^ width := by
      rw [Nat.pow_succ] at h
      omega
    have hdigit : (UInt16.ofNat (48 + n % 10)).toNat = 48 + n % 10 := by
      rw [UInt16.toNat_ofNat']
      omega
    rw [padded, natOf_append, ih _ hten]
    simp only [natOf, List.foldl_cons, List.foldl_nil, List.length_singleton, hdigit]
    omega

theorem isDigit_padded (width n : Nat) : ∀ u ∈ padded width n, isDigit u = true := by
  induction width generalizing n with
  | zero => exact fun _ h => absurd h List.not_mem_nil
  | succ width ih =>
    intro u hu
    rw [padded, List.mem_append, List.mem_singleton] at hu
    rcases hu with hu | rfl
    · exact ih _ u hu
    · have hdigit : (UInt16.ofNat (48 + n % 10)).toNat = 48 + n % 10 := by
        rw [UInt16.toNat_ofNat']
        omega
      simp only [isDigit, hdigit, Bool.and_eq_true, decide_eq_true_eq]
      omega

/-- A field of a text: the unit before it, its width and its value. -/
structure Field where
  before : UInt16
  width : Nat
  value : Nat

def Field.text (f : Field) : Str := f.before :: padded f.width f.value

/-- As many digits as the width says, and what follows them. -/
def readDigits (width : Nat) (s : Str) : Option (Nat × Str) :=
  if (s.take width).length = width ∧ (s.take width).all isDigit = true then some (natOf (s.take width), s.drop width)
  else none

theorem readDigits_padded {width n : Nat} (h : n < 10 ^ width) (rest : Str) :
    readDigits width (padded width n ++ rest) = some (n, rest) := by
  have hlength := padded_length width n
  have htake : (padded width n ++ rest).take width = padded width n := by
    rw [List.take_append_of_le_length (by omega), List.take_of_length_le (by omega)]
  have hdrop : (padded width n ++ rest).drop width = rest := by
    rw [List.drop_append_of_le_length (by omega), List.drop_of_length_le (by omega), List.nil_append]
  rw [readDigits, htake, hdrop, if_pos ⟨hlength, List.all_eq_true.2 (isDigit_padded width n)⟩, natOf_padded width n h]

/-- The fields with these units before them and these widths, and what follows them. -/
def readFields : List (UInt16 × Nat) → Str → Option (List Nat × Str)
  | [], s => some ([], s)
  | (before, width) :: fields, s =>
    if s.head? = some before then do
      let (n, rest) ← readDigits width s.tail
      let (ns, rest) ← readFields fields rest
      return (n :: ns, rest)
    else none

theorem readFields_text (fields : List Field) (h : ∀ f ∈ fields, f.value < 10 ^ f.width) (rest : Str) :
    readFields (fields.map (fun f => (f.before, f.width))) (fields.flatMap Field.text ++ rest) =
      some (fields.map Field.value, rest) := by
  induction fields with
  | nil => rfl
  | cons f fields ih =>
    obtain ⟨hf, hfields⟩ := List.forall_mem_cons.1 h
    rw [List.map_cons, List.flatMap_cons, List.append_assoc, Field.text, List.cons_append, readFields, List.head?_cons,
      if_pos rfl, List.tail_cons, readDigits_padded hf]
    show (readFields _ (fields.flatMap Field.text ++ rest) >>= fun r => some (f.value :: r.1, r.2)) = _
    rw [ih hfields]
    rfl

/-- The digits of a year, six behind a sign from the year 10000 on. -/
def yearText (year : Nat) : Str := if year < 10000 then padded 4 year else unit '+' :: padded 6 year

def readYear (s : Str) : Option (Nat × Str) :=
  if s.head? = some (unit '+') then readDigits 6 s.tail else readDigits 4 s

/-- The fields after the year. -/
def timeFields (d : Civil) (time : Nat) : List Field :=
  [⟨unit '-', 2, d.month⟩, ⟨unit '-', 2, d.day⟩, ⟨unit 'T', 2, time / 3600000 % 24⟩, ⟨unit ':', 2, time / 60000 % 60⟩,
    ⟨unit ':', 2, time / 1000 % 60⟩, ⟨unit '.', 3, time % 1000⟩]

/-- `toISOString`. -/
def toISOString (time : Nat) : Str :=
  let d := civilOfDays (time / 86400000)
  yearText d.year ++ ((timeFields d time).flatMap Field.text ++ [unit 'Z'])

/-- The largest time there is. -/
def maxTime : Nat := 8640000000000000

def timeOfParts (days hour minute second milli : Nat) : Nat :=
  ((days * 24 + hour) * 60 + minute) * 60000 + second * 1000 + milli

/-- The time of a date and the fields after it, where there is such a date. -/
def timeOfFields (year : Nat) : List Nat → Option Nat
  | [month, day, hour, minute, second, milli] =>
    if civilOfDays (daysOfCivil ⟨year, month, day⟩) = ⟨year, month, day⟩ ∧ hour < 24 ∧ minute < 60 ∧ second < 60 then
      some (timeOfParts (daysOfCivil ⟨year, month, day⟩) hour minute second milli)
    else none
  | _ => none

def dateFields : List (UInt16 × Nat) :=
  [(unit '-', 2), (unit '-', 2), (unit 'T', 2), (unit ':', 2), (unit ':', 2), (unit '.', 3)]

/-- `Date.parse`, of the texts that `toISOString` writes. -/
def parseDate (s : Str) : Option Nat :=
  (readYear s).bind (fun y => (readFields dateFields y.2).bind (fun r =>
    if r.2 = [unit 'Z'] then timeOfFields y.1 r.1 else none))

theorem readYear_text {year : Nat} (h : year < 1000000) (rest : Str) :
    readYear (yearText year ++ rest) = some (year, rest) := by
  unfold yearText readYear
  split
  · rename_i hshort
    have hhead : (padded 4 year ++ rest).head? ≠ some (unit '+') := by
      intro hplus
      have hmem : unit '+' ∈ padded 4 year := by
        have hlength := padded_length 4 year
        cases hdigits : padded 4 year with
        | nil => rw [hdigits] at hlength; cases hlength
        | cons u us =>
          rw [hdigits, List.cons_append, List.head?_cons] at hplus
          rw [Option.some.inj hplus]
          exact List.mem_cons_self
      exact absurd (isDigit_padded 4 year _ hmem) (by decide)
    rw [if_neg hhead, readDigits_padded (by omega)]
  · rw [List.cons_append, List.head?_cons, if_pos rfl, List.tail_cons, readDigits_padded (by omega)]

/-- The parts of a date are small. -/
theorem civilOfDays_bounds {days : Nat} (h : days ≤ 100000000) :
    (civilOfDays days).year < 1000000 ∧ (civilOfDays days).month < 100 ∧ (civilOfDays days).day < 100 := by
  obtain ⟨era, c, q, a, n, hparts, hc, hq, ha, hn, hday⟩ := marchDay_spec (days + epochDay)
  have hera : era ≤ 700 := by
    unfold epochDay at hday
    omega
  rw [civilOfDays, hparts]
  dsimp only
  unfold civilOfMarch daysBefore
  dsimp only
  split
  · refine ⟨?_, ?_, ?_⟩ <;> dsimp only <;> omega
  · refine ⟨?_, ?_, ?_⟩ <;> dsimp only <;> omega

/-- The parts of a time make it up. -/
theorem timeOfParts_time (time : Nat) :
    timeOfParts (time / 86400000) (time / 3600000 % 24) (time / 60000 % 60) (time / 1000 % 60) (time % 1000) = time := by
  unfold timeOfParts
  omega

theorem readFields_time {d : Civil} (hmonth : d.month < 100) (hday : d.day < 100) (time : Nat) :
    readFields dateFields ((timeFields d time).flatMap Field.text ++ [unit 'Z']) = some ([d.month, d.day, time / 3600000 % 24,
        time / 60000 % 60, time / 1000 % 60, time % 1000], [unit 'Z']) := by
  refine readFields_text (timeFields d time) (fun f hf => ?_) [unit 'Z']
  simp only [timeFields, List.mem_cons, List.not_mem_nil, or_false] at hf
  rcases hf with rfl | rfl | rfl | rfl | rfl | rfl <;> dsimp only <;> omega

/-- A text with the fields of a date and a time is read back to their parts. -/
theorem parseDate_parts {d : Civil} (hyear : d.year < 1000000) (hdate : civilOfDays (daysOfCivil d) = d)
    {hour minute second milli : Nat} (hhour : hour < 24) (hminute : minute < 60) (hsecond : second < 60) {rest : Str}
    (hrest : readFields dateFields rest = some ([d.month, d.day, hour, minute, second, milli], [unit 'Z'])) :
    parseDate (yearText d.year ++ rest) = some (timeOfParts (daysOfCivil d) hour minute second milli) := by
  rw [parseDate, readYear_text hyear, Option.bind_some, hrest, Option.bind_some, if_pos rfl, timeOfFields,
    if_pos ⟨hdate, hhour, hminute, hsecond⟩]

/-- **The text of a time is read back to the time.** -/
theorem parseDate_toISOString {time : Nat} (h : time ≤ maxTime) : parseDate (toISOString time) = some time := by
  have hsmall : time / 86400000 ≤ 100000000 := by
    unfold maxTime at h
    omega
  obtain ⟨hyear, hmonth, hday⟩ := civilOfDays_bounds hsmall
  have hdays := daysOfCivil_civilOfDays (time / 86400000)
  rw [toISOString, parseDate_parts hyear (by rw [hdays]) (Nat.mod_lt _ (by decide)) (Nat.mod_lt _ (by decide))
    (Nat.mod_lt _ (by decide)) (readFields_time hmonth hday time), hdays, timeOfParts_time]

end Js
