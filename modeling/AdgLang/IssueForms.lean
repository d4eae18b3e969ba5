import AdgLang.IssueReports
/-!
# IssueForms — a form that is its own form

What the validators of a report accept they return in a form that they return unchanged (`singleLine_singleLine`,
`multiline_multiline`).  A JSON document gives the values of a context back but for the numbers that are not finite, and
`identifier_reread` says when the test of an identifier notices.
-/
namespace Adg
namespace Issues

open Js Protocol

/-! ## Texts -/

theorem collapseBlanks_collapseBlanks (s : Str) :
    ∀ afterBlank, collapseBlanks afterBlank (collapseBlanks afterBlank s) = collapseBlanks afterBlank s := by
  induction s with
  | nil => intro _; rfl
  | cons u rest ih =>
    intro afterBlank
    rw [collapseBlanks]
    by_cases hblank : isBlank u = true
    · rw [if_pos hblank]
      cases afterBlank with
      | true => exact ih true
      | false =>
        rw [if_neg (by decide), collapseBlanks, if_pos (by decide), if_neg (by decide), ih true]
    · rw [if_neg hblank, collapseBlanks, if_neg hblank, ih false]

theorem mem_collapseBlanks {s : Str} {u : UInt16} : ∀ {afterBlank}, u ∈ collapseBlanks afterBlank s → u ∈ s ∨ u = unit ' ' := by
  induction s with
  | nil => intro _ h; exact Or.inl h
  | cons v rest ih =>
    intro afterBlank h
    rw [collapseBlanks] at h
    have hrest : ∀ {b}, u ∈ collapseBlanks b rest → u ∈ v :: rest ∨ u = unit ' ' :=
      fun hu => (ih hu).imp_left (List.mem_cons_of_mem v)
    split at h
    · split at h
      · exact hrest h
      · rcases List.mem_cons.1 h with h | h
        · exact Or.inr h
        · exact hrest h
    · rcases List.mem_cons.1 h with rfl | h
      · exact Or.inl List.mem_cons_self
      · exact hrest h

/-- After the line ends are brought into one form there is no carriage return. -/
theorem return_not_mem_lineFeeds (s : Str) : ∀ afterReturn, unit '\r' ∉ lineFeeds afterReturn s := by
  induction s with
  | nil => intro _ h; cases h
  | cons u rest ih =>
    intro afterReturn h
    rw [lineFeeds] at h
    split at h
    · rcases List.mem_cons.1 h with h | h
      · exact absurd h (by decide)
      · exact ih true h
    split at h
    · exact ih false h
    · rcases List.mem_cons.1 h with h | h
      · exact absurd h.symm ‹_›
      · exact ih false h

theorem lineFeeds_of_not_mem {s : Str} (h : unit '\r' ∉ s) : lineFeeds false s = s := by
  induction s with
  | nil => rfl
  | cons u rest ih =>
    rw [List.mem_cons, not_or] at h
    rw [lineFeeds, if_neg (Ne.symm h.1), if_neg (by simp), ih h.2]

/-- A text that no white space begins or ends. -/
def Trimmed (s : Str) : Prop :=
  (∀ u, s.head? = some u → isSpace u = false) ∧ ∀ u, s.getLast? = some u → isSpace u = false

theorem dropWhile_of_head {p : UInt16 → Bool} {s : Str} (h : ∀ u, s.head? = some u → p u = false) : s.dropWhile p = s := by
  cases s with
  | nil => rfl
  | cons u rest => rw [List.dropWhile_cons_of_neg (by rw [h u rfl]; decide)]

theorem head_dropWhile {p : UInt16 → Bool} {s : Str} {u : UInt16} (h : (s.dropWhile p).head? = some u) : p u = false := by
  induction s with
  | nil => cases h
  | cons v rest ih =>
    rw [List.dropWhile_cons] at h
    split at h
    · exact ih h
    · rename_i hv
      rw [List.head?_cons, Option.some.injEq] at h
      rw [← h]
      simpa using hv

theorem trim_of_trimmed {s : Str} (h : Trimmed s) : trim s = s := by
  rw [trim, dropWhile_of_head h.1, dropWhile_of_head (by rw [List.head?_reverse]; exact h.2), List.reverse_reverse]

theorem trimmed_trim (s : Str) : Trimmed (trim s) := by
  constructor
  · intro u hu
    have hlast : ((s.dropWhile isSpace).reverse.dropWhile isSpace).getLast? = some u := by
      rw [← List.head?_reverse]
      exact hu
    have hsuffix := List.dropWhile_suffix isSpace (l := (s.dropWhile isSpace).reverse)
    obtain ⟨w, hw⟩ := hsuffix
    have hne : (s.dropWhile isSpace).reverse.dropWhile isSpace ≠ [] := by
      intro hnil
      rw [hnil] at hlast
      cases hlast
    have hwhole : (s.dropWhile isSpace).reverse.getLast? = some u := by
      rw [← hw, List.getLast?_append_of_ne_nil _ hne]
      exact hlast
    rw [List.getLast?_reverse] at hwhole
    exact head_dropWhile hwhole
  · intro u hu
    rw [trim, List.getLast?_reverse] at hu
    exact head_dropWhile hu

theorem mem_of_mem_trim {s : Str} {u : UInt16} (h : u ∈ trim s) : u ∈ s := by
  rw [trim, List.mem_reverse] at h
  have h := (List.dropWhile_suffix isSpace).subset h
  rw [List.mem_reverse] at h
  exact (List.dropWhile_suffix isSpace).subset h

theorem isSpace_of_isBlank {u : UInt16} (h : isBlank u = true) : isSpace u = true := by
  rw [isBlank, Bool.or_eq_true, beq_iff_eq, beq_iff_eq] at h
  rcases h with rfl | rfl <;> decide

theorem collapseBlanks_getLast {s : Str} {u : UInt16} (hu : isBlank u = false) :
    ∀ {afterBlank}, s.getLast? = some u → (collapseBlanks afterBlank s).getLast? = some u := by
  induction s with
  | nil => intro _ h; cases h
  | cons v rest ih =>
    intro afterBlank h
    cases rest with
    | nil =>
      obtain rfl : v = u := by simpa using h
      rw [collapseBlanks, if_neg (by rw [hu]; decide)]
      rfl
    | cons w rest =>
      rw [List.getLast?_cons_cons] at h
      have hcons : ∀ (x : UInt16) {b}, (x :: collapseBlanks b (w :: rest)).getLast? = some u := fun x b => by
        have hlast : (collapseBlanks b (w :: rest)).getLast? = some u := ih h
        cases hcollapsed : collapseBlanks b (w :: rest) with
        | nil => rw [hcollapsed] at hlast; cases hlast
        | cons y ys => rw [List.getLast?_cons_cons, ← hcollapsed, hlast]
      rw [collapseBlanks]
      split
      · split
        · exact ih h
        · exact hcons _
      · exact hcons _

theorem trimmed_collapseBlanks {s : Str} (h : Trimmed s) : Trimmed (collapseBlanks false s) := by
  have hblank : ∀ {u}, isSpace u = false → isBlank u = false := fun {u} hu => by
    rw [Bool.eq_false_iff]
    intro hb
    rw [isSpace_of_isBlank hb] at hu
    cases hu
  constructor
  · intro u hu
    cases s with
    | nil => cases hu
    | cons v rest =>
      have hv := h.1 v rfl
      rw [collapseBlanks, if_neg (by rw [hblank hv]; decide), List.head?_cons, Option.some.injEq] at hu
      rw [← hu]
      exact hv
  · intro u hu
    cases hlast : s.getLast? with
    | none =>
      rw [List.getLast?_eq_none_iff] at hlast
      rw [hlast] at hu
      cases hu
    | some v =>
      have hv := h.2 v hlast
      rw [collapseBlanks_getLast (hblank hv) hlast, Option.some.injEq] at hu
      rw [← hu]
      exact hv

theorem textOrEmpty_string (s : Str) : textOrEmpty (.string s) = .ok s := by
  cases s with
  | nil => rfl
  | cons u s => rfl

/-- **A single line is its own form.** -/
theorem singleLine_singleLine {value : Value} {minimum maximum : Nat} {label : String} {s : Str}
    (h : singleLine value minimum maximum label = .ok s) : singleLine (.string s) minimum maximum label = .ok s := by
  unfold singleLine at h ⊢
  rw [textOrEmpty_string]
  cases htext : textOrEmpty value with
  | error e => rw [htext] at h; cases h
  | ok t =>
    rw [htext] at h
    simp only [bind, Except.bind] at h ⊢
    split at h
    · cases h
    · rename_i hbounds
      obtain rfl := Except.ok.inj h
      rw [trim_of_trimmed (trimmed_collapseBlanks (trimmed_trim t)), collapseBlanks_collapseBlanks, if_neg hbounds]

theorem multiline_spec {value : Value} {minimum maximum : Nat} {label : String} {s : Str}
    (h : multiline value minimum maximum label = .ok s) : Trimmed s ∧ unit '\r' ∉ s ∧ minimum ≤ s.length ∧
      s.length ≤ maximum := by
  unfold multiline at h
  cases htext : textOrEmpty value with
  | error e => rw [htext] at h; cases h
  | ok t =>
    rw [htext] at h
    simp only [bind, Except.bind] at h
    split at h
    · cases h
    · rename_i hbounds
      obtain rfl := Except.ok.inj h
      rw [not_or, not_lt, not_lt] at hbounds
      exact ⟨trimmed_trim _, fun hmem => return_not_mem_lineFeeds t false (mem_of_mem_trim hmem), hbounds.1, hbounds.2⟩

/-- **So are several lines.** -/
theorem multiline_multiline {value : Value} {minimum maximum : Nat} {label : String} {s : Str}
    (h : multiline value minimum maximum label = .ok s) : multiline (.string s) minimum maximum label = .ok s := by
  obtain ⟨htrimmed, hreturn, hmin, hmax⟩ := multiline_spec h
  unfold multiline
  rw [textOrEmpty_string]
  simp only [bind, Except.bind]
  rw [lineFeeds_of_not_mem hreturn, trim_of_trimmed htrimmed, if_neg (by omega)]

theorem optionalMultiline_optionalText {value : Value} {maximum : Nat} {label : String} {steps : Option Str}
    (h : optionalMultiline value maximum label = .ok steps) :
    optionalMultiline (optionalText steps) maximum label = .ok steps := by
  cases steps with
  | none => rfl
  | some s =>
    unfold optionalMultiline at h
    split at h
    · cases h
    cases htext : textOf value with
    | error e => rw [htext] at h; cases h
    | ok t =>
      rw [htext] at h
      simp only [bind, Except.bind] at h
      split at h
      · cases h
      split at h
      · cases h
      · rename_i s' hs
        obtain rfl : s' = s := by simpa using h
        obtain ⟨htrimmed, -, hmin, -⟩ := multiline_spec hs
        have hne : trim s' ≠ [] := by
          rw [trim_of_trimmed htrimmed]
          exact List.ne_nil_of_length_pos (by omega)
        unfold optionalMultiline
        rw [optionalText, if_neg (by simp [isNullish])]
        simp only [textOf, Value.toText, bind, Except.bind]
        rw [if_neg hne, multiline_multiline hs]

/-! ## Values -/

mutual

/-- A number that is not finite, or an array around one. -/
def holdsNonFinite : Value → Bool
  | .number n => !n.isFinite
  | .array items => holdsNonFiniteAlone items
  | .undefined | .null | .bool _ | .bigint _ | .string _ | .bytes _ | .object _ => false

def holdsNonFiniteAlone : List Value → Bool
  | [] => false
  | v :: items => items.isEmpty && holdsNonFinite v

end

attribute [grind =] holdsNonFinite holdsNonFiniteAlone

/-- An array around a number that is not finite. -/
def wrapsNonFinite : Value → Bool
  | .array items => holdsNonFiniteAlone items
  | _ => false

/-- Texts in which an array of more than one item, or an object, has no part. -/
structure Plain (t : Str) : Prop where
  nonempty : t ≠ []
  comma : unit ',' ∉ t
  bracket : unit '[' ∉ t

theorem toText_array_one {w : Value} {t : Str} (hw : w.toText = some t) :
    (Value.array [w]).toText = some (if isNullish w then [] else t) := by
  simp only [Value.toText, Value.itemStrings, hw, bind, Option.bind, pure, Option.map_some, commas, List.flatMap_nil,
    List.append_nil]
  cases w <;> rfl

theorem toText_array_none {w : Value} (hw : w.toText = none) (items : List Value) :
    (Value.array (w :: items)).toText = none := by
  simp only [Value.toText, Value.itemStrings, hw, bind, Option.bind, Option.map_none]

theorem length_itemStrings : ∀ {items : List Value} {ts : List Str}, Value.itemStrings items = some ts →
    ts.length = items.length
  | [], ts, h => by
    obtain rfl := Option.some.inj h
    rfl
  | v :: items, ts, h => by
    rw [Value.itemStrings] at h
    obtain ⟨t, -, h⟩ := Option.bind_eq_some_iff.1 h
    obtain ⟨rest, hrest, h⟩ := Option.bind_eq_some_iff.1 h
    obtain rfl := Option.some.inj h
    rw [List.length_cons, List.length_cons, length_itemStrings hrest]

/-- Between two items there is a comma. -/
theorem comma_mem_toText {w v : Value} {items : List Value} {t : Str}
    (h : (Value.array (w :: v :: items)).toText = some t) : unit ',' ∈ t := by
  rw [Value.toText, Option.map_eq_some_iff] at h
  obtain ⟨ts, hts, rfl⟩ := h
  have hlength := length_itemStrings hts
  match ts, hlength with
  | a :: b :: rest, _ => simp [commas]

theorem toText_array {items : List Value} {t : Str} (h : (Value.array items).toText = some t) (ht : Plain t) :
    ∃ w, items = [w] ∧ isNullish w = false ∧ w.toText = some t := by
  cases items with
  | nil =>
    obtain rfl := Option.some.inj h
    exact absurd rfl ht.nonempty
  | cons w items =>
    cases items with
    | nil =>
      cases hw : w.toText with
      | none =>
        rw [toText_array_none hw] at h
        cases h
      | some s =>
        rw [toText_array_one hw] at h
        cases hnullish : isNullish w with
        | true =>
          rw [hnullish] at h
          obtain rfl := Option.some.inj h
          exact absurd rfl ht.nonempty
        | false =>
          rw [hnullish] at h
          exact ⟨w, rfl, hnullish, h ▸ hw⟩
    | cons v items => exact absurd (comma_mem_toText h) ht.comma

theorem toText_object {properties : List (Str × Value)} {t : Str} (h : (Value.object properties).toText = some t) :
    ¬ Plain t := by
  intro ht
  rw [Value.toText] at h
  split at h
  · cases h
  · obtain rfl := Option.some.inj h
    exact ht.bracket (by decide)

theorem reread_array_one (w : Value) : (Value.array [w]).reread = .array [w.reread] := by
  rw [Value.reread, Value.rereadItems, Value.rereadItems]

theorem isNullish_reread {w : Value} (h : holdsNonFinite w = false) : isNullish w.reread = isNullish w := by
  cases w with
  | number n =>
    cases n with
    | nan | infinite _ => cases h
    | zero _ | finite _ => rfl
  | undefined | null | bool _ | bigint _ | string _ | bytes _ | array _ | object _ => rfl

/-- **The text of a value is the text of what JSON gives back**, where it shows that no number in it is lost. -/
theorem toText_reread (v : Value) : ∀ {t : Str}, v.toText = some t → Plain t → holdsNonFinite v = false →
    v.reread.toText = some t := by
  induction v using Value.induct with
  | leaf v hleaf =>
    intro t ht _ hfinite
    cases v with
    | array _ | object _ => cases hleaf
    | number n =>
      cases n with
      | nan | infinite _ => cases hfinite
      | zero negative => cases negative <;> exact ht
      | finite d => exact ht
    | undefined | null | bool _ | bigint _ | string _ | bytes _ => exact ht
  | array items ih =>
    intro t ht hplain hfinite
    obtain ⟨w, rfl, hnullish, hw⟩ := toText_array ht hplain
    have hfinite : holdsNonFinite w = false := by
      rw [holdsNonFinite, holdsNonFiniteAlone] at hfinite
      exact hfinite
    rw [reread_array_one, toText_array_one (ih w (List.mem_singleton.2 rfl) hw hplain hfinite),
      isNullish_reread hfinite, hnullish]
    rfl
  | object properties ih => exact fun ht hplain _ => absurd hplain (toText_object ht)

/-- The text of a number that is not finite, however deep in arrays. -/
theorem toText_nonFinite (v : Value) : ∀ {t : Str}, holdsNonFinite v = true → v.toText = some t →
    t = str "NaN" ∨ t = str "Infinity" ∨ t = str "-Infinity" := by
  induction v using Value.induct with
  | leaf v hleaf =>
    intro t hv ht
    cases v with
    | array _ | object _ => cases hleaf
    | undefined | null | bool _ | bigint _ | string _ | bytes _ => cases hv
    | number n =>
      obtain rfl := Option.some.inj ht
      cases n with
      | nan => exact Or.inl rfl
      | infinite negative => cases negative <;> decide
      | zero _ | finite _ => cases hv
  | array items ih =>
    intro t hv ht
    cases items with
    | nil => cases hv
    | cons w items =>
      rw [holdsNonFinite, holdsNonFiniteAlone, Bool.and_eq_true, List.isEmpty_iff] at hv
      obtain ⟨rfl, hw⟩ := hv
      cases htext : w.toText with
      | none =>
        rw [toText_array_none htext] at ht
        cases ht
      | some s =>
        have hs := ih w (List.mem_singleton.2 rfl) hw htext
        have hnullish : isNullish w = false := by
          cases w <;> first | rfl | cases hw
        rw [toText_array_one htext, hnullish] at ht
        obtain rfl := Option.some.inj ht
        exact hs
  | object properties ih => exact fun hv => by cases hv

/-- What JSON makes of it has an empty text. -/
theorem toText_reread_wraps {v : Value} (h : holdsNonFinite v = true) : (Value.array [v]).reread.toText = some [] := by
  induction v using Value.induct with
  | leaf v hleaf =>
    cases v with
    | array _ | object _ => cases hleaf
    | undefined | null | bool _ | bigint _ | string _ | bytes _ => cases h
    | number n =>
      cases n with
      | nan | infinite _ => rfl
      | zero _ | finite _ => cases h
  | array items ih =>
    cases items with
    | nil => cases h
    | cons w items =>
      rw [holdsNonFinite, holdsNonFiniteAlone, Bool.and_eq_true, List.isEmpty_iff] at h
      obtain ⟨rfl, hw⟩ := h
      rw [reread_array_one, toText_array_one (ih w (List.mem_singleton.2 rfl) hw)]
      simp
  | object properties ih => cases h

/-! ## Records -/

theorem find_key {α : Type} {properties : List (Str × α)} (hkeys : (properties.map Prod.fst).Nodup) {key : Str} {value : α}
    (h : (key, value) ∈ properties) : properties.find? (fun p => p.1 == key) = some (key, value) := by
  induction properties with
  | nil => cases h
  | cons p properties ih =>
    rw [List.map_cons, List.nodup_cons] at hkeys
    rcases List.mem_cons.1 h with rfl | h
    · rw [List.find?_cons_of_pos (by rw [beq_self_eq_true])]
    · have hne : p.1 ≠ key := fun heq => hkeys.1 (by rw [heq]; exact List.mem_map_of_mem h)
      rw [List.find?_cons_of_neg (by rw [beq_iff_eq]; exact hne), ih hkeys.2 h]

/-- The keys of a record are different. -/
def DistinctKeys (keys : List String) : Prop := (keys.map str).Nodup

instance (keys : List String) : Decidable (DistinctKeys keys) := inferInstanceAs (Decidable (List.Nodup _))

theorem record_keys (fields : List (String × Value)) :
    (fields.map (fun f => (str f.1, f.2))).map Prod.fst = (fields.map Prod.fst).map str := by
  rw [List.map_map, List.map_map]
  rfl

theorem property_record {fields : List (String × Value)} (keys : List String) (hfields : fields.map Prod.fst = keys)
    (hkeys : DistinctKeys keys) {key : String} {value : Value} (h : (key, value) ∈ fields) :
    (record fields).property key = value := by
  have hnodup : ((fields.map (fun f => (str f.1, f.2))).map Prod.fst).Nodup := by
    rw [record_keys, hfields]
    exact hkeys
  rw [record, Value.property, find_key hnodup (List.mem_map.2 ⟨(key, value), h, rfl⟩)]
  rfl

theorem hasUnknownKeys_record {fields : List (String × Value)} {keys : List String} (hfields : fields.map Prod.fst = keys) :
    hasUnknownKeys (record fields) keys = false := by
  rw [record, hasUnknownKeys, List.any_eq_false]
  intro p hp
  obtain ⟨f, hf, rfl⟩ := List.mem_map.1 hp
  have hmem : str f.1 ∈ keys.map str := List.mem_map_of_mem (by rw [← hfields]; exact List.mem_map_of_mem hf)
  simp only [List.contains_iff_mem.2 hmem, Bool.not_true, Bool.false_eq_true, not_false_eq_true]

theorem reread_record (fields : List (String × Value)) :
    (record fields).reread = record (fields.map (fun f => (f.1, f.2.reread))) := by
  rw [record, Value.reread, Value.rereadProperties_eq, record, List.map_map, List.map_map]
  rfl

theorem json_record {fields : List (String × Value)} (keys : List String) (hfields : fields.map Prod.fst = keys)
    (hkeys : orderedKeys (keys.map str) = true) (h : ∀ f ∈ fields, f.2.Json) : (record fields).Json := by
  refine Value.json_object ?_ (fun p hp => ?_)
  · rw [record_keys, hfields]
    exact hkeys
  · obtain ⟨f, hf, rfl⟩ := List.mem_map.1 hp
    exact h f hf

/-! ## Contexts -/

theorem plain_of_units {P : UInt16 → Prop} {a : Pattern} (ha : a.Within P) (hcomma : ¬ P (unit ','))
    (hbracket : ¬ P (unit '[')) (hempty : (Pattern.whole a).test [] = false) {t : Str}
    (h : (Pattern.whole a).test t = true) : Plain t where
  nonempty ht := by
    rw [ht, hempty] at h
    cases h
  comma hmem := hcomma (Pattern.mem_of_test_whole ha h _ hmem)
  bracket hmem := hbracket (Pattern.mem_of_test_whole ha h _ hmem)

theorem isIdentifierUnit_of_isAlphanumeric {u : UInt16} (h : isAlphanumeric u = true) : isIdentifierUnit u = true := by
  rw [isIdentifierUnit, h]
  rfl

theorem isAlphanumeric_of_isDigit {u : UInt16} (h : isDigit u = true) : isAlphanumeric u = true := by
  simp only [isDigit, Bool.and_eq_true, decide_eq_true_eq] at h
  simp [isAlphanumeric, h]

def IsIdentifierUnit (u : UInt16) : Prop := isIdentifierUnit u = true

theorem plain_of_identifierPattern {t : Str} (h : identifierPattern.test t = true) : Plain t := by
  have hset : (Pattern.set isIdentifierUnit).Within IsIdentifierUnit := fun u hu => hu
  have hwithin : (Pattern.seq (.set isAlphanumeric) (.between 2 200 (.set isIdentifierUnit))).Within IsIdentifierUnit :=
    ⟨fun u hu => isIdentifierUnit_of_isAlphanumeric hu, Pattern.within_between hset 2 200⟩
  exact plain_of_units hwithin (by unfold IsIdentifierUnit; decide) (by unfold IsIdentifierUnit; decide)
    (by decide +kernel) h

theorem plain_of_versionPattern {t : Str} (h : versionPattern.test t = true) : Plain t := by
  have hdigit : (Pattern.set isDigit).Within IsIdentifierUnit :=
    fun u hu => isIdentifierUnit_of_isAlphanumeric (isAlphanumeric_of_isDigit hu)
  have hpart : versionPart.Within IsIdentifierUnit := Pattern.within_between hdigit 1 3
  have hdot : (Pattern.literal (str ".")).Within IsIdentifierUnit := ⟨fun u hu => by
    rw [beq_iff_eq] at hu
    rw [hu, IsIdentifierUnit]
    decide, trivial⟩
  have hwithin : (Pattern.seqs [versionPart, .literal (str "."), versionPart, .literal (str "."), versionPart]).Within
      IsIdentifierUnit := ⟨hpart, hdot, hpart, hdot, hpart, trivial⟩
  exact plain_of_units hwithin (by unfold IsIdentifierUnit; decide) (by unfold IsIdentifierUnit; decide)
    (by decide +kernel) h

/-- What is asked of the fields of a context but for the task. -/
structure ContextFields (version step lane mode : Value) : Prop where
  version : ∃ t, textOrEmpty version = .ok t ∧ versionPattern.test t = true
  step : isStep step = true
  lane : isLane lane = true
  mode : isBoolean mode = true

/-- No task, or the identifier of one. -/
def IsTask (task : Value) : Prop :=
  isNullish task = true ∨ ∃ t, textOf task = .ok t ∧ identifierPattern.test t = true

def contextRecord (version step task lane mode : Value) : Value :=
  record [("portalVersion", version), ("step", step), ("taskVersionId", task), ("taskLane", lane),
    ("operationalMode", mode)]

theorem validatePortalIssueContext_spec {value context : Value} (h : validatePortalIssueContext value = .ok context) :
    ContextFields (value.property "portalVersion") (value.property "step") (orNull (value.property "taskLane"))
        (value.property "operationalMode") ∧ IsTask (orNull (value.property "taskVersionId")) ∧
      context = contextRecord (value.property "portalVersion") (value.property "step")
        (orNull (value.property "taskVersionId")) (orNull (value.property "taskLane"))
        (value.property "operationalMode") := by
  unfold validatePortalIssueContext at h
  simp only [bind, Except.bind, pure, Except.pure, throw, throwThe, MonadExceptOf.throw] at h
  split at h
  · cases h
  split at h
  · cases h
  rename_i version hversion
  split at h
  · cases h
  rename_i hfields
  simp only [Bool.or_eq_true, Bool.not_eq_true', not_or, Bool.not_eq_false] at hfields
  obtain ⟨⟨⟨htest, hstep⟩, hlane⟩, hmode⟩ := hfields
  refine ⟨⟨⟨version, hversion, htest⟩, hstep, hlane, hmode⟩, ?_⟩
  split at h
  · split at h
    · cases h
    rename_i text htext
    split at h
    · cases h
    rename_i hidentifier
    rw [Bool.not_eq_true', Bool.not_eq_false] at hidentifier
    exact ⟨Or.inr ⟨text, htext, hidentifier⟩, (Except.ok.inj h).symm⟩
  · rename_i hnullish
    rw [Bool.not_eq_true', Bool.not_eq_false] at hnullish
    exact ⟨Or.inl hnullish, (Except.ok.inj h).symm⟩

theorem orNull_orNull (v : Value) : orNull (orNull v) = orNull v := by
  cases v <;> rfl

theorem orNull_of_isLane {v : Value} (h : isLane v = true) : orNull v = v := by
  cases v <;> first | rfl | cases h

/-- Of a record of the fields only the task is in doubt. -/
theorem validatePortalIssueContext_contextRecord {version step task lane mode : Value}
    (h : ContextFields version step lane mode) (htask : orNull task = task) :
    validatePortalIssueContext (contextRecord version step task lane mode) =
      if isNullish task then .ok (contextRecord version step task lane mode)
      else (textOf task).bind (fun t => if identifierPattern.test t then .ok (contextRecord version step task lane mode)
        else .error taskMessage) := by
  obtain ⟨t, ht, htest⟩ := h.version
  have hlane := orNull_of_isLane h.lane
  have hfield : ∀ (key : String) (value : Value), (key, value) ∈ [("portalVersion", version), ("step", step),
      ("taskVersionId", task), ("taskLane", lane), ("operationalMode", mode)] →
      (contextRecord version step task lane mode).property key = value :=
    fun _ _ hmem => property_record reportContextKeys rfl (by decide) hmem
  have hversionField := hfield "portalVersion" version (by simp)
  have hstepField := hfield "step" step (by simp)
  have htaskField := hfield "taskVersionId" task (by simp)
  have hlaneField := hfield "taskLane" lane (by simp)
  have hmodeField := hfield "operationalMode" mode (by simp)
  have hknown : (!plainObject (contextRecord version step task lane mode) ||
      hasUnknownKeys (contextRecord version step task lane mode) reportContextKeys) = false :=
    Bool.or_eq_false_iff.2 ⟨rfl, hasUnknownKeys_record rfl⟩
  unfold validatePortalIssueContext
  rw [hversionField, hstepField, htaskField, hlaneField, hmodeField, hknown, ht, htask, hlane]
  simp only [bind, Except.bind, pure, Except.pure, h.step, h.lane, h.mode, htest, Bool.not_true, Bool.or_self,
    Bool.false_eq_true, if_false]
  cases hnullish : isNullish task with
  | true => rfl
  | false =>
    simp only [Bool.not_false, if_true, Bool.false_eq_true, if_false]
    cases textOf task with
    | error e => rfl
    | ok t =>
      dsimp only
      cases identifierPattern.test t <;> rfl

theorem textOf_ok {v : Value} {t : Str} : textOf v = .ok t ↔ v.toText = some t := by
  rw [textOf]
  cases v.toText with
  | none => exact ⟨nofun, nofun⟩
  | some s => rw [Except.ok.injEq, Option.some.injEq]

theorem truthy_of_textOrEmpty {v : Value} {t : Str} (h : textOrEmpty v = .ok t) (ht : t ≠ []) :
    v.truthy = true ∧ v.toText = some t := by
  rw [textOrEmpty] at h
  split at h
  · exact ⟨‹_›, textOf_ok.1 h⟩
  · exact absurd (Except.ok.inj h).symm ht

theorem truthy_reread {v : Value} (h : holdsNonFinite v = false) : v.reread.truthy = v.truthy := by
  cases v with
  | number n =>
    cases n with
    | nan | infinite _ => cases h
    | zero _ | finite _ => rfl
  | undefined | null | bool _ | bigint _ | string _ | bytes _ | array _ | object _ => rfl

theorem version_reread {v : Value} {t : Str} (h : textOrEmpty v = .ok t) (ht : versionPattern.test t = true) :
    textOrEmpty v.reread = .ok t := by
  have hplain := plain_of_versionPattern ht
  obtain ⟨htruthy, htext⟩ := truthy_of_textOrEmpty h hplain.nonempty
  have hfinite : holdsNonFinite v = false := by
    rw [Bool.eq_false_iff]
    intro hv
    have hnone : ∀ s ∈ [str "NaN", str "Infinity", str "-Infinity"], versionPattern.test s = false := by decide +kernel
    have hmem : t ∈ [str "NaN", str "Infinity", str "-Infinity"] := by
      rcases toText_nonFinite v hv htext with rfl | rfl | rfl <;> simp
    rw [hnone t hmem] at ht
    cases ht
  rw [textOrEmpty, truthy_reread hfinite, if_pos htruthy, textOf_ok]
  exact toText_reread v htext hplain hfinite

theorem isStep_reread {v : Value} (h : isStep v = true) : v.reread = v := by
  cases v with
  | number n =>
    cases n with
    | nan | infinite _ => cases h
    | zero negative =>
      have hnone : isStep (.number (.zero negative)) = false := by cases negative <;> decide
      rw [hnone] at h
      cases h
    | finite d => rfl
  | undefined | null | bool _ | bigint _ | string _ | bytes _ | array _ | object _ => cases h

theorem isLane_reread {v : Value} (h : isLane v = true) : v.reread = v := by
  cases v <;> first | rfl | cases h

theorem isBoolean_reread {v : Value} (h : isBoolean v = true) : v.reread = v := by
  cases v <;> first | rfl | cases h

/-- What comes of the identifier of a task on the way through JSON. -/
theorem task_reread {v : Value} (h : IsTask (orNull v)) :
    if wrapsNonFinite v then isNullish (orNull v).reread = false ∧ textOf (orNull v).reread = .ok []
    else IsTask (orNull v).reread := by
  cases hnullish : isNullish v with
  | true =>
    have hwraps : wrapsNonFinite v = false := by
      cases v <;> first | rfl | cases hnullish
    rw [orNull, hnullish, hwraps]
    exact Or.inl rfl
  | false =>
    have horNull : orNull v = v := by
      rw [orNull, hnullish]
      rfl
    rw [horNull] at h ⊢
    rcases h with h | ⟨t, ht, htest⟩
    · rw [hnullish] at h
      cases h
    have hplain := plain_of_identifierPattern htest
    rw [textOf_ok] at ht
    cases hfinite : holdsNonFinite v with
    | false =>
      have hwraps : wrapsNonFinite v = false := by
        cases v <;> first | rfl | exact hfinite
      rw [hwraps]
      exact Or.inr ⟨t, textOf_ok.2 (toText_reread v ht hplain hfinite), htest⟩
    | true =>
      cases v with
      | number n =>
        cases n with
        | nan | infinite _ => exact Or.inl rfl
        | zero _ | finite _ => cases hfinite
      | array items =>
        obtain ⟨w, rfl, -, -⟩ := toText_array ht hplain
        have hw : holdsNonFinite w = true := by
          rw [holdsNonFinite, holdsNonFiniteAlone] at hfinite
          exact hfinite
        have hwraps : wrapsNonFinite (.array [w]) = true := hfinite
        rw [hwraps]
        exact ⟨rfl, textOf_ok.2 (toText_reread_wraps hw)⟩
      | undefined | null | bool _ | bigint _ | string _ | bytes _ | object _ => cases hfinite

theorem json_orNull {value : Value} (hv : value.Json) (key : String) : (orNull (value.property key)).Json := by
  rw [orNull]
  split
  · exact ⟨rfl, rfl⟩
  · rename_i hnullish
    refine hv.property_json (fun hundefined => hnullish ?_)
    rw [hundefined]
    rfl

theorem json_of_property {value : Value} (hv : value.Json) {key : String} {p : Value → Bool} (h : p (value.property key) = true)
    (hundefined : p .undefined = false) : (value.property key).Json := by
  refine hv.property_json (fun heq => ?_)
  rw [heq, hundefined] at h
  cases h

/-- **A context comes through JSON as it is**, unless its task was an array around a number that JSON cannot hold. -/
theorem context_reread {value context : Value} (hv : value.Json) (h : validatePortalIssueContext value = .ok context) :
    context.Json ∧ validatePortalIssueContext context.reread =
      if wrapsNonFinite (value.property "taskVersionId") then .error taskMessage else .ok context.reread := by
  obtain ⟨hfields, htask, rfl⟩ := validatePortalIssueContext_spec h
  obtain ⟨t, ht, htest⟩ := hfields.version
  have htruthy := (truthy_of_textOrEmpty ht (plain_of_versionPattern htest).nonempty).1
  have hjson : (contextRecord (value.property "portalVersion") (value.property "step")
      (orNull (value.property "taskVersionId")) (orNull (value.property "taskLane"))
      (value.property "operationalMode")).Json := by
    refine json_record reportContextKeys rfl (by decide) (fun f hf => ?_)
    simp only [List.mem_cons, List.not_mem_nil, or_false] at hf
    rcases hf with rfl | rfl | rfl | rfl | rfl
    · exact json_of_property hv htruthy rfl
    · exact json_of_property hv hfields.step rfl
    · exact json_orNull hv "taskVersionId"
    · exact json_orNull hv "taskLane"
    · exact json_of_property hv hfields.mode rfl
  have hreread : (contextRecord (value.property "portalVersion") (value.property "step")
      (orNull (value.property "taskVersionId")) (orNull (value.property "taskLane"))
      (value.property "operationalMode")).reread = contextRecord (value.property "portalVersion").reread
        (value.property "step") (orNull (value.property "taskVersionId")).reread (orNull (value.property "taskLane"))
        (value.property "operationalMode") := by
    rw [contextRecord, reread_record, contextRecord, ← isStep_reread hfields.step, ← isLane_reread hfields.lane,
      ← isBoolean_reread hfields.mode]
    simp only [List.map_cons, List.map_nil, isStep_reread hfields.step, isLane_reread hfields.lane,
      isBoolean_reread hfields.mode]
  have hnull : ∀ v : Value, orNull (orNull v).reread = (orNull v).reread := fun v => by
    cases v with
    | number n => cases n <;> rfl
    | undefined | null | bool _ | bigint _ | string _ | bytes _ | array _ | object _ => rfl
  have hagain : ContextFields (value.property "portalVersion").reread (value.property "step")
      (orNull (value.property "taskLane")) (value.property "operationalMode") :=
    { hfields with version := ⟨t, version_reread ht htest, htest⟩ }
  refine ⟨hjson, ?_⟩
  rw [hreread, validatePortalIssueContext_contextRecord hagain (hnull _)]
  have htask := task_reread htask
  split at htask
  · rename_i hwraps
    rw [if_pos hwraps, htask.1, htask.2]
    have hempty : identifierPattern.test [] = false := by decide +kernel
    simp only [Bool.false_eq_true, if_false, Except.bind, hempty]
  · rename_i hwraps
    rw [if_neg hwraps]
    rcases htask with hnullish | ⟨s, hs, htest⟩
    · rw [if_pos hnullish]
    · rw [hs]
      simp only [Except.bind, htest, if_true, ite_self]

/-! ## Payloads -/

/-- What was asked of an input. -/
structure Accepted (value : Value) (input : ReportInput) : Prop where
  reportId : isUuid (value.property "reportId") = true
  label : ∃ label, categoryLabel (value.property "category") = .ok (some label)
  summary : singleLine (value.property "summary") 10 160 "ملخص البلاغ" = .ok input.summary
  details : multiline (value.property "details") 20 4000 "وصف الخلل" = .ok input.details
  steps : optionalMultiline (value.property "reproductionSteps") 2000 "خطوات إعادة الخلل" =
    .ok input.reproductionSteps
  text : validateReportText input.summary input.details input.reproductionSteps = .ok ()
  context : validatePortalIssueContext (value.property "context") = .ok input.context
  fields : input.reportId = value.property "reportId" ∧ input.category = value.property "category"

theorem accepted_of_validate {value : Value} {input : ReportInput} (h : validatePortalIssueReportInput value = .ok input) :
    Accepted value input := by
  unfold validatePortalIssueReportInput at h
  simp only [bind, Except.bind, pure, Except.pure, throw, throwThe, MonadExceptOf.throw] at h
  split at h
  · cases h
  rename_i hcomplete
  simp only [Bool.or_eq_true, Bool.not_eq_true', not_or, Bool.not_eq_false] at hcomplete
  split at h
  · cases h
  rename_i label hlabel
  split at h
  · cases h
  rename_i hsome
  split at h
  · cases h
  rename_i summary hsummary
  split at h
  · cases h
  rename_i details hdetails
  split at h
  · cases h
  rename_i steps hsteps
  split at h
  · cases h
  rename_i htext
  split at h
  · cases h
  rename_i context hcontext
  obtain rfl := Except.ok.inj h
  have hlabel' : ∃ l, categoryLabel (value.property "category") = .ok (some l) := by
    cases label with
    | none => exact absurd rfl hsome
    | some l => exact ⟨l, hlabel⟩
  exact ⟨hcomplete.1.1.2, hlabel', hsummary, hdetails, hsteps, htext, hcontext, rfl, rfl⟩

/-- The record of an input. -/
def inputRecord (reportId category summary details steps context : Value) : Value :=
  record [("schema", .string portalIssueReportSchema), ("reportId", reportId), ("category", category),
    ("summary", summary), ("details", details), ("reproductionSteps", steps), ("privacyConfirmed", .bool true),
    ("context", context)]

/-- Of the record of an accepted input only the context is in doubt. -/
theorem validatePortalIssueReportInput_inputRecord {value : Value} {input : ReportInput} (h : Accepted value input)
    (context : Value) : validatePortalIssueReportInput (inputRecord (value.property "reportId")
      (value.property "category") (.string input.summary) (.string input.details) (optionalText input.reproductionSteps)
      context) = (validatePortalIssueContext context).map (fun c => { input with context := c }) := by
  generalize hrecord : inputRecord (value.property "reportId") (value.property "category") (.string input.summary)
    (.string input.details) (optionalText input.reproductionSteps) context = r
  have hkeys : [("schema", Value.string portalIssueReportSchema), ("reportId", value.property "reportId"),
      ("category", value.property "category"), ("summary", .string input.summary), ("details", .string input.details),
      ("reproductionSteps", optionalText input.reproductionSteps), ("privacyConfirmed", .bool true),
      ("context", context)].map Prod.fst = ["schema", "reportId", "category", "summary", "details", "reproductionSteps",
        "privacyConfirmed", "context"] := rfl
  have hfield : ∀ (key : String) (v : Value), (key, v) ∈ [("schema", Value.string portalIssueReportSchema),
      ("reportId", value.property "reportId"), ("category", value.property "category"), ("summary", .string input.summary),
      ("details", .string input.details), ("reproductionSteps", optionalText input.reproductionSteps),
      ("privacyConfirmed", .bool true), ("context", context)] → r.property key = v :=
    fun _ _ hmem => by rw [← hrecord]; exact property_record _ hkeys (by decide) hmem
  have hcomplete : (!plainObject r || !isText (r.property "schema") portalIssueReportSchema ||
      !isUuid (r.property "reportId") || !isTrue (r.property "privacyConfirmed") ||
      hasUnknownKeys r reportInputKeys) = false := by
    have hplain : plainObject r = true := by rw [← hrecord]; rfl
    have hknown : hasUnknownKeys r reportInputKeys = false := by
      rw [← hrecord]
      exact hasUnknownKeys_record rfl
    rw [hfield "schema" (.string portalIssueReportSchema) (by simp), hfield "reportId" (value.property "reportId") (by simp),
      hfield "privacyConfirmed" (.bool true) (by simp), h.reportId, hknown, hplain]
    simp [isText, isTrue]
  obtain ⟨label, hlabel⟩ := h.label
  unfold validatePortalIssueReportInput
  rw [hcomplete, hfield "category" (value.property "category") (by simp), hfield "summary" (.string input.summary) (by simp),
    hfield "details" (.string input.details) (by simp),
    hfield "reproductionSteps" (optionalText input.reproductionSteps) (by simp), hfield "context" context (by simp),
    hfield "reportId" (value.property "reportId") (by simp), hlabel, singleLine_singleLine h.summary, multiline_multiline h.details, optionalMultiline_optionalText h.steps]
  simp only [bind, Except.bind, h.text, Bool.false_eq_true, if_false, Option.isNone_some, pure, Except.pure]
  rw [← h.fields.1, ← h.fields.2]
  cases validatePortalIssueContext context <;> rfl

theorem isDate_toISOString {time : Nat} (h : time ≤ maxTime) : isDate (.string (toISOString time)) = true := by
  rw [isDate, Value.toText]
  dsimp only
  rw [parseDate_toISOString h]
  rfl

def payloadRecord (reportId category label : Value) (input : ReportInput) (context createdAtUtc : Value) : Value :=
  record [("schema", .string portalIssueReportSchema), ("reportId", reportId), ("category", category),
    ("categoryLabelAr", label), ("summary", .string input.summary), ("details", .string input.details),
    ("reproductionSteps", optionalText input.reproductionSteps), ("context", context), ("createdAtUtc", createdAtUtc)]

theorem optionalText_json (s : Option Str) : (optionalText s).Json ∧ (optionalText s).reread = optionalText s := by
  cases s <;> exact ⟨⟨rfl, rfl⟩, rfl⟩

theorem build_eq {input : ReportInput} {createdAtUtc : Value} {label : Str} (hdate : isDate createdAtUtc = true)
    (hlabel : categoryLabel input.category = .ok (some label)) : buildPortalIssuePublicPayload input createdAtUtc =
      .ok (payloadRecord input.reportId input.category (.string label) input input.context createdAtUtc) := by
  unfold buildPortalIssuePublicPayload
  rw [hdate, hlabel]
  rfl

/-- Of the payload of an accepted input only the context is in doubt. -/
theorem validatePortalIssuePublicPayload_payloadRecord {value : Value} {input : ReportInput} (h : Accepted value input)
    {label : Str} (hlabel : categoryLabel (value.property "category") = .ok (some label)) (context : Value)
    {createdAtUtc : Value} (hdate : isDate createdAtUtc = true) :
    validatePortalIssuePublicPayload (payloadRecord (value.property "reportId") (value.property "category") (.string label)
      input context createdAtUtc) = (validatePortalIssueContext context).map (fun c =>
        payloadRecord (value.property "reportId") (value.property "category") (.string label) input c createdAtUtc) := by
  generalize hrecord : payloadRecord (value.property "reportId") (value.property "category") (.string label) input context
    createdAtUtc = r
  have hfield : ∀ (key : String) (v : Value), (key, v) ∈ [("schema", Value.string portalIssueReportSchema),
      ("reportId", value.property "reportId"), ("category", value.property "category"), ("categoryLabelAr", .string label),
      ("summary", .string input.summary), ("details", .string input.details),
      ("reproductionSteps", optionalText input.reproductionSteps), ("context", context), ("createdAtUtc", createdAtUtc)] →
      r.property key = v :=
    fun _ _ hmem => by rw [← hrecord]; exact property_record reportPublicPayloadKeys rfl (by decide) hmem
  have hcomplete : (!plainObject r || !isText (r.property "schema") portalIssueReportSchema ||
      !isUuid (r.property "reportId") || hasUnknownKeys r reportPublicPayloadKeys) = false := by
    have hplain : plainObject r = true := by rw [← hrecord]; rfl
    have hknown : hasUnknownKeys r reportPublicPayloadKeys = false := by
      rw [← hrecord]
      exact hasUnknownKeys_record rfl
    rw [hfield "schema" (.string portalIssueReportSchema) (by simp), hfield "reportId" (value.property "reportId") (by simp),
      h.reportId, hknown, hplain]
    simp [isText]
  have hlabelText : isText (.string label) label = true := decide_eq_true rfl
  unfold validatePortalIssuePublicPayload
  rw [hcomplete, hfield "reportId" (value.property "reportId") (by simp), hfield "category" (value.property "category") (by simp),
    hfield "categoryLabelAr" (.string label) (by simp), hfield "summary" (.string input.summary) (by simp),
    hfield "details" (.string input.details) (by simp),
    hfield "reproductionSteps" (optionalText input.reproductionSteps) (by simp), hfield "context" context (by simp),
    hfield "createdAtUtc" createdAtUtc (by simp), hlabel]
  have hinput := validatePortalIssueReportInput_inputRecord h context
  rw [inputRecord] at hinput
  rw [hinput]
  simp only [bind, Except.bind, Bool.false_eq_true, if_false, Option.any_some, hlabelText, hdate, Bool.not_true,
    Bool.or_self]
  cases validatePortalIssueContext context with
  | error e => rfl
  | ok c =>
    have hcategory : categoryLabel ({ input with context := c } : ReportInput).category = .ok (some label) := by
      rw [h.fields.2]
      exact hlabel
    dsimp only [Except.map]
    rw [build_eq hdate hcategory, ← h.fields.1, ← h.fields.2]
    rfl

theorem Accepted.context_json {value : Value} {input : ReportInput} (h : Accepted value input) (hv : value.Json) :
    (value.property "context").Json := by
  refine hv.property_json (fun hundefined => ?_)
  have hcontext := h.context
  rw [hundefined] at hcontext
  cases hcontext

/-- **A payload comes through JSON as it is** and is accepted as it is, unless its context is not. -/
theorem payload_reread {value : Value} {input : ReportInput} {time : Nat} {payload : Value} (hv : value.Json)
    (h : validatePortalIssueReportInput value = .ok input) (hcategory : ∃ s, input.category = .string s)
    (htime : time ≤ maxTime) (hp : buildPortalIssuePublicPayload input (.string (toISOString time)) = .ok payload) :
    payload.Json ∧ validatePortalIssuePublicPayload payload.reread =
      if wrapsNonFinite ((value.property "context").property "taskVersionId") then .error taskMessage
      else .ok payload.reread := by
  have haccepted := accepted_of_validate h
  obtain ⟨label, hlabel⟩ := haccepted.label
  have hdate := isDate_toISOString htime
  have hlabel' : categoryLabel input.category = .ok (some label) := by
    rw [haccepted.fields.2]
    exact hlabel
  rw [build_eq hdate hlabel'] at hp
  obtain rfl := Except.ok.inj hp
  obtain ⟨hjson, hagain⟩ := context_reread (haccepted.context_json hv) haccepted.context
  obtain ⟨s, hs⟩ := hcategory
  have hreportId : ∃ id, input.reportId = .string id := by
    have huuid := haccepted.reportId
    rw [← haccepted.fields.1] at huuid
    cases hid : input.reportId <;> rw [hid] at huuid <;> first | exact ⟨_, rfl⟩ | cases huuid
  obtain ⟨id, hid⟩ := hreportId
  obtain ⟨hstepsJson, hsteps⟩ := optionalText_json input.reproductionSteps
  refine ⟨json_record reportPublicPayloadKeys rfl (by decide) (fun f hf => ?_), ?_⟩
  · simp only [List.mem_cons, List.not_mem_nil, or_false] at hf
    rcases hf with rfl | rfl | rfl | rfl | rfl | rfl | rfl | rfl | rfl
    · exact ⟨rfl, rfl⟩
    · rw [hid]; exact ⟨rfl, rfl⟩
    · rw [hs]; exact ⟨rfl, rfl⟩
    · exact ⟨rfl, rfl⟩
    · exact ⟨rfl, rfl⟩
    · exact ⟨rfl, rfl⟩
    · exact hstepsJson
    · exact hjson
    · exact ⟨rfl, rfl⟩
  · have hreread : (payloadRecord input.reportId input.category (.string label) input input.context
        (.string (toISOString time))).reread = payloadRecord input.reportId input.category (.string label) input
          input.context.reread (.string (toISOString time)) := by
      rw [payloadRecord, reread_record, payloadRecord, hid, hs]
      simp only [List.map_cons, List.map_nil, hsteps]
      rfl
    rw [hreread, haccepted.fields.1, haccepted.fields.2,
      validatePortalIssuePublicPayload_payloadRecord haccepted hlabel _ hdate, hagain]
    split <;> rfl

end Issues
end Adg
