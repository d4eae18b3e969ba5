import AdgLang.EvidenceCard
import AdgLang.Fallible
/-!
# EvidenceCardBlocks — what the texts of a comment can do to its card

The body stands between two fences and cannot close them (`body_stays_inside`), and every text is escaped
(`card_escaped`).  The location stands in a row of the table: a carriage return without a line feed behind it is not
replaced and ends the row.  The card contains the texts of a comment exactly when its location has none
(`card_contains_iff`).
-/
namespace Adg
namespace Cards

open Js Protocol Issues Markdown

/-! ## Texts on one line -/

/-- The sets of a pattern hold nothing that ends a line. -/
def withinLine : Pattern → Bool
  | .set s => !s lineFeed && !s carriageReturn
  | .seq a b => withinLine a && withinLine b
  | .alt a b => withinLine a && withinLine b
  | .star a => withinLine a
  | .empty | .start | .finish | .boundary _ => true

theorem within_of_withinLine : ∀ {a : Pattern}, withinLine a = true →
    a.Within (fun u => u ≠ lineFeed ∧ u ≠ carriageReturn)
  | .set s, h => by
    simp only [withinLine, Bool.and_eq_true, Bool.not_eq_true'] at h
    refine fun u hu => ⟨?_, ?_⟩
    · rintro rfl
      rw [h.1] at hu
      cases hu
    · rintro rfl
      rw [h.2] at hu
      cases hu
  | .seq a b, h => by
    simp only [withinLine, Bool.and_eq_true] at h
    exact ⟨within_of_withinLine h.1, within_of_withinLine h.2⟩
  | .alt a b, h => by
    simp only [withinLine, Bool.and_eq_true] at h
    exact ⟨within_of_withinLine h.1, within_of_withinLine h.2⟩
  | .star a, h => within_of_withinLine (a := a) h
  | .empty, _ => trivial
  | .start, _ => trivial
  | .finish, _ => trivial
  | .boundary _, _ => trivial

theorem oneLine_of_test {a : Pattern} {s : Str} (h : (Pattern.whole a).test s = true) (ha : withinLine a = true) :
    OneLine s :=
  ⟨fun hmem => (Pattern.mem_of_test_whole (within_of_withinLine ha) h _ hmem).1 rfl,
    fun hmem => (Pattern.mem_of_test_whole (within_of_withinLine ha) h _ hmem).2 rfl⟩

theorem oneLine_uuid {s : Str} (h : uuid.test s = true) : OneLine s := oneLine_of_test h (by decide)

theorem oneLine_pseudonym {s : Str} (h : commentPseudonymPattern.test s = true) : OneLine s :=
  oneLine_of_test h (by decide)

theorem oneLine_sha256 {s : Str} (h : sha256Pattern.test s = true) : OneLine s := oneLine_of_test h (by decide)

theorem oneLine_packetId {s : Str} (h : packetIdPattern.test s = true) : OneLine s := oneLine_of_test h (by decide +kernel)

theorem oneLine_timestamp {s : Str} (h : isoUtcPattern.test s = true) : OneLine s := oneLine_of_test h (by decide)

instance decidableOneLine (s : Str) : Decidable (OneLine s) :=
  inferInstanceAs (Decidable (lineFeed ∉ s ∧ carriageReturn ∉ s))

theorem oneLine_replaceUnit {u : UInt16} {text s : Str} (htext : OneLine text) (hs : OneLine s) :
    OneLine (replaceUnit u text s) := by
  have hunit : ∀ x, x ∉ text → x ∉ s → x ∉ replaceUnit u text s := by
    intro x hx hxs hmem
    obtain ⟨v, hv, hmem⟩ := List.mem_flatMap.1 hmem
    split at hmem
    · exact hx hmem
    · rw [List.mem_singleton.1 hmem] at hxs
      exact hxs hv
  exact ⟨hunit _ htext.1 hs.1, hunit _ htext.2 hs.2⟩

theorem oneLine_escapePublicText {s : Str} (h : OneLine s) : OneLine (escapePublicText s) := by
  have hescapes : OneLine [unit '@', zeroWidthSpace] ∧ OneLine (str "&gt;") ∧ OneLine (str "&lt;") ∧
      OneLine (str "&amp;") := by decide
  exact oneLine_replaceUnit hescapes.1 (oneLine_replaceUnit hescapes.2.1
    (oneLine_replaceUnit hescapes.2.2.1 (oneLine_replaceUnit hescapes.2.2.2 h)))

theorem oneLine_inlineCode {s : Str} (h : OneLine s) : OneLine (inlineCode s) := by
  have hmark : OneLine [backtick] := by decide
  exact hmark.append (h.append hmark)

theorem oneLine_inboxReceiptLink {id : Str} (h : OneLine id) (output : Option Str) :
    OneLine (inboxReceiptLink id output) := by
  have hparts : OneLine (str "human-evidence/inbox/") ∧ OneLine (str ".json") ∧ OneLine (str "../inbox/") ∧
      OneLine (str "./") ∧ OneLine (str "[") ∧ OneLine (str "](") ∧ OneLine (str ")") := by decide
  obtain ⟨hfolder, hjson, hinbox, hhere, hopen, hmiddle, hclose⟩ := hparts
  have hdisplay := (hfolder.append h).append hjson
  cases output with
  | none => exact oneLine_inlineCode (oneLine_escapePublicText hdisplay)
  | some path =>
    refine ((((hopen.append (oneLine_escapePublicText hdisplay)).append hmiddle).append ?_).append hclose)
    refine oneLine_escapePublicText ?_
    split
    · exact (hinbox.append h).append hjson
    · split
      · exact (hhere.append h).append hjson
      · exact hdisplay

theorem oneLine_tableRow {field value : Str} (hfield : OneLine field) (hvalue : OneLine value) :
    OneLine (tableRow field value) := by
  have hbars : OneLine (str "| ") ∧ OneLine (str " | ") ∧ OneLine (str " |") := by decide
  exact (((hbars.1.append hfield).append hbars.2.1).append hvalue).append hbars.2.2

theorem oneLine_listItem {text : Str} (h : OneLine text) : OneLine (listItem text) := by
  have hmark : OneLine (str "- ") := by decide
  exact hmark.append h

/-! ## Carriage returns -/

/-- A carriage return without a line feed behind it. -/
def hasLoneReturn : Str → Bool
  | [] => false
  | u :: rest => (u == carriageReturn && rest.head? != some lineFeed) || hasLoneReturn rest

attribute [grind =] hasLoneReturn

theorem lineFeed_not_mem_breakLines : ∀ s : Str, lineFeed ∉ breakLines s
  | [] => nofun
  | u :: rest => by
    have ih := lineFeed_not_mem_breakLines rest
    have hbr : lineFeed ∉ str "<br>" := by decide
    rw [breakLines]
    split
    · exact fun h => (List.mem_append.1 h).elim hbr ih
    · rename_i hu
      split
      · exact ih
      · exact fun h => (List.mem_cons.1 h).elim (fun e => hu e.symm) ih

/-- **Of the carriage returns only those before a line feed are replaced.** -/
theorem carriageReturn_mem_breakLines : ∀ s : Str, carriageReturn ∈ breakLines s ↔ hasLoneReturn s = true
  | [] => by simp [breakLines, hasLoneReturn]
  | u :: rest => by
    have ih := carriageReturn_mem_breakLines rest
    have hbr : carriageReturn ∉ str "<br>" := by decide
    have hne : lineFeed ≠ carriageReturn := by decide
    rw [breakLines, hasLoneReturn]
    by_cases hlf : u = lineFeed
    · rw [if_pos hlf, List.mem_append, ih, hlf]
      simp [hbr, hne]
    · rw [if_neg hlf]
      by_cases hcr : u = carriageReturn
      · by_cases hrest : rest.head? = some lineFeed
        · rw [if_pos ⟨hcr, hrest⟩, ih]
          simp [hrest]
        · rw [if_neg (fun h => hrest h.2)]
          simp [hcr, hrest]
      · rw [if_neg (fun h => hcr h.1), List.mem_cons, ih]
        simp [hcr, Ne.symm hcr]

theorem oneLine_breakLines {s : Str} (h : hasLoneReturn s = false) : OneLine (breakLines s) :=
  ⟨lineFeed_not_mem_breakLines s, fun hmem => by
    rw [(carriageReturn_mem_breakLines s).1 hmem] at h
    cases h⟩

theorem hasLoneReturn_oneLine {a : Str} (ha : OneLine a) (b : Str) : hasLoneReturn (a ++ b) = hasLoneReturn b := by
  induction a with
  | nil => rfl
  | cons u a ih =>
    have hu : u ≠ carriageReturn := fun e => ha.2 (by simp [e])
    have ha : OneLine a := ⟨fun e => ha.1 (List.mem_cons_of_mem u e), fun e => ha.2 (List.mem_cons_of_mem u e)⟩
    rw [List.cons_append, hasLoneReturn, ih ha]
    simp [hu]

theorem hasLoneReturn_of_oneLine {a : Str} (ha : OneLine a) : hasLoneReturn a = false := by
  have h := hasLoneReturn_oneLine ha []
  rw [List.append_nil] at h
  exact h

/-- Behind a text that starts no line with its first unit. -/
theorem hasLoneReturn_append {b : Str} (hb : OneLine b) (hne : b ≠ []) : ∀ a : Str,
    hasLoneReturn (a ++ b) = hasLoneReturn a
  | [] => hasLoneReturn_of_oneLine hb
  | u :: a => by
    have hhead : (a ++ b).head? = some lineFeed ↔ a.head? = some lineFeed := by
      cases a with
      | nil =>
        cases b with
        | nil => exact absurd rfl hne
        | cons v b =>
          have hv : v ≠ lineFeed := fun e => hb.1 (by simp [e])
          simp [hv]
      | cons v a => simp
    have hbehind : ((a ++ b).head? != some lineFeed) = (a.head? != some lineFeed) := by
      rw [Bool.eq_iff_iff, bne_iff_ne, bne_iff_ne]
      exact not_congr hhead
    rw [List.cons_append, hasLoneReturn, hasLoneReturn, hasLoneReturn_append hb hne a, hbehind]

theorem hasLoneReturn_replaceUnit {u : UInt16} {text : Str} (hu : u ≠ lineFeed ∧ u ≠ carriageReturn)
    (htext : OneLine text) (hne : text ≠ []) : ∀ s : Str, hasLoneReturn (replaceUnit u text s) = hasLoneReturn s
  | [] => rfl
  | v :: s => by
    have ih := hasLoneReturn_replaceUnit hu htext hne s
    have hhead : (replaceUnit u text s).head? = some lineFeed ↔ s.head? = some lineFeed := by
      cases s with
      | nil => simp [replaceUnit]
      | cons w s =>
        rw [replaceUnit, List.flatMap_cons]
        by_cases hw : w = u
        · rw [if_pos hw]
          cases text with
          | nil => exact absurd rfl hne
          | cons x text =>
            have hx : x ≠ lineFeed := fun e => htext.1 (by simp [e])
            simp [hx, hw, hu.1]
        · rw [if_neg hw]
          simp
    have hcons : replaceUnit u text (v :: s) = (if v = u then text else [v]) ++ replaceUnit u text s := by
      simp [replaceUnit]
    rw [hcons]
    by_cases hv : v = u
    · rw [if_pos hv, hasLoneReturn_oneLine htext, ih, hasLoneReturn]
      simp [hv, hu.2]
    · have hbehind : ((replaceUnit u text s).head? != some lineFeed) = (s.head? != some lineFeed) := by
        rw [Bool.eq_iff_iff, bne_iff_ne, bne_iff_ne]
        exact not_congr hhead
      rw [if_neg hv, List.singleton_append, hasLoneReturn, hasLoneReturn, ih, hbehind]

theorem hasLoneReturn_escapePublicText (s : Str) : hasLoneReturn (escapePublicText s) = hasLoneReturn s := by
  unfold escapePublicText
  rw [hasLoneReturn_replaceUnit (by decide) (by decide) (by decide),
    hasLoneReturn_replaceUnit (by decide) (by decide) (by decide),
    hasLoneReturn_replaceUnit (by decide) (by decide) (by decide),
    hasLoneReturn_replaceUnit (by decide) (by decide) (by decide)]

/-! ## The machine binding -/

theorem oneLine_of_units {p : UInt16 → Bool} (hp : p lineFeed = false ∧ p carriageReturn = false) {s : Str}
    (h : ∀ u ∈ s, p u = true) : OneLine s := by
  constructor
  · intro hmem
    have hlf := hp.1
    rw [h _ hmem] at hlf
    cases hlf
  · intro hmem
    have hcr := hp.2
    rw [h _ hmem] at hcr
    cases hcr

theorem oneLine_natStr (n : Nat) : OneLine (natStr n) := oneLine_of_units (p := isDigit) (by decide) (isDigit_natStr n)

theorem oneLine_toText : ∀ n : Number, OneLine n.toText
  | .nan => by decide
  | .infinite negative => by cases negative <;> decide
  | .zero _ => by
    show OneLine (str "0")
    decide
  | .finite d => oneLine_of_units (p := isAtomUnit) (by decide) (isAtomUnit_toText d)

theorem oneLine_unicodeEscape (u : UInt16) : OneLine (unicodeEscape u) := by
  have hdigit : ∀ n : Fin 16, hexDigit n ≠ lineFeed ∧ hexDigit n ≠ carriageReturn := by decide
  have hsmall : u.toNat / 4096 < 16 := by
    have := u.toNat_lt
    omega
  have h1 := hdigit ⟨u.toNat / 4096, hsmall⟩
  have h2 := hdigit ⟨u.toNat / 256 % 16, Nat.mod_lt _ (by decide)⟩
  have h3 := hdigit ⟨u.toNat / 16 % 16, Nat.mod_lt _ (by decide)⟩
  have h4 := hdigit ⟨u.toNat % 16, Nat.mod_lt _ (by decide)⟩
  have hback : lineFeed ≠ unit '\\' ∧ lineFeed ≠ unit 'u' ∧ carriageReturn ≠ unit '\\' ∧ carriageReturn ≠ unit 'u' := by
    decide
  unfold unicodeEscape
  constructor
  · simp [hback, h1.1.symm, h2.1.symm, h3.1.symm, h4.1.symm]
  · simp [hback, h1.2.symm, h2.2.symm, h3.2.symm, h4.2.symm]

theorem oneLine_quoteUnit (u : UInt16) : OneLine (quoteUnit u) := by
  have hshort : ∀ e ∈ shortEscapes, OneLine [unit '\\', e.2] := forall_mem_of_all (by decide)
  unfold quoteUnit
  cases hfind : shortEscapes.find? (fun e => e.1 == u) with
  | some e => exact hshort e (List.mem_of_find?_eq_some hfind)
  | none =>
    have hnone : u ≠ lineFeed ∧ u ≠ carriageReturn := by
      refine ⟨?_, ?_⟩ <;> rintro rfl <;> exact absurd hfind (by decide)
    simp only
    split
    · exact oneLine_unicodeEscape u
    · exact ⟨fun h => hnone.1 (List.mem_singleton.1 h).symm, fun h => hnone.2 (List.mem_singleton.1 h).symm⟩

theorem oneLine_quoteUnits : ∀ (s : Str) (afterLead : Bool), OneLine (quoteUnits afterLead s)
  | [], _ => oneLine_nil
  | u :: rest, afterLead => by
    rw [quoteUnits]
    refine OneLine.append ?_ (oneLine_quoteUnits rest _)
    split
    · exact oneLine_unicodeEscape u
    · exact oneLine_quoteUnit u

theorem oneLine_quote (s : Str) : OneLine (quote s) := by
  have hmark : OneLine [unit '"'] := by decide
  exact hmark.append ((oneLine_quoteUnits s false).append hmark)

theorem oneLine_commas : ∀ {ts : List Str}, (∀ t ∈ ts, OneLine t) → OneLine (commas ts)
  | [], _ => oneLine_nil
  | t :: ts, h => by
    obtain ⟨ht, hts⟩ := List.forall_mem_cons.1 h
    have hcomma : OneLine [unit ','] := by decide
    have hrest : ∀ ts : List Str, (∀ t ∈ ts, OneLine t) → OneLine (ts.flatMap (unit ',' :: ·)) := by
      intro ts
      induction ts with
      | nil => exact fun _ => oneLine_nil
      | cons t ts ih =>
        intro h
        obtain ⟨ht, hts⟩ := List.forall_mem_cons.1 h
        exact (hcomma.append ht).append (ih hts)
    exact ht.append (hrest ts hts)

theorem oneLine_bytesText (b : List UInt8) : OneLine (bytesText b) := by
  have hsigns : OneLine [unit '\x7b'] ∧ OneLine [unit ':'] ∧ OneLine [unit '\x7d'] := by decide
  refine hsigns.1.append (OneLine.append (oneLine_commas (fun t ht => ?_)) hsigns.2.2)
  obtain ⟨i, hi, rfl⟩ := List.mem_mapIdx.1 ht
  exact (oneLine_quote _).append (hsigns.2.1.append (oneLine_natStr _))

/-- A text that goes on in the middle of a line wherever it begins. -/
def Word (t : Str) : Prop := ∀ atStart rest, quiet atStart (t ++ rest) = quiet false rest

theorem word_of_oneLine {u : UInt16} {w : Str} (hw : OneLine (u :: w)) (hu : isIndent u = false ∧ isMark u = false) :
    Word (u :: w) := quiet_word hw hu

theorem word_of_units {p : UInt16 → Bool} (hp : p lineFeed = false ∧ p carriageReturn = false)
    (hstart : ∀ u, p u = true → isIndent u = false ∧ isMark u = false) {s : Str} (hne : s ≠ [])
    (h : ∀ u ∈ s, p u = true) : Word s := by
  cases s with
  | nil => exact absurd rfl hne
  | cons u w => exact word_of_oneLine (oneLine_of_units hp h) (hstart u (h u (by simp)))

/-- A text within a line, behind a word. -/
theorem Word.append {a b : Str} (ha : Word a) (hb : ∀ rest, quiet false (b ++ rest) = quiet false rest) :
    Word (a ++ b) := by
  intro atStart rest
  rw [List.append_assoc, ha, hb]

theorem Word.line {t : Str} (ht : Word t) {indent : Str} (hi : ∀ u ∈ indent, isIndent u = true) :
    Word (lineFeed :: (indent ++ t)) := by
  have hspaces : ∀ rest, quiet true (indent ++ rest) = quiet true rest := by
    intro rest
    induction indent with
    | nil => rfl
    | cons u indent ih =>
      obtain ⟨hu, hi⟩ := List.forall_mem_cons.1 hi
      have hb : isBreak u = false := by
        have hu : u = unit ' ' := by simpa [isIndent] using hu
        rw [hu]
        decide
      have ih := ih hi
      unfold quiet at ih ⊢
      rw [List.cons_append, clear, hb, hu]
      exact ih
  intro atStart rest
  have hbreak : quiet atStart (lineFeed :: (indent ++ t) ++ rest) = quiet true (indent ++ (t ++ rest)) := by
    rw [List.cons_append, List.append_assoc]
    rfl
  rw [hbreak, hspaces, ht]

theorem word_commas {ts : List Str} (hne : ts ≠ []) (h : ∀ t ∈ ts, Word t) : Word (commas ts) := by
  cases ts with
  | nil => exact absurd rfl hne
  | cons t ts =>
    obtain ⟨ht, hts⟩ := List.forall_mem_cons.1 h
    have hcomma : Word [unit ','] := word_of_oneLine (by decide) (by decide)
    have hrest : ∀ ts : List Str, (∀ t ∈ ts, Word t) → ∀ rest, quiet false (ts.flatMap (unit ',' :: ·) ++ rest) =
        quiet false rest := by
      intro ts
      induction ts with
      | nil => exact fun _ _ => rfl
      | cons t ts ih =>
        intro h rest
        obtain ⟨ht, hts⟩ := List.forall_mem_cons.1 h
        have hword : Word (unit ',' :: t) := hcomma.append (ht false)
        rw [List.flatMap_cons, List.append_assoc, hword, ih hts]
    exact ht.append (hrest ts hts)

/-- Brackets around lines. -/
theorem word_block {opening closing : UInt16} (hopening : Word [opening]) (hclosing : Word [closing]) {ts : List Str}
    (hne : ts ≠ []) (h : ∀ t ∈ ts, Word t) {indent : Str} (hi : ∀ u ∈ indent, isIndent u = true) :
    Word (opening :: (commas ts ++ lineFeed :: (indent ++ [closing]))) :=
  hopening.append (((word_commas hne h).append (fun rest => (hclosing.line hi) false rest)) false)

theorem isAtomUnit_start (u : UInt16) (h : isAtomUnit u = true) : isIndent u = false ∧ isMark u = false := by
  have hne : ∀ c : UInt16, isAtomUnit c = false → (u == c) = false := by
    intro c hc
    rw [beq_eq_false_iff_ne]
    rintro rfl
    rw [h] at hc
    cases hc
  simp [isIndent, isMark, hne (unit ' ') (by decide), hne (unit '\x60') (by decide), hne (unit '~') (by decide)]

theorem mem_indentedItems {indent t : Str} : ∀ {items : List Value}, t ∈ indentedItems indent items →
    ∃ v ∈ items, t = lineFeed :: (indent ++ indentedText indent v)
  | [], h => by
    rw [indentedItems] at h
    cases h
  | v :: items, h => by
    rw [indentedItems] at h
    rcases List.mem_cons.1 h with rfl | h
    · exact ⟨v, by simp, rfl⟩
    · obtain ⟨w, hw, ht⟩ := mem_indentedItems h
      exact ⟨w, List.mem_cons_of_mem v hw, ht⟩

theorem mem_indentedProperties {indent t : Str} : ∀ {properties : List (Str × Value)},
    t ∈ indentedProperties indent properties → ∃ p ∈ properties,
      t = lineFeed :: (indent ++ (quote p.1 ++ unit ':' :: unit ' ' :: indentedText indent p.2))
  | [], h => by
    rw [indentedProperties] at h
    cases h
  | (key, v) :: properties, h => by
    rw [indentedProperties] at h
    rcases List.mem_cons.1 h with rfl | h
    · exact ⟨(key, v), by simp, rfl⟩
    · obtain ⟨w, hw, ht⟩ := mem_indentedProperties h
      exact ⟨w, List.mem_cons_of_mem _ hw, ht⟩

theorem word_indentedText (v : Value) : ∀ indent : Str, (∀ u ∈ indent, isIndent u = true) →
    Word (indentedText indent v) := by
  have hinner : ∀ indent : Str, (∀ u ∈ indent, isIndent u = true) → ∀ u ∈ indent ++ str "  ", isIndent u = true := by
    intro indent hi u hu
    rcases List.mem_append.1 hu with hu | hu
    · exact hi u hu
    · exact (by decide : ∀ u ∈ str "  ", isIndent u = true) u hu
  induction v using Value.induct with
  | leaf v hleaf =>
    intro indent hi
    cases v with
    | undefined => exact word_of_oneLine (u := unit 'n') (w := str "ull") (by decide) (by decide)
    | null => exact word_of_oneLine (u := unit 'n') (w := str "ull") (by decide) (by decide)
    | bool b =>
      cases b with
      | true => exact word_of_oneLine (u := unit 't') (w := str "rue") (by decide) (by decide)
      | false => exact word_of_oneLine (u := unit 'f') (w := str "alse") (by decide) (by decide)
    | number n =>
      rw [indentedText]
      split
      · cases n with
        | nan => rename_i h; cases h
        | infinite negative => rename_i h; cases h
        | zero negative => exact word_of_oneLine (u := unit '0') (w := []) (by decide) (by decide)
        | finite d => exact word_of_units (by decide) isAtomUnit_start (toText_ne_nil d) (isAtomUnit_toText d)
      · exact word_of_oneLine (u := unit 'n') (w := str "ull") (by decide) (by decide)
    | bigint i =>
      refine word_of_units (by decide) isAtomUnit_start ?_ (fun u hu => ?_)
      · intro h
        exact natStr_ne_nil i.natAbs (List.append_eq_nil_iff.1 h).2
      · rcases List.mem_append.1 hu with hu | hu
        · unfold sign at hu
          split at hu
          · rw [List.mem_singleton.1 hu]
            decide
          · cases hu
        · exact isAtomUnit_of_isDigit (isDigit_natStr _ u hu)
    | string s =>
      exact word_of_oneLine (u := unit '"') (w := quoteUnits false s ++ [unit '"']) (oneLine_quote s) (by decide)
    | bytes b => exact word_of_oneLine (u := unit '\x7b') (oneLine_bytesText b) (by decide)
    | array items => cases hleaf
    | object properties => cases hleaf
  | array items ih =>
    intro indent hi
    cases items with
    | nil => exact word_of_oneLine (u := unit '[') (w := str "]") (by decide) (by decide)
    | cons v items =>
      rw [indentedText]
      refine word_block (word_of_oneLine (by decide) (by decide)) (word_of_oneLine (by decide) (by decide)) ?_ ?_ hi
      · rw [indentedItems]
        nofun
      · intro t ht
        obtain ⟨w, hw, rfl⟩ := mem_indentedItems ht
        exact (ih w hw _ (hinner indent hi)).line (hinner indent hi)
  | object properties ih =>
    intro indent hi
    cases properties with
    | nil => exact word_of_oneLine (u := unit '\x7b') (w := str "\x7d") (by decide) (by decide)
    | cons p properties =>
      rw [indentedText]
      refine word_block (word_of_oneLine (by decide) (by decide)) (word_of_oneLine (by decide) (by decide)) ?_ ?_ hi
      · rw [indentedProperties]
        nofun
      · intro t ht
        obtain ⟨q, hq, rfl⟩ := mem_indentedProperties ht
        have hkey : Word (quote q.1) := word_of_oneLine (w := quoteUnits false q.1 ++ [unit '"']) (oneLine_quote q.1)
          (by decide)
        have hcolon : Word (unit ':' :: [unit ' ']) := word_of_oneLine (by decide) (by decide)
        have hvalue := ih q hq _ (hinner indent hi)
        exact (hkey.append ((hcolon.append (hvalue false)) false)).line (hinner indent hi)

/-- **No line of the machine binding is like a fence.** -/
theorem jsonBlock_plain (e : Comment) : ∀ l ∈ terminated (jsonBlock e), fenceLike l = false := by
  refine fenceLike_of_quiet ?_
  rw [jsonBlock, word_indentedText (machineBinding e) [] nofun true [lineFeed]]
  rfl

/-! ## The body -/

/-- The text begins with three backticks, of which `a` is the first. -/
def Breaks (a : UInt16) (s : Str) : Prop := a = backtick ∧ ∃ rest, s = backtick :: backtick :: rest

theorem breakFences_step {a : UInt16} {s : Str} (h : ¬ Breaks a s) : breakFences (a :: s) = a :: breakFences s := by
  match s with
  | [] => simp [breakFences]
  | [b] => simp [breakFences]
  | b :: c :: rest =>
    rw [breakFences, if_neg]
    rintro ⟨rfl, rfl, rfl⟩
    exact h ⟨rfl, rest, rfl⟩

theorem breakFences_broken (rest : Str) : breakFences (backtick :: backtick :: backtick :: rest) =
    backtick :: backtick :: zeroWidthSpace :: backtick :: breakFences rest := by
  rw [breakFences, if_pos ⟨rfl, rfl, rfl⟩]
  rfl

theorem breakFences_head (s : Str) : (breakFences s).head? = s.head? := by
  match s with
  | [] => rfl
  | a :: s =>
    by_cases h : Breaks a s
    · obtain ⟨rfl, rest, rfl⟩ := h
      rw [breakFences_broken]
      rfl
    · rw [breakFences_step h]
      rfl

/-- Where no run is broken, none is left. -/
theorem startsFence_breakFences {a : UInt16} {s : Str} (h : ¬ Breaks a s) :
    startsFence (a :: (breakFences s ++ [lineFeed])) = false := by
  rw [Bool.eq_false_iff]
  intro hstarts
  obtain ⟨t, ht⟩ := List.isPrefixOf_iff_prefix.1 hstarts
  have hfirst : backtick :: backtick :: backtick :: t = a :: (breakFences s ++ [lineFeed]) := ht
  obtain ⟨rfl, hsecond⟩ := List.cons.inj hfirst
  have hend : backtick ≠ lineFeed := by decide
  rcases s with _ | ⟨b, s⟩
  · exact hend (List.cons.inj hsecond).1
  by_cases hb : Breaks b s
  · obtain ⟨rfl, rest, rfl⟩ := hb
    exact h ⟨rfl, _, rfl⟩
  rw [breakFences_step hb, List.cons_append] at hsecond
  obtain ⟨rfl, hthird⟩ := List.cons.inj hsecond
  rcases s with _ | ⟨c, s⟩
  · exact hend (List.cons.inj hthird).1
  have hc : (breakFences (c :: s) ++ [lineFeed]).head? = some c := by
    rw [List.head?_append, breakFences_head]
    rfl
  rw [← hthird, List.head?_cons, Option.some.injEq] at hc
  exact h ⟨rfl, s, by rw [hc]⟩

theorem clear_breakFences (s : Str) (atStart : Bool) : clear startsFence atStart (breakFences s ++ [lineFeed]) = true := by
  match s with
  | [] => rfl
  | a :: s =>
    by_cases h : Breaks a s
    · obtain ⟨rfl, rest, rfl⟩ := h
      have ih := clear_breakFences rest false
      have hkept : isBreak backtick = false ∧ isIndent backtick = false ∧ isBreak zeroWidthSpace = false ∧
          isIndent zeroWidthSpace = false := by decide
      have hstarts : startsFence (backtick :: backtick :: zeroWidthSpace :: backtick ::
          (breakFences rest ++ [lineFeed])) = false := by
        simp only [startsFence, List.replicate, List.isPrefixOf]
        rfl
      rw [breakFences_broken]
      simp [clear, hkept, hstarts, ih]
    · rw [breakFences_step h, List.cons_append, clear, startsFence_breakFences h, clear_breakFences s,
        clear_breakFences s, clear_breakFences s]
      simp
termination_by s.length

/-- **No line of the body closes the fence it stands in.** -/
theorem body_stays_inside (body : Str) {f : Fence} (hf : f.mark = backtick) :
    ∀ l ∈ terminated (sanitizeCommentBody body), closes f l = false :=
  closes_of_clear (clear_breakFences (escapePublicText body) true) hf

/-! ## Escaped texts -/

/-- No angle bracket stands but in a line break of the renderer, and no `@` without a zero-width space behind it. -/
inductive Escaped : Str → Prop
  | nil : Escaped []
  | plain {u : UInt16} {s : Str} (hu : isOneOf "<>@" u = false) (hs : Escaped s) : Escaped (u :: s)
  | lineBreak {s : Str} (hs : Escaped s) : Escaped (unit '<' :: unit 'b' :: unit 'r' :: unit '>' :: s)
  | mention {s : Str} (hs : Escaped s) : Escaped (unit '@' :: zeroWidthSpace :: s)

theorem Escaped.append {a b : Str} (ha : Escaped a) (hb : Escaped b) : Escaped (a ++ b) := by
  induction ha with
  | nil => exact hb
  | plain hu _ ih => exact .plain hu ih
  | lineBreak _ ih => exact .lineBreak ih
  | mention _ ih => exact .mention ih

theorem escaped_of_units {s : Str} (h : s.all (fun u => !isOneOf "<>@" u) = true) : Escaped s := by
  induction s with
  | nil => exact .nil
  | cons u s ih =>
    rw [List.all_cons, Bool.and_eq_true, Bool.not_eq_true'] at h
    exact .plain h.1 (ih h.2)

theorem escaped_escapePublicText (s : Str) : Escaped (escapePublicText s) := by
  induction s with
  | nil => exact .nil
  | cons u s ih =>
    have hcons : escapePublicText (u :: s) = escapePublicText [u] ++ escapePublicText s := by
      show escapePublicText ([u] ++ s) = _
      simp only [escapePublicText, replaceUnit, List.flatMap_append]
    rw [hcons]
    refine Escaped.append ?_ ih
    by_cases hamp : u = unit '&'
    · rw [hamp]
      exact escaped_of_units (by decide)
    by_cases hlt : u = unit '<'
    · rw [hlt]
      exact escaped_of_units (by decide)
    by_cases hgt : u = unit '>'
    · rw [hgt]
      exact escaped_of_units (by decide)
    by_cases hat : u = unit '@'
    · rw [hat]
      exact .mention .nil
    · have hself : escapePublicText [u] = [u] := by simp [escapePublicText, replaceUnit, hamp, hlt, hgt, hat]
      rw [hself]
      refine .plain ?_ .nil
      simp [isOneOf, str, hlt, hgt, hat]

theorem Escaped.replaceBar {s : Str} (h : Escaped s) : Escaped (replaceUnit (unit '|') (str "&#124;") s) := by
  induction h with
  | nil => exact .nil
  | @plain u s hu _ ih =>
    have hcons : replaceUnit (unit '|') (str "&#124;") (u :: s) = (if u = unit '|' then str "&#124;" else [u]) ++
        replaceUnit (unit '|') (str "&#124;") s := by simp [replaceUnit]
    rw [hcons]
    split
    · exact (escaped_of_units (by decide)).append ih
    · exact .plain hu ih
  | lineBreak _ ih => exact .lineBreak ih
  | mention _ ih => exact .mention ih

theorem Escaped.breakLines {s : Str} (h : Escaped s) : Escaped (breakLines s) := by
  induction h with
  | nil => exact .nil
  | plain hu _ ih =>
    rw [Cards.breakLines]
    split
    · exact .lineBreak ih
    · split
      · exact ih
      · exact .plain hu ih
  | lineBreak _ ih => exact .lineBreak ih
  | mention _ ih => exact .mention ih

theorem Escaped.tail {u : UInt16} {s : Str} (h : Escaped (u :: s)) (hu : isOneOf "<>@" u = false) : Escaped s := by
  generalize hx : u :: s = x at h
  cases h with
  | nil => cases hx
  | plain _ hs =>
    obtain ⟨-, rfl⟩ := List.cons.inj hx
    exact hs
  | lineBreak _ =>
    obtain ⟨rfl, -⟩ := List.cons.inj hx
    exact absurd hu (by decide)
  | mention _ =>
    obtain ⟨rfl, -⟩ := List.cons.inj hx
    exact absurd hu (by decide)

theorem Escaped.breakFences : ∀ {s : Str}, Escaped s → Escaped (breakFences s)
  | _, .nil => .nil
  | _, .lineBreak (s := s) hs => by
    have hother : ∀ c ∈ str "<br>", ∀ t, ¬ Breaks c t := by
      intro c hc t hb
      rw [hb.1] at hc
      exact absurd hc (by decide)
    rw [breakFences_step (hother _ (by decide) _), breakFences_step (hother _ (by decide) _),
      breakFences_step (hother _ (by decide) _), breakFences_step (hother _ (by decide) _)]
    exact .lineBreak hs.breakFences
  | _, .mention (s := s) hs => by
    have hother : ∀ c ∈ [unit '@', zeroWidthSpace], ∀ t, ¬ Breaks c t := by
      intro c hc t hb
      rw [hb.1] at hc
      exact absurd hc (by decide)
    rw [breakFences_step (hother _ (by decide) _), breakFences_step (hother _ (by decide) _)]
    exact .mention hs.breakFences
  | _, .plain (u := u) (s := s) hu hs => by
    by_cases h : Breaks u s
    · obtain ⟨rfl, rest, rfl⟩ := h
      have hrest : Escaped rest := (hs.tail hu).tail hu
      have hplain : isOneOf "<>@" zeroWidthSpace = false := by decide
      rw [breakFences_broken]
      exact .plain hu (.plain hu (.plain hplain (.plain hu hrest.breakFences)))
    · rw [breakFences_step h]
      exact .plain hu hs.breakFences
termination_by s => s.length

/-! ## Accepted comments -/

/-- The texts of a comment that stand on a line of their own before its body. -/
structure Comment.SingleLined (e : Comment) : Prop where
  commentId : OneLine e.commentId
  participantPseudonym : OneLine e.participantPseudonym
  receivedAtUtc : OneLine e.receivedAtUtc
  packetId : OneLine e.packetId
  sourceReceiptId : OneLine e.sourceReceiptId
  targetReceiptId : ∀ id ∈ e.targetReceiptId, OneLine id
  targetArtifactSha256 : ∀ hash ∈ e.targetArtifactSha256, OneLine hash
  parentCommentId : ∀ id ∈ e.parentCommentId, OneLine id

theorem assertMatch_ok {value : Value} {pattern : Pattern} {message : Option Str} {s : Str}
    (h : assertMatch value pattern message = .ok s) : pattern.test s = true := by
  unfold assertMatch at h
  split at h
  · split at h
    · cases h
      assumption
    · cases h
  · cases h

theorem assertNullable_ok {value : Value} {pattern : Pattern} {message : Str} {o : Option Str}
    (h : assertNullable value pattern message = .ok o) : ∀ s ∈ o, pattern.test s = true := by
  unfold assertNullable at h
  split at h
  · cases h
    nofun
  · cases hm : assertMatch value pattern (some message) with
    | error m =>
      rw [hm] at h
      cases h
    | ok s =>
      rw [hm] at h
      cases h
      intro t ht
      cases ht
      exact assertMatch_ok hm

theorem readTimestamp_ok {rt : Runtime} {value : Value} {s : Str} (h : readTimestamp rt value = .ok s) :
    isoUtcPattern.test s = true := by
  unfold readTimestamp at h
  split at h
  · split at h
    · rename_i hs
      cases h
      exact (Bool.and_eq_true _ _ ▸ hs).1
    · cases h
  · cases h

theorem singleLined {rt : Runtime} {envelope : Value} {e : Comment}
    (h : validateCommentEnvelope rt envelope = .ok e) : e.SingleLined := by
  unfold validateCommentEnvelope at h
  obtain ⟨-, -, h⟩ := bind_eq_ok.1 h
  obtain ⟨commentId, hcommentId, h⟩ := bind_eq_ok.1 h
  obtain ⟨pseudonym, hpseudonym, h⟩ := bind_eq_ok.1 h
  obtain ⟨receivedAt, hreceivedAt, h⟩ := bind_eq_ok.1 h
  obtain ⟨packetId, hpacketId, h⟩ := bind_eq_ok.1 h
  obtain ⟨-, -, h⟩ := bind_eq_ok.1 h
  obtain ⟨-, -, h⟩ := bind_eq_ok.1 h
  obtain ⟨sourceId, hsourceId, h⟩ := bind_eq_ok.1 h
  obtain ⟨-, -, h⟩ := bind_eq_ok.1 h
  obtain ⟨targetId, htargetId, h⟩ := bind_eq_ok.1 h
  obtain ⟨targetHash, htargetHash, h⟩ := bind_eq_ok.1 h
  obtain ⟨parentId, hparentId, h⟩ := bind_eq_ok.1 h
  obtain ⟨category, -, h⟩ := bind_eq_ok.1 h
  obtain ⟨body, -, h⟩ := bind_eq_ok.1 h
  obtain ⟨location, -, h⟩ := bind_eq_ok.1 h
  obtain ⟨mentions, -, h⟩ := bind_eq_ok.1 h
  obtain ⟨references, -, h⟩ := bind_eq_ok.1 h
  obtain ⟨-, -, h⟩ := bind_eq_ok.1 h
  obtain ⟨claims, -, h⟩ := bind_eq_ok.1 h
  cases h
  exact {
    commentId := oneLine_uuid (assertMatch_ok hcommentId)
    participantPseudonym := oneLine_pseudonym (assertMatch_ok hpseudonym)
    receivedAtUtc := oneLine_timestamp (readTimestamp_ok hreceivedAt)
    packetId := oneLine_packetId (assertMatch_ok hpacketId)
    sourceReceiptId := oneLine_uuid (assertMatch_ok hsourceId)
    targetReceiptId := fun id hid => oneLine_uuid (assertNullable_ok htargetId id hid)
    targetArtifactSha256 := fun hash hhash => oneLine_sha256 (assertNullable_ok htargetHash hash hhash)
    parentCommentId := fun id hid => oneLine_uuid (assertNullable_ok hparentId id hid) }

/-! ## The lines of a card -/

/-- A line of its own that neither opens nor closes a fence. -/
def PlainLine (l : Str) : Prop := OneLine l ∧ fenceLike l = false

instance decidablePlainLine (l : Str) : Decidable (PlainLine l) :=
  inferInstanceAs (Decidable (OneLine l ∧ fenceLike l = false))

theorem plainLine_tableRow {field value : Str} (hfield : OneLine field) (hvalue : OneLine value) :
    PlainLine (tableRow field value) := ⟨oneLine_tableRow hfield hvalue, rfl⟩

theorem plainLine_listItem {text : Str} (h : OneLine text) : PlainLine (listItem text) := ⟨oneLine_listItem h, rfl⟩

theorem plainLine_headerLines : ∀ l ∈ headerLines, PlainLine l := by decide +kernel

theorem oneLine_descriptor (e : Comment) : OneLine (describeCommentCategory e).label ∧
    OneLine (describeCommentCategory e).title ∧ OneLine (describeCommentCategory e).reviewBoundary := by
  have hboundary : ∀ final, OneLine (disagreementBoundary final) := by decide +kernel
  unfold describeCommentCategory
  generalize e.resultReferences.any ResultReference.isFinal = final
  cases e.category <;> dsimp only <;> first
    | decide +kernel
    | exact ⟨by decide +kernel, by decide +kernel, hboundary final⟩

theorem oneLine_escapeTableCell {s : Str} (h : OneLine s) : OneLine (escapeTableCell s) := by
  have hdash : OneLine dash := by decide
  have hdisplay : OneLine (displayValue s) := by
    unfold displayValue
    split
    · exact hdash
    · exact oneLine_escapePublicText h
  exact oneLine_breakLines (hasLoneReturn_of_oneLine (oneLine_replaceUnit (by decide) hdisplay))

theorem plainLine_metadataLines {e : Comment} (h : e.SingleLined) (output : Option Str) :
    ∀ l ∈ metadataLines e output, PlainLine l := by
  have hcode : ∀ {s : Str}, OneLine s → OneLine (inlineCode (escapePublicText s)) :=
    fun hs => oneLine_inlineCode (oneLine_escapePublicText hs)
  have hoption : ∀ {o : Option Str} {f : Str → Str}, (∀ s ∈ o, OneLine (f s)) → OneLine (o.elim dash f) := by
    intro o f hs
    cases o with
    | none => exact (by decide : OneLine dash)
    | some s => exact hs s rfl
  obtain ⟨hlabel, htitle, -⟩ := oneLine_descriptor e
  have hparens : OneLine (str " (") ∧ OneLine (str ")") := by decide
  have hcategory := ((htitle.append hparens.1).append hlabel).append hparens.2
  simp only [metadataLines, List.forall_mem_cons]
  refine ⟨by decide +kernel, by decide, by decide +kernel, by decide, ?_⟩
  refine ⟨plainLine_tableRow (by decide) (oneLine_escapeTableCell (by decide)), ?_⟩
  refine ⟨plainLine_tableRow (by decide) (hcode h.commentId), ?_⟩
  refine ⟨plainLine_tableRow (by decide) (hcode h.packetId), ?_⟩
  refine ⟨plainLine_tableRow (by decide) (oneLine_escapeTableCell hcategory), ?_⟩
  refine ⟨plainLine_tableRow (by decide) (hcode h.participantPseudonym), ?_⟩
  refine ⟨plainLine_tableRow (by decide) (hcode h.receivedAtUtc), ?_⟩
  refine ⟨plainLine_tableRow (by decide) (oneLine_inboxReceiptLink h.sourceReceiptId output), ?_⟩
  refine ⟨plainLine_tableRow (by decide)
    (hoption (fun id hid => oneLine_inboxReceiptLink (h.targetReceiptId id hid) output)), ?_⟩
  refine ⟨plainLine_tableRow (by decide) (hoption (fun hash hh => hcode (h.targetArtifactSha256 hash hh))), ?_⟩
  exact ⟨plainLine_tableRow (by decide) (hoption (fun id hid => hcode (h.parentCommentId id hid))), nofun⟩

theorem plainLine_labelLines (e : Comment) : ∀ l ∈ labelLines e, PlainLine l := by
  obtain ⟨hlabel, htitle, hboundary⟩ := oneLine_descriptor e
  have hnames : OneLine (str "label: ") ∧ OneLine (str "meaning: ") ∧ OneLine (str "review boundary: ") := by decide
  simp only [labelLines, List.forall_mem_cons]
  refine ⟨by decide, by decide +kernel, by decide, ?_⟩
  refine ⟨plainLine_listItem (hnames.1.append (oneLine_inlineCode (oneLine_escapePublicText hlabel))), ?_⟩
  refine ⟨plainLine_listItem (hnames.2.1.append (oneLine_escapePublicText htitle)), ?_⟩
  refine ⟨plainLine_listItem (hnames.2.2.append (oneLine_escapePublicText hboundary)), ?_⟩
  exact ⟨by decide, by decide +kernel, by decide, nofun⟩

/-- A carriage return in the location that no line feed follows. -/
def Comment.loneReturn (e : Comment) : Bool := e.location.sentenceId.any hasLoneReturn

theorem hasLoneReturn_formatLocation (l : Location) :
    hasLoneReturn (formatLocation l) = l.sentenceId.any hasLoneReturn := by
  have hwords : OneLine (str "sentence:") ∧ OneLine (str "sentence:—") ∧ OneLine (str ", ") ∧ OneLine (str "token:") ∧
      OneLine (str "token:—") := by decide
  obtain ⟨hsentence, hnone, hcomma, htoken, hnotoken⟩ := hwords
  have hbehind : ∃ t : Str, OneLine t ∧ formatLocation l =
      l.sentenceId.elim (str "sentence:—") (fun s => str "sentence:" ++ s) ++ (str ", " ++ t) := by
    unfold formatLocation
    cases l.sentenceId <;> cases l.tokenId with
    | none => exact ⟨_, hnotoken, List.append_assoc _ _ _⟩
    | some n => exact ⟨_, htoken.append (oneLine_toText n), List.append_assoc _ _ _⟩
  obtain ⟨t, ht, hformat⟩ := hbehind
  rw [hformat, hasLoneReturn_append (hcomma.append ht) (List.cons_ne_nil _ _)]
  cases l.sentenceId with
  | none => exact hasLoneReturn_of_oneLine hnone
  | some s => exact hasLoneReturn_oneLine hsentence s

/-- **The row of the location stands on one line unless a carriage return is left in it.** -/
theorem carriageReturn_mem_locationRow (e : Comment) : carriageReturn ∈ locationRow e ↔ e.loneReturn = true := by
  have hbars : carriageReturn ∉ str "| " ++ str "الموضع / Location" ++ str " | " ∧ carriageReturn ∉ str " |" := by decide
  have hne : formatLocation e.location ≠ [] := by
    unfold formatLocation
    cases e.location.sentenceId <;> exact List.cons_ne_nil _ _
  have hcell : carriageReturn ∈ escapeTableCell (formatLocation e.location) ↔ e.loneReturn = true := by
    unfold escapeTableCell displayValue
    rw [if_neg hne, carriageReturn_mem_breakLines, hasLoneReturn_replaceUnit (by decide) (by decide) (by decide),
      hasLoneReturn_escapePublicText, hasLoneReturn_formatLocation]
    rfl
  unfold locationRow tableRow
  rw [List.mem_append, List.mem_append, hcell]
  constructor
  · rintro ((h | h) | h)
    · exact absurd h hbars.1
    · exact h
    · exact absurd h hbars.2
  · exact fun h => .inl (.inr h)

theorem lineFeed_not_mem_locationRow (e : Comment) : lineFeed ∉ locationRow e := by
  have hbars : lineFeed ∉ str "| " ++ str "الموضع / Location" ++ str " | " ∧ lineFeed ∉ str " |" := by decide
  unfold locationRow tableRow
  intro h
  rcases List.mem_append.1 h with h | h
  · rcases List.mem_append.1 h with h | h
    · exact hbars.1 h
    · exact lineFeed_not_mem_breakLines _ h
  · exact hbars.2 h

/-! ## The blocks of a card -/

/-- The fence that opens the body. -/
def bodyFence : Fence := ⟨backtick, 3, by decide, by decide⟩

theorem closes_jsonFence (f : Fence) : closes f jsonFence = false := by
  have hmark : f.mark = backtick ∨ f.mark = unit '~' := by simpa [isMark, backtick] using f.marks
  have hlong := f.long
  rcases hmark with hmark | hmark
  · have hrest : ((unindented jsonFence).drop (run backtick jsonFence)).all (fun u => isIndent u || u == 0x09) = false := by
      decide
    rw [closes, hmark, hrest, Bool.and_false]
  · have hrun : run (unit '~') jsonFence = 0 := by decide
    have hno : ¬ f.length ≤ 0 := by omega
    simp [closes, hmark, hrun, hno]

theorem flatMap_terminated {ls : List Str} (h : ∀ l ∈ ls, PlainLine l) : ls.flatMap terminated = ls := by
  induction ls with
  | nil => rfl
  | cons l ls ih =>
    obtain ⟨hl, hls⟩ := List.forall_mem_cons.1 h
    rw [List.flatMap_cons, terminated_oneLine hl.1, ih hls, List.singleton_append]

theorem joinLines_parts (ls : List Str) (hne : ls ≠ []) : joinLines (ls ++ [[]]) = ls.flatMap (fun l => l ++ [lineFeed]) := by
  induction ls with
  | nil => exact absurd rfl hne
  | cons l ls ih =>
    cases ls with
    | nil => simp [joinLines, List.intercalate, lineFeed, unit]
    | cons m ls =>
      have hstep : joinLines (l :: m :: ls ++ [[]]) = l ++ unit '\n' :: joinLines (m :: ls ++ [[]]) := by
        simp [joinLines, List.intercalate]
      have hbreak : unit '\n' = lineFeed := by decide
      rw [hstep, ih (List.cons_ne_nil _ _), hbreak]
      simp

/-- The lines of the card behind the row of the location. -/
def linesBehind (e : Comment) (output : Option Str) : List Str :=
  labelLines e ++ [openingFence, sanitizeCommentBody e.body, closingFence] ++ boundaryLines e output ++
    [jsonFence, jsonBlock e, closingFence]

/-- A card is its parts, each ended by a line feed. -/
theorem renderEvidenceMarkdown_parts (e : Comment) (output : Option Str) : renderEvidenceMarkdown e output =
    (headerLines ++ metadataLines e output ++ [locationRow e] ++ linesBehind e output).flatMap
      (fun l => l ++ [lineFeed]) := by
  have hlines : headerLines ++ renderComment e output = (headerLines ++ metadataLines e output ++ [locationRow e] ++
      linesBehind e output) ++ [[]] := by
    simp [renderComment, linesBefore, linesBehind]
  have hlast : headerLines ++ metadataLines e output ++ [locationRow e] ++ linesBehind e output =
      (headerLines ++ metadataLines e output ++ [locationRow e] ++ labelLines e ++
        [openingFence, sanitizeCommentBody e.body, closingFence] ++ boundaryLines e output ++
          [jsonFence, jsonBlock e]) ++ [closingFence] := by
    simp [linesBehind]
  unfold renderEvidenceMarkdown
  rw [hlines, joinLines_parts _ (by simp), hlast, List.flatMap_append]
  generalize List.flatMap _ _ = text
  have htrim : trimEnd (text ++ (closingFence ++ [lineFeed])) = text ++ closingFence := by
    have hreverse : (text ++ (closingFence ++ [lineFeed])).reverse = lineFeed :: (text ++ closingFence).reverse := by
      simp
    have hspace : isSpace lineFeed = true ∧ isSpace backtick = false := by decide
    have hhead : (text ++ closingFence).reverse = backtick :: (text ++ [backtick, backtick]).reverse := by
      simp [closingFence]
    unfold trimEnd
    rw [hreverse, List.dropWhile_cons, hspace.1, if_pos rfl, hhead, List.dropWhile_cons, hspace.2, ← hhead]
    simp
  rw [List.flatMap_cons, List.flatMap_nil, List.append_nil, htrim, List.append_assoc]

theorem lines_renderEvidenceMarkdown (e : Comment) (output : Option Str) : lines (renderEvidenceMarkdown e output) =
    (headerLines ++ metadataLines e output).flatMap terminated ++ terminated (locationRow e) ++
      (linesBehind e output).flatMap terminated := by
  rw [renderEvidenceMarkdown_parts, lines_parts, List.flatMap_append, List.flatMap_append, List.flatMap_cons,
    List.flatMap_nil, List.append_nil]

/-- Behind the line that opens the machine binding a fence is open. -/
theorem scan_jsonFence (s : Option Fence) : ∃ f, (scan s [jsonFence]).2 = some f := by
  cases s with
  | none => exact ⟨_, rfl⟩
  | some f =>
    rw [scan, closes_jsonFence]
    exact ⟨f, rfl⟩

/-- **The blocks behind the location do not depend on the texts of the body and the location.** -/
theorem scan_linesBehind (e : Comment) (output : Option Str) (body : Str) (location : Location) :
    (scan none ((linesBehind { e with body := body, location := location } output).flatMap terminated)).1 =
      (scan none ((linesBehind e output).flatMap terminated)).1 := by
  have hfence : opening openingFence = some bodyFence := by decide
  have hclose : closes bodyFence closingFence = true := by decide
  have hfenceLines : terminated openingFence = [openingFence] ∧ terminated closingFence = [closingFence] ∧
      terminated jsonFence = [jsonFence] :=
    ⟨terminated_oneLine (by decide), terminated_oneLine (by decide), terminated_oneLine (by decide)⟩
  -- the body leaves one fence at either end
  have hbody : ∀ (b : Str) (ls : List Str), (scan none (terminated openingFence ++ terminated (sanitizeCommentBody b) ++
      terminated closingFence ++ ls)).1 = .fence :: .fence :: (scan none ls).1 := by
    intro b ls
    rw [hfenceLines.1, hfenceLines.2.1, List.append_assoc, List.append_assoc, List.singleton_append, scan, hfence]
    simp only [scan_append, scan_inside (f := bodyFence) (body_stays_inside b rfl), List.nil_append, List.singleton_append,
      scan, hclose, if_true]
  -- the machine binding leaves nothing
  have hjson : ∀ (s : Option Fence) (e e' : Comment), (scan s (terminated jsonFence ++ terminated (jsonBlock e) ++
      terminated closingFence)).1 = (scan s (terminated jsonFence ++ terminated (jsonBlock e') ++
      terminated closingFence)).1 := by
    intro s e e'
    obtain ⟨f, hf⟩ := scan_jsonFence s
    simp only [hfenceLines.2.2, List.append_assoc, scan_append, hf, scan_inside_plain (jsonBlock_plain e),
      scan_inside_plain (jsonBlock_plain e')]
  have hlabels := scan_plain (fun l hl => (plainLine_labelLines e l hl).2)
  have hparts : ∀ e' : Comment, (linesBehind e' output).flatMap terminated = (labelLines e').flatMap terminated ++
      (terminated openingFence ++ terminated (sanitizeCommentBody e'.body) ++ terminated closingFence ++
        ((boundaryLines e' output).flatMap terminated ++ (terminated jsonFence ++ terminated (jsonBlock e') ++
          terminated closingFence))) := by
    intro e'
    simp [linesBehind]
  rw [hparts, hparts]
  show (scan none ((labelLines e).flatMap terminated ++ (_ ++ ((boundaryLines e output).flatMap terminated ++ _)))).1 = _
  rw [flatMap_terminated (plainLine_labelLines e)]
  simp only [scan_append (labelLines e), hlabels, hbody, scan_append ((boundaryLines e output).flatMap terminated)]
  rw [hjson _ _ e]

/-! ## Every text is escaped -/

theorem escaped_inlineCode {s : Str} (h : Escaped s) : Escaped (inlineCode s) := by
  have hmark : Escaped [backtick] := escaped_of_units (by decide)
  exact hmark.append (h.append hmark)

theorem escaped_inboxReceiptLink (id : Str) (output : Option Str) : Escaped (inboxReceiptLink id output) := by
  have hbrackets : Escaped (str "[") ∧ Escaped (str "](") ∧ Escaped (str ")") :=
    ⟨escaped_of_units (by decide), escaped_of_units (by decide), escaped_of_units (by decide)⟩
  obtain ⟨hopen, hmiddle, hclose⟩ := hbrackets
  cases output with
  | none => exact escaped_inlineCode (escaped_escapePublicText _)
  | some path =>
    exact (((hopen.append (escaped_escapePublicText _)).append hmiddle).append (escaped_escapePublicText _)).append hclose

theorem escaped_escapeTableCell (s : Str) : Escaped (escapeTableCell s) := by
  have hdisplay : Escaped (displayValue s) := by
    unfold displayValue
    split
    · exact escaped_of_units (by decide)
    · exact escaped_escapePublicText s
  exact hdisplay.replaceBar.breakLines

theorem escaped_tableRow {field value : Str} (hfield : field.all (fun u => !isOneOf "<>@" u) = true)
    (hvalue : Escaped value) : Escaped (tableRow field value) := by
  have hbars : Escaped (str "| ") ∧ Escaped (str " | ") ∧ Escaped (str " |") :=
    ⟨escaped_of_units (by decide), escaped_of_units (by decide), escaped_of_units (by decide)⟩
  exact (((hbars.1.append (escaped_of_units hfield)).append hbars.2.1).append hvalue).append hbars.2.2

theorem escaped_listItem {text : Str} (h : Escaped text) : Escaped (listItem text) :=
  Escaped.append (escaped_of_units (s := str "- ") (by decide)) h

theorem escaped_linesBefore (e : Comment) (output : Option Str) : ∀ l ∈ linesBefore e output, Escaped l := by
  have hcode : ∀ s : Str, Escaped (inlineCode (escapePublicText s)) :=
    fun s => escaped_inlineCode (escaped_escapePublicText s)
  have hoption : ∀ {o : Option Str} {f : Str → Str}, (∀ s, Escaped (f s)) → Escaped (o.elim dash f) := by
    intro o f hf
    cases o with
    | none => exact escaped_of_units (s := dash) (by decide)
    | some s => exact hf s
  have hnames : Escaped (str "label: ") ∧ Escaped (str "meaning: ") ∧ Escaped (str "review boundary: ") :=
    ⟨escaped_of_units (by decide), escaped_of_units (by decide), escaped_of_units (by decide)⟩
  simp only [linesBefore, metadataLines, labelLines, locationRow, List.forall_mem_append, List.forall_mem_cons]
  refine ⟨⟨⟨escaped_of_units (by decide), .nil, escaped_of_units (by decide), escaped_of_units (by decide), ?_⟩, ?_⟩, ?_⟩
  · exact ⟨escaped_tableRow (by decide) (escaped_escapeTableCell _), escaped_tableRow (by decide) (hcode _),
      escaped_tableRow (by decide) (hcode _), escaped_tableRow (by decide) (escaped_escapeTableCell _),
      escaped_tableRow (by decide) (hcode _), escaped_tableRow (by decide) (hcode _),
      escaped_tableRow (by decide) (escaped_inboxReceiptLink _ _),
      escaped_tableRow (by decide) (hoption (fun id => escaped_inboxReceiptLink id _)),
      escaped_tableRow (by decide) (hoption hcode), escaped_tableRow (by decide) (hoption hcode), nofun⟩
  · exact ⟨escaped_tableRow (by decide) (escaped_escapeTableCell _), nofun⟩
  · exact ⟨.nil, escaped_of_units (by decide), .nil, escaped_listItem (hnames.1.append (hcode _)),
      escaped_listItem (hnames.2.1.append (escaped_escapePublicText _)),
      escaped_listItem (hnames.2.2.append (escaped_escapePublicText _)), .nil, escaped_of_units (by decide), .nil, nofun⟩

theorem escaped_boundaryLines (e : Comment) (output : Option Str) : ∀ l ∈ boundaryLines e output, Escaped l := by
  have hcode : ∀ s : Str, Escaped (inlineCode (escapePublicText s)) :=
    fun s => escaped_inlineCode (escaped_escapePublicText s)
  have hsigns : Escaped (str " → ") ∧ Escaped (str " — ") ∧ Escaped (str " — final: ") ∧ Escaped (str " — sha256 ") :=
    ⟨escaped_of_units (by decide), escaped_of_units (by decide), escaped_of_units (by decide),
      escaped_of_units (by decide)⟩
  obtain ⟨harrow, hdash, hfinal, hsha⟩ := hsigns
  have hflag : ∀ b : Bool, Escaped (inlineCode (if b then str "true" else str "false")) := by
    intro b
    cases b <;> exact escaped_of_units (by decide)
  have hclaims : ∀ l ∈ e.claimBoundaries.map (fun claim => listItem (escapePublicText claim)), Escaped l := by
    intro l hl
    obtain ⟨claim, -, rfl⟩ := List.mem_map.1 hl
    exact escaped_listItem (escaped_escapePublicText claim)
  have hmentions : ∀ l ∈ mentionLines e output, Escaped l := by
    intro l hl
    unfold mentionLines at hl
    split at hl
    · rw [List.mem_singleton.1 hl]
      exact escaped_of_units (by decide)
    · obtain ⟨mention, -, rfl⟩ := List.mem_map.1 hl
      exact escaped_listItem (((hcode _).append harrow).append (escaped_inboxReceiptLink _ _))
  have hreferences : ∀ l ∈ referenceLines e output, Escaped l := by
    intro l hl
    unfold referenceLines at hl
    split at hl
    · rw [List.mem_singleton.1 hl]
      exact escaped_of_units (by decide)
    · obtain ⟨reference, -, rfl⟩ := List.mem_map.1 hl
      exact escaped_listItem (((((((((escaped_inboxReceiptLink _ _).append hdash).append (hcode _)).append hdash).append
        (hcode _)).append hfinal).append (hflag _)).append hsha).append (hcode _))
  simp only [boundaryLines, List.forall_mem_append, List.forall_mem_cons]
  exact ⟨⟨⟨⟨⟨⟨⟨.nil, escaped_of_units (by decide), .nil, nofun⟩, hclaims⟩, .nil, escaped_of_units (by decide), .nil, nofun⟩,
    hmentions⟩, .nil, escaped_of_units (by decide), .nil, nofun⟩, hreferences⟩, .nil, escaped_of_units (by decide), .nil, nofun⟩

/-! ## Containment -/

/-- The renderer's fence in front of the body opens a block, no line of the body closes it, and the renderer's fence
behind the body does. -/
structure BodyFenced (e : Comment) (output : Option Str) : Prop where
  outside : (scan none ((headerLines ++ linesBefore e output).flatMap terminated)).2 = none
  opens : opening openingFence = some bodyFence
  inside : ∀ l ∈ terminated (sanitizeCommentBody e.body), closes bodyFence l = false
  closed : closes bodyFence closingFence = true

/-- Outside the machine binding every text is escaped. -/
def TextsEscaped (e : Comment) (output : Option Str) : Prop :=
  ∀ l ∈ linesBefore e output ++ [sanitizeCommentBody e.body] ++ boundaryLines e output, Escaped l

theorem card_escaped (e : Comment) (output : Option Str) : TextsEscaped e output := by
  unfold TextsEscaped
  simp only [List.forall_mem_append, List.forall_mem_cons]
  exact ⟨⟨escaped_linesBefore e output, (escaped_escapePublicText e.body).breakFences, nofun⟩,
    escaped_boundaryLines e output⟩

/-- A comment that differs in its body and its location at most. -/
def SameElsewhere (e e' : Comment) : Prop := e' = { e with body := e'.body, location := e'.location }

/-- The card contains the texts of the comment: its body in the fence, its blocks those of any other comment that differs
only in body and location and keeps to its row, and nothing unescaped. -/
structure Contained (rt : Runtime) (e : Comment) (output : Option Str) : Prop where
  fenced : BodyFenced e output
  blocks : ∀ envelope e', validateCommentEnvelope rt envelope = .ok e' → SameElsewhere e e' → e'.loneReturn = false →
    Markdown.blocks (renderEvidenceMarkdown e output) = Markdown.blocks (renderEvidenceMarkdown e' output)
  escaped : TextsEscaped e output

theorem locationRow_head (e : Comment) : ∃ rest, locationRow e = unit '|' :: rest := ⟨_, rfl⟩

theorem fenceLike_bar (rest : Str) : fenceLike (unit '|' :: rest) = false := rfl

theorem blockOf_bar (rest : Str) : blockOf (unit '|' :: rest) = .tableRow := rfl

theorem plainLine_locationRow {e : Comment} (h : e.loneReturn = false) : PlainLine (locationRow e) := by
  refine ⟨⟨lineFeed_not_mem_locationRow e, fun hcr => ?_⟩, rfl⟩
  rw [(carriageReturn_mem_locationRow e).1 hcr] at h
  cases h

/-- The lines in front of the location. -/
theorem plainLine_front {e : Comment} (h : e.SingleLined) (output : Option Str) :
    ∀ l ∈ headerLines ++ metadataLines e output, PlainLine l :=
  List.forall_mem_append.2 ⟨plainLine_headerLines, plainLine_metadataLines h output⟩

/-- **A location that keeps to its row is one row of the table.** -/
theorem blocks_of_row {e : Comment} (h : e.SingleLined) (hplain : e.loneReturn = false) (output : Option Str) :
    Markdown.blocks (renderEvidenceMarkdown e output) = (headerLines ++ metadataLines e output).map blockOf ++
      .tableRow :: (scan none ((linesBehind e output).flatMap terminated)).1 := by
  have hfront := plainLine_front h output
  have hrow := plainLine_locationRow hplain
  rw [Markdown.blocks, lines_renderEvidenceMarkdown, flatMap_terminated hfront, terminated_oneLine hrow.1, List.append_assoc,
    scan_append, scan_plain (fun l hl => (hfront l hl).2)]
  have hstep : (scan none ([locationRow e] ++ (linesBehind e output).flatMap terminated)).1 =
      .tableRow :: (scan none ((linesBehind e output).flatMap terminated)).1 := by
    rw [List.singleton_append, scan, opening_of_not hrow.2]
    rfl
  rw [hstep]

/-- A carriage return in the location ends its row, and lines of its own follow. -/
theorem terminated_locationRow {e : Comment} (h : e.loneReturn = true) :
    ∃ rest l ls, terminated (locationRow e) = (unit '|' :: rest) :: l :: ls := by
  obtain ⟨a, b, hsplit, ha⟩ := List.eq_append_cons_of_mem ((carriageReturn_mem_locationRow e).2 h)
  have hlf := lineFeed_not_mem_locationRow e
  rw [hsplit] at hlf
  have hone : OneLine a := ⟨fun hmem => hlf (List.mem_append_left _ hmem), ha⟩
  have hb : lineFeed ∉ b := fun hmem => hlf (List.mem_append_right _ (List.mem_cons_of_mem _ hmem))
  have hlast : (locationRow e).getLast? = some (unit '|') := by
    unfold locationRow tableRow
    rw [List.getLast?_append]
    rfl
  have hne : b ≠ [] := by
    rintro rfl
    rw [hsplit, List.getLast?_append] at hlast
    have hlast : some carriageReturn = some (unit '|') := hlast
    exact absurd hlast (by decide)
  obtain ⟨rest, hhead⟩ := locationRow_head e
  obtain ⟨a', rfl⟩ : ∃ a', a = unit '|' :: a' := by
    rw [hhead] at hsplit
    cases a with
    | nil => exact absurd (List.cons.inj hsplit).1 (by decide)
    | cons u a => exact ⟨a, by rw [(List.cons.inj hsplit).1]⟩
  rw [hsplit, terminated_return hone]
  cases hls : linesFrom true [] (b ++ [lineFeed]) with
  | nil => exact absurd hls (linesFrom_ne_nil hne hb true)
  | cons l ls => exact ⟨a', l, ls, rfl⟩

/-- A location that names nothing. -/
def nowhere : Value := record [("sentenceId", .null), ("tokenId", .null)]

/-- The properties with the location replaced. -/
def relocate (p : Str × Value) : Str × Value := if p.1 = str "location" then (p.1, nowhere) else p

theorem property_relocate (properties : List (Str × Value)) (key : String) (hkey : str key ≠ str "location") :
    (Value.object (properties.map relocate)).property key = (Value.object properties).property key := by
  have hkeys : (fun p : Str × Value => (relocate p).1 == str key) = (fun p => p.1 == str key) := by
    funext p
    unfold relocate
    split <;> rfl
  simp only [Value.property, List.find?_map, Function.comp_def, hkeys]
  cases hfind : properties.find? (fun p => p.1 == str key) with
  | none => rfl
  | some p =>
    have hp : p.1 = str key := by simpa using List.find?_some hfind
    have hsame : relocate p = p := if_neg (by rw [hp]; exact hkey)
    rw [Option.map_some, hsame]

theorem location_relocate {properties : List (Str × Value)} {v : Value}
    (hv : (Value.object properties).property "location" = v) (hne : v.isUndefined = false) :
    (Value.object (properties.map relocate)).property "location" = nowhere := by
  have hkeys : (fun p : Str × Value => (relocate p).1 == str "location") = (fun p => p.1 == str "location") := by
    funext p
    unfold relocate
    split <;> rfl
  simp only [Value.property, List.find?_map, Function.comp_def, hkeys] at hv ⊢
  cases hfind : properties.find? (fun p => p.1 == str "location") with
  | none =>
    rw [hfind] at hv
    rw [← hv] at hne
    cases hne
  | some p =>
    have hp : p.1 = str "location" := by simpa using List.find?_some hfind
    simp [relocate, hp]

theorem forbidden_relocate : ∀ {properties : List (Str × Value)}, propertiesContainForbidden properties = false →
    propertiesContainForbidden (properties.map relocate) = false
  | [], _ => rfl
  | (key, child) :: properties, h => by
    simp only [propertiesContainForbidden, Bool.or_eq_false_iff] at h
    have ih := forbidden_relocate h.2
    have hnowhere : containsForbiddenPublicKeys nowhere = false := by decide +kernel
    rw [List.map_cons]
    by_cases hkey : key = str "location"
    · have hhead : relocate (key, child) = (key, nowhere) := if_pos hkey
      simp [hhead, propertiesContainForbidden, h.1.1, hnowhere, ih]
    · have hhead : relocate (key, child) = (key, child) := if_neg hkey
      simp [hhead, propertiesContainForbidden, h.1.1, h.1.2, ih]

/-- The comment without its location is accepted too. -/
theorem accepted_nowhere {rt : Runtime} {envelope : Value} {e : Comment}
    (h : validateCommentEnvelope rt envelope = .ok e) : ∃ envelope',
      validateCommentEnvelope rt envelope' = .ok { e with location := ⟨nowhere, none, none⟩ } := by
  have hobject : ∃ properties, envelope = .object properties := by
    obtain ⟨_, hschema, -⟩ := bind_eq_ok.1 h
    cases envelope with
    | object properties => exact ⟨properties, rfl⟩
    | undefined | null | bool _ | number _ | bigint _ | string _ | bytes _ | array _ => cases hschema
  obtain ⟨properties, rfl⟩ := hobject
  have hkept := property_relocate properties
  unfold validateCommentEnvelope at h
  obtain ⟨_, hschema, h⟩ := bind_eq_ok.1 h
  obtain ⟨commentId, hcommentId, h⟩ := bind_eq_ok.1 h
  obtain ⟨pseudonym, hpseudonym, h⟩ := bind_eq_ok.1 h
  obtain ⟨receivedAt, hreceivedAt, h⟩ := bind_eq_ok.1 h
  obtain ⟨packetId, hpacketId, h⟩ := bind_eq_ok.1 h
  obtain ⟨_, htask, h⟩ := bind_eq_ok.1 h
  obtain ⟨_, hround, h⟩ := bind_eq_ok.1 h
  obtain ⟨sourceId, hsourceId, h⟩ := bind_eq_ok.1 h
  obtain ⟨_, hforbidden, h⟩ := bind_eq_ok.1 h
  obtain ⟨targetId, htargetId, h⟩ := bind_eq_ok.1 h
  obtain ⟨targetHash, htargetHash, h⟩ := bind_eq_ok.1 h
  obtain ⟨parentId, hparentId, h⟩ := bind_eq_ok.1 h
  obtain ⟨category, hcategory, h⟩ := bind_eq_ok.1 h
  obtain ⟨body, hbody, h⟩ := bind_eq_ok.1 h
  obtain ⟨location, hlocation, h⟩ := bind_eq_ok.1 h
  obtain ⟨mentions, hmentions, h⟩ := bind_eq_ok.1 h
  obtain ⟨references, hreferences, h⟩ := bind_eq_ok.1 h
  obtain ⟨_, hattestation, h⟩ := bind_eq_ok.1 h
  obtain ⟨claims, hclaims, h⟩ := bind_eq_ok.1 h
  cases h
  have hplace : (Value.object (properties.map relocate)).property "location" = nowhere := by
    refine location_relocate rfl ?_
    obtain ⟨_, hobject, -⟩ := bind_eq_ok.1 hlocation
    cases hvalue : (Value.object properties).property "location" <;> rw [hvalue] at hobject <;> first
      | rfl
      | cases hobject
  have hclean : containsForbiddenPublicKeys (.object (properties.map relocate)) = false := by
    cases hall : containsForbiddenPublicKeys (.object properties) with
    | true => rw [hall] at hforbidden; cases hforbidden
    | false => exact forbidden_relocate hall
  refine ⟨.object (properties.map relocate), ?_⟩
  unfold validateCommentEnvelope
  rw [hkept "schema" (by decide), hkept "commentId" (by decide), hkept "participantPseudonym" (by decide),
    hkept "receivedAtUtc" (by decide), hkept "packetId" (by decide), hkept "taskVersionId" (by decide),
    hkept "roundId" (by decide), hkept "sourceReceiptId" (by decide), hkept "targetReceiptId" (by decide),
    hkept "targetArtifactSha256" (by decide), hkept "parentCommentId" (by decide), hkept "category" (by decide),
    hkept "body" (by decide), hplace, hkept "mentions" (by decide), hkept "resultReferences" (by decide),
    hkept "attestation" (by decide), hkept "claimBoundaries" (by decide), hclean]
  refine bind_eq_ok.2 ⟨_, hschema, bind_eq_ok.2 ⟨_, hcommentId, bind_eq_ok.2 ⟨_, hpseudonym, ?_⟩⟩⟩
  refine bind_eq_ok.2 ⟨_, hreceivedAt, bind_eq_ok.2 ⟨_, hpacketId, bind_eq_ok.2 ⟨_, htask, ?_⟩⟩⟩
  refine bind_eq_ok.2 ⟨_, hround, bind_eq_ok.2 ⟨_, hsourceId, bind_eq_ok.2 ⟨(), rfl, ?_⟩⟩⟩
  refine bind_eq_ok.2 ⟨_, htargetId, bind_eq_ok.2 ⟨_, htargetHash, bind_eq_ok.2 ⟨_, hparentId, ?_⟩⟩⟩
  refine bind_eq_ok.2 ⟨_, hcategory, bind_eq_ok.2 ⟨_, hbody, bind_eq_ok.2 ⟨⟨nowhere, none, none⟩, rfl, ?_⟩⟩⟩
  refine bind_eq_ok.2 ⟨_, hmentions, bind_eq_ok.2 ⟨_, hreferences, bind_eq_ok.2 ⟨_, hattestation, ?_⟩⟩⟩
  exact bind_eq_ok.2 ⟨_, hclaims, rfl⟩

theorem flatMap_front (e : Comment) (output : Option Str) : (headerLines ++ linesBefore e output).flatMap terminated =
    (headerLines ++ metadataLines e output).flatMap terminated ++ (terminated (locationRow e) ++
      (labelLines e).flatMap terminated) := by
  simp [linesBefore]

theorem SameElsewhere.behind {e e' : Comment} (h : SameElsewhere e e') (output : Option Str) :
    metadataLines e' output = metadataLines e output ∧ (scan none ((linesBehind e' output).flatMap terminated)).1 =
      (scan none ((linesBehind e output).flatMap terminated)).1 := by
  rw [SameElsewhere] at h
  constructor
  · rw [h]
    rfl
  · rw [h]
    exact scan_linesBehind e output _ _

/-- **A carriage return in the location opens a fence around the body's or adds blocks.** -/
theorem blocks_ne_of_loneReturn {e e' : Comment} (h : e.SingleLined) (h' : e'.SingleLined) (hsame : SameElsewhere e e')
    (hlone : e.loneReturn = true) (hplain : e'.loneReturn = false) {output : Option Str} (hfenced : BodyFenced e output) :
    Markdown.blocks (renderEvidenceMarkdown e output) ≠ Markdown.blocks (renderEvidenceMarkdown e' output) := by
  intro heq
  have hfront := plainLine_front h output
  have hlabels := plainLine_labelLines e
  obtain ⟨rest, l, ls, hrow⟩ := terminated_locationRow hlone
  have hopens : opening (unit '|' :: rest) = none := opening_of_not (fenceLike_bar rest)
  cases hstate : (scan none (l :: ls)).2 with
  | some f =>
    -- the body's opening line is content of the fence that the location opened
    have houtside := hfenced.outside
    rw [flatMap_front, flatMap_terminated hfront, flatMap_terminated hlabels, scan_append,
      scan_plain (fun l hl => (hfront l hl).2), hrow, List.cons_append, scan, hopens] at houtside
    simp only [scan_append, hstate, scan_inside_plain (fun l hl => (hlabels l hl).2)] at houtside
    cases houtside
  | none =>
    -- the lines behind the carriage return are outside every fence, and each is a block more
    rw [blocks_of_row h' hplain output, (hsame.behind output).1, (hsame.behind output).2, Markdown.blocks,
      lines_renderEvidenceMarkdown, flatMap_terminated hfront, List.append_assoc, scan_append,
      scan_plain (fun l hl => (hfront l hl).2), hrow, List.cons_append, scan, hopens] at heq
    simp only [scan_append, hstate, blockOf_bar] at heq
    have hlength := congrArg List.length heq
    have hsome := List.length_pos_iff.2 (scan_cons_ne_nil l ls)
    simp only [List.length_append, List.length_map, List.length_cons] at hlength
    omega

theorem bodyFenced_of_plain {e : Comment} (h : e.SingleLined) (hplain : e.loneReturn = false) (output : Option Str) :
    BodyFenced e output := by
  have hfront := plainLine_front h output
  have hlabels := plainLine_labelLines e
  have hrow := plainLine_locationRow hplain
  refine ⟨?_, by decide, body_stays_inside e.body rfl, by decide⟩
  rw [flatMap_front, flatMap_terminated hfront, flatMap_terminated hlabels, terminated_oneLine hrow.1, scan_plain]
  intro l hl
  rcases List.mem_append.1 hl with hl | hl
  · exact (hfront l hl).2
  rcases List.mem_append.1 hl with hl | hl
  · rw [List.mem_singleton.1 hl]
    exact hrow.2
  · exact (hlabels l hl).2

/-- **A card contains the texts of its comment exactly when no carriage return in the location stands without a line
feed.** -/
theorem card_contains_iff {rt : Runtime} {envelope : Value} {e : Comment}
    (h : validateCommentEnvelope rt envelope = .ok e) (output : Option Str) :
    Contained rt e output ↔ e.loneReturn = false := by
  constructor
  · intro hc
    by_contra hlone
    have hlone : e.loneReturn = true := by simpa using hlone
    obtain ⟨envelope', h'⟩ := accepted_nowhere h
    exact blocks_ne_of_loneReturn (singleLined h) (singleLined h') rfl hlone rfl hc.fenced (hc.blocks envelope' _ h' rfl rfl)
  · intro hplain
    refine ⟨bodyFenced_of_plain (singleLined h) hplain output, ?_, card_escaped e output⟩
    intro envelope' e' h' hsame hplain'
    rw [blocks_of_row (singleLined h) hplain output, blocks_of_row (singleLined h') hplain' output,
      (hsame.behind output).1, (hsame.behind output).2]

/-! A comment on the sentence `s1`, and one whose sentence is a heading behind a carriage return. -/

def sampleRuntime : Runtime := ⟨fun c => decide (48 ≤ c ∧ c ≤ 57), fun _ => true⟩

def sampleEnvelope (sentenceId : Str) : Value :=
  record [("schema", .string commentSchema),
    ("commentId", .string (str "11111111-1111-4111-8111-111111111111")),
    ("participantPseudonym", .string (str "adg-0123456789ab")),
    ("receivedAtUtc", .string (str "2026-01-02T03:04:05Z")), ("packetId", .string (str "packet-1")),
    ("sourceReceiptId", .string (str "22222222-2222-4222-8222-222222222222")), ("targetReceiptId", .null),
    ("targetArtifactSha256", .null), ("parentCommentId", .null), ("category", .string (str "question")),
    ("body", .string (str "Is the second reading meant?")),
    ("location", record [("sentenceId", .string sentenceId), ("tokenId", .null)]), ("mentions", .array []),
    ("resultReferences", .array []),
    ("attestation", record [("authoredAfterIndependentSubmission", .bool true), ("publicTechnicalDiscussion", .bool true)]),
    ("claimBoundaries", .array [.string (str "No claim is made.")])]

/-- The envelope is accepted, and its location holds a lone carriage return or not. -/
def acceptedWith (lone : Bool) (envelope : Value) : Bool :=
  match validateCommentEnvelope sampleRuntime envelope with
  | .ok e => e.loneReturn == lone
  | .error _ => false

theorem exists_accepted (lone : Bool) (envelope : Value) (h : acceptedWith lone envelope = true) :
    ∃ e, validateCommentEnvelope sampleRuntime envelope = .ok e ∧ e.loneReturn = lone := by
  unfold acceptedWith at h
  split at h
  · rename_i e he
    exact ⟨e, he, beq_iff_eq.1 h⟩
  · cases h

theorem card_contains_sample : ∃ e, validateCommentEnvelope sampleRuntime (sampleEnvelope (str "s1")) = .ok e ∧
    Contained sampleRuntime e none := by
  obtain ⟨e, he, hplain⟩ := exists_accepted false (sampleEnvelope (str "s1")) (by decide +kernel)
  exact ⟨e, he, (card_contains_iff he none).2 hplain⟩

/-- **A location may add a heading to the card.** -/
theorem card_not_contained : ¬ ∀ (rt : Runtime) (envelope envelope' : Value) (e e' : Comment) (output : Option Str),
    validateCommentEnvelope rt envelope = .ok e → validateCommentEnvelope rt envelope' = .ok e' → SameElsewhere e e' →
    BodyFenced e output ∧ TextsEscaped e output ∧
      Markdown.blocks (renderEvidenceMarkdown e output) = Markdown.blocks (renderEvidenceMarkdown e' output) := by
  intro hall
  obtain ⟨e, he, hlone⟩ := exists_accepted true
    (sampleEnvelope (str "s1" ++ carriageReturn :: str "# approved")) (by decide +kernel)
  obtain ⟨envelope', h'⟩ := accepted_nowhere he
  obtain ⟨hfenced, -, hblocks⟩ := hall _ _ _ _ _ none he h' rfl
  exact blocks_ne_of_loneReturn (singleLined he) (singleLined h') rfl hlone rfl hfenced hblocks

end Cards
end Adg
