import AdgLang.StatementTokens
/-!
# OneSurface — technical and canonical Arabic words in one statement

A technical pattern leaves its labels to `ParseCase` and `ParseRole`, which know the Arabic labels too, in any i'rab; the
canonical check of an Arabic statement has nothing to compare the label `none` with.  An accepted statement keeps to one
surface exactly when neither gap is used (`oneSurface_iff`).
-/
namespace Adg
namespace SurfaceParser

open FunctionSyntax

def bareTexts (tokens : List FunctionToken) : List Text :=
  (tokens.filter (fun token => !token.isQuoted)).map FunctionToken.text

/-- The unquoted words of a line. -/
def bareWords (line : Text) : List Text :=
  match tokenize line with
  | .ok tokens => bareTexts tokens
  | .error _ => []

/-- A Latin word that the surface lists among its technical keywords. -/
def IsTechnical (w : Text) : Prop := normalize w ∈ technicalKeywords ∧ hasArabicLetter w = false

/-- All unquoted words are canonical Arabic keywords, or all are technical ones. -/
def OneSurface (line : Text) : Prop :=
  (∀ w ∈ bareWords line, w ∈ canonicalArabicKeywords) ∨ ∀ w ∈ bareWords line, IsTechnical w

/-- Whether the line starts with an Arabic word. -/
def startsArabic (line : Text) : Bool := (bareWords line).head?.any hasArabicLetter

/-- No label of an Arabic statement normalises to `none`, and none of a technical one holds an Arabic letter. -/
def LabelsKept (line : Text) : Prop :=
  if startsArabic line then ∀ w ∈ bareWords line, normalize w ≠ "none".toList
  else ∀ w ∈ bareWords line, hasArabicLetter w = false

/-! ## Words that a statement accepts -/

/-- What the parser has checked of an unquoted word. -/
def Bare (matchedArabic : Bool) (w : Text) : Prop :=
  if matchedArabic then hasArabicLetter w = true ∧ (normalize w ≠ "none".toList → w ∈ canonicalArabicKeywords)
  else hasArabicLetter w = false → normalize w ∈ technicalKeywords

theorem toNat_toLower (c : Char) : c.toLower.toNat = c.toNat ∨ c.toLower.toNat ≤ 122 := by
  unfold Char.toLower
  split
  · rename_i h
    have hle : c.val.toNat ≤ 90 := UInt32.le_iff_toNat_le.1 h.2
    right
    show (c.val + ('a'.val - 'A'.val)).toNat ≤ 122
    rw [UInt32.toNat_add]
    have hshift : ('a'.val - 'A'.val).toNat = 32 := rfl
    omega
  · exact .inl rfl

/-- Normalising makes no letter Arabic. -/
theorem hasArabicLetter_of_normalize {w : Text} (h : hasArabicLetter (normalize w) = true) :
    hasArabicLetter w = true := by
  unfold hasArabicLetter at h ⊢
  rw [List.any_eq_true] at h ⊢
  obtain ⟨c, hc, harabic⟩ := h
  obtain ⟨d, hd, rfl⟩ := List.mem_map.1 (List.mem_filter.1 hc).1
  refine ⟨d, mem_of_mem_trim hd, ?_⟩
  have hlower := toNat_toLower d
  by_cases hk : d = '\u212A'
  · rw [if_pos hk] at harabic
    cases harabic
  · rw [if_neg hk] at harabic
    simp only [Bool.or_eq_true, Bool.and_eq_true, decide_eq_true_eq] at harabic ⊢
    omega

theorem bare_technical {w : Text} (h : normalize w ∈ technicalKeywords) : Bare false w := fun _ => h

theorem bare_canonical {w : Text} (h : w ∈ canonicalArabicKeywords) : Bare true w :=
  have harabic : ∀ k ∈ canonicalArabicKeywords, hasArabicLetter k = true := by decide
  ⟨harabic w h, fun _ => h⟩

/-- A label of either surface that holds no Arabic letter is a technical keyword. -/
theorem technical_of_key {keys : List Text} (hkeys : ∀ k ∈ keys, hasArabicLetter k = true ∨ k ∈ technicalKeywords)
    {w : Text} (h : normalize w ∈ keys) : Bare false w := fun hlatin => by
  rcases hkeys _ h with harabic | htechnical
  · rw [hasArabicLetter_of_normalize harabic] at hlatin
    cases hlatin
  · exact htechnical

theorem mem_of_canonicalCaseLabel {marker : AdgCase} {canonical : Text} (h : canonicalCaseLabel marker = some canonical) :
    canonical ∈ canonicalArabicKeywords := by
  cases marker <;> cases h <;> decide

theorem mem_of_canonicalRoleLabel {role : HarfRole} {canonical : Text} (h : canonicalRoleLabel role = some canonical) :
    canonical ∈ canonicalArabicKeywords := by
  cases role <;> cases h <;> decide

/-- The only case read from a label that has no canonical spelling is that of `none`. -/
theorem normalize_of_canonicalCaseLabel {label : Text} {marker : AdgCase} (h : parseCase label = .ok marker)
    (hnone : canonicalCaseLabel marker = none) : normalize label = "none".toList := by
  simp only [parseCase, throwParse] at h
  split at h
  · cases h; cases hnone
  split at h
  · cases h; cases hnone
  split at h
  · cases h; cases hnone
  split at h
  · cases h; cases hnone
  split at h
  · assumption
  · cases h

theorem bare_caseLabel {matchedArabic : Bool} {label : Text} {marker : AdgCase}
    (h : CaseLabel matchedArabic label marker) : Bare matchedArabic label := by
  obtain ⟨hcase, hensure⟩ := h
  cases matchedArabic with
  | false => exact technical_of_key (by decide) (mem_caseKeys hcase)
  | true =>
    have hensure := hensure rfl
    simp only [ensureCanonicalArabicCaseLabel, hcase, bind_eq_ok, throwIf_eq_ok, Bool.not_eq_true',
      Bool.not_eq_false] at hensure
    obtain ⟨_, harabic, marker', hmarker, hcanonical⟩ := hensure
    cases hmarker
    refine ⟨harabic, fun hnone => ?_⟩
    cases hlabel : canonicalCaseLabel marker with
    | none => exact absurd (normalize_of_canonicalCaseLabel hcase hlabel) hnone
    | some canonical =>
      rw [hlabel] at hcanonical
      rw [not_not.1 (throwIf_eq_ok.1 hcanonical)]
      exact mem_of_canonicalCaseLabel hlabel

theorem bare_roleLabel {matchedArabic : Bool} {label : Text} {role : HarfRole}
    (h : RoleLabel matchedArabic label role) : Bare matchedArabic label := by
  obtain ⟨hrole, hensure⟩ := h
  cases matchedArabic with
  | false => exact technical_of_key (by decide) (mem_roleKeys hrole)
  | true =>
    have hensure := hensure rfl
    simp only [ensureCanonicalArabicRoleLabel, bind_eq_ok, throwIf_eq_ok, Bool.not_eq_true',
      Bool.not_eq_false] at hensure
    obtain ⟨_, harabic, hcanonical⟩ := hensure
    refine ⟨harabic, fun _ => ?_⟩
    obtain ⟨canonical, hlabel⟩ := Option.isSome_iff_exists.1 (canonicalRoleLabel_isSome hrole)
    rw [hlabel] at hcanonical
    rw [not_not.1 (throwIf_eq_ok.1 hcanonical)]
    exact mem_of_canonicalRoleLabel hlabel

/-- What an item has to say about its unquoted word. -/
def Item.SaysBare (P : Text → Prop) (cs : Regex.Captures Group) : Item → Prop
  | .keyword t => P t
  | .quoted _ => True
  | .label g => P (cs.value g)

theorem forall_bareTexts_items {P : Text → Prop} {cs : Regex.Captures Group} {is : List Item}
    (h : ∀ i ∈ is, i.SaysBare P cs) : ∀ w ∈ bareTexts (is.map (Item.token cs)), P w := by
  intro w hw
  simp only [bareTexts, List.mem_map, List.mem_filter] at hw
  obtain ⟨token, ⟨⟨i, hi, rfl⟩, hbare⟩, rfl⟩ := hw
  cases i with
  | keyword t => exact h _ hi
  | quoted g => cases hbare
  | label g => exact h _ hi

theorem bareTexts_append (ts us : List FunctionToken) : bareTexts (ts ++ us) = bareTexts ts ++ bareTexts us := by
  unfold bareTexts
  rw [List.filter_append, List.map_append]

/-- **The unquoted words of an accepted statement** start with a keyword of its surface, and each of them is one or was
checked as a label. -/
theorem bare_of_reads {matchedArabic : Bool} {tokens : List FunctionToken} {st : Statement}
    (h : Reads matchedArabic tokens st) : (∃ w ws, bareTexts tokens = w :: ws ∧ hasArabicLetter w = matchedArabic) ∧
      ∀ w ∈ bareTexts tokens, Bare matchedArabic w := by
  cases h with
  | agent ha hfail =>
    subst ha
    refine ⟨⟨_, _, rfl, rfl⟩, forall_bareTexts_items ?_⟩
    simp only [verbalItems, List.forall_mem_cons]
    exact ⟨bare_technical (by decide), trivial, bare_technical (by decide), trivial, bare_caseLabel hfail, List.forall_mem_nil _⟩
  | patient hfail hmaful =>
    cases matchedArabic with
    | false =>
      refine ⟨⟨_, _, rfl, rfl⟩, forall_bareTexts_items ?_⟩
      simp only [Bool.false_eq_true, if_false, verbalItems, mafulItems, List.cons_append, List.nil_append,
        List.forall_mem_cons]
      exact ⟨bare_technical (by decide), trivial, bare_technical (by decide), trivial, bare_caseLabel hfail,
        bare_technical (by decide), trivial, bare_caseLabel hmaful, List.forall_mem_nil _⟩
    | true =>
      refine ⟨⟨_, _, rfl, rfl⟩, forall_bareTexts_items ?_⟩
      simp only [if_true, arabicVerbalItems, List.forall_mem_cons]
      exact ⟨bare_canonical (by decide), bare_canonical (by decide), trivial, bare_canonical (by decide), trivial,
        bare_caseLabel hfail, bare_canonical (by decide), trivial, bare_caseLabel hmaful, List.forall_mem_nil _⟩
  | adjunct hmudaf hilayh =>
    cases matchedArabic with
    | false =>
      refine ⟨⟨_, _, rfl, rfl⟩, forall_bareTexts_items ?_⟩
      simp only [adjunctItems, Bool.false_eq_true, if_false, List.cons_append, List.nil_append, List.forall_mem_cons]
      exact ⟨bare_technical (by decide), bare_technical (by decide), trivial, bare_technical (by decide), trivial,
        bare_caseLabel hmudaf, trivial, bare_caseLabel hilayh, List.forall_mem_nil _⟩
    | true =>
      refine ⟨⟨_, _, rfl, rfl⟩, forall_bareTexts_items ?_⟩
      simp only [adjunctItems, if_true, List.cons_append, List.nil_append, List.forall_mem_cons]
      exact ⟨bare_canonical (by decide), bare_canonical (by decide), trivial, bare_canonical (by decide), trivial,
        bare_caseLabel hmudaf, trivial, bare_caseLabel hilayh, List.forall_mem_nil _⟩
  | connector hrole =>
    cases matchedArabic with
    | false =>
      refine ⟨⟨_, _, rfl, rfl⟩, forall_bareTexts_items ?_⟩
      simp only [connectorItems, List.forall_mem_cons]
      exact ⟨bare_technical (by decide), trivial, bare_roleLabel hrole, List.forall_mem_nil _⟩
    | true =>
      refine ⟨⟨_, _, rfl, rfl⟩, forall_bareTexts_items ?_⟩
      simp only [connectorItems, List.forall_mem_cons]
      exact ⟨bare_canonical (by decide), trivial, bare_roleLabel hrole, List.forall_mem_nil _⟩
  | clause hparts =>
    rename_i cs parts
    have hpart : ∀ p ∈ parts, ∀ w ∈ bareTexts ((clauseIsmItems matchedArabic).map (Item.token p.1)),
        Bare matchedArabic w := by
      intro p hp
      refine forall_bareTexts_items ?_
      simp only [clauseIsmItems, List.forall_mem_cons]
      refine ⟨?_, trivial, bare_caseLabel (hparts p hp), List.forall_mem_nil _⟩
      cases matchedArabic
      · exact bare_technical (by decide)
      · exact bare_canonical (by decide)
    have hall : ∀ w ∈ bareTexts (parts.flatMap (fun p => (clauseIsmItems matchedArabic).map (Item.token p.1))),
        Bare matchedArabic w := by
      intro w hw
      simp only [bareTexts, List.mem_map, List.mem_filter, List.mem_flatMap] at hw
      obtain ⟨token, ⟨⟨p, hp, htoken⟩, hbare⟩, rfl⟩ := hw
      exact hpart p hp _ (List.mem_map.2 ⟨token, List.mem_filter.2 ⟨List.mem_map.2 htoken, hbare⟩, rfl⟩)
    have hverb : ∀ w ∈ bareTexts ((clauseItems matchedArabic).map (Item.token cs)), Bare matchedArabic w := by
      refine forall_bareTexts_items ?_
      cases matchedArabic <;> simp only [clauseItems, Bool.false_eq_true, if_true, if_false, List.cons_append,
        List.nil_append, List.forall_mem_cons]
      · exact ⟨bare_technical (by decide), bare_technical (by decide), trivial, List.forall_mem_nil _⟩
      · exact ⟨bare_canonical (by decide), bare_canonical (by decide), trivial, List.forall_mem_nil _⟩
    rw [bareTexts_append]
    refine ⟨?_, fun w hw => (List.mem_append.1 hw).elim (hverb w) (hall w)⟩
    cases matchedArabic
    · exact ⟨_, _, rfl, rfl⟩
    · exact ⟨_, _, rfl, rfl⟩

/-- A canonical keyword is Arabic and is not the label `none`. -/
theorem canonical_spec {w : Text} (h : w ∈ canonicalArabicKeywords) :
    hasArabicLetter w = true ∧ normalize w ≠ "none".toList := by
  have hall : ∀ k ∈ canonicalArabicKeywords, hasArabicLetter k = true ∧ normalize k ≠ "none".toList := by decide
  exact hall w h

/-- **An accepted statement keeps to one surface exactly when its labels do**: no label of a technical statement holds an
Arabic letter or mark, and no label of an Arabic one normalises to `none`. -/
theorem oneSurface_iff {line : Text} {st : Statement} (h : parseStatement line = .ok st) :
    OneSurface line ↔ LabelsKept line := by
  obtain ⟨matchedArabic, tokens, htokens, hreads⟩ := reads_statement h
  obtain ⟨⟨w, ws, hwords, hw⟩, hbare⟩ := bare_of_reads hreads
  have hline : bareWords line = bareTexts tokens := by
    unfold bareWords
    rw [htokens]
  have hstart : startsArabic line = matchedArabic := by
    rw [startsArabic, hline, hwords]; exact hw
  have hmem : w ∈ bareTexts tokens := by rw [hwords]; exact List.mem_cons_self
  unfold OneSurface LabelsKept
  rw [hstart, hline]
  cases matchedArabic with
  | false =>
    rw [if_neg Bool.false_ne_true]
    constructor
    · rintro (hcanonical | htechnical)
      · rw [(canonical_spec (hcanonical w hmem)).1] at hw
        cases hw
      · exact fun v hv => (htechnical v hv).2
    · exact fun hlatin => .inr (fun v hv => ⟨hbare v hv (hlatin v hv), hlatin v hv⟩)
  | true =>
    rw [if_pos rfl]
    constructor
    · rintro (hcanonical | htechnical)
      · exact fun v hv => (canonical_spec (hcanonical v hv)).2
      · rw [(htechnical w hmem).2] at hw
        cases hw
    · exact fun hnone => .inl (fun v hv => (hbare v hv).2 (hnone v hv))

theorem oneSurface_iff_canonicalLine :
    OneSurface "رابطٌ \"ثم\" ترتيبٌ".toList ↔ LabelsKept "رابطٌ \"ثم\" ترتيبٌ".toList :=
  oneSurface_iff (eq_ok_valueOf (by decide : (parseStatement "رابطٌ \"ثم\" ترتيبٌ".toList).isOk = true))

/-- A technical connector with an Arabic role, not in its canonical i'rab. -/
def mixedLine : Text := "connector \"ثم\" ترتيب".toList

/-- **A technical statement may take an Arabic label.** -/
theorem not_oneSurface : ¬ ∀ line st, parseStatement line = .ok st → OneSurface line := by
  intro h
  have hok : (parseStatement mixedLine).isOk = true := by decide
  have hwords : bareWords mixedLine = ["connector".toList, "ترتيب".toList] := by decide
  rcases h mixedLine _ (eq_ok_valueOf hok) with hcanonical | htechnical
  · have := hcanonical "connector".toList (by rw [hwords]; decide)
    revert this; decide
  · have := (htechnical "ترتيب".toList (by rw [hwords]; decide)).2
    revert this; decide

end SurfaceParser
end Adg
