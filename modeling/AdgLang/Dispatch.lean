import AdgLang.FunctionTypeChecker
import AdgLang.StatementTokens
/-!
# Dispatch — which pipeline a source file goes to

`FunctionProgramDetector` reads the first token of every line with a tokenizer of its own, blind to vowel marks, before
either parser runs.  It finds a function statement in every program that the function pipeline accepts, and none in a
file that the surface parser accepts (`dispatch`).
-/
namespace Adg
namespace FunctionProgramDetector

open FunctionSyntax

def readFirstToken (line : Text) : Text := line.takeWhile (fun c => !isWhiteSpace c && c != '"')

/-- Whether a line's first token is one of the keywords that only function programs have, whatever its vowel marks. -/
def isFunctionStatement (line : Text) : Bool :=
  let normalized := stripTashkeel (readFirstToken line)
  decide (normalized = stripTashkeel definitionKeyword) || decide (normalized = stripTashkeel callKeyword)

def containsFunctionStatement (lines : List Text) : Bool :=
  lines.any (fun rawLine =>
    let line := trim (stripComment rawLine)
    decide (line ≠ []) && isFunctionStatement line)

/-! ## The first token -/

theorem tokenize_bare_head : ∀ (s text : Text) {token : FunctionToken} {tokens : List FunctionToken},
    tokenizeFrom s (.bare text) = .ok (token :: tokens) → token = ⟨text ++ readFirstToken s, false⟩
  | [], text, _, _, h => by
    cases h
    rw [readFirstToken, List.takeWhile_nil, List.append_nil]
  | c :: s, text, token, tokens, h => by
    rw [tokenizeFrom] at h
    rw [readFirstToken, List.takeWhile_cons]
    split at h
    · rename_i hc
      obtain ⟨_, -, heq⟩ := map_eq_ok.1 h
      cases heq
      simp [hc]
    · rename_i hc
      split at h
      · rename_i hquote
        obtain ⟨_, -, heq⟩ := map_eq_ok.1 h
        cases heq
        simp [hquote]
      · rename_i hquote
        rw [tokenize_bare_head s _ h, readFirstToken, if_pos (by simp [hc, hquote]), List.append_assoc]
        rfl

theorem tokenize_quoted_head : ∀ (s text : Text) {token : FunctionToken} {tokens : List FunctionToken},
    tokenizeFrom s (.quoted text) = .ok (token :: tokens) → token.isQuoted = true
  | [], _, _, _, h => by cases h
  | c :: s, text, token, tokens, h => by
    rw [tokenizeFrom] at h
    split at h
    · obtain ⟨_, -, heq⟩ := map_eq_ok.1 h
      cases heq; rfl
    · exact tokenize_quoted_head s _ h

/-- A trimmed line starts with no white space. -/
theorem trim_head {t s : Text} {c : Char} (h : trim t = c :: s) : isWhiteSpace c = false := by
  have hprefix : trim t <+: trimStart t := by
    rw [trim, trimEnd, ← List.reverse_suffix, List.reverse_reverse]
    exact List.dropWhile_suffix _
  obtain ⟨u, hu⟩ := hprefix
  rw [h] at hu
  have hstart : (t.dropWhile isWhiteSpace) = c :: (s ++ u) := hu.symm
  have := List.head?_dropWhile_not isWhiteSpace t
  rw [hstart] at this
  simpa using this

/-- **The detector's first token is the tokenizer's**, where that is bare. -/
theorem readFirstToken_of_tokenize {t : Text} {token : FunctionToken} {tokens : List FunctionToken}
    (h : tokenize (trim t) = .ok (token :: tokens)) (hbare : token.isQuoted = false) :
    readFirstToken (trim t) = token.text := by
  cases hline : trim t with
  | nil => rw [hline] at h; cases h
  | cons c s =>
    have hc := trim_head hline
    rw [hline, tokenize, tokenizeFrom, if_neg (by rw [hc]; exact Bool.false_ne_true)] at h
    split at h
    · rw [tokenize_quoted_head s [] h] at hbare
      cases hbare
    · rename_i hquote
      rw [tokenize_bare_head s [c] h, readFirstToken, List.takeWhile_cons, if_pos (by simp [hc, hquote])]
      rfl

/-! ## Function programs -/

theorem mem_of_firstKeyword {α : Type} {token : Text} {a : α} : ∀ {keywords : List (Text × α)},
    FunctionParser.firstKeyword token keywords = .ok (some a) → (token, a) ∈ keywords
  | [], h => by cases h
  | (canonical, b) :: keywords, h => by
    simp only [FunctionParser.firstKeyword, bind_eq_ok] at h
    obtain ⟨found, hfound, h⟩ := h
    cases found with
    | true =>
      cases h
      rw [token_of_isKeyword hfound]
      exact List.mem_cons_self
    | false => exact List.mem_cons_of_mem _ (mem_of_firstKeyword h)
where
  token_of_isKeyword {token canonical : Text} (h : isKeyword token canonical = .ok true) : token = canonical := by
    unfold isKeyword at h
    split at h
    · assumption
    split at h
    · cases h
    · cases h

/-- A statement that is no call leaves the calls as they are. -/
theorem calls_statement {state state' : FunctionParser.ParserState} {rawLine : Text} {tokens : List FunctionToken}
    (htokens : tokenize (trim rawLine) = .ok tokens) (hno : isFunctionStatement (trim rawLine) = false)
    (h : state.statement tokens (trim rawLine) = .ok state') : state'.calls = state.calls := by
  cases tokens with
  | nil => cases h; rfl
  | cons head tokens =>
    simp only [FunctionParser.ParserState.statement, bind_eq_ok, throwIf_eq_ok, Bool.not_eq_true] at h
    obtain ⟨_, hbare, keyword, hkeyword, h⟩ := h
    have hfirst := readFirstToken_of_tokenize htokens hbare
    cases keyword with
    | none => cases h
    | some keyword =>
      have hmem := mem_of_firstKeyword hkeyword
      cases keyword with
      | definition =>
        simp only [bind_eq_ok, pure_eq_ok] at h
        obtain ⟨_, -, rfl⟩ := h
        show state.flush.calls = state.calls
        unfold FunctionParser.ParserState.flush
        split <;> rfl
      | call =>
        have hcall : head.text = callKeyword := by
          simp only [FunctionParser.heads, List.mem_cons, Prod.mk.injEq, reduceCtorEq, and_false, and_true, false_or,
            List.not_mem_nil, or_false] at hmem
          exact hmem
        rw [isFunctionStatement, hfirst, hcall, decide_eq_true rfl, Bool.or_true] at hno
        cases hno
      | body =>
        simp only [bind_eq_ok, pure_eq_ok] at h
        obtain ⟨_, -, _, -, _, -, rfl⟩ := h
        rfl
      | condition =>
        simp only [bind_eq_ok, pure_eq_ok] at h
        obtain ⟨_, -, _, -, rfl⟩ := h
        rfl
      | output =>
        simp only [bind_eq_ok, pure_eq_ok] at h
        obtain ⟨_, -, _, -, rfl⟩ := h
        rfl

/-- **Lines without a function statement call nothing.** -/
theorem calls_parseFrom : ∀ (lines : List Text) (validated : Bool) (state : FunctionParser.ParserState)
    {result : Bool × FunctionParser.ParserState}, containsFunctionStatement lines = false →
    FunctionParser.parseFrom lines validated state = .ok result → result.2.calls = state.calls
  | [], _, _, _, _, h => by cases h; rfl
  | rawLine :: lines, validated, state, result, hno, h => by
    obtain ⟨hline, hlines⟩ : _ ∧ containsFunctionStatement lines = false := Bool.or_eq_false_iff.1 hno
    simp only [FunctionParser.parseFrom] at h
    split at h
    · exact calls_parseFrom lines _ _ hlines h
    rename_i hne
    split at h
    · simp only [bind_eq_ok] at h
      obtain ⟨_, -, h⟩ := h
      exact calls_parseFrom lines _ _ hlines h
    split at h
    · exact calls_parseFrom lines _ _ hlines h
    · simp only [bind_eq_ok] at h
      obtain ⟨tokens, htokens, state₁, hstate, h⟩ := h
      have hnoLine : isFunctionStatement (trim (stripComment rawLine)) = false := by
        simpa [hne] using hline
      rw [calls_parseFrom lines _ _ hlines h, calls_statement htokens hnoLine hstate]

theorem contains_of_parseLines {lines : List Text} {program : AdgFunctionProgram}
    (h : FunctionParser.parseLines lines = .ok program) (hcheck : FunctionTypeChecker.check program = .ok ()) :
    containsFunctionStatement lines = true := by
  by_contra hno
  simp only [FunctionParser.parseLines, bind_eq_ok] at h
  obtain ⟨⟨validated, state⟩, hlines, h⟩ := h
  have hcalls : state.calls = [] := calls_parseFrom lines false _ (Bool.eq_false_iff.2 hno) hlines
  split at h
  · cases h
  rw [pure_eq_ok] at h
  subst h
  simp only [FunctionTypeChecker.check, bind_eq_ok, throwIf_eq_ok] at hcheck
  obtain ⟨_, hempty, -⟩ := hcheck
  refine hempty (.inr ?_)
  show state.flush.calls.length = 0
  unfold FunctionParser.ParserState.flush
  split <;> simp [hcalls]

/-! ## Surface files

Both function keywords hold a `د`, and neither an `a` nor a `p`; the direction header holds no `د`, and program lines
start with one of the two Latin letters. -/

theorem dal_mem_of_isFunctionStatement {line : Text} (h : isFunctionStatement line = true) :
    'د' ∈ readFirstToken line := by
  have hkeys : 'د' ∈ stripTashkeel definitionKeyword ∧ 'د' ∈ stripTashkeel callKeyword := by decide
  have hmem : 'د' ∈ stripTashkeel (readFirstToken line) := by
    rcases Bool.or_eq_true_iff.1 h with hd | hc
    · rw [of_decide_eq_true hd]; exact hkeys.1
    · rw [of_decide_eq_true hc]; exact hkeys.2
  exact mem_of_mem_trim (List.mem_filter.1 hmem).1

theorem mem_splitOn {c d : Char} (hne : d ≠ c) : ∀ {t : Text}, d ∈ t → ∃ part ∈ splitOn c t, d ∈ part
  | x :: xs, h => by
    rw [splitOn]
    split
    · rename_i hx
      rcases List.mem_cons.1 h with rfl | h
      · exact absurd hx hne
      · obtain ⟨part, hpart, hd⟩ := mem_splitOn hne h
        exact ⟨part, List.mem_cons_of_mem _ hpart, hd⟩
    · split
      · rename_i hnil
        rcases List.mem_cons.1 h with rfl | h
        · exact ⟨[d], List.mem_singleton_self _, List.mem_singleton_self _⟩
        · obtain ⟨part, hpart, -⟩ := mem_splitOn hne h
          rw [hnil] at hpart; cases hpart
      · rename_i y ys hsplit
        rcases List.mem_cons.1 h with rfl | h
        · exact ⟨d :: y, List.mem_cons_self, List.mem_cons_self⟩
        · obtain ⟨part, hpart, hd⟩ := mem_splitOn hne h
          rw [hsplit] at hpart
          rcases List.mem_cons.1 hpart with rfl | hpart
          · exact ⟨x :: part, List.mem_cons_self, List.mem_cons_of_mem _ hd⟩
          · exact ⟨part, List.mem_cons_of_mem _ hpart, hd⟩

theorem splitOn_of_not_mem {c : Char} : ∀ {t : Text}, c ∉ t → splitOn c t = [t]
  | [], _ => rfl
  | x :: xs, h => by
    have hx : x ≠ c := fun hx => h (hx ▸ List.mem_cons_self)
    rw [splitOn, if_neg hx, splitOn_of_not_mem (fun hc => h (List.mem_cons_of_mem _ hc))]

/-- A label keeps its letters. -/
theorem mem_normalizeLabel {value : Text} {c : Char} (hc : c ∈ value) (hspace : isWhiteSpace c = false)
    (htashkeel : isTashkeel c = false) : c ∈ TextDirectionHeader.normalizeLabel value := by
  have hstrip : c ∈ stripTashkeel value := List.mem_filter.2 ⟨mem_trim hc hspace, by rw [htashkeel]; rfl⟩
  have hne : c ≠ ' ' := fun he => by rw [he] at hspace; revert hspace; decide
  have hmap : c ∈ (stripTashkeel value).map (fun c => if isWhiteSpace c then ' ' else c) :=
    List.mem_map.2 ⟨c, hstrip, by rw [hspace]; rfl⟩
  obtain ⟨part, hpart, hcp⟩ := mem_splitOn hne hmap
  have htrim := mem_trim hcp hspace
  have hkept : trim part ∈ splitWhiteSpace (stripTashkeel value) :=
    List.mem_filter.2 ⟨List.mem_map.2 ⟨part, hpart, rfl⟩, decide_eq_true (List.ne_nil_of_mem htrim)⟩
  exact mem_join hkept htrim

/-- A label of one word is normalised to one word. -/
theorem not_space_mem_normalizeLabel {value : Text} (h : ∀ c ∈ value, isWhiteSpace c = false) :
    ' ' ∉ TextDirectionHeader.normalizeLabel value := by
  have hno : ' ' ∉ (stripTashkeel value).map (fun c => if isWhiteSpace c then ' ' else c) := by
    intro hmem
    obtain ⟨c, hc, hspace⟩ := List.mem_map.1 hmem
    have hcw := h c (mem_of_mem_trim (List.mem_filter.1 hc).1)
    rw [hcw, if_neg Bool.false_ne_true] at hspace
    rw [hspace] at hcw
    revert hcw; decide
  unfold TextDirectionHeader.normalizeLabel splitWhiteSpace splitSpace
  rw [splitOn_of_not_mem hno, List.map_singleton, List.filter_singleton]
  cases decide (trim _ ≠ [])
  · exact List.not_mem_nil
  · exact fun hmem => hno (mem_of_mem_trim hmem)

/-- **The direction header is no function statement.** -/
theorem header_not_functionStatement {line : Text} {u : Unit} (h : TextDirectionHeader.validate line = .ok u) :
    isFunctionStatement line = false := by
  rw [Bool.eq_false_iff]
  intro hstatement
  have hdal := dal_mem_of_isFunctionStatement hstatement
  obtain ⟨label, hprefix, hlabel⟩ : ∃ label, label <+: line ∧
      TextDirectionHeader.normalizeLabel label = TextDirectionHeader.canonicalLabel := by
    unfold TextDirectionHeader.validate TextDirectionHeader.tryParseDirection at h
    split at h
    · cases h
    · rename_i direction hdirection
      split at hdirection
      · split at hdirection
        · exact ⟨_, List.takeWhile_prefix _, ‹_›⟩
        · cases hdirection
      · cases hdirection
  have hcanonical : ' ' ∈ TextDirectionHeader.canonicalLabel ∧ 'د' ∉ TextDirectionHeader.canonicalLabel := by decide
  -- the label has white space, where the first token has ended
  have htoken : readFirstToken line <+: label := by
    rcases List.prefix_or_prefix_of_prefix (List.takeWhile_prefix _) hprefix with htoken | htoken
    · exact htoken
    · refine absurd hcanonical.1 ?_
      rw [← hlabel]
      refine not_space_mem_normalizeLabel (fun c hc => ?_)
      have := List.mem_takeWhile_imp (htoken.subset hc)
      simp only [Bool.and_eq_true, Bool.not_eq_true'] at this
      exact this.1
  refine hcanonical.2 ?_
  rw [← hlabel]
  exact mem_normalizeLabel (htoken.subset hdal) (by decide) (by decide)

theorem toNat_of_toLower {c : Char} (h : 97 ≤ c.toLower.toNat ∧ c.toLower.toNat ≤ 122) :
    65 ≤ c.toNat ∧ c.toNat ≤ 122 := by
  unfold Char.toLower at h
  split at h
  · rename_i hupper
    have hlo : 65 ≤ c.val.toNat := UInt32.le_iff_toNat_le.1 hupper.1
    have hhi : c.val.toNat ≤ 90 := UInt32.le_iff_toNat_le.1 hupper.2
    exact ⟨hlo, Nat.le_trans hhi (by decide)⟩
  · exact ⟨Nat.le_trans (by decide) h.1, h.2⟩

/-- A line whose first letter is one that the keywords lack. -/
theorem not_functionStatement_of_letter {c : Char} {s : Text} (h : 97 ≤ c.toLower.toNat ∧ c.toLower.toNat ≤ 122) :
    isFunctionStatement (c :: s) = false := by
  obtain ⟨hlo, hhi⟩ := toNat_of_toLower h
  have hspace : isWhiteSpace c = false := by
    unfold isWhiteSpace
    simp only [Bool.or_eq_false_iff, Bool.and_eq_false_iff, decide_eq_false_iff_not, beq_eq_false_iff_ne]
    omega
  have htashkeel : isTashkeel c = false := by
    unfold isTashkeel
    simp only [Bool.or_eq_false_iff, Bool.and_eq_false_iff, decide_eq_false_iff_not, beq_eq_false_iff_ne]
    omega
  have hquote : c ≠ '"' := fun he => by rw [he] at hlo; revert hlo; decide
  have hfirst : c ∈ readFirstToken (c :: s) := by
    rw [readFirstToken, List.takeWhile_cons, if_pos (by simp [hspace, hquote])]
    exact List.mem_cons_self
  have hmem : c ∈ stripTashkeel (readFirstToken (c :: s)) :=
    List.mem_filter.2 ⟨mem_trim hfirst hspace, by rw [htashkeel]; rfl⟩
  have hkeys : (∀ d ∈ stripTashkeel definitionKeyword, 122 < d.toNat) ∧
      ∀ d ∈ stripTashkeel callKeyword, 122 < d.toNat := by decide
  rw [Bool.eq_false_iff]
  intro hstatement
  rcases Bool.or_eq_true_iff.1 hstatement with hd | hc
  · rw [of_decide_eq_true hd] at hmem
    exact absurd (hkeys.1 c hmem) (by omega)
  · rw [of_decide_eq_true hc] at hmem
    exact absurd (hkeys.2 c hmem) (by omega)

/-- A program line is no function statement. -/
theorem programLine_not_functionStatement {line : Text} (h : SurfaceParser.isProgramLine line = true) :
    isFunctionStatement line = false := by
  cases line with
  | nil => rfl
  | cons c s =>
    refine not_functionStatement_of_letter ?_
    rcases Bool.or_eq_true_iff.1 h with ha | hp
    · have hc : c.toLower = 'a' := (List.cons.inj (of_decide_eq_true ha)).1
      rw [hc]; decide
    · have hc : c.toLower = 'p' := (List.cons.inj (of_decide_eq_true hp)).1
      rw [hc]; decide

def statementKeywords : List Text :=
  ["verbal".toList, "جملةٌ".toList, "adjunct".toList, "جارٌّ".toList, "connector".toList, "رابطٌ".toList,
    "clause".toList]

theorem reads_head {matchedArabic : Bool} {tokens : List FunctionToken} {st : SurfaceParser.Statement}
    (h : SurfaceParser.Reads matchedArabic tokens st) :
    ∃ keyword ∈ statementKeywords, ∃ rest, tokens = ⟨keyword, false⟩ :: rest := by
  cases h with
  | agent ha hfail => exact ⟨"verbal".toList, by decide, _, rfl⟩
  | patient hfail hmaful =>
    cases matchedArabic
    · exact ⟨"verbal".toList, by decide, _, rfl⟩
    · exact ⟨"جملةٌ".toList, by decide, _, rfl⟩
  | adjunct hmudaf hilayh =>
    cases matchedArabic
    · exact ⟨"adjunct".toList, by decide, _, rfl⟩
    · exact ⟨"جارٌّ".toList, by decide, _, rfl⟩
  | connector hrole =>
    cases matchedArabic
    · exact ⟨"connector".toList, by decide, _, rfl⟩
    · exact ⟨"رابطٌ".toList, by decide, _, rfl⟩
  | clause hparts =>
    cases matchedArabic
    · exact ⟨"clause".toList, by decide, _, rfl⟩
    · exact ⟨"جملةٌ".toList, by decide, _, rfl⟩

/-- A statement of the surface is no function statement. -/
theorem statement_not_functionStatement {t : Text} {st : SurfaceParser.Statement}
    (h : SurfaceParser.parseStatement (trim t) = .ok st) : isFunctionStatement (trim t) = false := by
  obtain ⟨_, tokens, htokens, hreads⟩ := SurfaceParser.reads_statement h
  obtain ⟨keyword, hkeyword, rest, rfl⟩ := reads_head hreads
  have hall : ∀ k ∈ statementKeywords, stripTashkeel k ≠ stripTashkeel definitionKeyword ∧
      stripTashkeel k ≠ stripTashkeel callKeyword := by decide
  rw [isFunctionStatement, readFirstToken_of_tokenize htokens rfl, decide_eq_false (hall keyword hkeyword).1,
    decide_eq_false (hall keyword hkeyword).2]
  rfl

theorem not_contains_of_parseLines : ∀ (lines : List Text) (validated : Bool) (items : List Node)
    {result : Bool × List Node}, SurfaceParser.parseLines lines validated items = .ok result →
      containsFunctionStatement lines = false
  | [], _, _, _, _ => rfl
  | rawLine :: lines, validated, items, result, h => by
    have hcons : isFunctionStatement (trim (stripComment rawLine)) = false → containsFunctionStatement lines = false →
        containsFunctionStatement (rawLine :: lines) = false := by
      intro hline hlines
      exact Bool.or_eq_false_iff.2 ⟨Bool.and_eq_false_iff.2 (.inr hline), hlines⟩
    simp only [SurfaceParser.parseLines] at h
    split at h
    · rename_i hblank
      exact hcons (by rw [hblank]; rfl) (not_contains_of_parseLines lines _ _ h)
    split at h
    · simp only [bind_eq_ok] at h
      obtain ⟨_, hheader, h⟩ := h
      exact hcons (header_not_functionStatement hheader) (not_contains_of_parseLines lines _ _ h)
    split at h
    · rename_i hprogram
      exact hcons (programLine_not_functionStatement hprogram) (not_contains_of_parseLines lines _ _ h)
    · simp only [bind_eq_ok] at h
      obtain ⟨st, hst, items₁, -, h⟩ := h
      exact hcons (statement_not_functionStatement hst) (not_contains_of_parseLines lines _ _ h)

/-- **No valid program is sent to the other pipeline.** -/
theorem dispatch : ∀ lines : List Text,
    (∀ program, FunctionParser.parseLines lines = .ok program → FunctionTypeChecker.check program = .ok () →
      containsFunctionStatement lines = true) ∧
    ∀ n, SurfaceParser.parseFile lines = .ok n → containsFunctionStatement lines = false := by
  intro lines
  refine ⟨fun program h hcheck => contains_of_parseLines h hcheck, fun n h => ?_⟩
  simp only [SurfaceParser.parseFile, bind_eq_ok] at h
  obtain ⟨result, hlines, -⟩ := h
  exact not_contains_of_parseLines lines false [] hlines

/-- A function and a call of it. -/
def greetingLines : List Text :=
  ["اتجاهُ النصِّ: RTL".toList, "دالةٌ \"تحية\"".toList, "متنٌ \"سلام\"".toList, "استدعاءٌ \"تحية\"".toList]

theorem dispatch_samples : containsFunctionStatement greetingLines = true ∧
    containsFunctionStatement verbalFile = false :=
  ⟨(dispatch greetingLines).1 _ (eq_ok_valueOf (by decide : (FunctionParser.parseLines greetingLines).isOk = true))
      (by decide),
    (dispatch verbalFile).2 _ (eq_ok_valueOf (by decide : (SurfaceParser.parseFile verbalFile).isOk = true))⟩

end FunctionProgramDetector
end Adg
