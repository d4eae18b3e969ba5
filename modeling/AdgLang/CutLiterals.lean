import AdgLang.Dispatch
import AdgLang.LineTokens
/-!
# CutLiterals — a comment sign inside a literal

`StripComment` cuts a line at its first `#` without a look at the quotation marks.  A line cut inside a literal keeps the
mark that opened it, so the marks left are odd in number.  The tokenizer of function lines rejects such a line, and so does
every statement pattern of the surface, since what the patterns match is cut into tokens (`reads_statement`).  A program
that is accepted therefore has no such line among its statements.
-/
namespace Adg

open FunctionSyntax (tokenize unterminated)

/-- The comment sign of the line stands inside a literal that has not ended. -/
def CutLiteral (rawLine : Text) : Prop :=
  ∃ before after, rawLine = before ++ '#' :: after ∧ '#' ∉ before ∧ Odd (before.count '"')

theorem stripComment_cut {before after : Text} (h : '#' ∉ before) : stripComment (before ++ '#' :: after) = before := by
  rw [stripComment, List.takeWhile_append_of_pos (fun c hc => by
    rw [bne_iff_ne]
    exact fun heq => h (heq ▸ hc))]
  simp

/-- Trimming keeps the quotation marks. -/
theorem count_trim (t : Text) : (trim t).count '"' = t.count '"' := by
  have hdrop : ∀ u : Text, (u.dropWhile isWhiteSpace).count '"' = u.count '"' := fun u => by
    induction u with
    | nil => rfl
    | cons c u ih =>
      rw [List.dropWhile_cons]
      split
      · rw [ih, List.count_cons_of_ne]
        rintro rfl
        rename_i hc
        revert hc; decide
      · rfl
  rw [trim, trimEnd, List.count_reverse, hdrop, List.count_reverse, trimStart, hdrop]

theorem CutLiteral.count {rawLine : Text} (h : CutLiteral rawLine) : Odd ((trim (stripComment rawLine)).count '"') := by
  obtain ⟨before, after, rfl, hbefore, hodd⟩ := h
  rwa [stripComment_cut hbefore, count_trim]

theorem CutLiteral.tokenize {rawLine : Text} (h : CutLiteral rawLine) :
    tokenize (trim (stripComment rawLine)) = .error unterminated :=
  (FunctionSyntax.tokenize_error_iff _).2 h.count

theorem CutLiteral.ne_nil {rawLine : Text} (h : CutLiteral rawLine) : trim (stripComment rawLine) ≠ [] := fun hnil => by
  have hodd := h.count
  rw [hnil] at hodd
  revert hodd; decide

theorem no_quote_of_equalsIgnoreCase {value expected : Text} (hexpected : '"' ∉ expected.map Char.toLower)
    (h : equalsIgnoreCase value expected = true) : '"' ∉ value := fun hmem => by
  rw [equalsIgnoreCase, decide_eq_true_iff] at h
  exact hexpected (h ▸ List.mem_map.2 ⟨'"', hmem, by decide⟩)

/-- What a valid direction header says. -/
theorem header_ok {line : Text} {u : Unit} (h : TextDirectionHeader.validate line = .ok u) :
    TextDirectionHeader.normalizeLabel (line.takeWhile (fun c => c != ':')) = TextDirectionHeader.canonicalLabel ∧
      equalsIgnoreCase (trim ((line.dropWhile (fun c => c != ':')).drop 1)) "RTL".toList = true := by
  unfold TextDirectionHeader.validate TextDirectionHeader.tryParseDirection at h
  split at h
  · cases h
  rename_i direction hdirection
  split at hdirection
  · split at hdirection
    · rename_i hlabel
      simp only at hdirection
      split at hdirection
      · cases hdirection
        split at h
        · exact ⟨hlabel, ‹_›⟩
        · cases h
      · cases hdirection
    · cases hdirection
  · cases hdirection

/-- **The direction header holds no quotation mark.** -/
theorem no_quote_of_header {line : Text} {u : Unit} (h : TextDirectionHeader.validate line = .ok u) : '"' ∉ line := by
  obtain ⟨hlabel, hvalue⟩ := header_ok h
  have hcanonical : '"' ∉ TextDirectionHeader.canonicalLabel := by decide
  intro hmem
  rw [← List.takeWhile_append_dropWhile (p := fun c => c != ':') (l := line)] at hmem
  rcases List.mem_append.1 hmem with hmem | hmem
  · exact hcanonical (hlabel ▸ FunctionProgramDetector.mem_normalizeLabel hmem (by decide) (by decide))
  · refine no_quote_of_equalsIgnoreCase (by decide) hvalue (mem_trim ?_ (by decide))
    have hcolon := List.head?_dropWhile_not (fun c : Char => c != ':') line
    cases hrest : line.dropWhile (fun c => c != ':') with
    | nil =>
      rw [hrest] at hmem
      cases hmem
    | cons c rest =>
      rw [hrest] at hmem hcolon
      rcases List.mem_cons.1 hmem with rfl | hmem
      · exact absurd (show ('"' != ':') = false from hcolon) (by decide)
      · exact hmem

/-! ## Statements -/

/-- **A statement line of a function program** that is cut inside a literal is rejected. -/
theorem function_statement_rejected {rawLine : Text} (h : CutLiteral rawLine) (state : FunctionParser.ParserState) :
    (do state.statement (← tokenize (trim (stripComment rawLine))) (trim (stripComment rawLine))) =
      .error unterminated := by
  rw [h.tokenize]
  rfl

/-- **A statement of the surface** that is cut inside a literal is rejected, whatever it starts as. -/
theorem surface_statement_rejected {rawLine : Text} (h : CutLiteral rawLine) :
    ∃ e, SurfaceParser.parseStatement (trim (stripComment rawLine)) = .error e := by
  cases hparse : SurfaceParser.parseStatement (trim (stripComment rawLine)) with
  | error e => exact ⟨e, rfl⟩
  | ok st =>
    obtain ⟨-, tokens, htokens, -⟩ := SurfaceParser.reads_statement hparse
    rw [h.tokenize] at htokens
    cases htokens

/-! ## Programs -/

theorem function_lines : ∀ (lines : List Text) (validated : Bool) (state : FunctionParser.ParserState)
    {result : Bool × FunctionParser.ParserState}, FunctionParser.parseFrom lines validated state = .ok result →
    ∀ rawLine ∈ lines, CutLiteral rawLine → FunctionParser.isProgramLine (trim (stripComment rawLine)) = true
  | [], _, _, _, _ => nofun
  | first :: lines, validated, state, result, h => by
    simp only [FunctionParser.parseFrom] at h
    intro rawLine hmem hcut
    split at h
    · rename_i hnil
      rcases List.mem_cons.1 hmem with rfl | hmem
      · exact absurd hnil hcut.ne_nil
      · exact function_lines lines _ _ h rawLine hmem hcut
    split at h
    · obtain ⟨u, hheader, h⟩ := bind_eq_ok.1 h
      rcases List.mem_cons.1 hmem with rfl | hmem
      · have hnone := List.count_eq_zero_of_not_mem (no_quote_of_header hheader)
        have hodd := hcut.count
        rw [hnone] at hodd
        exact absurd hodd (by decide)
      · exact function_lines lines _ _ h rawLine hmem hcut
    split at h
    · rcases List.mem_cons.1 hmem with rfl | hmem
      · assumption
      · exact function_lines lines _ _ h rawLine hmem hcut
    · obtain ⟨tokens, htokens, h⟩ := bind_eq_ok.1 h
      obtain ⟨state₁, -, h⟩ := bind_eq_ok.1 h
      rcases List.mem_cons.1 hmem with rfl | hmem
      · rw [hcut.tokenize] at htokens
        cases htokens
      · exact function_lines lines _ _ h rawLine hmem hcut

theorem surface_lines : ∀ (lines : List Text) (validated : Bool) (items : List Node) {result : Bool × List Node},
    SurfaceParser.parseLines lines validated items = .ok result →
    ∀ rawLine ∈ lines, CutLiteral rawLine → SurfaceParser.isProgramLine (trim (stripComment rawLine)) = true
  | [], _, _, _, _ => nofun
  | first :: lines, validated, items, result, h => by
    simp only [SurfaceParser.parseLines] at h
    intro rawLine hmem hcut
    split at h
    · rename_i hnil
      rcases List.mem_cons.1 hmem with rfl | hmem
      · exact absurd hnil hcut.ne_nil
      · exact surface_lines lines _ _ h rawLine hmem hcut
    split at h
    · obtain ⟨u, hheader, h⟩ := bind_eq_ok.1 h
      rcases List.mem_cons.1 hmem with rfl | hmem
      · have hnone := List.count_eq_zero_of_not_mem (no_quote_of_header hheader)
        have hodd := hcut.count
        rw [hnone] at hodd
        exact absurd hodd (by decide)
      · exact surface_lines lines _ _ h rawLine hmem hcut
    split at h
    · rcases List.mem_cons.1 hmem with rfl | hmem
      · assumption
      · exact surface_lines lines _ _ h rawLine hmem hcut
    · obtain ⟨st, hst, h⟩ := bind_eq_ok.1 h
      obtain ⟨items₁, -, h⟩ := bind_eq_ok.1 h
      rcases List.mem_cons.1 hmem with rfl | hmem
      · obtain ⟨e, he⟩ := surface_statement_rejected hcut
        rw [hst] at he
        cases he
      · exact surface_lines lines _ _ h rawLine hmem hcut

/-- **A comment sign inside a literal never silently changes a program.**  The line it cuts is rejected as a statement of
either parser, and a program that is accepted has no such line but among those that carry no statement. -/
theorem cut_literal_rejected :
    (∀ rawLine, CutLiteral rawLine →
      (∀ state : FunctionParser.ParserState,
        (do state.statement (← tokenize (trim (stripComment rawLine))) (trim (stripComment rawLine))) =
          .error unterminated) ∧
      ∃ e, SurfaceParser.parseStatement (trim (stripComment rawLine)) = .error e) ∧
    (∀ (lines : List Text) (program : AdgFunctionProgram), FunctionParser.parseLines lines = .ok program →
      ∀ rawLine ∈ lines, CutLiteral rawLine → FunctionParser.isProgramLine (trim (stripComment rawLine)) = true) ∧
    (∀ (lines : List Text) (node : Node), SurfaceParser.parseFile lines = .ok node →
      ∀ rawLine ∈ lines, CutLiteral rawLine → SurfaceParser.isProgramLine (trim (stripComment rawLine)) = true) := by
  refine ⟨fun rawLine h => ⟨function_statement_rejected h, surface_statement_rejected h⟩, fun lines program h => ?_,
    fun lines node h => ?_⟩
  · obtain ⟨result, hlines, -⟩ := bind_eq_ok.1 h
    exact function_lines lines _ _ hlines
  · obtain ⟨result, hlines, -⟩ := bind_eq_ok.1 h
    exact surface_lines lines _ _ hlines

/-- A connector whose surface holds a comment sign, and a program line whose title does. -/
theorem cut_literal_rejected_sample :
    (∃ e, SurfaceParser.parseStatement (trim (stripComment "connector \"a # b\" cause".toList)) = .error e) ∧
    FunctionParser.isProgramLine (trim (stripComment "program \"a # b\"".toList)) = true := by
  have hcut : ∀ before after : Text, '#' ∉ before → before.count '"' = 1 → CutLiteral (before ++ '#' :: after) :=
    fun before after hbefore hcount => ⟨before, after, rfl, hbefore, by rw [hcount]; decide⟩
  obtain ⟨hstatement, hfunction, -⟩ := cut_literal_rejected
  refine ⟨(hstatement _ (hcut "connector \"a ".toList " b\" cause".toList (by decide) (by decide))).2, ?_⟩
  exact hfunction ["اتجاهُ النصِّ: RTL".toList, "program \"a # b\"".toList] ⟨[], []⟩ (by decide +kernel) _ (by simp)
    (hcut "program \"a ".toList " b\"".toList (by decide) (by decide))

end Adg
