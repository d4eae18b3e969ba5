import AdgLang.StatementTokens
import Mathlib.Algebra.Ring.Parity
/-!
# LineTokens — what the tokenizer reads of any line

`FunctionSyntax.Tokenize` on an arbitrary line: the tokens are slices of the line in order, with white space between them
at most, and the line fails exactly when a quotation mark has no partner, that is when their number is odd
(`tokenize_spec`).  Tokens written with single spaces between them are read back (`tokenize_write`).
-/
namespace Adg
namespace FunctionSyntax

/-- A token as a line shows it. -/
def FunctionToken.written (token : FunctionToken) : Text :=
  if token.isQuoted then '"' :: (token.text ++ ['"']) else token.text

/-- The tokens stand in the line in this order, each on a slice of its own, and all the rest is white space. -/
inductive Sliced : Text → List FunctionToken → Prop
  | nil {gap : Text} (hgap : ∀ c ∈ gap, isWhiteSpace c = true) : Sliced gap []
  | cons {gap rest : Text} {token : FunctionToken} {tokens : List FunctionToken}
      (hgap : ∀ c ∈ gap, isWhiteSpace c = true) (h : Sliced rest tokens) :
      Sliced (gap ++ (token.written ++ rest)) (token :: tokens)

theorem Sliced.space {line : Text} {tokens : List FunctionToken} (h : Sliced line tokens) {c : Char}
    (hc : isWhiteSpace c = true) : Sliced (c :: line) tokens := by
  cases h with
  | nil hgap => exact .nil (List.forall_mem_cons.2 ⟨hc, hgap⟩)
  | @cons gap rest token tokens hgap h => exact @Sliced.cons (c :: gap) _ _ _ (List.forall_mem_cons.2 ⟨hc, hgap⟩) h

theorem Sliced.token {line : Text} {tokens : List FunctionToken} (token : FunctionToken) (h : Sliced line tokens) :
    Sliced (token.written ++ line) (token :: tokens) := @Sliced.cons [] _ _ _ nofun h

def unterminated : AdgException := .parse .unknown "Unterminated string literal in ADG function statement.".toList

/-- How the tokenizer ends on a line. -/
def Outcome (line : Text) (result : Except AdgException (List FunctionToken)) : Prop :=
  (∃ tokens, result = .ok tokens ∧ Sliced line tokens ∧ Even (line.count '"')) ∨
    (result = .error unterminated ∧ Odd (line.count '"'))

/-- The part of the line that the token being read has taken. -/
def Reading.taken : Reading → Text
  | .between => []
  | .quoted text => '"' :: text
  | .bare text => text

/-- A bare token is being read that has begun, and no quotation mark is in what has been read of a token. -/
def Reading.Fits : Reading → Prop
  | .between => True
  | .quoted text => '"' ∉ text
  | .bare text => '"' ∉ text

/-- A token in front of a line with its tokens. -/
theorem Outcome.token {line : Text} {result : Except AdgException (List FunctionToken)} (token : FunctionToken)
    (hquote : '"' ∉ token.text) (h : Outcome line result) :
    Outcome (token.written ++ line) ((token :: ·) <$> result) := by
  have hwritten : Even (token.written.count '"') := by
    have htext := List.count_eq_zero_of_not_mem hquote
    rw [FunctionToken.written]
    split
    · rw [List.count_cons_self, List.count_append, htext]
      exact ⟨1, rfl⟩
    · rw [htext]
      exact ⟨0, rfl⟩
  rcases h with ⟨tokens, rfl, hsliced, heven⟩ | ⟨rfl, hodd⟩
  · exact Or.inl ⟨token :: tokens, rfl, hsliced.token token, by rw [List.count_append]; exact hwritten.add heven⟩
  · exact Or.inr ⟨rfl, by rw [List.count_append]; exact hwritten.add_odd hodd⟩

theorem Outcome.space {line : Text} {result : Except AdgException (List FunctionToken)} {c : Char}
    (hc : isWhiteSpace c = true) (h : Outcome line result) : Outcome (c :: line) result := by
  have hcount : (c :: line).count '"' = line.count '"' := by
    rw [List.count_cons_of_ne]
    rintro rfl
    revert hc; decide
  rw [Outcome, hcount]
  exact h.imp (fun ⟨tokens, hresult, hsliced, heven⟩ => ⟨tokens, hresult, hsliced.space hc, heven⟩) id

/-- **What the tokenizer makes of a line**, from wherever it stands in it. -/
theorem tokenizeFrom_spec (s : Text) : ∀ r : Reading, r.Fits → Outcome (r.taken ++ s) (tokenizeFrom s r) := by
  induction s with
  | nil =>
    intro r hr
    rw [List.append_nil]
    cases r with
    | between => exact Or.inl ⟨[], rfl, .nil nofun, ⟨0, rfl⟩⟩
    | quoted text =>
      refine Or.inr ⟨rfl, ?_⟩
      rw [Reading.taken, List.count_cons_self, List.count_eq_zero_of_not_mem hr]
      exact ⟨0, rfl⟩
    | bare text =>
      have h := Outcome.token ⟨text, false⟩ hr (Or.inl ⟨[], rfl, @Sliced.nil [] nofun, ⟨0, rfl⟩⟩)
      rwa [List.append_nil] at h
  | cons c s ih =>
    intro r hr
    cases r with
    | between =>
      rw [tokenizeFrom]
      split
      · exact .space ‹_› (ih .between trivial)
      split
      · rename_i hc
        rw [hc]
        exact ih (.quoted []) (by simp [Reading.Fits])
      · rename_i hc
        exact ih (.bare [c]) (by simpa [Reading.Fits] using Ne.symm hc)
    | quoted text =>
      rw [tokenizeFrom]
      split
      · rename_i hc
        have h := Outcome.token ⟨text, true⟩ hr (ih .between trivial)
        rw [hc]
        simpa [FunctionToken.written, Reading.taken] using h
      · rename_i hc
        have h := ih (.quoted (text ++ [c])) (by simpa [Reading.Fits] using ⟨hr, Ne.symm hc⟩)
        simpa [Reading.taken] using h
    | bare text =>
      rw [tokenizeFrom]
      split
      · rename_i hc
        exact .token ⟨text, false⟩ hr (.space hc (ih .between trivial))
      split
      · rename_i hc
        have h := Outcome.token ⟨text, false⟩ hr (ih (.quoted []) (by simp [Reading.Fits]))
        rw [hc]
        exact h
      · rename_i hc
        have h := ih (.bare (text ++ [c])) (by simpa [Reading.Fits] using ⟨hr, Ne.symm hc⟩)
        simpa [Reading.taken] using h

/-- **A line is cut into slices in order, or a quotation mark has no partner.** -/
theorem tokenize_spec (line : Text) : Outcome line (tokenize line) := tokenizeFrom_spec line .between trivial

theorem tokenize_error_iff (line : Text) : tokenize line = .error unterminated ↔ Odd (line.count '"') := by
  rcases tokenize_spec line with ⟨tokens, hok, -, heven⟩ | ⟨herror, hodd⟩
  · rw [hok]
    exact iff_of_false (fun h => by cases h) (Nat.not_odd_iff_even.2 heven)
  · exact iff_of_true herror hodd

/-! ## Written tokens -/

/-- A token that a line can show: a quoted text without a quotation mark, or a plain word. -/
def FunctionToken.Writable (token : FunctionToken) : Prop :=
  if token.isQuoted then '"' ∉ token.text else Plain token.text

instance (token : FunctionToken) : Decidable token.Writable := by
  unfold FunctionToken.Writable
  infer_instance

/-- The tokens with single spaces between them. -/
def write (tokens : List FunctionToken) : Text := join [' '] (tokens.map FunctionToken.written)

theorem tokenize_written {token : FunctionToken} (h : token.Writable) {s : Text} (hs : AtBreak s) :
    tokenizeFrom (token.written ++ s) .between = (token :: ·) <$> tokenizeFrom s .between := by
  obtain ⟨text, isQuoted⟩ := token
  cases isQuoted with
  | true =>
    have hquoted := tokenize_quoted s text [] h
    have hopen : isWhiteSpace '"' = false := by decide
    simpa [FunctionToken.written, tokenizeFrom, hopen] using hquoted
  | false => exact tokenize_bare h hs

/-- **Tokens that were written are read back.** -/
theorem tokenize_write : ∀ {tokens : List FunctionToken}, (∀ token ∈ tokens, token.Writable) →
    tokenize (write tokens) = .ok tokens
  | [], _ => rfl
  | [token], h => by
    have hend := tokenize_written (h token (by simp)) (s := []) nofun
    rw [List.append_nil] at hend
    exact hend
  | token :: other :: tokens, h => by
    have hrest := tokenize_write (fun t ht => h t (List.mem_cons_of_mem token ht))
    have hbreak : AtBreak (' ' :: write (other :: tokens)) := fun c hc => by
      cases hc
      decide
    have hline : write (token :: other :: tokens) = token.written ++ ' ' :: write (other :: tokens) := by
      simp only [write, List.map_cons, join, List.append_assoc, List.cons_append, List.nil_append]
    rw [hline, tokenize, tokenize_written (h token (by simp)) hbreak, tokenizeFrom, if_pos (by decide)]
    exact congrArg ((token :: ·) <$> ·) hrest

/-- **The tokenizer reads back what was written, and what it reads of any line stands there in order**; it fails exactly
where the number of quotation marks is odd. -/
theorem tokenize_sound :
    (∀ tokens : List FunctionToken, (∀ token ∈ tokens, token.Writable) → tokenize (write tokens) = .ok tokens) ∧
    (∀ line : Text, ((∃ tokens, tokenize line = .ok tokens ∧ Sliced line tokens) ∨ tokenize line = .error unterminated) ∧
      (tokenize line = .error unterminated ↔ Odd (line.count '"'))) := by
  refine ⟨fun tokens h => tokenize_write h, fun line => ⟨?_, tokenize_error_iff line⟩⟩
  rcases tokenize_spec line with ⟨tokens, hok, hsliced, -⟩ | ⟨herror, -⟩
  · exact Or.inl ⟨tokens, hok, hsliced⟩
  · exact Or.inr herror

theorem tokenize_sound_greeting :
    tokenize (write [⟨callKeyword, false⟩, ⟨"ada \x7b".toList, true⟩, ⟨"-5".toList, false⟩, ⟨[], true⟩]) =
      .ok [⟨callKeyword, false⟩, ⟨"ada \x7b".toList, true⟩, ⟨"-5".toList, false⟩, ⟨[], true⟩] :=
  tokenize_sound.1 _ (by decide)

end FunctionSyntax
end Adg
