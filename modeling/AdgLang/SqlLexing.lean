import AdgLang.SqlTranslation
/-!
# SqlLexing — the quotes, the comments and the parameter marks of a statement

Where a text is quoted or commented is said without a scanner: a text is cut into regions, question marks and single
units (`Lexes`), a region running to its own end or, where it has none, to the end of the text (`Region`).  Every text is
cut so, in one way (`exists_lexes`, `Lexes.unique`), and `replaceSqlitePlaceholders` copies every piece but the question marks, for which it writes
the placeholders of the first parameters, in order (`Lexes.replaceFrom_eq`).
-/
namespace Adg
namespace Database

open Js

/-! ## Regions -/

/-- Quoted content: no quote but in pairs. -/
inductive Doubled (quote : UInt16) : Str → Prop
  | nil : Doubled quote []
  | unit {u : UInt16} {t : Str} (hu : u ≠ quote) (h : Doubled quote t) : Doubled quote (u :: t)
  | pair {t : Str} (h : Doubled quote t) : Doubled quote (quote :: quote :: t)

/-- A region of a statement, before the rest of its text: a string, a quoted identifier or a comment. -/
inductive Region : Str → Str → Prop
  | quoted {quote : UInt16} {content rest : Str} (hquote : quote ∈ [unit '\'', unit '"']) (h : Doubled quote content)
      (hrest : rest.head? ≠ some quote) : Region (quote :: (content ++ [quote])) rest
  | openQuoted {quote : UInt16} {content : Str} (hquote : quote ∈ [unit '\'', unit '"']) (h : Doubled quote content) :
      Region (quote :: content) []
  | line {content rest : Str} (h : unit '\n' ∉ content) :
      Region (unit '-' :: unit '-' :: (content ++ [unit '\n'])) rest
  | openLine {content : Str} (h : unit '\n' ∉ content) : Region (unit '-' :: unit '-' :: content) []
  | block {content rest : Str} (h : ¬ [unit '*', unit '/'] <:+: content ++ [unit '*']) :
      Region (unit '/' :: unit '*' :: (content ++ [unit '*', unit '/'])) rest
  | openBlock {content : Str} (h : ¬ [unit '*', unit '/'] <:+: content) : Region (unit '/' :: unit '*' :: content) []

inductive Lexeme
  | region (text : Str)
  | mark
  | unit (u : UInt16)

def Lexeme.text : Lexeme → Str
  | .region text => text
  | .mark => [Js.unit '?']
  | .unit u => [u]

def Lexeme.isMark : Lexeme → Bool
  | .mark => true
  | _ => false

/-- A text cut into its regions, its question marks outside them and the other units outside them. -/
inductive Lexes : Str → List Lexeme → Prop
  | nil : Lexes [] []
  | region {text rest : Str} {lexemes : List Lexeme} (hregion : Region text rest) (h : Lexes rest lexemes) :
      Lexes (text ++ rest) (.region text :: lexemes)
  | mark {rest : Str} {lexemes : List Lexeme} (h : Lexes rest lexemes) : Lexes (unit '?' :: rest) (.mark :: lexemes)
  | unit {u : UInt16} {rest : Str} {lexemes : List Lexeme} (hquote : u ∉ [unit '\'', unit '"', unit '?'])
      (hline : ¬ (u = unit '-' ∧ rest.head? = some (unit '-')))
      (hblock : ¬ (u = unit '/' ∧ rest.head? = some (unit '*'))) (h : Lexes rest lexemes) :
      Lexes (u :: rest) (.unit u :: lexemes)

/-- The pieces were the text. -/
theorem Lexes.text {sql : Str} {lexemes : List Lexeme} (h : Lexes sql lexemes) : lexemes.flatMap Lexeme.text = sql := by
  induction h with
  | nil => rfl
  | region _ _ ih => rw [List.flatMap_cons, ih, Lexeme.text]
  | mark _ ih => rw [List.flatMap_cons, ih]; rfl
  | unit _ _ _ _ ih => rw [List.flatMap_cons, ih]; rfl

/-! ## Every text is cut -/

theorem exists_quoted (quote : UInt16) : ∀ t : Str, Doubled quote t ∨
    ∃ content rest, Doubled quote content ∧ t = content ++ quote :: rest ∧ rest.head? ≠ some quote
  | [] => .inl .nil
  | [u] => by
    by_cases hu : u = quote
    · exact .inr ⟨[], [], .nil, by rw [hu]; rfl, nofun⟩
    · exact .inl (.unit hu .nil)
  | u :: v :: t => by
    by_cases hu : u = quote
    · subst hu
      by_cases hv : v = u
      · subst hv
        rcases exists_quoted v t with h | ⟨content, rest, h, rfl, hrest⟩
        · exact .inl (.pair h)
        · exact .inr ⟨v :: v :: content, rest, .pair h, rfl, hrest⟩
      · exact .inr ⟨[], v :: t, .nil, rfl, by simpa using hv⟩
    · rcases exists_quoted quote (v :: t) with h | ⟨content, rest, h, ht, hrest⟩
      · exact .inl (.unit hu h)
      · exact .inr ⟨u :: content, rest, .unit hu h, by rw [ht]; rfl, hrest⟩

theorem exists_line (t : Str) : unit '\n' ∉ t ∨ ∃ content rest, unit '\n' ∉ content ∧ t = content ++ unit '\n' :: rest := by
  by_cases h : unit '\n' ∈ t
  · obtain ⟨content, rest, ht, hcontent⟩ := List.eq_append_cons_of_mem h
    exact .inr ⟨content, rest, hcontent, ht⟩
  · exact .inl h

theorem exists_block : ∀ t : Str, ¬ [unit '*', unit '/'] <:+: t ∨
    ∃ content rest, ¬ [unit '*', unit '/'] <:+: content ++ [unit '*'] ∧ t = content ++ unit '*' :: unit '/' :: rest
  | [] => .inl (by simp)
  | u :: t => by
    by_cases hclose : [unit '*', unit '/'] <+: u :: t
    · obtain ⟨rest, hrest⟩ := hclose
      exact .inr ⟨[], rest, by decide, hrest.symm⟩
    · rcases exists_block t with h | ⟨content, rest, h, rfl⟩
      · exact .inl (fun hinfix => (List.infix_cons_iff.1 hinfix).elim hclose h)
      · refine .inr ⟨u :: content, rest, fun hinfix => (List.infix_cons_iff.1 hinfix).elim (fun hbegins => ?_) h, rfl⟩
        refine hclose (hbegins.trans ?_)
        exact ⟨unit '/' :: rest, by simp⟩

/-- **Every text is cut into pieces.** -/
theorem exists_lexes (sql : Str) : ∃ lexemes, Lexes sql lexemes := by
  induction hn : sql.length using Nat.strong_induction_on generalizing sql with
  | _ n ih =>
    have hregion : ∀ {text rest : Str}, sql = text ++ rest → text ≠ [] → Region text rest → ∃ lexemes, Lexes sql lexemes := by
      intro text rest hsql hne hregion
      have hpos := List.length_pos_of_ne_nil hne
      obtain ⟨lexemes, h⟩ := ih rest.length (by rw [hsql, List.length_append] at hn; omega) rest rfl
      exact ⟨_, hsql ▸ Lexes.region hregion h⟩
    cases sql with
    | nil => exact ⟨[], .nil⟩
    | cons u t =>
      obtain ⟨lexemes, hrest⟩ := ih t.length (by rw [List.length_cons] at hn; omega) t rfl
      by_cases hquote : u ∈ [unit '\'', unit '"']
      · rcases exists_quoted u t with h | ⟨content, rest, h, rfl, hhead⟩
        · exact hregion (List.append_nil _).symm (List.cons_ne_nil _ _) (.openQuoted hquote h)
        · exact @hregion (u :: (content ++ [u])) rest (by simp) (List.cons_ne_nil _ _) (.quoted hquote h hhead)
      by_cases hline : u = unit '-' ∧ t.head? = some (unit '-')
      · obtain ⟨rfl, hhead⟩ := hline
        obtain ⟨t, rfl⟩ := List.head?_eq_some_iff.1 hhead
        rcases exists_line t with h | ⟨content, rest, h, rfl⟩
        · exact hregion (List.append_nil _).symm (List.cons_ne_nil _ _) (.openLine h)
        · exact @hregion (unit '-' :: unit '-' :: (content ++ [unit '\n'])) rest (by simp) (List.cons_ne_nil _ _) (.line h)
      by_cases hblock : u = unit '/' ∧ t.head? = some (unit '*')
      · obtain ⟨rfl, hhead⟩ := hblock
        obtain ⟨t, rfl⟩ := List.head?_eq_some_iff.1 hhead
        rcases exists_block t with h | ⟨content, rest, h, rfl⟩
        · exact hregion (List.append_nil _).symm (List.cons_ne_nil _ _) (.openBlock h)
        · exact @hregion (unit '/' :: unit '*' :: (content ++ [unit '*', unit '/'])) rest (by simp)
            (List.cons_ne_nil _ _) (.block h)
      by_cases hmark : u = unit '?'
      · exact ⟨_, hmark ▸ Lexes.mark hrest⟩
      · exact ⟨_, .unit (by simpa [hmark] using hquote) hline hblock hrest⟩

/-! ## In one way -/

theorem Region.ne_nil {text rest : Str} (h : Region text rest) : text ≠ [] := by
  cases h <;> exact List.cons_ne_nil _ _

/-- A region begins here. -/
def Opens (sql : Str) : Prop :=
  ∃ p ∈ [[unit '\''], [unit '"'], [unit '-', unit '-'], [unit '/', unit '*']], p <+: sql

theorem opens_quote {quote : UInt16} (hquote : quote ∈ [unit '\'', unit '"']) (t : Str) : Opens (quote :: t) := by
  refine ⟨[quote], ?_, ⟨t, rfl⟩⟩
  simp only [List.mem_cons, List.not_mem_nil, or_false] at hquote ⊢
  rcases hquote with rfl | rfl <;> simp

theorem opens_line (t : Str) : Opens (unit '-' :: unit '-' :: t) := ⟨[unit '-', unit '-'], by simp, ⟨t, rfl⟩⟩

theorem opens_block (t : Str) : Opens (unit '/' :: unit '*' :: t) := ⟨[unit '/', unit '*'], by simp, ⟨t, rfl⟩⟩

theorem not_opens_nil : ¬ Opens [] := by
  rintro ⟨p, hp, hbegins⟩
  rw [List.prefix_nil.1 hbegins] at hp
  exact absurd hp (by decide)

theorem not_opens {u : UInt16} {t : Str} (hquote : u ∉ [unit '\'', unit '"'])
    (hline : ¬ (u = unit '-' ∧ t.head? = some (unit '-'))) (hblock : ¬ (u = unit '/' ∧ t.head? = some (unit '*'))) :
    ¬ Opens (u :: t) := by
  rintro ⟨p, hp, t', ht⟩
  simp only [List.mem_cons, List.not_mem_nil, or_false] at hp hquote
  rcases hp with rfl | rfl | rfl | rfl <;> (obtain ⟨rfl, rfl⟩ := List.cons.inj ht; simp at hquote hline hblock)

theorem Region.opens {text rest : Str} (h : Region text rest) : Opens (text ++ rest) := by
  cases h with
  | quoted hquote _ _ => exact opens_quote hquote _
  | openQuoted hquote _ => exact opens_quote hquote _
  | line _ => exact opens_line _
  | openLine _ => exact opens_line _
  | block _ => exact opens_block _
  | openBlock _ => exact opens_block _

/-- What a lexing says of the start of its text. -/
theorem Lexes.inv {sql : Str} {lexemes : List Lexeme} (h : Lexes sql lexemes) : (sql = [] ∧ lexemes = []) ∨
    (Opens sql ∧ ∃ text rest lexemes', sql = text ++ rest ∧ lexemes = .region text :: lexemes' ∧ Region text rest ∧
      Lexes rest lexemes') ∨
    (¬ Opens sql ∧ ∃ u rest lexemes', sql = u :: rest ∧
      lexemes = (if u = Js.unit '?' then .mark else .unit u) :: lexemes' ∧ Lexes rest lexemes') := by
  cases h with
  | nil => exact .inl ⟨rfl, rfl⟩
  | region hregion h => exact .inr (.inl ⟨hregion.opens, _, _, _, rfl, rfl, hregion, h⟩)
  | mark h =>
    refine .inr (.inr ⟨not_opens (by decide) (fun h => absurd h.1 (by decide)) (fun h => absurd h.1 (by decide)), _, _, _,
      rfl, by rw [if_pos rfl], h⟩)
  | unit hquote hline hblock h =>
    simp only [List.mem_cons, List.not_mem_nil, or_false, not_or] at hquote
    obtain ⟨hsingle, hdouble, hmark⟩ := hquote
    exact .inr (.inr ⟨not_opens (by simp [hsingle, hdouble]) hline hblock, _, _, _, rfl, by rw [if_neg hmark], h⟩)

section unique

variable {quote : UInt16} {content content' rest rest' : Str}

theorem Doubled.closed_unique (h : Doubled quote content) (h' : Doubled quote content') (hrest : rest.head? ≠ some quote)
    (hrest' : rest'.head? ≠ some quote) (he : content ++ quote :: rest = content' ++ quote :: rest') :
    content = content' := by
  induction h generalizing content' with
  | nil =>
    cases h' with
    | nil => rfl
    | unit hu _ => exact absurd (List.cons.inj he).1.symm hu
    | pair _ => exact absurd (by rw [(List.cons.inj he).2]; rfl) hrest
  | unit hu _ ih =>
    cases h' with
    | nil => exact absurd (List.cons.inj he).1 hu
    | unit _ h' =>
      obtain ⟨rfl, htail⟩ := List.cons.inj he
      rw [ih h' htail]
    | pair _ => exact absurd (List.cons.inj he).1 hu
  | pair _ ih =>
    cases h' with
    | nil => exact absurd (by rw [← (List.cons.inj he).2]; rfl) hrest'
    | unit hu _ => exact absurd (List.cons.inj he).1.symm hu
    | pair h' => rw [ih h' (List.cons.inj (List.cons.inj he).2).2]

theorem Doubled.not_closed (h : Doubled quote content) (h' : Doubled quote content') (hrest' : rest'.head? ≠ some quote) :
    content ≠ content' ++ quote :: rest' := by
  intro he
  induction h generalizing content' with
  | nil => cases h' <;> cases he
  | unit hu _ ih =>
    cases h' with
    | nil => exact hu (List.cons.inj he).1
    | unit _ h' => exact ih h' (List.cons.inj he).2
    | pair _ => exact hu (List.cons.inj he).1
  | pair _ ih =>
    cases h' with
    | nil => exact hrest' (by rw [← (List.cons.inj he).2]; rfl)
    | unit hu _ => exact hu (List.cons.inj he).1.symm
    | pair h' => exact ih h' (List.cons.inj (List.cons.inj he).2).2

theorem line_unique {u : UInt16} (h : u ∉ content) (h' : u ∉ content') (he : content ++ u :: rest = content' ++ u :: rest') :
    content = content' := by
  have hfirst : ∀ {c r : Str}, u ∉ c → (c ++ u :: r).takeWhile (fun v => decide (v ≠ u)) = c := fun {c r} hc => by
    rw [List.takeWhile_append_of_pos (fun v hv => by simpa using fun hvu : v = u => hc (hvu ▸ hv)),
      List.takeWhile_cons_of_neg (by simp), List.append_nil]
  rw [← hfirst h, he, hfirst h']

theorem block_moved {moved : Str} (h' : ¬ [unit '*', unit '/'] <:+: (content ++ moved) ++ [unit '*'])
    (he : unit '*' :: unit '/' :: rest = moved ++ unit '*' :: unit '/' :: rest') : moved = [] := by
  rcases moved with - | ⟨u, - | ⟨v, moved⟩⟩
  · rfl
  · exact absurd (List.cons.inj (List.cons.inj he).2).1 (by decide)
  · simp only [List.cons_append, List.cons.injEq] at he
    obtain ⟨rfl, rfl, -⟩ := he
    exact absurd ⟨content, moved ++ [unit '*'], by simp⟩ h'

theorem block_unique (h : ¬ [unit '*', unit '/'] <:+: content ++ [unit '*'])
    (h' : ¬ [unit '*', unit '/'] <:+: content' ++ [unit '*'])
    (he : content ++ unit '*' :: unit '/' :: rest = content' ++ unit '*' :: unit '/' :: rest') : content = content' := by
  rcases List.append_eq_append_iff.1 he with ⟨moved, rfl, hmoved⟩ | ⟨moved, rfl, hmoved⟩
  · rw [block_moved h' hmoved, List.append_nil]
  · rw [block_moved h hmoved, List.append_nil]

end unique

/-- Where a quoted region stands, every region is that one. -/
theorem Region.unique_quoted {quote : UInt16} {t text' rest' : Str} (hquote : quote ∈ [unit '\'', unit '"'])
    (h' : Region text' rest') (he : quote :: t = text' ++ rest') :
    (∃ content, text' = quote :: (content ++ [quote]) ∧ t = content ++ quote :: rest' ∧ Doubled quote content ∧
      rest'.head? ≠ some quote) ∨ (text' = quote :: t ∧ Doubled quote t) := by
  have hdash : unit '-' ∉ [unit '\'', unit '"'] := by decide
  have hslash : unit '/' ∉ [unit '\'', unit '"'] := by decide
  cases h' with
  | quoted _ h' hrest' =>
    simp only [List.cons_append, List.append_assoc, List.nil_append, List.cons.injEq] at he
    obtain ⟨rfl, rfl⟩ := he
    exact .inl ⟨_, rfl, rfl, h', hrest'⟩
  | openQuoted _ h' =>
    simp only [List.append_nil, List.cons.injEq] at he
    obtain ⟨rfl, rfl⟩ := he
    exact .inr ⟨rfl, h'⟩
  | line _ => exact absurd ((List.cons.inj he).1 ▸ hquote) hdash
  | openLine _ => exact absurd ((List.cons.inj he).1 ▸ hquote) hdash
  | block _ => exact absurd ((List.cons.inj he).1 ▸ hquote) hslash
  | openBlock _ => exact absurd ((List.cons.inj he).1 ▸ hquote) hslash

theorem Region.unique_line {t text' rest' : Str} (h' : Region text' rest') (he : unit '-' :: unit '-' :: t = text' ++ rest') :
    (∃ content, text' = unit '-' :: unit '-' :: (content ++ [unit '\n']) ∧ t = content ++ unit '\n' :: rest' ∧
      unit '\n' ∉ content) ∨ (text' = unit '-' :: unit '-' :: t ∧ unit '\n' ∉ t) := by
  have hdash : unit '-' ∉ [unit '\'', unit '"'] := by decide
  have hdiffer : unit '-' ≠ unit '/' := by decide
  cases h' with
  | quoted hquote _ _ => exact absurd ((List.cons.inj he).1.symm ▸ hquote) hdash
  | openQuoted hquote _ => exact absurd ((List.cons.inj he).1.symm ▸ hquote) hdash
  | line h' =>
    simp only [List.cons_append, List.append_assoc, List.nil_append, List.cons.injEq, true_and] at he
    exact .inl ⟨_, rfl, he, h'⟩
  | openLine h' =>
    simp only [List.append_nil, List.cons.injEq, true_and] at he
    exact .inr ⟨by rw [he], he ▸ h'⟩
  | block _ => exact absurd (List.cons.inj he).1 hdiffer
  | openBlock _ => exact absurd (List.cons.inj he).1 hdiffer

theorem Region.unique_block {t text' rest' : Str} (h' : Region text' rest') (he : unit '/' :: unit '*' :: t = text' ++ rest') :
    (∃ content, text' = unit '/' :: unit '*' :: (content ++ [unit '*', unit '/']) ∧
      t = content ++ unit '*' :: unit '/' :: rest' ∧ ¬ [unit '*', unit '/'] <:+: content ++ [unit '*']) ∨
    (text' = unit '/' :: unit '*' :: t ∧ ¬ [unit '*', unit '/'] <:+: t) := by
  have hslash : unit '/' ∉ [unit '\'', unit '"'] := by decide
  have hdiffer : unit '/' ≠ unit '-' := by decide
  cases h' with
  | quoted hquote _ _ => exact absurd ((List.cons.inj he).1.symm ▸ hquote) hslash
  | openQuoted hquote _ => exact absurd ((List.cons.inj he).1.symm ▸ hquote) hslash
  | line _ => exact absurd (List.cons.inj he).1 hdiffer
  | openLine _ => exact absurd (List.cons.inj he).1 hdiffer
  | block h' =>
    simp only [List.cons_append, List.append_assoc, List.nil_append, List.cons.injEq, true_and] at he
    exact .inl ⟨_, rfl, he, h'⟩
  | openBlock h' =>
    simp only [List.append_nil, List.cons.injEq, true_and] at he
    exact .inr ⟨by rw [he], he ▸ h'⟩

/-- Two regions at the start of one text are one region. -/
theorem Region.unique {text text' rest rest' : Str} (h : Region text rest) (h' : Region text' rest')
    (he : text ++ rest = text' ++ rest') : text = text' := by
  cases h with
  | quoted hquote hcontent hrest =>
    simp only [List.cons_append, List.append_assoc, List.nil_append] at he
    rcases h'.unique_quoted hquote he with ⟨content', rfl, hsame, hcontent', hrest'⟩ | ⟨rfl, hcontent'⟩
    · rw [hcontent.closed_unique hcontent' hrest hrest' hsame]
    · exact absurd rfl (hcontent'.not_closed hcontent hrest)
  | openQuoted hquote hcontent =>
    rw [List.append_nil] at he
    rcases h'.unique_quoted hquote he with ⟨content', rfl, hsame, hcontent', hrest'⟩ | ⟨rfl, -⟩
    · exact absurd hsame (hcontent.not_closed hcontent' hrest')
    · rfl
  | line hcontent =>
    simp only [List.cons_append, List.append_assoc, List.nil_append] at he
    rcases h'.unique_line he with ⟨content', rfl, hsame, hcontent'⟩ | ⟨rfl, hcontent'⟩
    · rw [line_unique hcontent hcontent' hsame]
    · exact absurd (by simp) hcontent'
  | openLine hcontent =>
    rw [List.append_nil] at he
    rcases h'.unique_line he with ⟨content', rfl, rfl, -⟩ | ⟨rfl, -⟩
    · exact absurd (by simp) hcontent
    · rfl
  | @block content _ hcontent =>
    simp only [List.cons_append, List.append_assoc, List.nil_append] at he
    rcases h'.unique_block he with ⟨content', rfl, hsame, hcontent'⟩ | ⟨rfl, hcontent'⟩
    · rw [block_unique hcontent hcontent' hsame]
    · exact absurd ⟨content, rest, by simp⟩ hcontent'
  | openBlock hcontent =>
    rw [List.append_nil] at he
    rcases h'.unique_block he with ⟨content', rfl, rfl, -⟩ | ⟨rfl, -⟩
    · exact absurd ⟨content', rest', by simp⟩ hcontent
    · rfl

/-- **A text is cut in one way.** -/
theorem Lexes.unique {sql : Str} {lexemes lexemes' : List Lexeme} (h : Lexes sql lexemes) (h' : Lexes sql lexemes') :
    lexemes' = lexemes := by
  induction hn : sql.length using Nat.strong_induction_on generalizing sql lexemes lexemes' with
  | _ n ih =>
    subst hn
    rcases h.inv with ⟨rfl, rfl⟩ | ⟨hopens, text, rest, front, rfl, rfl, hregion, hrest⟩ |
      ⟨hopens, u, rest, front, rfl, rfl, hrest⟩
    · rcases h'.inv with ⟨-, rfl⟩ | ⟨hopens, -⟩ | ⟨-, _, _, _, hsql, -⟩
      · rfl
      · exact absurd hopens not_opens_nil
      · cases hsql
    · rcases h'.inv with ⟨hsql, -⟩ | ⟨-, text', rest', front', hsql, rfl, hregion', hrest'⟩ | ⟨hnot, -⟩
      · exact absurd (hsql ▸ hopens) not_opens_nil
      · obtain rfl := hregion.unique hregion' hsql
        obtain rfl := List.append_cancel_left hsql
        have hpos := List.length_pos_of_ne_nil hregion.ne_nil
        rw [ih rest.length (by rw [List.length_append]; omega) hrest hrest' rfl]
      · exact absurd hopens hnot
    · rcases h'.inv with ⟨hsql, -⟩ | ⟨hyes, -⟩ | ⟨-, u', rest', front', hsql, rfl, hrest'⟩
      · cases hsql
      · exact absurd hyes hopens
      · obtain ⟨rfl, rfl⟩ := List.cons.inj hsql
        rw [ih rest.length (by rw [List.length_cons]; omega) hrest hrest' rfl]

/-! ## The loop over the pieces -/

/-- Texts written for the marks, in order. -/
def fill : List Str → List Lexeme → Str
  | _, [] => []
  | p :: ps, .mark :: lexemes => p ++ fill ps lexemes
  | ps, lexeme :: lexemes => lexeme.text ++ fill ps lexemes

def marks (lexemes : List Lexeme) : Nat := lexemes.countP Lexeme.isMark

variable {params : List Value} {index : Nat}

/-- A unit that starts no pair is copied alone. -/
theorem replaceFrom_copy {state : ScanState} {current : UInt16} {rest : Str}
    (hplace : ¬ state.isPlaceholder current = true) (hpair : ∀ next ∈ rest.head?, state.pair current next = none) :
    replaceFrom params state index (current :: rest) = current :: replaceFrom params (state.next current) index rest := by
  cases rest with
  | nil =>
    rw [replaceFrom.eq_def, replaceFrom.eq_def params (state.next current)]
    simp only [if_neg hplace]
  | cons next rest => exact replaceFrom_alone params index hplace (hpair next rfl)

/-- A state that ends at a quote alone. -/
structure ScanState.Quotes (state : ScanState) (quote : UInt16) : Prop where
  place : ∀ u, state.isPlaceholder u = false
  pair : ∀ u v, state.pair u v = if u = quote ∧ v = quote then some state else none
  next : ∀ u, state.next u = if u = quote then .normal else state

theorem quotes_single : ScanState.singleQuote.Quotes (unit '\'') := ⟨fun _ => rfl, fun _ _ => rfl, fun _ => rfl⟩

theorem quotes_double : ScanState.doubleQuote.Quotes (unit '"') := ⟨fun _ => rfl, fun _ _ => rfl, fun _ => rfl⟩

section quotes

variable {state : ScanState} {quote : UInt16} {content : Str}

theorem ScanState.Quotes.not_place (hs : state.Quotes quote) (u : UInt16) : ¬ state.isPlaceholder u = true := by
  rw [hs.place]; exact Bool.false_ne_true

theorem ScanState.Quotes.copy (hs : state.Quotes quote) {u : UInt16} (hu : u ≠ quote) (rest : Str) :
    Database.replaceFrom params state index (u :: rest) = u :: Database.replaceFrom params state index rest := by
  rw [replaceFrom_copy (hs.not_place u) (fun v _ => by rw [hs.pair, if_neg (fun h => hu h.1)]), hs.next, if_neg hu]

theorem ScanState.Quotes.copy_pair (hs : state.Quotes quote) (rest : Str) :
    Database.replaceFrom params state index (quote :: quote :: rest) =
      quote :: quote :: Database.replaceFrom params state index rest :=
  replaceFrom_pair params index (hs.not_place quote) (by rw [hs.pair, if_pos ⟨rfl, rfl⟩])

theorem ScanState.Quotes.replaceFrom (hs : state.Quotes quote) (h : Doubled quote content) {rest : Str}
    (hrest : rest.head? ≠ some quote) : Database.replaceFrom params state index (content ++ quote :: rest) =
      content ++ quote :: Database.replaceFrom params .normal index rest := by
  induction h with
  | nil =>
    have hpair : ∀ v ∈ rest.head?, state.pair quote v = none := fun v hv => by
      rw [hs.pair, if_neg]
      rintro ⟨-, rfl⟩
      exact hrest hv
    rw [List.nil_append, replaceFrom_copy (hs.not_place quote) hpair, hs.next, if_pos rfl, List.nil_append]
  | unit hu _ ih => rw [List.cons_append, hs.copy hu, ih, List.cons_append]
  | pair _ ih => rw [List.cons_append, List.cons_append, hs.copy_pair, ih, List.cons_append, List.cons_append]

theorem ScanState.Quotes.replaceFrom_open (hs : state.Quotes quote) (h : Doubled quote content) :
    Database.replaceFrom params state index content = content := by
  induction h with
  | nil => rw [Database.replaceFrom]
  | unit hu _ ih => rw [hs.copy hu, ih]
  | pair _ ih => rw [hs.copy_pair, ih]

end quotes

section comments

variable {content : Str}

theorem replaceFrom_lineUnit {u : UInt16} (rest : Str) : replaceFrom params .lineComment index (u :: rest) =
    u :: replaceFrom params (if u = unit '\n' then .normal else .lineComment) index rest :=
  replaceFrom_copy (by rw [ScanState.isPlaceholder]; simp) (fun _ _ => rfl)

theorem replaceFrom_line (h : unit '\n' ∉ content) (rest : Str) :
    replaceFrom params .lineComment index (content ++ unit '\n' :: rest) =
      content ++ unit '\n' :: replaceFrom params .normal index rest := by
  induction content with
  | nil => rw [List.nil_append, replaceFrom_lineUnit, if_pos rfl, List.nil_append]
  | cons u content ih =>
    obtain ⟨hu, h⟩ := not_or.1 (fun hor => h (List.mem_cons.2 hor))
    rw [List.cons_append, replaceFrom_lineUnit, if_neg (Ne.symm hu), ih h, List.cons_append]

theorem replaceFrom_openLine (h : unit '\n' ∉ content) : replaceFrom params .lineComment index content = content := by
  induction content with
  | nil => rw [replaceFrom]
  | cons u content ih =>
    obtain ⟨hu, h⟩ := not_or.1 (fun hor => h (List.mem_cons.2 hor))
    rw [replaceFrom_lineUnit, if_neg (Ne.symm hu), ih h]

/-- In a block comment a unit that does not begin `*/` is copied alone. -/
theorem replaceFrom_blockUnit {u : UInt16} {rest : Str} (h : ¬ [unit '*', unit '/'] <+: u :: rest) :
    replaceFrom params .blockComment index (u :: rest) = u :: replaceFrom params .blockComment index rest := by
  refine replaceFrom_copy (by rw [ScanState.isPlaceholder]; simp) (fun v hv => ?_)
  obtain ⟨rest, rfl⟩ := List.head?_eq_some_iff.1 hv
  rw [ScanState.pair, if_neg]
  rintro ⟨rfl, rfl⟩
  exact h ⟨rest, rfl⟩

theorem replaceFrom_block (h : ¬ [unit '*', unit '/'] <:+: content ++ [unit '*']) (rest : Str) :
    replaceFrom params .blockComment index (content ++ unit '*' :: unit '/' :: rest) =
      content ++ unit '*' :: unit '/' :: replaceFrom params .normal index rest := by
  induction content with
  | nil => exact replaceFrom_pair params index (by decide) rfl
  | cons u content ih =>
    obtain ⟨hbegins, h⟩ := not_or.1 (fun hor => h (List.infix_cons_iff.2 hor))
    have hunit : ¬ [unit '*', unit '/'] <+: u :: (content ++ unit '*' :: unit '/' :: rest) := fun hpre => by
      refine hbegins (List.prefix_of_prefix_length_le hpre ⟨unit '/' :: rest, by simp⟩ ?_)
      simp
    rw [List.cons_append, replaceFrom_blockUnit hunit, ih h, List.cons_append]

theorem replaceFrom_openBlock (h : ¬ [unit '*', unit '/'] <:+: content) :
    replaceFrom params .blockComment index content = content := by
  induction content with
  | nil => rw [replaceFrom]
  | cons u content ih =>
    obtain ⟨hbegins, h⟩ := not_or.1 (fun hor => h (List.infix_cons_iff.2 hor))
    rw [replaceFrom_blockUnit hbegins, ih h]

end comments

theorem exists_quotes {quote : UInt16} (hquote : quote ∈ [unit '\'', unit '"']) : ∃ state : ScanState,
    state.Quotes quote ∧ ∀ params index rest,
      replaceFrom params .normal index (quote :: rest) = quote :: replaceFrom params state index rest := by
  simp only [List.mem_cons, List.not_mem_nil, or_false] at hquote
  rcases hquote with rfl | rfl
  · exact ⟨.singleQuote, quotes_single, fun _ _ _ => replaceFrom_copy (by decide) (fun _ _ => rfl)⟩
  · exact ⟨.doubleQuote, quotes_double, fun _ _ _ => replaceFrom_copy (by decide) (fun _ _ => rfl)⟩

theorem replaceFrom_dashes (rest : Str) : replaceFrom params .normal index (unit '-' :: unit '-' :: rest) =
    unit '-' :: unit '-' :: replaceFrom params .lineComment index rest := replaceFrom_pair params index (by decide) rfl

theorem replaceFrom_slash (rest : Str) : replaceFrom params .normal index (unit '/' :: unit '*' :: rest) =
    unit '/' :: unit '*' :: replaceFrom params .blockComment index rest := replaceFrom_pair params index (by decide) rfl

/-- **A region is copied**, and the rest of the text is read from the normal state. -/
theorem replaceFrom_region {text rest : Str} (h : Region text rest) :
    replaceFrom params .normal index (text ++ rest) = text ++ replaceFrom params .normal index rest := by
  have hend : replaceFrom params .normal index [] = [] := by rw [replaceFrom]
  cases h with
  | @quoted quote content _ hquote h hrest =>
    obtain ⟨state, hstate, hopen⟩ := exists_quotes hquote
    simp only [List.cons_append, List.append_assoc, List.nil_append, hopen, hstate.replaceFrom h hrest]
  | openQuoted hquote h =>
    obtain ⟨state, hstate, hopen⟩ := exists_quotes hquote
    rw [List.append_nil, hopen, hstate.replaceFrom_open h, hend, List.append_nil]
  | line h => simpa [replaceFrom_dashes] using replaceFrom_line h rest
  | openLine h => rw [List.append_nil, replaceFrom_dashes, replaceFrom_openLine h, hend, List.append_nil]
  | block h => simpa [replaceFrom_slash] using replaceFrom_block h rest
  | openBlock h => rw [List.append_nil, replaceFrom_slash, replaceFrom_openBlock h, hend, List.append_nil]

theorem fill_of_not_mark {lexeme : Lexeme} (h : lexeme.isMark = false) (ps : List Str) (lexemes : List Lexeme) :
    fill ps (lexeme :: lexemes) = lexeme.text ++ fill ps lexemes := by
  cases lexeme with
  | mark => cases h
  | region _ => cases ps <;> rfl
  | unit _ => cases ps <;> rfl

/-- **The loop writes the placeholders of its parameters for the marks and copies all other pieces.** -/
theorem Lexes.replaceFrom_eq {sql : Str} {lexemes : List Lexeme} (h : Lexes sql lexemes) (params : List Value)
    (index : Nat) : replaceFrom params .normal index sql =
      fill ((List.range' index (marks lexemes)).map (placeholder params)) lexemes := by
  induction h generalizing index with
  | nil => rw [replaceFrom, fill]
  | region hregion _ ih => rw [replaceFrom_region hregion, ih, fill_of_not_mark rfl]; rfl
  | @mark rest lexemes _ ih =>
    have hmarks : marks (.mark :: lexemes) = marks lexemes + 1 := List.countP_cons_of_pos rfl
    rw [replaceFrom_placeholder params index (by decide), ih, hmarks, List.range'_succ, List.map_cons, fill]
  | @unit u rest lexemes hquote hline hblock _ ih =>
    simp only [List.mem_cons, List.not_mem_nil, or_false, not_or] at hquote
    obtain ⟨hsingle, hdouble, hquestion⟩ := hquote
    have hplace : ¬ ScanState.normal.isPlaceholder u = true := by simpa [ScanState.isPlaceholder] using hquestion
    have hpair : ∀ v ∈ rest.head?, ScanState.normal.pair u v = none := fun v hv => by
      have hline : ¬ (u = Js.unit '-' ∧ v = Js.unit '-') := fun ⟨hu, hv'⟩ => hline ⟨hu, hv' ▸ hv⟩
      have hblock : ¬ (u = Js.unit '/' ∧ v = Js.unit '*') := fun ⟨hu, hv'⟩ => hblock ⟨hu, hv' ▸ hv⟩
      rw [ScanState.pair]
      simp only [if_neg hline, if_neg hblock]
    have hnext : ScanState.normal.next u = .normal := by
      rw [ScanState.next]
      simp only [if_neg hsingle, if_neg hdouble]
    rw [replaceFrom_copy hplace hpair, hnext, ih, fill_of_not_mark rfl]
    rfl

/-- The text that stands for a parameter: its number, and a cast when it is a BigInt or a finite number. -/
inductive PlaceholderOf (index : Nat) : Value → Str → Prop
  | bigint (i : Int) : PlaceholderOf index (.bigint i) (str "CAST($" ++ natStr index ++ str " AS BIGINT)")
  | integer {n : Number} (hfinite : n.isFinite = true) (h : n.isInteger = true) :
      PlaceholderOf index (.number n) (str "CAST($" ++ natStr index ++ str " AS BIGINT)")
  | double {n : Number} (hfinite : n.isFinite = true) (h : n.isInteger = false) :
      PlaceholderOf index (.number n) (str "CAST($" ++ natStr index ++ str " AS DOUBLE PRECISION)")
  | plain {v : Value} (hbigint : ∀ i, v ≠ .bigint i) (hnumber : ∀ n, v = .number n → n.isFinite = false) :
      PlaceholderOf index v (unit '$' :: natStr index)

theorem placeholderOf_placeholder (index : Nat) (v : Value) : PlaceholderOf index v (placeholderForValue index v) := by
  unfold placeholderForValue
  split
  · exact .bigint _
  · rename_i n
    split
    · rename_i hfinite
      split
      · rename_i hinteger
        exact .integer hfinite hinteger
      · rename_i hinteger
        exact .double hfinite (by simpa using hinteger)
    · rename_i hfinite
      exact .plain nofun (fun m hm => by cases hm; simpa using hfinite)
  · rename_i hbigint hnumber
    exact .plain hbigint (fun n hn => absurd hn (hnumber n))

/-- **A statement without `INSERT OR IGNORE` is copied but for its parameter marks**: for the marks stand the
placeholders of the parameters 1 to k, in order. -/
theorem translate_marks (sql : Str) (params : List Value) (hsql : matchInsertOrIgnore sql = none) :
    ∃ lexemes, Lexes sql lexemes ∧ (∀ lexemes', Lexes sql lexemes' → lexemes' = lexemes) ∧
      lexemes.flatMap Lexeme.text = sql ∧
      ∃ placeholders, translateSqliteSqlToPostgres sql params = fill placeholders lexemes ∧
        placeholders.length = lexemes.countP Lexeme.isMark ∧
        ∀ i (hi : i < placeholders.length), PlaceholderOf (i + 1) (params.getD i .undefined) placeholders[i] := by
  have hsame : rewriteInsertOrIgnore sql = sql := by
    rw [rewriteInsertOrIgnore, hsql]
  obtain ⟨lexemes, h⟩ := exists_lexes sql
  refine ⟨lexemes, h, fun lexemes' h' => h.unique h', h.text,
    (List.range' 0 (marks lexemes)).map (placeholder params), ?_, ?_, fun i hi => ?_⟩
  · rw [translateSqliteSqlToPostgres, hsame, replaceSqlitePlaceholders, h.replaceFrom_eq params 0]
  · rw [List.length_map, List.length_range']; rfl
  · rw [List.getElem_map, List.getElem_range', Nat.zero_add, Nat.one_mul]
    exact placeholderOf_placeholder (i + 1) _

theorem translate_marks_sample :
    translateSqliteSqlToPostgres (str "SELECT 'a''?' WHERE b = ? -- ?") [.bigint 7] =
      str "SELECT 'a''?' WHERE b = CAST($1 AS BIGINT) -- ?" ∧
    ∃ lexemes placeholders, Lexes (str "SELECT 'a''?' WHERE b = ? -- ?") lexemes ∧
      str "SELECT 'a''?' WHERE b = CAST($1 AS BIGINT) -- ?" = fill placeholders lexemes := by
  have htext : translateSqliteSqlToPostgres (str "SELECT 'a''?' WHERE b = ? -- ?") [.bigint 7] =
      str "SELECT 'a''?' WHERE b = CAST($1 AS BIGINT) -- ?" := by decide +kernel
  obtain ⟨lexemes, hlexemes, -, -, placeholders, hfill, -⟩ :=
    translate_marks (str "SELECT 'a''?' WHERE b = ? -- ?") [.bigint 7] (by decide)
  exact ⟨htext, lexemes, placeholders, hlexemes, htext ▸ hfill⟩

end Database
end Adg
