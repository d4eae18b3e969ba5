import AdgLang.SqlLexing
/-!
# InsertOrIgnore — the conflict clause of a rewritten insert

`rewriteInsertOrIgnore` takes `OR IGNORE` out and writes ` ON CONFLICT DO NOTHING` at the end, before a closing
semicolon.  The clause belongs to the statement (`InPlace`) exactly when the statement ends outside quotes and comments
and has no `RETURNING` clause and no semicolon before its end (`inPlace_iff`).  SQLite skips a row for any constraint it
violates and PostgreSQL only for a conflict with another row, so the inserts agree on rows that no `NOT NULL` and no
`CHECK` refuses.
-/
namespace Adg
namespace Database

open Js

/-! ## The match -/

/-- Units that a word of a pattern matches, in any text. -/
structure Matches (word : List Char) (t : Str) : Prop where
  reads : ∀ rest, afterWord word (t ++ rest) = some rest
  apart : ∀ u ∈ t, u ≠ unit ';' ∧ isSpace u = false
  ne_nil : t ≠ []

theorem mem_of_matchesLetter {letter : Char} {u : UInt16} (h : matchesLetter letter u = true) :
    u ∈ [unit letter, unit letter.toLower, 0x17F] := by
  simp only [matchesLetter, Bool.or_eq_true, Bool.and_eq_true, beq_iff_eq] at h
  simp only [List.mem_cons, List.not_mem_nil, or_false]
  tauto

theorem afterWord_spec : ∀ {word : List Char} {t rest : Str},
    (∀ letter ∈ word, ∀ u ∈ [unit letter, unit letter.toLower, 0x17F], u ≠ unit ';' ∧ isSpace u = false) →
    word ≠ [] → afterWord word t = some rest → ∃ p, t = p ++ rest ∧ Matches word p
  | [], _, _, _, hne, _ => absurd rfl hne
  | letter :: word, [], _, _, _, h => by cases h
  | letter :: word, u :: t, rest, hword, _, h => by
    rw [afterWord] at h
    split at h
    · rename_i hletter
      obtain ⟨hhead, hword⟩ := List.forall_mem_cons.1 hword
      have hu := hhead u (mem_of_matchesLetter hletter)
      cases word with
      | nil =>
        cases h
        refine ⟨[u], rfl, fun rest => ?_, by simpa using hu, List.cons_ne_nil _ _⟩
        simp [afterWord, hletter]
      | cons letter' word =>
        obtain ⟨p, rfl, hp⟩ := afterWord_spec hword (List.cons_ne_nil _ _) h
        refine ⟨u :: p, rfl, fun rest => ?_, List.forall_mem_cons.2 ⟨hu, hp.apart⟩, List.cons_ne_nil _ _⟩
        rw [List.cons_append, afterWord, if_pos hletter, hp.reads]
    · cases h

/-- A text that does not begin with white space. -/
def Unspaced (t : Str) : Prop := t.head?.any isSpace = false

theorem Matches.unspaced {word : List Char} {t : Str} (h : Matches word t) (rest : Str) : Unspaced (t ++ rest) := by
  obtain ⟨u, t', rfl⟩ := List.exists_cons_of_ne_nil h.ne_nil
  simpa [Unspaced] using (h.apart u List.mem_cons_self).2

theorem dropWhile_spaces {p t : Str} (hp : ∀ u ∈ p, isSpace u = true) (ht : Unspaced t) :
    (p ++ t).dropWhile isSpace = t := by
  rw [List.dropWhile_append_of_pos hp]
  cases t with
  | nil => rfl
  | cons u t => rw [List.dropWhile_cons_of_neg (by simpa [Unspaced] using ht)]

theorem exists_spaces (t : Str) : ∃ p, (∀ u ∈ p, isSpace u = true) ∧ t = p ++ t.dropWhile isSpace :=
  ⟨t.takeWhile isSpace, fun _ hu => List.all_eq_true.1 List.all_takeWhile _ hu, List.takeWhile_append_dropWhile.symm⟩

theorem unspaced_dropWhile (t : Str) : Unspaced (t.dropWhile isSpace) := by
  have h := List.head?_dropWhile_not isSpace t
  unfold Unspaced
  cases hhead : (t.dropWhile isSpace).head? with
  | none => rfl
  | some u => simpa [hhead] using h

theorem afterSpaces_append {p t : Str} (hne : p ≠ []) (hp : ∀ u ∈ p, isSpace u = true) (ht : Unspaced t) :
    afterSpaces (p ++ t) = some t := by
  obtain ⟨u, p', rfl⟩ := List.exists_cons_of_ne_nil hne
  have hu : isSpace u = true := hp u List.mem_cons_self
  rw [afterSpaces, dropWhile_spaces hp ht, if_pos (by simpa using hu)]

theorem afterSpaces_spec {t rest : Str} (h : afterSpaces t = some rest) :
    ∃ p, t = p ++ rest ∧ p ≠ [] ∧ ∀ u ∈ p, isSpace u = true := by
  rw [afterSpaces] at h
  split at h
  · rename_i hspace
    obtain ⟨p, hp, ht⟩ := exists_spaces t
    cases h
    refine ⟨p, ht, ?_, hp⟩
    rintro rfl
    have hunspaced := unspaced_dropWhile t
    rw [← List.nil_append (t.dropWhile isSpace), ← ht, Unspaced, hspace] at hunspaced
    cases hunspaced
  · cases h

/-- What the pattern matched of a text: the start that stays, the words taken out, and the text after them. -/
structure Matched (sql head words rest : Str) : Prop where
  text : sql = head ++ (words ++ rest)
  head_apart : unit ';' ∉ head
  words_apart : unit ';' ∉ words
  boundary : rest.head?.any isWordUnit = false
  again : ∀ rest', rest'.head?.any isWordUnit = false →
    matchInsertOrIgnore (head ++ (words ++ rest')) = some (head, rest')

theorem notMem_semicolon {p : Str} (hp : ∀ u ∈ p, isSpace u = true) : unit ';' ∉ p := fun h =>
  absurd (hp _ h) (by decide)

theorem matched_of_parts {lead insert gap or_ gap' ignore : Str} (hlead : ∀ u ∈ lead, isSpace u = true)
    (hinsert : Matches "INSERT".toList insert) (hgap : ∀ u ∈ gap, isSpace u = true) (hne : gap ≠ [])
    (hor : Matches "OR".toList or_) (hgap' : ∀ u ∈ gap', isSpace u = true) (hne' : gap' ≠ [])
    (hignore : Matches "IGNORE".toList ignore) {rest : Str} (hrest : rest.head?.any isWordUnit = false) :
    matchInsertOrIgnore (lead ++ (insert ++ (gap ++ (or_ ++ (gap' ++ (ignore ++ rest)))))) =
      some (lead ++ (insert ++ gap), rest) := by
  have hor' := hor.unspaced (gap' ++ (ignore ++ rest))
  have htake : (lead ++ (insert ++ (gap ++ (or_ ++ (gap' ++ (ignore ++ rest)))))).take
      ((lead ++ (insert ++ (gap ++ (or_ ++ (gap' ++ (ignore ++ rest)))))).length -
        (or_ ++ (gap' ++ (ignore ++ rest))).length) = lead ++ (insert ++ gap) := by
    have hsplit : lead ++ (insert ++ (gap ++ (or_ ++ (gap' ++ (ignore ++ rest))))) =
        (lead ++ (insert ++ gap)) ++ (or_ ++ (gap' ++ (ignore ++ rest))) := by simp only [List.append_assoc]
    rw [hsplit, List.length_append, Nat.add_sub_cancel, List.take_left']
    rfl
  unfold matchInsertOrIgnore
  rw [dropWhile_spaces hlead (hinsert.unspaced _), hinsert.reads]
  simp only [Option.bind_eq_bind, Option.bind_some]
  rw [afterSpaces_append hne hgap hor', Option.bind_some, htake, hor.reads, Option.bind_some,
    afterSpaces_append hne' hgap' (hignore.unspaced rest), Option.bind_some, hignore.reads, Option.bind_some, if_neg]
  · rfl
  · simp [hrest]

theorem matchInsertOrIgnore_spec {sql head rest : Str} (h : matchInsertOrIgnore sql = some (head, rest)) :
    ∃ words, Matched sql head words rest := by
  have hparts := h
  unfold matchInsertOrIgnore at hparts
  simp only [Option.bind_eq_bind, Option.bind_eq_some_iff] at hparts
  obtain ⟨t₁, h₁, t₂, h₂, t₃, h₃, t₄, h₄, t₅, h₅, hparts⟩ := hparts
  split at hparts
  · cases hparts
  rename_i hword
  rw [Bool.not_eq_true] at hword
  obtain ⟨lead, hlead, hsql⟩ := exists_spaces sql
  obtain ⟨insert, ht₁, hinsert⟩ := afterWord_spec (forall_mem_of_all (by decide)) (by decide) h₁
  obtain ⟨gap, rfl, hne, hgap⟩ := afterSpaces_spec h₂
  obtain ⟨or_, rfl, hor⟩ := afterWord_spec (forall_mem_of_all (by decide)) (by decide) h₃
  obtain ⟨gap', rfl, hne', hgap'⟩ := afterSpaces_spec h₄
  obtain ⟨ignore, rfl, hignore⟩ := afterWord_spec (forall_mem_of_all (by decide)) (by decide) h₅
  rw [ht₁] at hsql
  have hagain : ∀ {rest' : Str}, rest'.head?.any isWordUnit = false →
      matchInsertOrIgnore (lead ++ (insert ++ (gap ++ (or_ ++ (gap' ++ (ignore ++ rest')))))) =
        some (lead ++ (insert ++ gap), rest') := matched_of_parts hlead hinsert hgap hne hor hgap' hne' hignore
  have hsame := hagain hword
  rw [← hsql, h] at hsame
  cases hsame
  have happart : ∀ {word : List Char} {p : Str}, Matches word p → unit ';' ∉ p := fun hp hmem => (hp.apart _ hmem).1 rfl
  refine ⟨or_ ++ (gap' ++ ignore), by rw [hsql]; simp only [List.append_assoc], ?_, ?_, hword,
    fun rest' hrest' => ?_⟩
  · simp only [List.mem_append, not_or]
    exact ⟨notMem_semicolon hlead, happart hinsert, notMem_semicolon hgap⟩
  · simp only [List.mem_append, not_or]
    exact ⟨happart hor, notMem_semicolon hgap', happart hignore⟩
  · have hrest := hagain hrest'
    simp only [List.append_assoc] at hrest ⊢
    exact hrest

/-! ## The statement and its clause -/

/-- A text split at its closing semicolon, with the white space after it. -/
theorem splitTrailingSemicolon_cases (sql : Str) : splitTrailingSemicolon sql = (sql, []) ∨
    ∃ body spaces, sql = body ++ unit ';' :: spaces ∧ (∀ u ∈ spaces, isSpace u = true) ∧
      splitTrailingSemicolon sql = (body, unit ';' :: spaces) := by
  unfold splitTrailingSemicolon
  simp only
  split
  · rename_i hlast
    right
    obtain ⟨front, hfront⟩ := List.getLast?_eq_some_iff.1 hlast
    refine ⟨front, (sql.reverse.takeWhile isSpace).reverse, ?_, fun u hu => ?_, ?_⟩
    · have hsql : sql = (sql.reverse.dropWhile isSpace).reverse ++ (sql.reverse.takeWhile isSpace).reverse := by
        rw [← List.reverse_append, List.takeWhile_append_dropWhile, List.reverse_reverse]
      rw [hfront, List.append_assoc] at hsql
      exact hsql
    · exact List.all_eq_true.1 List.all_takeWhile u (List.mem_reverse.1 hu)
    · rw [hfront, List.dropLast_concat]
  · exact .inl rfl

/-- The text without the words `OR IGNORE`. -/
def withoutOrIgnore (sql : Str) : Str :=
  match matchInsertOrIgnore sql with
  | some (head, rest) => head ++ rest
  | none => sql

def conflictClause : Str := str " ON CONFLICT DO NOTHING"

/-- The statement proper: the text without `OR IGNORE`, up to a semicolon at its end. -/
def statementProper (sql : Str) : Str := withoutOrIgnore (splitTrailingSemicolon sql).1

/-- **The clause is written at the end of the statement proper.** -/
theorem rewriteInsertOrIgnore_eq {sql : Str} (h : (matchInsertOrIgnore sql).isSome = true) :
    withoutOrIgnore sql = statementProper sql ++ (splitTrailingSemicolon sql).2 ∧
      rewriteInsertOrIgnore sql = statementProper sql ++ (conflictClause ++ (splitTrailingSemicolon sql).2) := by
  obtain ⟨⟨head, rest⟩, hmatch⟩ := Option.isSome_iff_exists.1 h
  rcases splitTrailingSemicolon_cases sql with hsplit | ⟨body, spaces, hsql, hspaces, hsplit⟩
  · have hwithout : withoutOrIgnore sql = head ++ rest := by rw [withoutOrIgnore, hmatch]
    rw [rewriteInsertOrIgnore, statementProper, hsplit, hwithout]
    simp only [hmatch, List.append_nil, List.append_assoc]
    exact ⟨trivial, rfl⟩
  · obtain ⟨words, hmatched⟩ := matchInsertOrIgnore_spec hmatch
    have hparts : (head ++ words) ++ rest = body ++ unit ';' :: spaces := by
      rw [List.append_assoc, ← hmatched.text, hsql]
    have hrest : ∃ rest₀, body = head ++ (words ++ rest₀) ∧ rest = rest₀ ++ unit ';' :: spaces := by
      rcases List.append_eq_append_iff.1 hparts with ⟨rest₀, hbody, hrest⟩ | ⟨inner, hinner, hsemicolon⟩
      · exact ⟨rest₀, by rw [hbody, List.append_assoc], hrest⟩
      · cases inner with
        | nil => exact ⟨[], by rw [← List.append_assoc, hinner]; simp, hsemicolon.symm⟩
        | cons u inner =>
          obtain ⟨rfl, -⟩ := List.cons.inj hsemicolon
          have hmem : unit ';' ∈ head ++ words := by rw [hinner]; simp
          exact absurd hmem (by simp [hmatched.head_apart, hmatched.words_apart])
    obtain ⟨rest₀, rfl, rfl⟩ := hrest
    have hboundary : rest₀.head?.any isWordUnit = false := by
      cases rest₀ with
      | nil => rfl
      | cons u rest₀ => exact hmatched.boundary
    have hbody := hmatched.again rest₀ hboundary
    rw [rewriteInsertOrIgnore, statementProper, withoutOrIgnore, withoutOrIgnore, hsplit]
    simp only [hmatch, hbody, List.append_assoc]
    exact ⟨trivial, rfl⟩

/-! ## Executable text -/

/-- A unit that goes on a word of SQL. -/
def isIdentifierUnit (u : UInt16) : Bool := isWordUnit u || u == unit '$' || decide (0x80 ≤ u.toNat)

/-- The text outside quotes and comments, a blank for each region. -/
def code (lexemes : List Lexeme) : Str := lexemes.flatMap (fun lexeme =>
  match lexeme with
  | .region _ => [unit ' ']
  | .mark => [unit '?']
  | .unit u => [u])

/-- The word `RETURNING` stands here. -/
def startsReturning (t : Str) : Bool := (afterWord "RETURNING".toList t).any (fun rest => !rest.head?.any isIdentifierUnit)

/-- A statement ends in this code: a semicolon, or a `RETURNING` outside parentheses and not within a word. -/
def Ends (t : Str) : Prop := unit ';' ∈ t ∨ ∃ front back, t = front ++ back ∧ startsReturning back = true ∧
  front.getLast?.any isIdentifierUnit = false ∧ front.count (unit '(') ≤ front.count (unit ')')

/-- Nothing more of a statement's own: white space, then the end, a semicolon or `RETURNING`. -/
def AtEnd (t : Str) : Prop := t.head?.any isIdentifierUnit = false ∧
  (t.dropWhile isSpace = [] ∨ (t.dropWhile isSpace).head? = some (unit ';') ∨
    startsReturning (t.dropWhile isSpace) = true)

/-- The text is the statement with the conflict clause written into it: the clause is read outside quotes and comments,
no semicolon and no `RETURNING` clause stands before it, and nothing else of the statement after it. -/
def InPlace (statement text : Str) : Prop := ∃ pre post front back, statement = pre ++ post ∧
  text = pre ++ (conflictClause ++ post) ∧ Lexes text (front ++ (conflictClause.map .unit ++ back)) ∧
  front.flatMap Lexeme.text = pre ∧ ¬ Ends (code front) ∧ AtEnd (code back)

/-- What is written after the text is read outside quotes and comments, and belongs to the text's statement. -/
def Continues (t : Str) : Prop := ∃ lexemes, Lexes (t ++ [unit ' ']) (lexemes ++ [.unit (unit ' ')]) ∧
  lexemes.flatMap Lexeme.text = t ∧ ¬ Ends (code lexemes)

/-! ## Lexing in two parts -/

/-- A region that does not run to the end of the text is one before any text that begins alike. -/
theorem Region.congr {text rest rest' : Str} (h : Region text rest) (hne : rest ≠ []) (hhead : rest'.head? = rest.head?) :
    Region text rest' := by
  cases h with
  | quoted hquote h hrest => exact .quoted hquote h (hhead ▸ hrest)
  | openQuoted => exact absurd rfl hne
  | line h => exact .line h
  | openLine => exact absurd rfl hne
  | block h => exact .block h
  | openBlock => exact absurd rfl hne

theorem head?_append_congr (t : Str) {rest rest' : Str} (h : rest'.head? = rest.head?) :
    (t ++ rest').head? = (t ++ rest).head? := by
  cases t with
  | nil => exact h
  | cons u t => rfl

theorem Lexes.ne_nil {sql : Str} {lexemes : List Lexeme} (h : Lexes sql lexemes) (hne : lexemes ≠ []) : sql ≠ [] := by
  cases h with
  | nil => exact absurd rfl hne
  | region hregion _ => simp [hregion.ne_nil]
  | mark _ => exact List.cons_ne_nil _ _
  | unit _ _ _ _ => exact List.cons_ne_nil _ _

/-- **A lexing is cut between two pieces**: the first part is also that of any text going on alike. -/
theorem Lexes.cut : ∀ {front back : List Lexeme} {sql : Str}, back ≠ [] → Lexes sql (front ++ back) →
    ∃ rest, sql = front.flatMap Lexeme.text ++ rest ∧ Lexes rest back ∧ ∀ rest' back', rest'.head? = rest.head? →
      Lexes rest' back' → Lexes (front.flatMap Lexeme.text ++ rest') (front ++ back')
  | [], back, sql, _, h => ⟨sql, rfl, h, fun _ _ _ h' => h'⟩
  | lexeme :: front, back, sql, hne, h => by
    cases h with
    | region hregion h =>
      obtain ⟨rest, rfl, hback, hagain⟩ := h.cut hne
      refine ⟨rest, by simp [Lexeme.text], hback, fun rest' back' hhead h' => ?_⟩
      have hmore : front.flatMap Lexeme.text ++ rest ≠ [] := by simp [hback.ne_nil hne]
      rw [List.flatMap_cons, List.append_assoc]
      exact .region (hregion.congr hmore (head?_append_congr _ hhead)) (hagain rest' back' hhead h')
    | mark h =>
      obtain ⟨rest, rfl, hback, hagain⟩ := h.cut hne
      exact ⟨rest, rfl, hback, fun rest' back' hhead h' => .mark (hagain rest' back' hhead h')⟩
    | unit hquote hline hblock h =>
      obtain ⟨rest, rfl, hback, hagain⟩ := h.cut hne
      refine ⟨rest, rfl, hback, fun rest' back' hhead h' => ?_⟩
      rw [← head?_append_congr _ hhead] at hline hblock
      exact .unit hquote hline hblock (hagain rest' back' hhead h')

/-- A unit that begins no region and is no mark. -/
def Single (u : UInt16) : Prop := u ∉ [unit '\'', unit '"', unit '?', unit '-', unit '/']

instance (u : UInt16) : Decidable (Single u) := inferInstanceAs (Decidable (u ∉ _))

theorem Lexes.units {t rest : Str} {lexemes : List Lexeme} (h : ∀ u ∈ t, Single u) (hrest : Lexes rest lexemes) :
    Lexes (t ++ rest) (t.map .unit ++ lexemes) := by
  induction t with
  | nil => exact hrest
  | cons u t ih =>
    obtain ⟨hu, h⟩ := List.forall_mem_cons.1 h
    simp only [Single, List.mem_cons, List.not_mem_nil, or_false, not_or] at hu
    obtain ⟨hsingle, hdouble, hmark, hdash, hslash⟩ := hu
    exact .unit (by simp [hsingle, hdouble, hmark]) (fun h => hdash h.1) (fun h => hslash h.1) (ih h)

theorem lexes_single {t : Str} (h : ∀ u ∈ t, Single u) : Lexes t (t.map .unit) := by
  simpa using Lexes.units h .nil

theorem Lexes.single_inv {u : UInt16} {t : Str} {lexemes : List Lexeme} (hu : Single u) (h : Lexes (u :: t) lexemes) :
    ∃ lexemes', lexemes = .unit u :: lexemes' ∧ Lexes t lexemes' := by
  simp only [Single, List.mem_cons, List.not_mem_nil, or_false, not_or] at hu
  obtain ⟨hsingle, hdouble, hmark, hdash, hslash⟩ := hu
  generalize hsql : u :: t = sql at h
  cases h with
  | nil => cases hsql
  | region hregion h =>
    cases hregion <;> (obtain ⟨rfl, -⟩ := List.cons.inj hsql; simp_all)
  | mark h => exact absurd (List.cons.inj hsql).1 hmark
  | unit _ _ _ h =>
    obtain ⟨rfl, rfl⟩ := List.cons.inj hsql
    exact ⟨_, rfl, h⟩

theorem Lexes.unit_inv {u : UInt16} {sql : Str} {back : List Lexeme} (h : Lexes sql (.unit u :: back)) :
    ∃ rest, sql = u :: rest ∧ Lexes rest back := by
  cases h with
  | unit _ _ _ h => exact ⟨_, rfl, h⟩

/-- Units taken off both a text and its lexing. -/
theorem Lexes.of_units : ∀ {t post : Str} {back : List Lexeme}, Lexes (t ++ post) (t.map .unit ++ back) → Lexes post back
  | [], _, _, h => h
  | u :: t, post, back, h => by
    obtain ⟨rest, hrest, h⟩ := h.unit_inv
    obtain ⟨-, rfl⟩ := List.cons.inj hrest
    exact h.of_units

theorem single_of_isSpace {u : UInt16} (h : isSpace u = true) : Single u := by
  intro hmem
  simp only [List.mem_cons, List.not_mem_nil, or_false] at hmem
  rcases hmem with rfl | rfl | rfl | rfl | rfl <;> revert h <;> decide

theorem single_conflictClause : ∀ u ∈ conflictClause, Single u := by decide

/-! ## The clause in its place -/

theorem code_units (t : Str) : code (t.map .unit) = t := by
  induction t with
  | nil => rfl
  | cons u t ih => exact congrArg (u :: ·) ih

/-- What the code writes after the clause is a semicolon with white space, or nothing. -/
theorem trailing_spec (sql : Str) : (∀ u ∈ (splitTrailingSemicolon sql).2, Single u) ∧
    AtEnd (splitTrailingSemicolon sql).2 ∧ (splitTrailingSemicolon sql).2.head? ≠ some (unit ' ') := by
  rcases splitTrailingSemicolon_cases sql with h | ⟨body, spaces, -, hspaces, h⟩
  · rw [h]
    exact ⟨nofun, ⟨rfl, .inl rfl⟩, nofun⟩
  · rw [h]
    refine ⟨List.forall_mem_cons.2 ⟨by decide, fun u hu => single_of_isSpace (hspaces u hu)⟩, ⟨rfl, ?_⟩, by simp; decide⟩
    rw [List.dropWhile_cons_of_neg (by decide)]
    exact .inr (.inl rfl)

theorem continues_inPlace {t trailing : Str} (hsingle : ∀ u ∈ trailing, Single u) (hend : AtEnd trailing)
    (h : Continues t) : InPlace (t ++ trailing) (t ++ (conflictClause ++ trailing)) := by
  obtain ⟨lexemes, hlexes, rfl, hends⟩ := h
  obtain ⟨rest, hrest, hblank, hagain⟩ := hlexes.cut (List.cons_ne_nil _ _)
  obtain rfl := List.append_cancel_left hrest
  have hclause : Lexes (conflictClause ++ trailing) (conflictClause.map .unit ++ trailing.map .unit) := by
    rw [← List.map_append]
    exact lexes_single (fun u hu => (List.mem_append.1 hu).elim (single_conflictClause u) (hsingle u))
  refine ⟨_, trailing, lexemes, trailing.map .unit, rfl, rfl, hagain _ _ rfl hclause, rfl, hends, ?_⟩
  rw [code_units]
  exact hend

/-- Where a text can be moved across the clause, it begins as the clause does. -/
theorem moved_head {moved : Str} (hne : moved ≠ []) (h : conflictClause ++ moved = moved ++ conflictClause) :
    ∃ rest, moved = unit ' ' :: unit 'O' :: rest := by
  obtain ⟨clause, hclause⟩ : ∃ clause, conflictClause = unit ' ' :: unit 'O' :: clause := ⟨_, rfl⟩
  rcases moved with - | ⟨u, - | ⟨v, rest⟩⟩
  · exact absurd rfl hne
  · have hdiffer : unit 'O' ≠ unit ' ' := by decide
    exact absurd h (by rw [hclause]; simp [hdiffer])
  · rw [hclause] at h
    simp only [List.cons_append, List.cons.injEq] at h
    obtain ⟨rfl, rfl, -⟩ := h
    exact ⟨rest, rfl⟩

/-- The clause itself is more of a statement. -/
theorem not_atEnd_clause {rest : Str} {back : List Lexeme} (h : Lexes (unit ' ' :: unit 'O' :: rest) back) :
    ¬ AtEnd (code back) := by
  obtain ⟨back₁, rfl, h₁⟩ := h.single_inv (by decide)
  obtain ⟨back, rfl, -⟩ := h₁.single_inv (by decide)
  have hcode : (code (.unit (unit ' ') :: .unit (unit 'O') :: back)).dropWhile isSpace = unit 'O' :: code back := by
    show (unit ' ' :: unit 'O' :: code back).dropWhile isSpace = _
    rw [List.dropWhile_cons_of_pos (by decide), List.dropWhile_cons_of_neg (by decide)]
  rintro ⟨-, h⟩
  rw [hcode] at h
  rcases h with h | h | h
  · exact List.cons_ne_nil _ _ h
  · exact absurd (Option.some.inj h) (by decide)
  · have hword : afterWord "RETURNING".toList (unit 'O' :: code back) = none := rfl
    rw [startsReturning, hword] at h
    cases h

/-- The clause is written in one place only. -/
theorem inPlace_pre {t trailing pre post : Str} {back : List Lexeme} (hblank : trailing.head? ≠ some (unit ' '))
    (hstatement : t ++ trailing = pre ++ post) (htext : t ++ (conflictClause ++ trailing) = pre ++ (conflictClause ++ post))
    (hpost : Lexes post back) (hend : AtEnd (code back)) : pre = t := by
  rcases List.append_eq_append_iff.1 hstatement with ⟨moved, rfl, rfl⟩ | ⟨moved, rfl, rfl⟩
  · -- The clause would stand within what follows it.
    cases moved with
    | nil => exact List.append_nil t
    | cons u moved =>
      rw [List.append_assoc] at htext
      have hhead := congrArg List.head? (List.append_cancel_left htext)
      exact absurd hhead.symm hblank
  · -- The clause would stand before the end, with a text after it that begins as the clause does.
    by_cases hne : moved = []
    · rw [hne, List.append_nil]
    · rw [List.append_assoc] at htext
      have hmoved := List.append_cancel_left htext
      rw [← List.append_assoc, ← List.append_assoc] at hmoved
      obtain ⟨rest, rfl⟩ := moved_head hne (List.append_cancel_right hmoved).symm
      exact absurd hend (not_atEnd_clause hpost)

/-- **The clause is in its place exactly when the statement proper goes on at its end.** -/
theorem inPlace_iff {sql : Str} (h : (matchInsertOrIgnore sql).isSome = true) :
    InPlace (withoutOrIgnore sql) (rewriteInsertOrIgnore sql) ↔ Continues (statementProper sql) := by
  obtain ⟨hwithout, hrewrite⟩ := rewriteInsertOrIgnore_eq h
  obtain ⟨hsingle, hend, hblank⟩ := trailing_spec sql
  rw [hwithout, hrewrite]
  refine ⟨?_, continues_inPlace hsingle hend⟩
  rintro ⟨pre, post, front, back, hstatement, htext, hlexes, hfront, hends, hback⟩
  have hne : conflictClause.map Lexeme.unit ++ back ≠ [] := by simp [conflictClause, str]
  obtain ⟨rest, hrest, hclause, hagain⟩ := hlexes.cut hne
  rw [hfront, htext] at hrest
  obtain rfl := List.append_cancel_left hrest
  have hpost : Lexes post back := hclause.of_units
  have hpre := inPlace_pre hblank hstatement htext hpost hback
  have hcontinue := hagain [unit ' '] [.unit (unit ' ')] rfl (lexes_single (by decide))
  rw [hfront, hpre] at hcontinue
  exact ⟨front, hcontinue, by rw [hfront, hpre], hends⟩

/-! ## Rows -/

/-- The constraints of a table: keys no two rows may share, conditions no row may break. -/
structure Constraints (Row : Type) where
  keys : List (Row → Row → Bool)
  notNull : List (Row → Bool)
  check : List (Row → Bool)

section rows

variable {Row : Type} (c : Constraints Row)

/-- A row that a `UNIQUE` or `PRIMARY KEY` constraint refuses beside the rows there. -/
def Constraints.conflicts (rows : List Row) (row : Row) : Bool := rows.any (fun other => c.keys.any (fun key => key other row))

/-- A row that meets every `NOT NULL` and `CHECK`. -/
def Constraints.admits (row : Row) : Bool := c.notNull.all (fun holds => holds row) && c.check.all (fun holds => holds row)

/-- `INSERT OR IGNORE` in SQLite: a row that violates a constraint is left out. -/
def Constraints.insertOrIgnore (rows : List Row) (row : Row) : Option (List Row) :=
  if !c.admits row || c.conflicts rows row then some rows else some (rows ++ [row])

/-- `INSERT … ON CONFLICT DO NOTHING` in PostgreSQL: a row that conflicts is left out, and one that violates another
constraint fails the statement. -/
def Constraints.insertOnConflictDoNothing (rows : List Row) (row : Row) : Option (List Row) :=
  if !c.admits row then none else if c.conflicts rows row then some rows else some (rows ++ [row])

theorem Constraints.insert_eq_iff (rows : List Row) (row : Row) :
    c.insertOrIgnore rows row = c.insertOnConflictDoNothing rows row ↔ c.admits row = true := by
  unfold Constraints.insertOrIgnore Constraints.insertOnConflictDoNothing
  cases c.admits row <;> simp

theorem Constraints.insertOrIgnore_isSome (rows new : List Row) :
    (new.foldlM c.insertOrIgnore rows).isSome = true := by
  induction new generalizing rows with
  | nil => rfl
  | cons row new ih =>
    rw [List.foldlM_cons, insertOrIgnore]
    split
    · exact ih rows
    · exact ih (rows ++ [row])

/-- **The rows of one statement come out alike exactly when no row breaks a `NOT NULL` or a `CHECK`.** -/
theorem Constraints.insertAll_eq_iff (rows new : List Row) :
    new.foldlM c.insertOrIgnore rows = new.foldlM c.insertOnConflictDoNothing rows ↔ ∀ row ∈ new, c.admits row = true := by
  induction new generalizing rows with
  | nil => simp
  | cons row new ih =>
    rw [List.foldlM_cons, List.foldlM_cons, List.forall_mem_cons]
    cases hadmits : c.admits row with
    | false =>
      have hrefused : c.insertOnConflictDoNothing rows row = none := by simp [insertOnConflictDoNothing, hadmits]
      have hsome := c.insertOrIgnore_isSome rows (row :: new)
      rw [List.foldlM_cons] at hsome
      rw [hrefused]
      refine ⟨fun h => ?_, fun h => absurd h.1 Bool.false_ne_true⟩
      rw [h] at hsome
      cases hsome
    | true =>
      have hsame := (c.insert_eq_iff rows row).2 hadmits
      rw [← hsame, and_iff_right rfl]
      cases hstep : c.insertOrIgnore rows row with
      | none => exact absurd (c.insertOrIgnore_isSome rows [row]) (by simp [hstep])
      | some rows' => exact ih rows'

/-- **The rewritten statement is the original one exactly when it ends in code, without a `RETURNING` clause, and no row
breaks a `NOT NULL` or a `CHECK`.** -/
theorem insertOrIgnore_iff (sql : Str) (hsql : (matchInsertOrIgnore sql).isSome = true) (rows new : List Row) :
    (InPlace (withoutOrIgnore sql) (rewriteInsertOrIgnore sql) ∧
        new.foldlM c.insertOrIgnore rows = new.foldlM c.insertOnConflictDoNothing rows) ↔
      Continues (statementProper sql) ∧ ∀ row ∈ new, c.admits row = true := by
  rw [inPlace_iff hsql, c.insertAll_eq_iff rows new]

end rows

/-- A `NOT NULL` column and a key. -/
def probeConstraints : Constraints (Option Nat) where
  keys := [fun row other => row == other]
  notNull := [Option.isSome]
  check := []

def closedInsert : Str := str "insert or ignore INTO probe VALUES (1); "

theorem insertOrIgnore_iff_sample :
    InPlace (withoutOrIgnore closedInsert) (rewriteInsertOrIgnore closedInsert) ∧
      [some 1, some 1].foldlM probeConstraints.insertOrIgnore [] =
        [some 1, some 1].foldlM probeConstraints.insertOnConflictDoNothing [] := by
  refine (insertOrIgnore_iff probeConstraints closedInsert (by decide +kernel) [] [some 1, some 1]).2 ⟨?_, by decide⟩
  have hproper : statementProper closedInsert = str "insert  INTO probe VALUES (1)" := by decide +kernel
  have hword : ∀ i < 30, startsReturning ((str "insert  INTO probe VALUES (1)").drop i) = false := by decide +kernel
  have hsingle : ∀ u ∈ str "insert  INTO probe VALUES (1)" ++ [unit ' '], Single u := by decide +kernel
  have hlexes := lexes_single hsingle
  rw [List.map_append] at hlexes
  rw [hproper]
  refine ⟨_, hlexes, by rw [List.flatMap_map]; exact List.flatMap_singleton' _, ?_⟩
  rw [code_units]
  rintro (hsemicolon | ⟨front, back, ht, hreturning, -⟩)
  · exact absurd hsemicolon (by decide +kernel)
  · have hlength := congrArg List.length ht
    have h := hword front.length (by simp [str] at hlength; omega)
    rw [ht, List.drop_left, hreturning] at h
    cases h

/-- A statement with a comment at its end. -/
def notedInsert : Str := str "INSERT OR IGNORE INTO probe VALUES (1) -- note"

/-- **A comment at the end of the statement takes the clause in**, and a row with a missing value is left out by SQLite and
an error in PostgreSQL. -/
theorem not_insertOrIgnore :
    (translateSqliteSqlToPostgres notedInsert [] = str "INSERT  INTO probe VALUES (1) -- note ON CONFLICT DO NOTHING" ∧
      ¬ InPlace (withoutOrIgnore notedInsert) (rewriteInsertOrIgnore notedInsert)) ∧
    probeConstraints.insertOrIgnore [] none = some [] ∧ probeConstraints.insertOnConflictDoNothing [] none = none := by
  refine ⟨⟨by decide +kernel, fun h => ?_⟩, rfl, rfl⟩
  have hcontinues := (inPlace_iff (by decide +kernel)).1 h
  have hproper : statementProper notedInsert ++ [unit ' '] =
      str "INSERT  INTO probe VALUES (1) " ++ (str "-- note " ++ []) := by decide +kernel
  obtain ⟨lexemes, hlexes, -⟩ := hcontinues
  rw [hproper] at hlexes
  have hcomment : Region (str "-- note ") [] := @Region.openLine (str " note ") (by decide)
  have hsingle : ∀ u ∈ str "INSERT  INTO probe VALUES (1) ", Single u := by decide +kernel
  have hlast := congrArg List.getLast? (hlexes.unique (Lexes.units hsingle (.region hcomment .nil)))
  rw [List.getLast?_append, List.getLast?_append] at hlast
  cases hlast

end Database
end Adg
