import AdgLang.JsJson
/-!
# SqlTranslation — SQLite statements as PostgreSQL statements

`translateSqliteSqlToPostgres` of `database.js`: `INSERT OR IGNORE` becomes `ON CONFLICT DO NOTHING`, and each `?` outside
comments and quotes becomes a numbered placeholder whose cast is chosen from the parameter bound there.  Two parameter
lists give one text exactly when they choose the same placeholders (`replaceFrom_congr`, `length_replaceFrom`).
-/
namespace Adg
namespace Database

open Js

/-! ## INSERT OR IGNORE -/

/-- A unit of a word, in a regular expression that ignores case: the long s and the Kelvin sign are among them. -/
def isWordUnit (u : UInt16) : Bool :=
  let n := u.toNat
  (48 ≤ n && n ≤ 57) || (65 ≤ n && n ≤ 90) || (97 ≤ n && n ≤ 122) || n == 95 || n == 0x17F || n == 0x212A

/-- A unit that matches a capital letter when case is ignored; the long s matches `S`. -/
def matchesLetter (letter : Char) (u : UInt16) : Bool :=
  u == unit letter || u == unit letter.toLower || (letter == 'S' && u == 0x17F)

/-- The text after a word at its start, case ignored. -/
def afterWord : List Char → Str → Option Str
  | [], t => some t
  | _ :: _, [] => none
  | letter :: word, u :: t => if matchesLetter letter u then afterWord word t else none

/-- The text after the white space at its start, of at least one unit. -/
def afterSpaces (t : Str) : Option Str :=
  if t.head?.any isSpace then some (t.dropWhile isSpace) else none

/-- A match of `^\s*INSERT\s+OR\s+IGNORE\b`: what stands before `OR`, and what follows the match. -/
def matchInsertOrIgnore (sql : Str) : Option (Str × Str) := do
  let t ← afterWord "INSERT".toList (sql.dropWhile isSpace)
  let t ← afterSpaces t
  let head := sql.take (sql.length - t.length)
  let t ← afterWord "OR".toList t
  let t ← afterSpaces t
  let rest ← afterWord "IGNORE".toList t
  if rest.head?.any isWordUnit then none else return (head, rest)

/-- The text before a semicolon at its end, and the semicolon with the white space after it. -/
def splitTrailingSemicolon (sql : Str) : Str × Str :=
  let spaces := (sql.reverse.takeWhile isSpace).reverse
  let front := (sql.reverse.dropWhile isSpace).reverse
  if front.getLast? = some (unit ';') then (front.dropLast, unit ';' :: spaces) else (sql, [])

def rewriteInsertOrIgnore (sql : Str) : Str :=
  match matchInsertOrIgnore sql with
  | none => sql
  | some _ =>
    let (body, trailingSemicolon) := splitTrailingSemicolon sql
    match matchInsertOrIgnore body with
    | none => body ++ str " ON CONFLICT DO NOTHING" ++ trailingSemicolon
    | some (head, rest) => head ++ rest ++ str " ON CONFLICT DO NOTHING" ++ trailingSemicolon

/-! ## Placeholders -/

def placeholderForValue (index : Nat) (value : Value) : Str :=
  match value with
  | .bigint _ => str "CAST($" ++ natStr index ++ str " AS BIGINT)"
  | .number n =>
    if n.isFinite then
      if n.isInteger then str "CAST($" ++ natStr index ++ str " AS BIGINT)"
      else str "CAST($" ++ natStr index ++ str " AS DOUBLE PRECISION)"
    else unit '$' :: natStr index
  | _ => unit '$' :: natStr index

inductive ScanState
  | normal | lineComment | blockComment | singleQuote | doubleQuote
deriving DecidableEq

/-- Two units that are copied together, and the state after them. -/
def ScanState.pair (state : ScanState) (current next : UInt16) : Option ScanState :=
  match state with
  | .lineComment => none
  | .blockComment => if current = unit '*' ∧ next = unit '/' then some .normal else none
  | .singleQuote => if current = unit '\'' ∧ next = unit '\'' then some .singleQuote else none
  | .doubleQuote => if current = unit '"' ∧ next = unit '"' then some .doubleQuote else none
  | .normal =>
    if current = unit '-' ∧ next = unit '-' then some .lineComment
    else if current = unit '/' ∧ next = unit '*' then some .blockComment
    else none

/-- The state after one unit that is copied alone. -/
def ScanState.next (state : ScanState) (current : UInt16) : ScanState :=
  match state with
  | .lineComment => if current = unit '\n' then .normal else .lineComment
  | .blockComment => .blockComment
  | .singleQuote => if current = unit '\'' then .normal else .singleQuote
  | .doubleQuote => if current = unit '"' then .normal else .doubleQuote
  | .normal =>
    if current = unit '\'' then .singleQuote else if current = unit '"' then .doubleQuote else .normal

/-- A question mark that stands for a parameter. -/
def ScanState.isPlaceholder (state : ScanState) (current : UInt16) : Bool :=
  decide (state = .normal) && decide (current = unit '?')

/-- What stands for the parameter after this many others. -/
def placeholder (params : List Value) (parameterIndex : Nat) : Str :=
  placeholderForValue (parameterIndex + 1) (params.getD parameterIndex .undefined)

/-- The loop of `replaceSqlitePlaceholders`, `parameterIndex` placeholders behind it. -/
def replaceFrom (params : List Value) (state : ScanState) (parameterIndex : Nat) : Str → Str
  | [] => []
  | current :: rest =>
    if state.isPlaceholder current then
      placeholder params parameterIndex ++ replaceFrom params state (parameterIndex + 1) rest
    else
      match rest with
      | [] => [current]
      | next :: rest' =>
        match state.pair current next with
        | some state' => current :: next :: replaceFrom params state' parameterIndex rest'
        | none => current :: replaceFrom params (state.next current) parameterIndex (next :: rest')

attribute [grind =] replaceFrom

def replaceSqlitePlaceholders (sql : Str) (params : List Value) : Str := replaceFrom params .normal 0 sql

def translateSqliteSqlToPostgres (sql : Str) (params : List Value) : Str :=
  replaceSqlitePlaceholders (rewriteInsertOrIgnore sql) params

/-- How many placeholders the loop finds. -/
def placeholdersFrom (state : ScanState) : Str → Nat
  | [] => 0
  | current :: rest =>
    if state.isPlaceholder current then placeholdersFrom state rest + 1
    else
      match rest with
      | [] => 0
      | next :: rest' =>
        match state.pair current next with
        | some state' => placeholdersFrom state' rest'
        | none => placeholdersFrom (state.next current) (next :: rest')

attribute [grind =] placeholdersFrom

def placeholders (sql : Str) : Nat := placeholdersFrom .normal (rewriteInsertOrIgnore sql)

section loop

variable {state state' : ScanState} {current next : UInt16} {rest : Str}

theorem replaceFrom_cons (params : List Value) (state : ScanState) (index : Nat) (current : UInt16) (rest : Str) :
    replaceFrom params state index (current :: rest) =
      if state.isPlaceholder current then placeholder params index ++ replaceFrom params state (index + 1) rest
      else
        match rest with
        | [] => [current]
        | next :: rest' =>
          match state.pair current next with
          | some state' => current :: next :: replaceFrom params state' index rest'
          | none => current :: replaceFrom params (state.next current) index (next :: rest') :=
  replaceFrom.eq_def params state index (current :: rest)

theorem replaceFrom_placeholder (params : List Value) (index : Nat) (hplace : state.isPlaceholder current = true) :
    replaceFrom params state index (current :: rest) =
      placeholder params index ++ replaceFrom params state (index + 1) rest := by
  rw [replaceFrom_cons, if_pos hplace]

theorem replaceFrom_pair (params : List Value) (index : Nat) (hplace : ¬ state.isPlaceholder current = true)
    (hpair : state.pair current next = some state') :
    replaceFrom params state index (current :: next :: rest) = current :: next :: replaceFrom params state' index rest := by
  rw [replaceFrom_cons, if_neg hplace]
  simp only [hpair]

theorem replaceFrom_alone (params : List Value) (index : Nat) (hplace : ¬ state.isPlaceholder current = true)
    (hpair : state.pair current next = none) :
    replaceFrom params state index (current :: next :: rest) =
      current :: replaceFrom params (state.next current) index (next :: rest) := by
  rw [replaceFrom_cons, if_neg hplace]
  simp only [hpair]

theorem placeholdersFrom_cons (state : ScanState) (current : UInt16) (rest : Str) :
    placeholdersFrom state (current :: rest) =
      if state.isPlaceholder current then placeholdersFrom state rest + 1
      else
        match rest with
        | [] => 0
        | next :: rest' =>
          match state.pair current next with
          | some state' => placeholdersFrom state' rest'
          | none => placeholdersFrom (state.next current) (next :: rest') :=
  placeholdersFrom.eq_def state (current :: rest)

theorem placeholdersFrom_placeholder (hplace : state.isPlaceholder current = true) :
    placeholdersFrom state (current :: rest) = placeholdersFrom state rest + 1 := by
  rw [placeholdersFrom_cons, if_pos hplace]

theorem placeholdersFrom_pair (hplace : ¬ state.isPlaceholder current = true)
    (hpair : state.pair current next = some state') :
    placeholdersFrom state (current :: next :: rest) = placeholdersFrom state' rest := by
  rw [placeholdersFrom_cons, if_neg hplace]
  simp only [hpair]

theorem placeholdersFrom_alone (hplace : ¬ state.isPlaceholder current = true)
    (hpair : state.pair current next = none) :
    placeholdersFrom state (current :: next :: rest) = placeholdersFrom (state.next current) (next :: rest) := by
  rw [placeholdersFrom_cons, if_neg hplace]
  simp only [hpair]

end loop

/-- The text depends on the parameters through their placeholders alone. -/
theorem replaceFrom_congr {ps qs : List Value} (state : ScanState) (index : Nat) (sql : Str)
    (h : ∀ i, index ≤ i → i < index + placeholdersFrom state sql → placeholder ps i = placeholder qs i) :
    replaceFrom ps state index sql = replaceFrom qs state index sql := by
  fun_induction replaceFrom ps state index sql with
  | case1 => rfl
  | case2 state index current rest hplace ih =>
    rw [placeholdersFrom_placeholder hplace] at h
    rw [replaceFrom_placeholder qs index hplace, h index (by omega) (by omega),
      ih (fun i hi hlt => h i (by omega) (by omega))]
  | case3 state index current hplace => rw [replaceFrom, if_neg hplace]
  | case4 state index current hplace next rest state' hpair ih =>
    rw [placeholdersFrom_pair hplace hpair] at h
    rw [replaceFrom_pair qs index hplace hpair, ih h]
  | case5 state index current hplace next rest hpair ih =>
    rw [placeholdersFrom_alone hplace hpair] at h
    rw [replaceFrom_alone qs index hplace hpair, ih h]

/-- Where no placeholder of one list is longer than that of the other, texts of one length have placeholders of one
length. -/
theorem length_replaceFrom {ps qs : List Value} (h : ∀ i, (placeholder qs i).length ≤ (placeholder ps i).length)
    (state : ScanState) (index : Nat) (sql : Str) :
    (replaceFrom qs state index sql).length ≤ (replaceFrom ps state index sql).length ∧
      ((replaceFrom qs state index sql).length = (replaceFrom ps state index sql).length →
        ∀ i, index ≤ i → i < index + placeholdersFrom state sql →
          (placeholder qs i).length = (placeholder ps i).length) := by
  fun_induction replaceFrom ps state index sql with
  | case1 => exact ⟨by simp [replaceFrom], fun _ i hi hlt => by simp [placeholdersFrom] at hlt; omega⟩
  | case2 state index current rest hplace ih =>
    rw [replaceFrom_placeholder qs index hplace, placeholdersFrom_placeholder hplace, List.length_append,
      List.length_append]
    have hslot := h index
    refine ⟨by omega, fun hlen i hi hlt => ?_⟩
    by_cases hindex : i = index
    · subst hindex
      omega
    · exact ih.2 (by omega) i (by omega) (by omega)
  | case3 state index current hplace =>
    rw [replaceFrom, if_neg hplace, placeholdersFrom, if_neg hplace]
    exact ⟨Nat.le_refl _, fun _ i hi hlt => by omega⟩
  | case4 state index current hplace next rest state' hpair ih =>
    rw [replaceFrom_pair qs index hplace hpair, placeholdersFrom_pair hplace hpair]
    simp only [List.length_cons]
    exact ⟨by omega, fun hlen => ih.2 (by omega)⟩
  | case5 state index current hplace next rest hpair ih =>
    rw [replaceFrom_alone qs index hplace hpair, placeholdersFrom_alone hplace hpair]
    simp only [List.length_cons] at ih ⊢
    exact ⟨by omega, fun hlen => ih.2 (by omega)⟩

/-! ## Bound values -/

/-- The value that is bound for a parameter: a BigInt is bound as a number if that is safe, else as its digits. -/
def normalizeParameter : Value → Value
  | .undefined => .null
  | .bigint i =>
    if (Number.ofBigInt i).isSafeInteger then .number (Number.ofBigInt i) else .string (intStr i)
  | v => v

/-- A statement as a caller hands it over. -/
structure Operation where
  mode : Str
  sql : Str
  params : List Value

/-- What reaches PostgreSQL of an operation: the translated text and the values that are bound. -/
def Operation.bound (operation : Operation) : Str × List Value :=
  (translateSqliteSqlToPostgres operation.sql operation.params, operation.params.map normalizeParameter)

end Database
end Adg
