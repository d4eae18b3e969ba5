import AdgLang.Contracts
/-!
# Alternation — the order of statements in an accepted surface file

`Fold` joins the items through connectors, two at a time.  It tests that every second item is a connector, but its test
that the others are nodes always succeeds, since a connector's word is a node too.  The statements of an accepted file
therefore alternate exactly when there is one node statement more than there are connectors (`alternates_iff`).
-/
namespace Adg
namespace SurfaceParser

/-- A node statement is a verbal sentence or a clause. -/
inductive StatementKind
  | node | connector
deriving DecidableEq

/-- The kind of a statement; an adjunct has none. -/
def Statement.kind : Statement → Option StatementKind
  | .verbal _ => some .node
  | .adjunct _ => none
  | .connector _ => some .connector
  | .clause _ => some .node

/-- The lines that carry statements: comments and blank lines, the direction header and program lines are left out. -/
def executableLines (lines : List Text) : List Text :=
  (((lines.map (fun line => trim (stripComment line))).filter (fun line => decide (line ≠ []))).drop 1).filter
    (fun line => !isProgramLine line)

/-- The kind of the statement on a line. -/
def kindOf (line : Text) : Option StatementKind :=
  match parseStatement line with
  | .ok statement => statement.kind
  | .error _ => none

/-- The kinds of the statements on some lines, other than adjuncts. -/
def kindsOf (lines : List Text) : List StatementKind := lines.filterMap kindOf

/-- The kinds of a file's executable statements other than adjuncts. -/
def kinds (lines : List Text) : List StatementKind := kindsOf (executableLines lines)

/-- The statements are node, connector, node, .., node. -/
def Alternates : List StatementKind → Prop
  | [] => False
  | [k] => k = .node
  | a :: b :: rest => a = .node ∧ b = .connector ∧ Alternates rest

/-! ## The items the loop collects -/

/-- The kind of an item: a connector is kept as its word. -/
def itemKind : Node → StatementKind
  | .word _ => .connector
  | _ => .node

theorem itemKind_verbal {line : Text} {n : Node} (h : tryParseVerbal line = .ok (some n)) : itemKind n = .node := by
  unfold tryParseVerbal at h
  split at h
  · cases h
  simp only [bind_eq_ok, map_eq_ok, Option.some.injEq] at h
  obtain ⟨_, -, _, -, _, -, _, -, _, -, n', h, rfl⟩ := h
  rw [(newVerbalSentence_eq_ok h).1]; rfl

theorem itemKind_clause {line : Text} {n : Node} (h : tryParseClause line = .ok (some n)) : itemKind n = .node := by
  unfold tryParseClause at h
  split at h
  · cases h
  simp only [bind_eq_ok, map_eq_ok, Option.some.injEq] at h
  obtain ⟨_, -, _, -, n', h, rfl⟩ := h
  rw [(newClause_eq_ok h).1]; rfl

theorem itemKind_statement {line : Text} {st : Statement} (h : parseStatement line = .ok st) :
    ∀ k ∈ st.kind, itemKind st.node = k := by
  intro k hk
  cases parsedBy_of_parseStatement h with
  | verbal hline => cases hk; exact itemKind_verbal hline
  | adjunct _ => cases hk
  | connector _ => cases hk; rfl
  | clause hline => cases hk; exact itemKind_clause hline

/-- An adjunct joins a sentence and leaves the kinds of the items as they are. -/
theorem kinds_attachToLast {adjunct : Node} : ∀ (items items' : List Node), attachToLast adjunct items = .ok items' →
    items'.map itemKind = items.map itemKind := by
  intro items
  induction items with
  | nil => intro _ h; cases h
  | cons item items ih =>
    intro items' h
    unfold attachToLast at h
    split at h
    · rename_i heq; cases heq
    · rename_i verb fail maful adjuncts rest heq
      cases heq
      simp only [bind_eq_ok, pure_eq_ok] at h
      obtain ⟨sentence, hsentence, rfl⟩ := h
      rw [(newVerbalSentence_eq_ok hsentence).1]; rfl
    · rename_i item' rest hno heq
      cases heq
      obtain ⟨tail, htail, rfl⟩ := map_eq_ok.1 h
      rw [List.map_cons, List.map_cons, ih tail htail]

theorem kinds_addStatement {items items' : List Node} {line : Text} {st : Statement} (hst : parseStatement line = .ok st)
    (h : addStatement items st = .ok items') : items'.map itemKind = items.map itemKind ++ kindsOf [line] := by
  have hkind := itemKind_statement hst
  have hline : kindsOf [line] = st.kind.toList := by
    have hk : kindOf line = st.kind := by unfold kindOf; rw [hst]
    unfold kindsOf
    rw [List.filterMap_cons, hk]
    cases st.kind <;> rfl
  rw [hline]
  cases st with
  | verbal n =>
    cases h
    have hn : itemKind n = .node := hkind _ rfl
    rw [List.map_append, List.map_singleton, hn]; rfl
  | connector w => cases h; rw [List.map_append]; rfl
  | clause n =>
    cases h
    have hn : itemKind n = .node := hkind _ rfl
    rw [List.map_append, List.map_singleton, hn]; rfl
  | adjunct n =>
    obtain ⟨reversed, hrev, rfl⟩ := map_eq_ok.1 h
    have := kinds_attachToLast _ _ hrev
    rw [List.map_reverse, this, List.map_reverse, List.reverse_reverse]
    exact (List.append_nil _).symm

/-- The items that the statements of executable lines leave. -/
def collect : List Text → List Node → Except AdgException (List Node)
  | [], items => .ok items
  | line :: lines, items => do
    let items ← addStatement items (← parseStatement line)
    collect lines items

theorem collect_of_parseLines : ∀ (lines : List Text) (validated validated' : Bool) (items items' : List Node),
    parseLines lines validated items = .ok (validated', items') →
      collect ((((lines.map (fun line => trim (stripComment line))).filter (fun line => decide (line ≠ []))).drop
        (if validated then 0 else 1)).filter (fun line => !isProgramLine line)) items = .ok items'
  | [], _, _, _, _, h => by
    cases h
    simp [collect]
  | rawLine :: lines, validated, validated', items, items', h => by
    simp only [parseLines] at h
    split at h
    · rename_i hblank
      have := collect_of_parseLines lines _ _ _ _ h
      rwa [List.map_cons, List.filter_cons_of_neg (by simp [hblank])]
    rename_i hline
    rw [List.map_cons, List.filter_cons_of_pos (by simp [hline])]
    split at h
    · rename_i hval
      have hval : validated = false := by simpa using hval
      subst hval
      simp only [bind_eq_ok] at h
      obtain ⟨_, -, h⟩ := h
      exact collect_of_parseLines lines _ _ _ _ h
    rename_i hval
    have hval : validated = true := by simpa using hval
    subst hval
    split at h
    · rename_i hprogram
      have := collect_of_parseLines lines _ _ _ _ h
      simp only [if_true, List.drop_zero] at this ⊢
      rwa [List.filter_cons_of_neg (by simp [hprogram])]
    · rename_i hprogram
      simp only [bind_eq_ok] at h
      obtain ⟨st, hst, items₁, hadd, h⟩ := h
      have := collect_of_parseLines lines _ _ _ _ h
      simp only [if_true, List.drop_zero] at this ⊢
      rw [List.filter_cons_of_pos (by simp [hprogram])]
      exact bind_eq_ok.2 ⟨st, hst, bind_eq_ok.2 ⟨items₁, hadd, this⟩⟩

/-- **An accepted file** folds the items that its executable lines leave. -/
theorem collect_of_parseFile {lines : List Text} {n : Node} (h : parseFile lines = .ok n) :
    ∃ items, collect (executableLines lines) [] = .ok items ∧ foldItems items = .ok n := by
  simp only [parseFile, bind_eq_ok] at h
  obtain ⟨⟨validated, items⟩, hlines, h⟩ := h
  refine ⟨items, collect_of_parseLines lines false validated [] items hlines, ?_⟩
  split at h
  · cases h
  · exact h

/-- **The items collected have the kinds of the statements read.** -/
theorem kinds_collect : ∀ (lines : List Text) (items items' : List Node), collect lines items = .ok items' →
    items'.map itemKind = items.map itemKind ++ kindsOf lines
  | [], _, _, h => by
    cases h
    exact (List.append_nil _).symm
  | line :: lines, items, items', h => by
    simp only [collect, bind_eq_ok] at h
    obtain ⟨st, hst, items₁, hadd, h⟩ := h
    rw [kinds_collect lines _ _ h, kinds_addStatement hst hadd, List.append_assoc]
    congr 1
    exact (List.filterMap_append (l := [line])).symm

/-! ## The fold -/

/-- Every second statement is a connector, and the last is not one of them. -/
def SecondConnects : List StatementKind → Prop
  | [] => False
  | [_] => True
  | _ :: b :: rest => b = .connector ∧ SecondConnects rest

theorem secondConnects_foldRest {n : Node} : ∀ (items : List Node) (first current : Node),
    foldRest current items = .ok n → SecondConnects ((first :: items).map itemKind)
  | [], _, _, _ => trivial
  | [item], _, _, h => by
    cases item <;> cases h
  | item :: right :: items, _, current, h => by
    unfold foldRest at h
    split at h
    · rename_i heq; cases heq
    · rename_i connector right' rest heq
      cases heq
      simp only [isAdgNode, if_true, bind_eq_ok] at h
      obtain ⟨joined, -, h⟩ := h
      exact ⟨rfl, secondConnects_foldRest items right joined h⟩
    · cases h

theorem count_le_of_secondConnects : ∀ {ks : List StatementKind}, SecondConnects ks →
    ks.count .node ≤ ks.count .connector + 1
  | [], h => h.elim
  | [k], _ => by cases k <;> decide
  | a :: b :: rest, ⟨hb, h⟩ => by
    have := count_le_of_secondConnects h
    subst hb
    cases a <;> simp only [List.count_cons] <;> simp <;> omega

/-- Among lists whose every second statement connects, the alternating ones are told by counting. -/
theorem alternates_iff_count : ∀ {ks : List StatementKind}, SecondConnects ks →
    (Alternates ks ↔ ks.count .node = ks.count .connector + 1)
  | [], h => h.elim
  | [k], _ => by cases k <;> simp [Alternates]
  | a :: b :: rest, ⟨hb, h⟩ => by
    have hle := count_le_of_secondConnects h
    subst hb
    cases a with
    | node =>
      have ih := alternates_iff_count h
      simp only [Alternates, List.count_cons, true_and, ih]
      simp
    | connector =>
      simp only [Alternates, List.count_cons]
      simp
      omega

theorem secondConnects_kinds {lines : List Text} {n : Node} (h : parseFile lines = .ok n) :
    SecondConnects (kinds lines) := by
  obtain ⟨items, hitems, h⟩ := collect_of_parseFile h
  have hkinds : items.map itemKind = kinds lines := kinds_collect _ [] items hitems
  rw [← hkinds]
  cases items with
  | nil => cases h
  | cons current rest =>
    simp only [foldItems, isAdgNode, if_true] at h
    exact secondConnects_foldRest rest current current h

/-- **An accepted file alternates exactly when it has one node statement more than connectors.** -/
theorem alternates_iff {lines : List Text} {n : Node} (h : parseFile lines = .ok n) :
    Alternates (kinds lines) ↔ (kinds lines).count .node = (kinds lines).count .connector + 1 :=
  alternates_iff_count (secondConnects_kinds h)

theorem alternates_iff_verbalFile :
    Alternates (kinds verbalFile) ↔ (kinds verbalFile).count .node = (kinds verbalFile).count .connector + 1 :=
  alternates_iff (eq_ok_valueOf (by decide : (parseFile verbalFile).isOk = true))

/-- A file of three connectors. -/
def connectorFile : List Text :=
  ["اتجاهُ النصِّ: RTL".toList, "connector \"و\" coordination".toList, "connector \"و\" coordination".toList,
    "connector \"و\" coordination".toList]

/-- **A file of connectors alone is accepted.** -/
theorem not_alternates : ¬ ∀ lines n, parseFile lines = .ok n → Alternates (kinds lines) := by
  intro h
  have hok : (parseFile connectorFile).isOk = true := by decide
  have hkinds : kinds connectorFile = [.connector, .connector, .connector] := by decide
  have halt := h connectorFile _ (eq_ok_valueOf hok)
  rw [hkinds] at halt
  exact absurd halt.1 (by decide)

end SurfaceParser
end Adg
