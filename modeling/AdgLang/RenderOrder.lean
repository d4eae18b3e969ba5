import AdgLang.Alternation
import AdgLang.StatementTokens
/-!
# RenderOrder — where the words of a surface file are rendered

`AttachAdjunct` searches backwards for a verbal sentence, past the connectors and clauses read since, and the adjunct's
words are rendered with that sentence's.  The words of an accepted file are the quoted words of its statements, those of
an adjunct moved up to the last verbal sentence before it (`renderWords_place`); nothing moves exactly when every
adjunct follows a verbal sentence or another adjunct.
-/
namespace Adg
namespace SurfaceParser

open FunctionSyntax

/-- The texts between quotation marks on a line. -/
def quotedWords (line : Text) : List Text :=
  match tokenize line with
  | .ok tokens => (tokens.filter FunctionToken.isQuoted).map FunctionToken.text
  | .error _ => []

/-- The words of the statement on a line. -/
def statementWords (line : Text) : List Word :=
  match parseStatement line with
  | .ok st => st.node.renderWords
  | .error _ => []

def isVerbal (line : Text) : Bool :=
  match parseStatement line with
  | .ok (.verbal _) => true
  | _ => false

def isAdjunct (line : Text) : Bool :=
  match parseStatement line with
  | .ok (.adjunct _) => true
  | _ => false

/-- The lines in the order of rendering: connectors and clauses wait until the next verbal sentence or the end, and an
adjunct goes before them. -/
def placeFrom : List Text → List Text → List Text
  | waiting, [] => waiting
  | waiting, line :: lines =>
    if isVerbal line then waiting ++ line :: placeFrom [] lines
    else if isAdjunct line then line :: placeFrom waiting lines
    else placeFrom (waiting ++ [line]) lines

def place (lines : List Text) : List Text := placeFrom [] lines

/-! ## The quoted words of a statement -/

/-- The quoted texts of a clause's parts are the words of the parts. -/
theorem quoted_parts (matchedArabic : Bool) : ∀ parts : List (Regex.Captures Group × AdgCase),
    ((parts.flatMap (fun p => (clauseIsmItems matchedArabic).map (Item.token p.1))).filter
        FunctionToken.isQuoted).map FunctionToken.text =
      (Node.renderAll (parts.map (fun p => .word (ismOf (p.1.value .surface) p.2)))).map Word.surface
  | [] => rfl
  | p :: parts => by
    rw [List.flatMap_cons, List.filter_append, List.map_append, quoted_parts matchedArabic parts]
    rfl

/-- **The words of a statement are the quoted words of its line.** -/
theorem quotedWords_statement {line : Text} {st : Statement} (h : parseStatement line = .ok st) :
    st.node.renderWords.map Word.surface = quotedWords line := by
  obtain ⟨matchedArabic, tokens, htokens, hreads⟩ := reads_statement h
  unfold quotedWords
  rw [htokens]
  cases hreads with
  | agent ha hfail => rfl
  | patient hfail hmaful => cases matchedArabic <;> rfl
  | adjunct hmudaf hilayh => cases matchedArabic <;> rfl
  | connector hrole => cases matchedArabic <;> rfl
  | clause hparts =>
    have hquoted := quoted_parts matchedArabic
    cases matchedArabic <;> simp only [List.filter_append, List.map_append, hquoted] <;> rfl

theorem statementWords_eq {line : Text} {st : Statement} (h : parseStatement line = .ok st) :
    statementWords line = st.node.renderWords := by
  unfold statementWords
  rw [h]

theorem isVerbal_iff {line : Text} {st : Statement} (h : parseStatement line = .ok st) :
    isVerbal line = true ↔ ∃ n, st = .verbal n := by
  unfold isVerbal
  rw [h]
  cases st <;> simp

theorem isAdjunct_iff {line : Text} {st : Statement} (h : parseStatement line = .ok st) :
    isAdjunct line = true ↔ ∃ n, st = .adjunct n := by
  unfold isAdjunct
  rw [h]
  cases st <;> simp

theorem verbalSentence_of_parseStatement {line : Text} {n : Node} (h : parseStatement line = .ok (.verbal n)) :
    ∃ verb fail maful adjuncts, n = .verbalSentence verb fail maful adjuncts := by
  obtain ⟨_, _, -, hreads⟩ := reads_statement h
  cases hreads with
  | agent ha hfail => exact ⟨_, _, _, _, rfl⟩
  | patient hfail hmaful => exact ⟨_, _, _, _, rfl⟩

theorem clause_of_parseStatement {line : Text} {n : Node} (h : parseStatement line = .ok (.clause n)) :
    ∃ parts, n = .clause parts := by
  obtain ⟨_, _, -, hreads⟩ := reads_statement h
  cases hreads with
  | clause hparts => exact ⟨_, rfl⟩

/-! ## Collecting the items -/

theorem renderAll_append (xs ys : List Node) : Node.renderAll (xs ++ ys) = Node.renderAll xs ++ Node.renderAll ys := by
  induction xs with
  | nil => rfl
  | cons x xs ih => rw [List.cons_append, Node.renderAll, Node.renderAll, ih, List.append_assoc]

theorem renderAll_singleton (n : Node) : Node.renderAll [n] = n.renderWords := List.append_nil _

def isVerbalSentence : Node → Bool
  | .verbalSentence _ _ _ _ => true
  | _ => false

/-- The search passes over what is no verbal sentence. -/
theorem attachToLast_append {adjunct : Node} {ys : List Node} : ∀ {xs : List Node},
    (∀ x ∈ xs, isVerbalSentence x = false) →
      attachToLast adjunct (xs ++ ys) = (xs ++ ·) <$> attachToLast adjunct ys
  | [], _ => by
    cases h : attachToLast adjunct ys <;> simp [h]
  | x :: xs, hxs => by
    have ih : attachToLast adjunct (xs ++ ys) = (xs ++ ·) <$> attachToLast adjunct ys :=
      attachToLast_append (fun y hy => hxs y (List.mem_cons_of_mem _ hy))
    have hx := hxs x List.mem_cons_self
    cases x with
    | verbalSentence => cases hx
    | _ =>
      simp only [List.cons_append, attachToLast, ih]
      cases attachToLast adjunct ys <;> rfl

/-- The items up to the last verbal sentence, which ends them where there is one. -/
def EndsVerbal (items : List Node) : Prop :=
  items = [] ∨ ∃ before verb fail maful adjuncts, items = before ++ [.verbalSentence verb fail maful adjuncts]

/-- **An adjunct joins the last verbal sentence**: its words come after that sentence's own. -/
theorem attachAdjunct_eq_ok {before after items : List Node} {adjunct : Node} (hbefore : EndsVerbal before)
    (hafter : ∀ i ∈ after, isVerbalSentence i = false) (h : attachAdjunct (before ++ after) adjunct = .ok items) :
    ∃ before', items = before' ++ after ∧ EndsVerbal before' ∧
      Node.renderAll before' = Node.renderAll before ++ adjunct.renderWords := by
  obtain ⟨reversed, hrev, rfl⟩ := map_eq_ok.1 h
  rw [List.reverse_append, attachToLast_append (fun i hi => hafter i (List.mem_reverse.1 hi))] at hrev
  obtain ⟨front, hfront, rfl⟩ := map_eq_ok.1 hrev
  rcases hbefore with rfl | ⟨before, verb, fail, maful, adjuncts, rfl⟩
  · cases hfront
  · rw [List.reverse_append] at hfront
    simp only [List.reverse_singleton, List.singleton_append, attachToLast, bind_eq_ok, pure_eq_ok] at hfront
    obtain ⟨sentence, hsentence, rfl⟩ := hfront
    obtain ⟨rfl, -⟩ := newVerbalSentence_eq_ok hsentence
    refine ⟨before ++ [.verbalSentence verb fail maful (adjuncts ++ [adjunct])], by simp,
      .inr ⟨before, verb, fail, maful, adjuncts ++ [adjunct], rfl⟩, ?_⟩
    rw [renderAll_append, renderAll_append, renderAll_singleton, renderAll_singleton, List.append_assoc]
    simp only [Node.renderWords, renderAll_append, renderAll_singleton, List.cons_append, List.append_assoc]

/-- **The items are rendered in the placed order of the lines.** -/
theorem renderAll_collect : ∀ (lines waiting : List Text) (before after items : List Node), EndsVerbal before →
    (∀ i ∈ after, isVerbalSentence i = false) → Node.renderAll after = waiting.flatMap statementWords →
    collect lines (before ++ after) = .ok items →
    Node.renderAll items = Node.renderAll before ++ (placeFrom waiting lines).flatMap statementWords
  | [], waiting, before, after, items, _, _, hwaiting, h => by
    cases h
    rw [renderAll_append, hwaiting, placeFrom]
  | line :: lines, waiting, before, after, items, hbefore, hafter, hwaiting, h => by
    simp only [collect, bind_eq_ok] at h
    obtain ⟨st, hst, items₁, hadd, h⟩ := h
    have hwords := statementWords_eq hst
    have hverbal := isVerbal_iff hst
    have hadjunct := isAdjunct_iff hst
    -- a connector or clause is no verbal sentence and waits with the others
    have hwait : ∀ n : Node, isVerbalSentence n = false → statementWords line = n.renderWords →
        collect lines (before ++ after ++ [n]) = .ok items →
        Node.renderAll items = Node.renderAll before ++ (placeFrom (waiting ++ [line]) lines).flatMap statementWords := by
      intro n hn hline h
      rw [List.append_assoc] at h
      refine renderAll_collect lines (waiting ++ [line]) before (after ++ [n]) items hbefore (fun i hi => ?_) ?_ h
      · rcases List.mem_append.1 hi with hi | hi
        · exact hafter i hi
        · rw [List.mem_singleton.1 hi]; exact hn
      · rw [renderAll_append, renderAll_singleton, hwaiting, ← hline, List.flatMap_append, List.flatMap_singleton]
    cases st with
    | verbal n =>
      cases hadd
      obtain ⟨verb, fail, maful, adjuncts, rfl⟩ := verbalSentence_of_parseStatement hst
      have hends : EndsVerbal (before ++ after ++ [.verbalSentence verb fail maful adjuncts]) :=
        .inr ⟨before ++ after, verb, fail, maful, adjuncts, rfl⟩
      rw [← List.append_nil (_ ++ [_])] at h
      rw [placeFrom, if_pos (hverbal.2 ⟨_, rfl⟩), renderAll_collect lines [] _ [] items hends (List.forall_mem_nil _) rfl h,
        renderAll_append, renderAll_append, renderAll_singleton, hwaiting, List.flatMap_append, List.flatMap_cons, hwords]
      simp only [List.append_assoc, Statement.node]
    | adjunct n =>
      have hnot : ¬ isVerbal line = true := fun hv => by obtain ⟨_, hv⟩ := hverbal.1 hv; cases hv
      obtain ⟨before', rfl, hbefore', hrender⟩ := attachAdjunct_eq_ok hbefore hafter hadd
      rw [placeFrom, if_neg hnot, if_pos (hadjunct.2 ⟨n, rfl⟩),
        renderAll_collect lines waiting before' after items hbefore' hafter hwaiting h, hrender, List.append_assoc,
        List.flatMap_cons, hwords]
      rfl
    | connector w =>
      cases hadd
      have hnot : ¬ isVerbal line = true := fun hv => by obtain ⟨_, hv⟩ := hverbal.1 hv; cases hv
      have hnot' : ¬ isAdjunct line = true := fun hv => by obtain ⟨_, hv⟩ := hadjunct.1 hv; cases hv
      rw [placeFrom, if_neg hnot, if_neg hnot']
      exact hwait (.word w) rfl hwords h
    | clause n =>
      cases hadd
      have hnot : ¬ isVerbal line = true := fun hv => by obtain ⟨_, hv⟩ := hverbal.1 hv; cases hv
      have hnot' : ¬ isAdjunct line = true := fun hv => by obtain ⟨_, hv⟩ := hadjunct.1 hv; cases hv
      rw [placeFrom, if_neg hnot, if_neg hnot']
      refine hwait n ?_ hwords h
      obtain ⟨parts, rfl⟩ := clause_of_parseStatement hst
      rfl

theorem parsed_of_collect : ∀ (lines : List Text) (items items' : List Node), collect lines items = .ok items' →
    ∀ line ∈ lines, ∃ st, parseStatement line = .ok st
  | [], _, _, _, _, hline => by cases hline
  | line :: lines, items, items', h, l, hl => by
    simp only [collect, bind_eq_ok] at h
    obtain ⟨st, hst, items₁, -, h⟩ := h
    rcases List.mem_cons.1 hl with rfl | hl
    · exact ⟨st, hst⟩
    · exact parsed_of_collect lines items₁ items' h l hl

/-- Folding through connectors keeps the words. -/
theorem renderWords_foldRest {n : Node} : ∀ (items : List Node) (current : Node), foldRest current items = .ok n →
    n.renderWords = current.renderWords ++ Node.renderAll items
  | [], _, h => by
    cases h
    exact (List.append_nil _).symm
  | [item], _, h => by
    cases item <;> cases h
  | item :: right :: items, current, h => by
    unfold foldRest at h
    split at h
    · rename_i heq; cases heq
    · rename_i connector right' rest heq
      cases heq
      simp only [isAdgNode, if_true, bind_eq_ok] at h
      obtain ⟨joined, hjoined, h⟩ := h
      rw [renderWords_foldRest items joined h, (newConnectedSentence_eq_ok hjoined).1]
      simp only [Node.renderWords, Node.renderAll, List.append_assoc, List.cons_append, List.nil_append]
    · cases h

theorem renderWords_foldItems {items : List Node} {n : Node} (h : foldItems items = .ok n) :
    n.renderWords = Node.renderAll items := by
  cases items with
  | nil => cases h
  | cons current rest =>
    simp only [foldItems, isAdgNode, if_true] at h
    exact renderWords_foldRest rest current h

/-! ## The placed lines -/

/-- Placing moves lines about and neither drops nor repeats one. -/
theorem place_perm : ∀ lines waiting : List Text, (placeFrom waiting lines).Perm (waiting ++ lines)
  | [], waiting => by
    rw [placeFrom, List.append_nil]
  | line :: lines, waiting => by
    rw [placeFrom]
    split
    · exact ((place_perm lines []).cons line).append_left waiting
    split
    · exact ((place_perm lines waiting).cons line).trans List.perm_middle.symm
    · have h := place_perm lines (waiting ++ [line])
      rwa [List.append_assoc] at h

/-- The order in which nothing moves: an adjunct comes only after a verbal sentence or another adjunct. -/
def InPlace (lines : List Text) : Prop :=
  lines.IsChain (fun previous line => isAdjunct line = true → isVerbal previous = true ∨ isAdjunct previous = true)

theorem inPlace_cons {line : Text} {lines : List Text} : InPlace (line :: lines) ↔
    (isVerbal line = false → isAdjunct line = false → ∀ next ∈ lines.head?, isAdjunct next = false) ∧
      InPlace lines := by
  unfold InPlace
  cases lines with
  | nil => simp
  | cons next lines =>
    rw [List.isChain_cons_cons]
    cases isVerbal line <;> cases isAdjunct line <;> simp

theorem not_adjunct_of_verbal {line : Text} (h : isVerbal line = true) : isAdjunct line = false := by
  unfold isVerbal at h
  unfold isAdjunct
  split at h
  · rename_i hst
    rw [hst]
  · cases h

/-- Nothing moves in front of the waiting lines unless an adjunct does. -/
theorem placeFrom_eq_iff : ∀ lines waiting : List Text, (∀ w ∈ waiting, isAdjunct w = false) →
    (placeFrom waiting lines = waiting ++ lines ↔
      InPlace lines ∧ (waiting ≠ [] → ∀ line ∈ lines.head?, isAdjunct line = false))
  | [], waiting, _ => by
    simp [placeFrom, InPlace]
  | line :: lines, waiting, hwaiting => by
    rw [placeFrom, inPlace_cons]
    split
    · rename_i hverbal
      have hno := not_adjunct_of_verbal hverbal
      have ih := placeFrom_eq_iff lines [] nofun
      rw [List.nil_append] at ih
      rw [List.append_cancel_left_eq, List.cons.injEq, ih]
      simp [hverbal, hno]
    rename_i hverbal
    split
    · rename_i hadjunct
      have ih := placeFrom_eq_iff lines waiting hwaiting
      cases waiting with
      | nil =>
        rw [List.nil_append] at ih ⊢
        rw [List.cons.injEq, ih]
        simp [hadjunct]
      | cons w waiting =>
        -- the adjunct comes first, where a waiting line stood
        have hw : isAdjunct w = false := hwaiting w List.mem_cons_self
        constructor
        · intro h
          rw [← (List.cons.inj h).1, hadjunct] at hw
          cases hw
        · rintro ⟨-, h⟩
          rw [h (List.cons_ne_nil _ _) line rfl] at hadjunct
          cases hadjunct
    · rename_i hadjunct
      have hno : isAdjunct line = false := Bool.eq_false_iff.2 hadjunct
      have ih := placeFrom_eq_iff lines (waiting ++ [line]) (by
        intro w hw
        rcases List.mem_append.1 hw with hw | hw
        · exact hwaiting w hw
        · rw [List.mem_singleton.1 hw]; exact hno)
      rw [List.append_assoc, List.singleton_append] at ih
      rw [ih]
      simp [hno, Bool.eq_false_iff.2 hverbal, and_comm]

/-- **An accepted file renders the words of its statements**, in the placed order of their lines. -/
theorem renderWords_parseFile {lines : List Text} {n : Node} (h : parseFile lines = .ok n) :
    n.renderWords = (place (executableLines lines)).flatMap statementWords ∧
      ∀ line ∈ place (executableLines lines), ∃ st, parseStatement line = .ok st := by
  obtain ⟨items, hitems, hfold⟩ := collect_of_parseFile h
  constructor
  · rw [renderWords_foldItems hfold]
    exact renderAll_collect _ [] [] [] items (.inl rfl) nofun rfl hitems
  · exact fun line hline => parsed_of_collect _ _ _ hitems line ((place_perm _ []).mem_iff.1 hline)

/-- **The words rendered are the quoted words of the statements**, each adjunct's with the last verbal sentence before
it; they come in the order of the file exactly when every adjunct follows a verbal sentence or another adjunct. -/
theorem renderWords_place {lines : List Text} {n : Node} (h : parseFile lines = .ok n) :
    n.renderWords.map Word.surface = (place (executableLines lines)).flatMap quotedWords ∧
      (place (executableLines lines)).Perm (executableLines lines) ∧
      (place (executableLines lines) = executableLines lines ↔ InPlace (executableLines lines)) := by
  obtain ⟨hwords, hparsed⟩ := renderWords_parseFile h
  have hplace := placeFrom_eq_iff (executableLines lines) [] nofun
  refine ⟨?_, place_perm _ [], by simpa [place] using hplace⟩
  rw [hwords, List.map_flatMap]
  refine List.flatMap_congr (fun line hline => ?_)
  obtain ⟨st, hst⟩ := hparsed line hline
  rw [statementWords_eq hst, quotedWords_statement hst]

theorem renderWords_place_verbalFile :
    (valueOf (parseFile verbalFile) (by decide)).renderWords.map Word.surface =
        (place (executableLines verbalFile)).flatMap quotedWords ∧
      (place (executableLines verbalFile)).Perm (executableLines verbalFile) ∧
      (place (executableLines verbalFile) = executableLines verbalFile ↔ InPlace (executableLines verbalFile)) :=
  renderWords_place (eq_ok_valueOf (by decide : (parseFile verbalFile).isOk = true))

/-- A sentence, its reason as a clause, and an adjunct after the clause. -/
def reasonFile : List Text :=
  ["اتجاهُ النصِّ: RTL".toList, "verbal \"غاب\" fael \"الطالب\" raf".toList, "connector \"لأن\" causal".toList,
    "clause fil \"مرض\" ism \"أخوه\" raf".toList, "adjunct jarr \"في\" idafa \"بيت\" jarr \"العلم\" jarr".toList]

/-- **An adjunct after a clause is rendered before it.** -/
theorem not_renderWords_in_order : ¬ ∀ lines n, parseFile lines = .ok n →
    n.renderWords.map Word.surface = (executableLines lines).flatMap quotedWords := by
  intro h
  have hok : (parseFile reasonFile).isOk = true := by decide
  have hne : (valueOf (parseFile reasonFile) (by decide)).renderWords.map Word.surface ≠
      (executableLines reasonFile).flatMap quotedWords := by decide
  exact hne (h reasonFile _ (eq_ok_valueOf hok))

end SurfaceParser
end Adg
