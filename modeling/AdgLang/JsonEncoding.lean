import AdgLang.RenderOrder
/-!
# JsonEncoding — surface trees as JSON documents

`encode` writes a tree with the kind of every node and the kind, case and role of every word.  The JSON parser reads such
a document back wherever each word states what the parser would otherwise infer (`Word.Explicit`, `parse_encode`), and
the surface parser builds no other words (`explicit_parseFile`).
-/
namespace Adg

/-- A word that leaves nothing to infer: a particle names its role, and another word has none. -/
structure Word.Explicit (w : Word) : Prop where
  legal : w.Legal
  role : w.role ≠ .none ↔ w.kind = .harf

namespace JsonParser

open TypeContracts

def wordProperties (w : Word) : List (Text × Json) :=
  [("kind".toList, .string w.kind.text), ("surface".toList, .string w.surface),
    ("case".toList, .string w.marker.text), ("role".toList, .string w.role.text)]

def encodeWord (w : Word) : Json := .object (wordProperties w)

/-- The kind of a document for an operator application. -/
def applicationKind (operator : Word) : Text :=
  if operator.role = .negationOperator then "Negation".toList else "Question".toList

mutual

/-- **The document of a tree.** -/
def encode : Node → Json
  | .word w => encodeWord w
  | .verbalSentence verb fail maful adjuncts =>
    .object ([("kind".toList, .string "VerbalSentence".toList), ("verb".toList, encodeWord verb),
      ("fail".toList, encodeWord fail), ("adjuncts".toList, .array (encodeAll adjuncts))] ++
      maful.toList.map (fun w => ("maful".toList, encodeWord w)))
  | .idafaPhrase mudaf mudafIlayh =>
    .object [("kind".toList, .string "IdafaPhrase".toList), ("mudaf".toList, encodeWord mudaf),
      ("mudafIlayh".toList, encodeWord mudafIlayh)]
  | .harfGovernance operator operand =>
    .object [("kind".toList, .string "HarfGovernance".toList), ("operator".toList, encodeWord operator),
      ("operand".toList, encode operand)]
  | .connectedSentence left connector right =>
    .object [("kind".toList, .string "ConnectedSentence".toList), ("left".toList, encode left),
      ("connector".toList, encodeWord connector), ("right".toList, encode right)]
  | .operatorApplication operator target =>
    .object [("kind".toList, .string (applicationKind operator)), ("operator".toList, encodeWord operator),
      ("target".toList, encode target)]
  | .clause parts =>
    .object [("kind".toList, .string "Clause".toList), ("parts".toList, .array (encodeAll parts))]

def encodeAll : List Node → List Json
  | [] => []
  | n :: ns => encode n :: encodeAll ns

end

/-! ## Labels -/

theorem parseCase_text (marker : AdgCase) : parseCase marker.text = .ok marker := by
  cases marker <;> decide

theorem parseRole_text {role : HarfRole} (h : role ≠ .none) (surface : Text) : parseRole role.text surface = .ok role := by
  cases role <;> first | exact absurd rfl h | rfl

/-! ## Words -/

/-- The constructor gives a legal word back. -/
theorem create_of_legal {w : Word} (h : w.Legal) : Word.create w.surface w.kind w.marker w.role = .ok w := by
  have hvalidate : w.validate = .ok () := by
    have hism : ¬ (w.kind = .ism ∧ w.marker = .jazm) := fun hm => h.ism hm.1 hm.2
    have hfil : ¬ (w.kind = .fil ∧ (w.marker = .raf ∨ w.marker = .nasb ∨ w.marker = .jarr ∨ w.marker = .tanwin)) := by
      rintro ⟨hk, hm⟩
      rcases h.fil hk with hn | hn <;> simp [hn] at hm
    have hharf : ¬ (w.kind = .harf ∧ w.marker ≠ .none) := fun hm => hm.2 (h.harf hm.1)
    simp only [Word.validate, throwIf, if_neg hism, if_neg hfil, if_neg hharf]
    rfl
  simp only [Word.create, throwIf, h.surface, Bool.false_eq_true, if_false, hvalidate]
  rfl

theorem parseKind_wordProperties {w : Word} (h : w.Explicit) : parseKind w.kind (wordProperties w) = .ok w := by
  have hcreate := create_of_legal h.legal
  obtain ⟨surface, kind, marker, role⟩ := w
  cases kind with
  | ism =>
    have hrole : role = .none := not_not.1 (fun hne => by cases h.role.1 hne)
    subst hrole
    show (do Word.ism surface (← parseCase marker.text)) = _
    rw [parseCase_text]
    exact hcreate
  | fil =>
    have hrole : role = .none := not_not.1 (fun hne => by cases h.role.1 hne)
    subst hrole
    show (do Word.fil surface (← parseCase marker.text)) = _
    rw [parseCase_text]
    exact hcreate
  | harf =>
    have hmarker : marker = .none := h.legal.harf rfl
    subst hmarker
    show (do Word.harf surface (← parseRole role.text surface)) = _
    rw [parseRole_text (h.role.2 rfl)]
    exact hcreate

theorem parseWordOrSurface_encodeWord {w : Word} (h : w.Explicit) {kind : TokenKind} (hk : w.kind = kind)
    (defaultCase : AdgCase) : parseWordOrSurface (encodeWord w) kind defaultCase = .ok w := by
  subst hk
  show (do
    let word ← parseKind w.kind (wordProperties w)
    requireKind word w.kind "Token parser".toList
    return word) = _
  exact bind_eq_ok.2 ⟨w, parseKind_wordProperties h, bind_eq_ok.2 ⟨(), requireKind_eq_ok.2 rfl, rfl⟩⟩

theorem parse_encodeWord {w : Word} (h : w.Explicit) : parse (encodeWord w) = .ok (.word w) := by
  have hkind := parseKind_wordProperties h
  have harm : parse (encodeWord w) = Node.word <$> parseKind w.kind (wordProperties w) := by
    unfold encodeWord wordProperties
    cases w.kind <;> rfl
  rw [harm, hkind]
  rfl

/-! ## Nodes -/

theorem mapM_parse : ∀ {ns : List Node}, (∀ n ∈ ns, parse (encode n) = .ok n) →
    (Json.foldItems parseNode (encodeAll ns)).mapM id = .ok ns
  | [], _ => rfl
  | n :: ns, h => by
    have hn : Json.fold parseNode (encode n) = .ok n := h n List.mem_cons_self
    have hns := mapM_parse (fun m hm => h m (List.mem_cons_of_mem _ hm))
    rw [encodeAll, Json.foldItems, List.mapM_cons, hn, hns]
    rfl

theorem parse_verbalSentence (verb fail : Word) (adjuncts : List Node) (maful : Option Word) :
    parse (encode (.verbalSentence verb fail maful adjuncts)) = (do
      let verb ← parseWordOrSurface (encodeWord verb) .fil .none
      let fail ← parseWordOrSurface (encodeWord fail) .ism .raf
      let maful ← (match maful with
        | some maful => some <$> parseWordOrSurface (encodeWord maful) .ism .nasb
        | none => .ok none)
      let adjuncts ← (Json.foldItems parseNode (encodeAll adjuncts)).mapM id
      newVerbalSentence verb fail maful adjuncts) := by
  cases maful <;> rfl

theorem parse_idafaPhrase (mudaf mudafIlayh : Word) : parse (encode (.idafaPhrase mudaf mudafIlayh)) = (do
    let mudaf ← parseWordOrSurface (encodeWord mudaf) .ism .none
    let mudafIlayh ← parseWordOrSurface (encodeWord mudafIlayh) .ism .jarr
    newIdafaPhrase mudaf mudafIlayh) := rfl

theorem parse_harfGovernance (operator : Word) (operand : Node) :
    parse (encode (.harfGovernance operator operand)) = (do
      let operator ← parseWordOrSurface (encodeWord operator) .harf .none
      let operand ← parse (encode operand)
      newHarfGovernance operator operand) := rfl

theorem parse_connectedSentence (left right : Node) (connector : Word) :
    parse (encode (.connectedSentence left connector right)) = (do
      let left ← parse (encode left)
      let connector ← parseWordOrSurface (encodeWord connector) .harf .none
      let right ← parse (encode right)
      newConnectedSentence left connector right) := rfl

theorem parse_clause (parts : List Node) : parse (encode (.clause parts)) =
    ((Json.foldItems parseNode (encodeAll parts)).mapM id >>= newClause) := rfl

theorem parse_operatorApplication {operator : Word} (target : Node)
    (h : operator.role = .negationOperator ∨ operator.role = .interrogativeOperator) :
    parse (encode (.operatorApplication operator target)) = (do
      let particle ← parseWordOrSurface (encodeWord operator) .harf .none
      let particle ← (if particle.role = .none then Word.harf particle.surface operator.role else .ok particle)
      throwIf (particle.role ≠ operator.role) (.type .invalidOperatorArity (operator.role.text ++ " expected ".toList ++
        operator.role.text ++ ", but received ".toList ++ particle.text ++ ".".toList))
      let target ← parse (encode target)
      newOperatorApplication particle target) := by
  obtain ⟨surface, kind, marker, role⟩ := operator
  rcases h with h | h <;> cases h <;> rfl

theorem mem_renderAll {ns : List Node} {n : Node} (hn : n ∈ ns) {w : Word} (hw : w ∈ n.renderWords) :
    w ∈ Node.renderAll ns := by
  induction ns with
  | nil => cases hn
  | cons m ns ih =>
    rw [Node.renderAll]
    rcases List.mem_cons.1 hn with rfl | hn
    · exact List.mem_append_left _ hw
    · exact List.mem_append_right _ (ih hn)

/-- **The parser reads the document of a tree back**, where every word is explicit. -/
theorem parse_encode {n : Node} (h : n.Built) (hwords : ∀ w ∈ n.renderWords, w.Explicit) :
    parse (encode n) = .ok n := by
  induction h with
  | word h => exact parse_encodeWord (hwords _ (List.mem_singleton_self _))
  | @verbalSentence verb fail maful adjuncts n _ _ _ _ h _ _ _ hadjuncts =>
    obtain ⟨rfl, hverb, ⟨hfail, -⟩, hmaful⟩ := newVerbalSentence_eq_ok h
    have hadjuncts := mapM_parse (fun a ha => hadjuncts a ha (fun w hw => hwords w (by
      simp [Node.renderWords, mem_renderAll ha hw])))
    rw [parse_verbalSentence, parseWordOrSurface_encodeWord (hwords verb (by simp [Node.renderWords])) hverb,
      parseWordOrSurface_encodeWord (hwords fail (by simp [Node.renderWords])) hfail, hadjuncts]
    cases maful with
    | none => exact h
    | some maful =>
      have hword := parseWordOrSurface_encodeWord (hwords maful (by simp [Node.renderWords])) (hmaful maful rfl).1 .nasb
      simp only [hword]
      exact h
  | @idafaPhrase mudaf mudafIlayh n _ _ h _ _ =>
    obtain ⟨rfl, hmudaf, hilayh, -⟩ := newIdafaPhrase_eq_ok h
    rw [parse_idafaPhrase, parseWordOrSurface_encodeWord (hwords mudaf (by simp [Node.renderWords])) hmudaf,
      parseWordOrSurface_encodeWord (hwords mudafIlayh (by simp [Node.renderWords])) hilayh]
    exact h
  | @harfGovernance operator operand n _ _ h _ hoperand =>
    obtain ⟨rfl, hkind, -⟩ := newHarfGovernance_eq_ok h
    rw [parse_harfGovernance, parseWordOrSurface_encodeWord (hwords operator (by simp [Node.renderWords])) hkind,
      hoperand (fun w hw => hwords w (by simp [Node.renderWords, hw]))]
    exact h
  | @connectedSentence left right n connector _ _ _ h hleft _ hright =>
    obtain ⟨rfl, ⟨hkind, -⟩, -⟩ := newConnectedSentence_eq_ok h
    rw [parse_connectedSentence, hleft (fun w hw => hwords w (by simp [Node.renderWords, hw])),
      parseWordOrSurface_encodeWord (hwords connector (by simp [Node.renderWords])) hkind,
      hright (fun w hw => hwords w (by simp [Node.renderWords, hw]))]
    exact h
  | @operatorApplication operator target n _ _ h _ htarget =>
    obtain ⟨rfl, ⟨hkind, hrole⟩, -⟩ := newOperatorApplication_eq_ok h
    have hnone : operator.role ≠ .none := by
      rcases hrole with hrole | hrole <;> rw [hrole] <;> nofun
    rw [parse_operatorApplication target hrole]
    exact bind_eq_ok.2 ⟨operator, parseWordOrSurface_encodeWord (hwords operator (by simp [Node.renderWords])) hkind _,
      bind_eq_ok.2 ⟨operator, if_neg hnone, bind_eq_ok.2 ⟨(), throwIf_eq_ok.2 (fun hne => hne rfl),
        bind_eq_ok.2 ⟨target, htarget (fun w hw => hwords w (by simp [Node.renderWords, hw])), h⟩⟩⟩⟩
  | @clause parts n _ h hparts =>
    obtain ⟨rfl, -⟩ := newClause_eq_ok h
    rw [parse_clause, mapM_parse (fun p hp => hparts p hp (fun w hw => hwords w (mem_renderAll hp hw)))]
    exact h

end JsonParser

/-! ## Surface trees -/

namespace SurfaceParser

theorem roleOf_filOf (surface : Text) : (filOf surface).role ≠ HarfRole.none ↔ (filOf surface).kind = .harf := by
  simp [filOf]

theorem roleOf_ismOf (surface : Text) (marker : AdgCase) :
    (ismOf surface marker).role ≠ HarfRole.none ↔ (ismOf surface marker).kind = .harf := by
  simp [ismOf]

theorem roleOf_harfOf {surface : Text} {role : HarfRole} (h : role ≠ HarfRole.none) :
    (harfOf surface role).role ≠ HarfRole.none ↔ (harfOf surface role).kind = .harf := by
  simp [harfOf, h]

theorem parseRole_ne_none {label : Text} {role : HarfRole} (h : parseRole label = .ok role) : role ≠ HarfRole.none := by
  rintro rfl
  cases canonicalRoleLabel_isSome h

/-- A verb or noun of an accepted statement has no role, and a particle governs or connects. -/
theorem role_statement {line : Text} {st : Statement} (h : parseStatement line = .ok st) :
    ∀ w ∈ st.node.renderWords, (w.role ≠ HarfRole.none ↔ w.kind = .harf) := by
  obtain ⟨_, _, -, hreads⟩ := reads_statement h
  cases hreads with
  | agent ha hfail =>
    exact List.forall_mem_cons.2 ⟨roleOf_filOf _, List.forall_mem_cons.2 ⟨roleOf_ismOf _ _, nofun⟩⟩
  | patient hfail hmaful =>
    exact List.forall_mem_cons.2 ⟨roleOf_filOf _, List.forall_mem_cons.2 ⟨roleOf_ismOf _ _,
      List.forall_mem_cons.2 ⟨roleOf_ismOf _ _, nofun⟩⟩⟩
  | adjunct hmudaf hilayh =>
    exact List.forall_mem_cons.2 ⟨roleOf_harfOf nofun, List.forall_mem_cons.2 ⟨roleOf_ismOf _ _,
      List.forall_mem_cons.2 ⟨roleOf_ismOf _ _, nofun⟩⟩⟩
  | connector hrole =>
    exact List.forall_mem_cons.2 ⟨roleOf_harfOf (parseRole_ne_none hrole.1), nofun⟩
  | clause hparts =>
    refine List.forall_mem_cons.2 ⟨roleOf_filOf _, fun w hw => ?_⟩
    rename_i cs parts
    clear hparts
    have hwords : ∀ ps : List (Regex.Captures Group × AdgCase), w ∈ Node.renderAll
        (ps.map (fun p => Node.word (ismOf (p.1.value .surface) p.2))) → (w.role ≠ HarfRole.none ↔ w.kind = .harf) := by
      intro ps
      induction ps with
      | nil => nofun
      | cons p ps ih =>
        intro hw
        rcases List.mem_cons.1 hw with rfl | hw
        · exact roleOf_ismOf _ _
        · exact ih hw
    exact hwords parts hw

/-- **The words of an accepted file are explicit.** -/
theorem explicit_parseFile {lines : List Text} {n : Node} (h : parseFile lines = .ok n) :
    ∀ w ∈ n.renderWords, w.Explicit := by
  obtain ⟨hwords, hparsed⟩ := renderWords_parseFile h
  intro w hw
  rw [hwords] at hw
  obtain ⟨line, hline, hw⟩ := List.mem_flatMap.1 hw
  obtain ⟨st, hst⟩ := hparsed line hline
  rw [statementWords_eq hst] at hw
  exact ⟨(built_parseStatement hst).verified _ (word_mem_subnodes hw), role_statement hst w hw⟩

/-- **The JSON form encodes the surface language**: every tree the surface parser returns, the JSON parser reads from its
document. -/
theorem parse_encode_parseFile {lines : List Text} {n : Node} (h : parseFile lines = .ok n) :
    JsonParser.parse (JsonParser.encode n) = .ok n :=
  JsonParser.parse_encode (parseFile_built h) (explicit_parseFile h)

theorem parse_encode_reasonFile :
    JsonParser.parse (JsonParser.encode (valueOf (parseFile reasonFile) (by decide))) =
      .ok (valueOf (parseFile reasonFile) (by decide)) :=
  parse_encode_parseFile (eq_ok_valueOf (by decide : (parseFile reasonFile).isOk = true))

end SurfaceParser
end Adg
