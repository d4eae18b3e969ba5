import AdgLang.Contracts
import Mathlib.Data.List.ModifyLast
/-!
# Verifier — what `AdgVerifier` records of a tree

`Visit` walks a tree with three lists that grow at their ends: relations, operators and semantic frames.  It is a second
traversal beside `RenderWords`, and it patches the frame of an event after it has recorded it.  What it records at a node
is told by the node alone (`Node.relations`, `Node.operators`), and the frames of words come in the order of
`RenderWords` (`tokenFrames_visit`).
-/
namespace Adg

open TypeContracts

structure ResolvedRelation where
  kind : Text
  head : Text
  dependent : Text
deriving DecidableEq

structure ResolvedOperator where
  kind : Text
  surface : Text
  target : Text
deriving DecidableEq

structure SemanticFrame where
  kind : Text
  anchor : Text
  slots : List Text
deriving DecidableEq

structure AdgProgram where
  root : Node

def AdgProgram.renderText (program : AdgProgram) : Text := join " ".toList (program.root.renderWords.map Word.surface)

structure VerifiedAdgProgram where
  program : AdgProgram
  relations : List ResolvedRelation
  operators : List ResolvedOperator
  semanticFrames : List SemanticFrame

def VerifiedAdgProgram.renderText (p : VerifiedAdgProgram) : Text := p.program.renderText

namespace Verifier

/-! ## The traversal -/

/-- The lists `Visit` fills. -/
structure Lists where
  relations : List ResolvedRelation
  operators : List ResolvedOperator
  semanticFrames : List SemanticFrame

def Lists.addRelation (l : Lists) (kind head dependent : Text) : Lists :=
  { l with relations := l.relations ++ [⟨kind, head, dependent⟩] }

def Lists.addOperator (l : Lists) (kind surface target : Text) : Lists :=
  { l with operators := l.operators ++ [⟨kind, surface, target⟩] }

def Lists.addFrame (l : Lists) (kind anchor : Text) (slots : List Text) : Lists :=
  { l with semanticFrames := l.semanticFrames ++ [⟨kind, anchor, slots⟩] }

/-- `semanticFrames[^1] = semanticFrames[^1] with { Slots = slots }`. -/
def Lists.setLastSlots (l : Lists) (slots : List Text) : Lists :=
  { l with semanticFrames := l.semanticFrames.modifyLast (fun f => { f with slots := slots }) }

def visitWord (w : Word) (l : Lists) : Lists := l.addFrame w.kind.text w.surface [w.marker.text, w.role.text]

mutual

/-- `Visit`. -/
def visit : Node → Lists → Lists
  | .word w, l => visitWord w l
  | .verbalSentence verb fail maful adjuncts, l =>
    let l := l.addRelation "Fa'il".toList verb.surface fail.surface
    let l := l.addFrame "Event".toList verb.surface ["Agent".toList]
    let l := match maful with
      | none => l
      | some maful => (l.addRelation "Maf'ul".toList verb.surface maful.surface).setLastSlots
          ["Agent".toList, "Patient".toList]
    let l := visitWord fail (visitWord verb l)
    let l := match maful with
      | none => l
      | some maful => visitWord maful l
    visitAll adjuncts l
  | .idafaPhrase mudaf mudafIlayh, l =>
    let l := l.addRelation "Idafa".toList mudaf.surface mudafIlayh.surface
    let l := l.addFrame "PossessionOrSpecification".toList mudaf.surface [mudafIlayh.surface]
    visitWord mudafIlayh (visitWord mudaf l)
  | .harfGovernance operator operand, l =>
    let l := l.addOperator operator.role.text operator.surface (describe operand)
    let l := l.addRelation "HarfGovernance".toList operator.surface (describe operand)
    visit operand (visitWord operator l)
  | .connectedSentence left connector right, l =>
    let l := l.addOperator connector.role.text connector.surface
      (describe left ++ (" -> ".toList ++ describe right))
    let l := l.addRelation "ConnectiveRelation".toList (describe left) (describe right)
    visit right (visitWord connector (visit left l))
  | .operatorApplication operator target, l =>
    let l := l.addOperator operator.role.text operator.surface (describe target)
    let l := l.addRelation "OperatorApplication".toList operator.surface (describe target)
    visit target (visitWord operator l)
  | .clause parts, l => visitAll parts (l.addFrame "Clause".toList "Clause".toList (parts.map describe))

def visitAll : List Node → Lists → Lists
  | [], l => l
  | n :: ns, l => visitAll ns (visit n l)

end

/-- `AdgVerifier.Verify`. -/
def verify (program : AdgProgram) : Except AdgException VerifiedAdgProgram :=
  let l := visit program.root ⟨[], [], []⟩
  if l.semanticFrames.length = 0 then
    throwType .invalidSemanticFrame "VerifiedAdgProgram requires at least one semantic frame.".toList
  else .ok ⟨program, l.relations, l.operators, l.semanticFrames⟩

/-! ## What a node contributes -/

def failRelation : Node → Option ResolvedRelation
  | .verbalSentence verb fail _ _ => some ⟨"Fa'il".toList, verb.surface, fail.surface⟩
  | _ => none

def mafulRelation : Node → Option ResolvedRelation
  | .verbalSentence verb _ (some maful) _ => some ⟨"Maf'ul".toList, verb.surface, maful.surface⟩
  | _ => none

def idafaRelation : Node → Option ResolvedRelation
  | .idafaPhrase mudaf mudafIlayh => some ⟨"Idafa".toList, mudaf.surface, mudafIlayh.surface⟩
  | _ => none

/-- The relation of a node whose word governs others. -/
def governingRelation : Node → Option ResolvedRelation
  | .harfGovernance operator operand => some ⟨"HarfGovernance".toList, operator.surface, describe operand⟩
  | .connectedSentence left _ right => some ⟨"ConnectiveRelation".toList, describe left, describe right⟩
  | .operatorApplication operator target => some ⟨"OperatorApplication".toList, operator.surface, describe target⟩
  | _ => none

def relationsOf (n : Node) : List ResolvedRelation :=
  (failRelation n).toList ++ (mafulRelation n).toList ++ (idafaRelation n).toList ++ (governingRelation n).toList

/-- The operator entry of a governance, connected or operator application node. -/
def operatorOf : Node → Option ResolvedOperator
  | .harfGovernance operator operand => some ⟨operator.role.text, operator.surface, describe operand⟩
  | .connectedSentence left connector right =>
    some ⟨connector.role.text, connector.surface, describe left ++ (" -> ".toList ++ describe right)⟩
  | .operatorApplication operator target => some ⟨operator.role.text, operator.surface, describe target⟩
  | _ => none

/-- The frame of a word. -/
def frameOf (w : Word) : SemanticFrame := ⟨w.kind.text, w.surface, [w.marker.text, w.role.text]⟩

mutual

/-- The frames of a tree, an event's slots known from the start. -/
def framesOf : Node → List SemanticFrame
  | .word w => [frameOf w]
  | .verbalSentence verb fail maful adjuncts =>
    ⟨"Event".toList, verb.surface, "Agent".toList :: maful.toList.map (fun _ => "Patient".toList)⟩ :: frameOf verb ::
      frameOf fail :: (maful.toList.map frameOf ++ framesOfAll adjuncts)
  | .idafaPhrase mudaf mudafIlayh =>
    [⟨"PossessionOrSpecification".toList, mudaf.surface, [mudafIlayh.surface]⟩, frameOf mudaf, frameOf mudafIlayh]
  | .harfGovernance operator operand => frameOf operator :: framesOf operand
  | .connectedSentence left connector right => framesOf left ++ frameOf connector :: framesOf right
  | .operatorApplication operator target => frameOf operator :: framesOf target
  | .clause parts => ⟨"Clause".toList, "Clause".toList, parts.map describe⟩ :: framesOfAll parts

def framesOfAll : List Node → List SemanticFrame
  | [] => []
  | n :: ns => framesOf n ++ framesOfAll ns

end

/-! ## What a visit adds -/

/-- The lists with more at their ends. -/
def Lists.add (l : Lists) (relations : List ResolvedRelation) (operators : List ResolvedOperator)
    (semanticFrames : List SemanticFrame) : Lists :=
  ⟨l.relations ++ relations, l.operators ++ operators, l.semanticFrames ++ semanticFrames⟩

@[simp] theorem Lists.add_add (l : Lists) (rs rs' : List ResolvedRelation) (os os' : List ResolvedOperator)
    (fs fs' : List SemanticFrame) : (l.add rs os fs).add rs' os' fs' = l.add (rs ++ rs') (os ++ os') (fs ++ fs') := by
  simp only [Lists.add, List.append_assoc]

theorem Lists.addRelation_eq (l : Lists) (kind head dependent : Text) :
    l.addRelation kind head dependent = l.add [⟨kind, head, dependent⟩] [] [] := by
  simp [Lists.addRelation, Lists.add]

theorem Lists.addOperator_eq (l : Lists) (kind surface target : Text) :
    l.addOperator kind surface target = l.add [] [⟨kind, surface, target⟩] [] := by
  simp [Lists.addOperator, Lists.add]

theorem Lists.addFrame_eq (l : Lists) (kind anchor : Text) (slots : List Text) :
    l.addFrame kind anchor slots = l.add [] [] [⟨kind, anchor, slots⟩] := by
  simp [Lists.addFrame, Lists.add]

theorem visitWord_eq (w : Word) (l : Lists) : visitWord w l = l.add [] [] [frameOf w] := l.addFrame_eq _ _ _

/-- The patch meets the frame recorded last. -/
theorem Lists.setLastSlots_add (l : Lists) (rs : List ResolvedRelation) (os : List ResolvedOperator)
    (fs : List SemanticFrame) (f : SemanticFrame) (slots : List Text) :
    (l.add rs os (fs ++ [f])).setLastSlots slots = l.add rs os (fs ++ [{ f with slots := slots }]) := by
  simp only [Lists.setLastSlots, Lists.add, ← List.append_assoc, List.modifyLast_concat]

/-- What the nodes of a tree record. -/
def Lists.addTree (l : Lists) (subnodes : List Node) (frames : List SemanticFrame) : Lists :=
  l.add (subnodes.flatMap relationsOf) (subnodes.filterMap operatorOf) frames

mutual

/-- **A visit records the relation and operator of every node and the frames of the tree.** -/
theorem visit_eq : ∀ (n : Node) (l : Lists), visit n l = l.addTree n.subnodes (framesOf n)
  | .word w, l => visitWord_eq w l
  | .verbalSentence verb fail none adjuncts, l => by
    have hadjuncts := visitAll_eq adjuncts
    simp only [visit, hadjuncts, visitWord_eq, Lists.addRelation_eq, Lists.addFrame_eq, Lists.addTree, Lists.add_add]
    rfl
  | .verbalSentence verb fail (some maful) adjuncts, l => by
    have hadjuncts := visitAll_eq adjuncts
    have hpatch := Lists.setLastSlots_add l [⟨"Fa'il".toList, verb.surface, fail.surface⟩,
      ⟨"Maf'ul".toList, verb.surface, maful.surface⟩] [] [] ⟨"Event".toList, verb.surface, ["Agent".toList]⟩
      ["Agent".toList, "Patient".toList]
    simp only [visit, hadjuncts, visitWord_eq, Lists.addRelation_eq, Lists.addFrame_eq, Lists.addTree, Lists.add_add]
    simp only [List.nil_append, List.append_nil, List.cons_append] at hpatch ⊢
    rw [hpatch, Lists.add_add]
    rfl
  | .idafaPhrase mudaf mudafIlayh, l => by
    simp only [visit, visitWord_eq, Lists.addRelation_eq, Lists.addFrame_eq, Lists.addTree, Lists.add_add]
    rfl
  | .harfGovernance operator operand, l => by
    have hoperand := visit_eq operand
    simp only [visit, hoperand, visitWord_eq, Lists.addRelation_eq, Lists.addOperator_eq, Lists.addTree, Lists.add_add]
    rfl
  | .connectedSentence left connector right, l => by
    have hleft := visit_eq left
    have hright := visit_eq right
    simp only [visit, hleft, hright, visitWord_eq, Lists.addRelation_eq, Lists.addOperator_eq, Lists.addTree,
      Lists.add_add, Node.subnodes, List.flatMap_cons, List.filterMap_cons, List.flatMap_append,
      List.filterMap_append, framesOf, List.append_assoc, List.nil_append]
    rfl
  | .operatorApplication operator target, l => by
    have htarget := visit_eq target
    simp only [visit, htarget, visitWord_eq, Lists.addRelation_eq, Lists.addOperator_eq, Lists.addTree, Lists.add_add]
    rfl
  | .clause parts, l => by
    have hparts := visitAll_eq parts
    simp only [visit, hparts, Lists.addFrame_eq, Lists.addTree, Lists.add_add]
    rfl

theorem visitAll_eq : ∀ (ns : List Node) (l : Lists),
    visitAll ns l = l.addTree (Node.subnodesAll ns) (framesOfAll ns)
  | [], l => by
    simp [visitAll, Node.subnodesAll, framesOfAll, Lists.addTree, Lists.add]
  | n :: ns, l => by
    have hn := visit_eq n
    have hns := visitAll_eq ns
    simp only [visitAll, hns, hn, Lists.addTree, Lists.add_add, Node.subnodesAll, framesOfAll, List.flatMap_append,
      List.filterMap_append]

end

theorem framesOf_ne_nil (n : Node) : framesOf n ≠ [] := by
  cases n <;> simp [framesOf]

/-- **Verification succeeds** on every tree. -/
theorem verify_eq (program : AdgProgram) : verify program = .ok ⟨program,
    program.root.subnodes.flatMap relationsOf, program.root.subnodes.filterMap operatorOf, framesOf program.root⟩ := by
  have hne : (framesOf program.root).length ≠ 0 := fun h => framesOf_ne_nil _ (List.length_eq_zero_iff.1 h)
  simp only [verify, visit_eq, Lists.addTree, Lists.add, List.nil_append, if_neg hne]

/-! ## Token frames -/

def isTokenKind (kind : Text) : Bool :=
  decide (kind = TokenKind.ism.text ∨ kind = TokenKind.fil.text ∨ kind = TokenKind.harf.text)

/-- A frame of kind `Ism`, `Fil` or `Harf`. -/
def isToken (f : SemanticFrame) : Bool := isTokenKind f.kind

theorem isToken_frameOf (w : Word) : isToken (frameOf w) = true := by
  unfold isToken frameOf
  cases w.kind <;> rfl

theorem filter_cons_other {f : SemanticFrame} {fs : List SemanticFrame} (h : isTokenKind f.kind = false) :
    (f :: fs).filter isToken = fs.filter isToken :=
  List.filter_cons_of_neg (by rw [isToken, h]; exact Bool.false_ne_true)

theorem filter_frameOf (ws : List Word) : (ws.map frameOf).filter isToken = ws.map frameOf :=
  List.filter_eq_self.2 (fun f hf => by
    obtain ⟨w, -, rfl⟩ := List.mem_map.1 hf
    exact isToken_frameOf w)

mutual

/-- **The token frames are the words rendered**, in their order. -/
theorem tokens_framesOf : ∀ n : Node, (framesOf n).filter isToken = n.renderWords.map frameOf
  | .word w => filter_frameOf [w]
  | .verbalSentence verb fail maful adjuncts => by
    have hadjuncts := tokens_framesOfAll adjuncts
    have hmaful := filter_frameOf maful.toList
    rw [framesOf, filter_cons_other rfl, List.filter_cons_of_pos (isToken_frameOf verb),
      List.filter_cons_of_pos (isToken_frameOf fail), List.filter_append, hmaful, hadjuncts]
    simp only [Node.renderWords, List.map_cons, List.map_append, List.cons_append]
  | .idafaPhrase mudaf mudafIlayh => by
    rw [framesOf, filter_cons_other rfl]
    exact filter_frameOf [mudaf, mudafIlayh]
  | .harfGovernance operator operand => by
    rw [framesOf, List.filter_cons_of_pos (isToken_frameOf operator), tokens_framesOf operand]; rfl
  | .connectedSentence left connector right => by
    rw [framesOf, List.filter_append, List.filter_cons_of_pos (isToken_frameOf connector), tokens_framesOf left,
      tokens_framesOf right, Node.renderWords, List.map_append]; rfl
  | .operatorApplication operator target => by
    rw [framesOf, List.filter_cons_of_pos (isToken_frameOf operator), tokens_framesOf target]; rfl
  | .clause parts => by
    have hparts := tokens_framesOfAll parts
    rw [framesOf, filter_cons_other rfl, hparts]; rfl

theorem tokens_framesOfAll : ∀ ns : List Node,
    (framesOfAll ns).filter isToken = (Node.renderAll ns).map frameOf
  | [] => rfl
  | n :: ns => by
    have hns := tokens_framesOfAll ns
    rw [framesOfAll, List.filter_append, tokens_framesOf n, hns, Node.renderAll, List.map_append]

end

/-! ## Relations by kind -/

/-- The relations of a kind are those that one kind of node records. -/
theorem filter_relations {kind : Text} {relation : Node → Option ResolvedRelation}
    (h : ∀ n, (relationsOf n).filter (fun r => decide (r.kind = kind)) = (relation n).toList) (ns : List Node) :
    (ns.flatMap relationsOf).filter (fun r => decide (r.kind = kind)) = ns.filterMap relation := by
  induction ns with
  | nil => rfl
  | cons n ns ih =>
    rw [List.flatMap_cons, List.filter_append, h, ih, List.filterMap_cons]
    cases relation n <;> rfl

theorem filter_failRelation (n : Node) :
    (relationsOf n).filter (fun r => decide (r.kind = "Fa'il".toList)) = (failRelation n).toList := by
  cases n with
  | verbalSentence verb fail maful adjuncts => cases maful <;> rfl
  | _ => rfl

theorem filter_mafulRelation (n : Node) :
    (relationsOf n).filter (fun r => decide (r.kind = "Maf'ul".toList)) = (mafulRelation n).toList := by
  cases n with
  | verbalSentence verb fail maful adjuncts => cases maful <;> rfl
  | _ => rfl

theorem filter_idafaRelation (n : Node) :
    (relationsOf n).filter (fun r => decide (r.kind = "Idafa".toList)) = (idafaRelation n).toList := by
  cases n with
  | verbalSentence verb fail maful adjuncts => cases maful <;> rfl
  | _ => rfl

/-- **The verifier covers what is rendered**: it succeeds, its token frames are the words of the text one for one, and it
records one relation for every sentence, every patient and every idafa phrase, and one operator for every node that has
one. -/
theorem verify_covers (program : AdgProgram) : ∃ p, verify program = .ok p ∧ p.program = program ∧
    p.semanticFrames.filter isToken = program.root.renderWords.map frameOf ∧
    p.relations.filter (fun r => decide (r.kind = "Fa'il".toList)) = program.root.subnodes.filterMap failRelation ∧
    p.relations.filter (fun r => decide (r.kind = "Maf'ul".toList)) = program.root.subnodes.filterMap mafulRelation ∧
    p.relations.filter (fun r => decide (r.kind = "Idafa".toList)) = program.root.subnodes.filterMap idafaRelation ∧
    p.operators = program.root.subnodes.filterMap operatorOf :=
  ⟨_, verify_eq program, rfl, tokens_framesOf _, filter_relations filter_failRelation _,
    filter_relations filter_mafulRelation _, filter_relations filter_idafaRelation _, rfl⟩

end Verifier
end Adg
