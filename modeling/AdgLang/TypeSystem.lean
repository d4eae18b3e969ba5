import AdgLang.Diagnostics
/-!
# TypeSystem — words, nodes and the contracts their constructors check

`Word` and the node classes of `TypeSystem/`, the checks of `TypeContracts`, and the constructors, which return the node
or throw.  A `Node` itself is raw data: that the parsers build only legal ones is proved about them.
-/
namespace Adg

inductive TokenKind
  | ism | fil | harf
deriving DecidableEq

/-- `AdgCase`. -/
inductive AdgCase
  | none | raf | nasb | jarr | jazm | tanwin
deriving DecidableEq

inductive HarfRole
  | none | nasbOperator | jarrOperator | jazmOperator | rafOperator
  | sequenceConnector | coordinationConnector | immediateConnector | contrastConnector | causalConnector
  | conditionalConnector | explanatoryConnector | negationOperator | interrogativeOperator
deriving DecidableEq

def TokenKind.text : TokenKind → Text
  | .ism => "Ism".toList
  | .fil => "Fil".toList
  | .harf => "Harf".toList

def AdgCase.text : AdgCase → Text
  | .none => "None".toList
  | .raf => "Raf".toList
  | .nasb => "Nasb".toList
  | .jarr => "Jarr".toList
  | .jazm => "Jazm".toList
  | .tanwin => "Tanwin".toList

def HarfRole.text : HarfRole → Text
  | .none => "None".toList
  | .nasbOperator => "NasbOperator".toList
  | .jarrOperator => "JarrOperator".toList
  | .jazmOperator => "JazmOperator".toList
  | .rafOperator => "RafOperator".toList
  | .sequenceConnector => "SequenceConnector".toList
  | .coordinationConnector => "CoordinationConnector".toList
  | .immediateConnector => "ImmediateConnector".toList
  | .contrastConnector => "ContrastConnector".toList
  | .causalConnector => "CausalConnector".toList
  | .conditionalConnector => "ConditionalConnector".toList
  | .explanatoryConnector => "ExplanatoryConnector".toList
  | .negationOperator => "NegationOperator".toList
  | .interrogativeOperator => "InterrogativeOperator".toList

def HarfRole.isCaseOperator : HarfRole → Bool
  | .nasbOperator | .jarrOperator | .jazmOperator | .rafOperator => true
  | _ => false

def HarfRole.isConnector : HarfRole → Bool
  | .sequenceConnector | .coordinationConnector | .immediateConnector | .contrastConnector | .causalConnector
  | .conditionalConnector | .explanatoryConnector => true
  | _ => false

/-- The case a governing particle assigns. -/
def HarfRole.resultingCase : HarfRole → AdgCase
  | .nasbOperator => .nasb
  | .jarrOperator => .jarr
  | .jazmOperator => .jazm
  | .rafOperator => .raf
  | _ => .none

/-! ## Words -/

structure Word where
  surface : Text
  kind : TokenKind
  marker : AdgCase
  role : HarfRole
deriving DecidableEq

/-- `Word.Validate`. -/
def Word.validate (w : Word) : Except AdgException Unit := do
  throwIf (w.kind = .ism ∧ w.marker = .jazm) (.type .unknown ("Ism cannot receive Jazm: ".toList ++ w.surface))
  throwIf (w.kind = .fil ∧ (w.marker = .raf ∨ w.marker = .nasb ∨ w.marker = .jarr ∨ w.marker = .tanwin))
    (.type .unknown ("Fi'l can receive only Jazm or no case: ".toList ++ w.surface))
  throwIf (w.kind = .harf ∧ w.marker ≠ .none)
    (.type .unknown ("Harf must not receive an i'rab case: ".toList ++ w.surface))

/-- The constructor of `Word`. -/
def Word.create (surface : Text) (kind : TokenKind) (marker : AdgCase) (role : HarfRole) :
    Except AdgException Word := do
  throwIf (isNullOrWhiteSpace surface) (.type .unknown "Token surface must not be empty.".toList)
  let w : Word := ⟨surface, kind, marker, role⟩
  w.validate
  return w

def Word.ism (surface : Text) (marker : AdgCase) : Except AdgException Word := Word.create surface .ism marker .none

def Word.fil (surface : Text) (marker : AdgCase) : Except AdgException Word := Word.create surface .fil marker .none

def Word.harf (surface : Text) (role : HarfRole) : Except AdgException Word := Word.create surface .harf .none role

/-- `Word.ToString`. -/
def Word.text (w : Word) : Text :=
  match w.kind with
  | .ism => "Ism[".toList ++ w.marker.text ++ "]: ".toList ++ w.surface
  | .fil =>
    if w.marker = .none then "Fi'l: ".toList ++ w.surface
    else "Fi'l[".toList ++ w.marker.text ++ "]: ".toList ++ w.surface
  | .harf =>
    if w.role = .none then "Harf: ".toList ++ w.surface
    else "Harf[".toList ++ w.role.text ++ "]: ".toList ++ w.surface

/-! ## Nodes -/

/-- The classes that implement `IAdgNode`. -/
inductive Node
  | word (w : Word)
  | verbalSentence (verb fail : Word) (maful : Option Word) (adjuncts : List Node)
  | idafaPhrase (mudaf mudafIlayh : Word)
  | harfGovernance (operator : Word) (operand : Node)
  | connectedSentence (left : Node) (connector : Word) (right : Node)
  | operatorApplication (operator : Word) (target : Node)
  | clause (parts : List Node)

/-- The flags of `NodeShape`. -/
abbrev NodeShape := BitVec 6

namespace NodeShape

def token : NodeShape := 1
def phrase : NodeShape := 2
def sentence : NodeShape := 4
def clause : NodeShape := 8
def event : NodeShape := 16
def object : NodeShape := 32

end NodeShape

def Word.shapes (w : Word) : NodeShape :=
  match w.kind with
  | .ism => .token ||| .object
  | .fil => .token ||| .event
  | .harf => .token

def Node.shapes : Node → NodeShape
  | .word w => w.shapes
  | .verbalSentence _ _ _ _ => .sentence ||| .clause ||| .event
  | .idafaPhrase _ _ => .phrase ||| .object
  | .harfGovernance _ _ => .phrase
  | .connectedSentence _ _ _ => .sentence ||| .clause
  | .operatorApplication _ target => target.shapes
  | .clause _ => .clause

mutual

/-- `RenderWords`. -/
def Node.renderWords : Node → List Word
  | .word w => [w]
  | .verbalSentence verb fail maful adjuncts => verb :: fail :: maful.toList ++ renderAll adjuncts
  | .idafaPhrase mudaf mudafIlayh => [mudaf, mudafIlayh]
  | .harfGovernance operator operand => operator :: operand.renderWords
  | .connectedSentence left connector right => left.renderWords ++ connector :: right.renderWords
  | .operatorApplication operator target => operator :: target.renderWords
  | .clause parts => renderAll parts

def Node.renderAll : List Node → List Word
  | [] => []
  | n :: ns => n.renderWords ++ renderAll ns

end

/-! ## Contracts -/

namespace TypeContracts

def requireKind (word : Word) (kind : TokenKind) (contract : Text) : Except AdgException Unit :=
  throwIf (word.kind ≠ kind) (.type .unknown (contract ++ " expected ".toList ++ kind.text ++
    ", but received ".toList ++ word.text ++ ".".toList))

def diagnosticFor (contract : Text) : DiagnosticCode :=
  if contract = "Fa'il".toList then .invalidFaelCase
  else if contract = "Maf'ul".toList then .invalidMafulCase
  else if contract = "MudafIlayh".toList then .invalidJarrOperand
  else .unknown

def requireIsmCase (word : Word) (marker : AdgCase) (contract : Text) : Except AdgException Unit :=
  throwIf (word.kind ≠ .ism ∨ word.marker ≠ marker) (.type (diagnosticFor contract) (contract ++
    " expected Ism[".toList ++ marker.text ++ "], but received ".toList ++ word.text ++ ".".toList))

def nodeAcceptsCase (node : Node) (marker : AdgCase) : Bool :=
  match node with
  | .word w =>
    match w.kind with
    | .ism => decide (w.marker = marker)
    | .fil => decide (w.marker = marker) && decide (marker = .jazm)
    | .harf => false
  | .idafaPhrase mudaf mudafIlayh =>
    decide (marker = .jarr) && (decide (mudaf.marker = .jarr) && decide (mudafIlayh.marker = .jarr))
  | _ => false

def tryGetSingleIsm : Node → Option Word
  | .word w => if w.kind = .ism then some w else none
  | _ => none

def requireExplanationCaseAgreement (left right : Node) (connectorSurface : Text) : Except AdgException Unit :=
  match tryGetSingleIsm left, tryGetSingleIsm right with
  | some leftIsm, some rightIsm =>
    if leftIsm.marker = .none ∨ rightIsm.marker = .none ∨ leftIsm.marker = rightIsm.marker then .ok ()
    else throwType .explanationCaseMismatch ("ExplanatoryConnector \"".toList ++ connectorSurface ++
      "\" requires case agreement. Expected ".toList ++ leftIsm.marker.text ++ ", received ".toList ++
      rightIsm.marker.text ++ ". Left ".toList ++ leftIsm.text ++ "; right ".toList ++ rightIsm.text ++ ".".toList)
  | _, _ => .ok ()

def describe : Node → Text
  | .word w => w.text
  | .verbalSentence _ _ _ _ => "VerbalSentence".toList
  | .idafaPhrase mudaf mudafIlayh =>
    "IdafaPhrase(".toList ++ mudaf.text ++ ", ".toList ++ mudafIlayh.text ++ ")".toList
  | .harfGovernance operator _ => "HarfGovernance(".toList ++ operator.surface ++ ")".toList
  | .connectedSentence _ connector _ => "ConnectedSentence(".toList ++ connector.surface ++ ")".toList
  | .operatorApplication operator _ => "OperatorApplication(".toList ++ operator.surface ++ ")".toList
  | .clause _ => "Clause".toList

end TypeContracts

open TypeContracts

/-! ## Constructors -/

def newVerbalSentence (verb fail : Word) (maful : Option Word) (adjuncts : List Node) : Except AdgException Node := do
  requireKind verb .fil "VerbalSentence verb".toList
  requireIsmCase fail .raf "Fa'il".toList
  match maful with
  | none => pure ()
  | some maful => requireIsmCase maful .nasb "Maf'ul".toList
  return .verbalSentence verb fail maful adjuncts

def newIdafaPhrase (mudaf mudafIlayh : Word) : Except AdgException Node := do
  requireKind mudaf .ism "Mudaf".toList
  requireIsmCase mudafIlayh .jarr "MudafIlayh".toList
  return .idafaPhrase mudaf mudafIlayh

def newHarfGovernance (operator : Word) (operand : Node) : Except AdgException Node := do
  requireKind operator .harf "HarfGovernance operator".toList
  throwIf (!operator.role.isCaseOperator) (.type .unknown
    ("HarfGovernance requires a case operator, but received ".toList ++ operator.text ++ ".".toList))
  throwIf (!nodeAcceptsCase operand operator.role.resultingCase)
    (.type (if operator.role = .jarrOperator then .invalidJarrOperand else .invalidOperatorArity)
      (operator.role.text ++ " \"".toList ++ operator.surface ++ "\" requires operand with Case=".toList ++
        operator.role.resultingCase.text ++ ". Received ".toList ++ describe operand ++ ".".toList))
  return .harfGovernance operator operand

/-- `RequireShape`. -/
def requireShape (connector : Word) (node : Node) (required : NodeShape) (side label : Text) :
    Except AdgException Unit :=
  throwIf (node.shapes &&& required = 0) (.type .unknown (connector.role.text ++ " \"".toList ++ connector.surface ++
    "\" requires ".toList ++ side ++ " operand of type ".toList ++ label ++ ". Received ".toList ++ describe node ++
    ".".toList))

/-- `ValidateOperands`. -/
def validateOperands (left : Node) (connector : Word) (right : Node) : Except AdgException Unit := do
  match connector.role with
  | .sequenceConnector | .immediateConnector =>
    requireShape connector left (.sentence ||| .event) "left".toList "Sentence or Event".toList
    requireShape connector right (.sentence ||| .event) "right".toList "Sentence or Event".toList
  | .coordinationConnector =>
    throwIf (left.shapes &&& right.shapes &&& (.token ||| .phrase ||| .sentence ||| .event ||| .object) = 0)
      (.type .unknown ("CoordinationConnector \"".toList ++ connector.surface ++
        "\" requires operands of the same syntactic level. Received ".toList ++ describe left ++ " and ".toList ++
        describe right ++ ".".toList))
  | .contrastConnector =>
    requireShape connector left .sentence "left".toList "Sentence".toList
    requireShape connector right .sentence "right".toList "Sentence".toList
  | .causalConnector =>
    requireShape connector left .sentence "left".toList "Sentence".toList
    requireShape connector right (.clause ||| .sentence) "right".toList "Clause or Sentence".toList
  | .conditionalConnector =>
    requireShape connector left (.clause ||| .sentence) "condition".toList "Clause or Sentence".toList
    requireShape connector right (.clause ||| .sentence) "consequence".toList "Clause or Sentence".toList
  | .explanatoryConnector =>
    throwIf (right.shapes = 0) (.type .unknown ("ExplanatoryConnector \"".toList ++ connector.surface ++
      "\" requires an explanation operand.".toList))
    requireExplanationCaseAgreement left right connector.surface
  | _ => pure ()

def newConnectedSentence (left : Node) (connector : Word) (right : Node) : Except AdgException Node := do
  requireKind connector .harf "Connector".toList
  throwIf (!connector.role.isConnector) (.type .unknown
    ("ConnectedSentence requires a connector Harf, but received ".toList ++ connector.text ++ ".".toList))
  validateOperands left connector right
  return .connectedSentence left connector right

/-- `ValidateTarget`. -/
def validateTarget (operator : Word) (target : Node) : Except AdgException Unit :=
  match operator.role with
  | .negationOperator =>
    throwIf (target.shapes &&& (.token ||| .clause ||| .sentence) = 0) (.type .missingNegationTarget
      ("NegationOperator \"".toList ++ operator.surface ++ "\" requires a target Token, Clause, or Sentence.".toList))
  | .interrogativeOperator =>
    throwIf (target.shapes &&& .sentence = 0) (.type .missingInterrogativeTarget
      ("InterrogativeOperator \"".toList ++ operator.surface ++
        "\" requires a complete target Sentence or typed UnknownSlot.".toList))
  | _ => .ok ()

def newOperatorApplication (operator : Word) (target : Node) : Except AdgException Node := do
  requireKind operator .harf "OperatorApplication operator".toList
  throwIf (operator.role ≠ .negationOperator ∧ operator.role ≠ .interrogativeOperator) (.type .invalidOperatorArity
    ("OperatorApplication requires a NegationOperator or InterrogativeOperator. Received ".toList ++ operator.text ++
      ".".toList))
  validateTarget operator target
  return .operatorApplication operator target

def newClause (parts : List Node) : Except AdgException Node := do
  throwIf (parts.length = 0) (.type .unknown "Clause requires at least one syntactic part.".toList)
  return .clause parts

end Adg
