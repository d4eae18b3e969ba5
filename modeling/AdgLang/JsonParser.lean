import AdgLang.Json
import AdgLang.TypeSystem
/-!
# JsonParser — the JSON syntax

`AdgJsonParser.Parse`.  Every `Parse..` function of the source is a function of an object's properties; where the source
recurses into a property, the property carries the result (`Json.Element`), and `parse` ties the knot.
-/
namespace Adg
namespace JsonParser

open TypeContracts

/-- A node, or the exception thrown in its place. -/
abbrev Result := Except AdgException Node

/-- `Normalize`. -/
def normalize (value : Text) : Text :=
  (toLowerInvariant (trim value)).filter (fun ch =>
    !(isWhiteSpace ch || ch ∈ ['_', '-', '\u2018', '\u2019', '\'', '\u0060', '\u0621']))

/-! ## Properties -/

/-- The properties of an element, as `TryGetPropertyAny` reads them. -/
def propertiesOf : Json → Except AdgException (List (Text × Json))
  | .object properties => .ok properties
  | _ => throwParse .unknown "Expected JSON object.".toList

/-- The name an error reports: the first of the names tried. -/
def firstName (names : List Text) : Text := names.headD []

def getRequiredProperty {α : Type} (names : List Text) (properties : List (Text × α)) : Except AdgException α :=
  match Json.lookupAny names properties with
  | some property => .ok property
  | none => throwParse .unknown ("Missing required property '".toList ++ firstName names ++ "'.".toList)

/-- `property.GetString()`, where the value is a string. -/
def getString (names : List Text) : Json → Except AdgException Text
  | .string value => .ok value
  | _ => throwParse .unknown ("Property '".toList ++ firstName names ++ "' must be a string.".toList)

def getRequiredString (names : List Text) (properties : List (Text × Json)) : Except AdgException Text := do
  getString names (← getRequiredProperty names properties)

def getOptionalString (names : List Text) (properties : List (Text × Json)) : Except AdgException (Option Text) :=
  match Json.lookupAny names properties with
  | none => .ok none
  | some property => some <$> getString names property

/-! ## Labels -/

def parseTokenKind (value : Text) : Except AdgException TokenKind :=
  let key := normalize value
  if key ∈ ["ism".toList, "اسم".toList] then .ok .ism
  else if key ∈ ["fil".toList, "fiil".toList, "fi'l".toList, "فعل".toList] then .ok .fil
  else if key ∈ ["harf".toList, "حرف".toList] then .ok .harf
  else throwParse .unknown ("Unknown token category '".toList ++ value ++ "'.".toList)

def parseCase (value : Text) : Except AdgException AdgCase :=
  let key := normalize value
  if key ∈ ["".toList, "none".toList, "null".toList] then .ok .none
  else if key ∈ ["raf".toList, "رفع".toList, "rafu".toList] then .ok .raf
  else if key ∈ ["nasb".toList, "نصب".toList] then .ok .nasb
  else if key ∈ ["jarr".toList, "جر".toList, "jar".toList] then .ok .jarr
  else if key ∈ ["jazm".toList, "جزم".toList] then .ok .jazm
  else if key ∈ ["tanwin".toList, "تنوين".toList] then .ok .tanwin
  else throwParse .unknown ("Unknown i'rab case '".toList ++ value ++ "'.".toList)

/-- `InferRole`: the role of a particle from its surface. -/
def inferRole (surface : Text) : HarfRole :=
  if surface ∈ ["إنّ".toList, "أنّ".toList, "ليت".toList, "لعلّ".toList, "كأنّ".toList, "لكنّ".toList,
      "لكنَّ".toList] then .nasbOperator
  else if surface ∈ ["في".toList, "من".toList, "إلى".toList, "على".toList, "عن".toList, "الباء".toList, "ب".toList,
      "ل".toList, "ك".toList] then .jarrOperator
  else if surface ∈ ["لم".toList, "لما".toList, "لا الناهية".toList] then .jazmOperator
  else if surface = "ثم".toList then .sequenceConnector
  else if surface = "و".toList then .coordinationConnector
  else if surface ∈ ["ف".toList, "فـ".toList] then .immediateConnector
  else if surface ∈ ["لكنْ".toList, "لكن".toList] then .contrastConnector
  else if surface ∈ ["لأن".toList, "لأنَّه".toList, "لأنه".toList] then .causalConnector
  else if surface ∈ ["إذا".toList, "إنْ".toList, "كلما".toList, "لو".toList, "أما".toList] then .conditionalConnector
  else if surface ∈ ["أي".toList, "أيْ".toList] then .explanatoryConnector
  else if surface ∈ ["لا".toList, "لن".toList, "ليس".toList] then .negationOperator
  else if surface ∈ ["هل".toList, "أ".toList, "أين".toList, "متى".toList, "كيف".toList,
      "كم".toList] then .interrogativeOperator
  else .none

def parseRole (value surface : Text) : Except AdgException HarfRole :=
  let key := normalize value
  if key ∈ ["none".toList, "".toList] then .ok (inferRole surface)
  else if key ∈ ["nasb".toList, "nasboperator".toList, "حرفنصب".toList] then .ok .nasbOperator
  else if key ∈ ["jarr".toList, "jarroperator".toList, "حرفجر".toList] then .ok .jarrOperator
  else if key ∈ ["jazm".toList, "jazmoperator".toList, "حرفجزم".toList] then .ok .jazmOperator
  else if key ∈ ["raf".toList, "rafoperator".toList, "حرفرفع".toList] then .ok .rafOperator
  else if key ∈ ["sequence".toList, "sequenceconnector".toList, "ترتيب".toList] then .ok .sequenceConnector
  else if key ∈ ["coordination".toList, "coordinationconnector".toList, "عطف".toList] then .ok .coordinationConnector
  else if key ∈ ["immediate".toList, "immediateconnector".toList, "consequence".toList,
      "تعقيب".toList] then .ok .immediateConnector
  else if key ∈ ["contrast".toList, "contrastconnector".toList, "استدراك".toList] then .ok .contrastConnector
  else if key ∈ ["cause".toList, "causal".toList, "causalconnector".toList, "سبب".toList] then .ok .causalConnector
  else if key ∈ ["condition".toList, "conditional".toList, "conditionalconnector".toList,
      "شرط".toList] then .ok .conditionalConnector
  else if key ∈ ["explanation".toList, "explanatory".toList, "explanatoryconnector".toList,
      "تفسير".toList] then .ok .explanatoryConnector
  else if key ∈ ["negation".toList, "negationoperator".toList, "نفي".toList] then .ok .negationOperator
  else if key ∈ ["question".toList, "interrogative".toList, "interrogativeoperator".toList,
      "استفهام".toList] then .ok .interrogativeOperator
  else throwParse .unknown ("Unknown Harf role '".toList ++ value ++ "'.".toList)

def parseRoleOrInfer (properties : List (Text × Json)) (surface : Text) : Except AdgException HarfRole := do
  match ← getOptionalString ["role".toList, "operator".toList, "connectorRole".toList] properties with
  | none => return inferRole surface
  | some value => parseRole value surface

/-! ## Words -/

def surfaceNames : List Text := ["surface".toList, "text".toList]

def parseMarker (properties : List (Text × Json)) : Except AdgException AdgCase := do
  parseCase ((← getOptionalString ["case".toList, "marker".toList] properties).getD "None".toList)

def parseIsm (properties : List (Text × Json)) : Except AdgException Word := do
  Word.ism (← getRequiredString surfaceNames properties) (← parseMarker properties)

def parseFil (properties : List (Text × Json)) : Except AdgException Word := do
  Word.fil (← getRequiredString surfaceNames properties) (← parseMarker properties)

def parseHarf (properties : List (Text × Json)) : Except AdgException Word := do
  let surface ← getRequiredString surfaceNames properties
  Word.harf surface (← parseRoleOrInfer properties surface)

def categoryNames : List Text := ["category".toList, "tokenKind".toList]

/-- The parser of a kind of word. -/
def parseKind (kind : TokenKind) (properties : List (Text × Json)) : Except AdgException Word :=
  match kind with
  | .ism => parseIsm properties
  | .fil => parseFil properties
  | .harf => parseHarf properties

def parseWord (properties : List (Text × Json)) : Except AdgException Word := do
  let category ← parseTokenKind (← getRequiredString categoryNames properties)
  parseKind category properties

def parseWordOrSurface (element : Json) (expectedKind : TokenKind) (defaultCase : AdgCase) : Except AdgException Word :=
  match element with
  | .string surface =>
    match expectedKind with
    | .ism => Word.ism surface defaultCase
    | .fil => Word.fil surface defaultCase
    | .harf => Word.harf surface (inferRole surface)
  | .object properties => do
    let word ← (if (Json.lookupAny categoryNames properties).isSome then parseWord properties
      else parseKind expectedKind properties)
    requireKind word expectedKind "Token parser".toList
    return word
  | _ => throwParse .unknown "Expected token object or surface string.".toList

def parseHarfLike (element : Json) : Except AdgException Word := parseWordOrSurface element .harf .none

/-! ## Nodes -/

/-- The properties of an object whose values are parsed as nodes. -/
abbrev Properties := Json.Properties Result

/-- The same properties, unparsed. -/
def rawProperties (properties : Properties) : List (Text × Json) := properties.map (fun p => (p.1, p.2.json))

/-- The items of an array, each parsed. -/
def parseItems (message : Text) (element : Json.Element Result) : Except AdgException (List Node) :=
  match element.json with
  | .array _ => element.items.mapM id
  | _ => throwParse .unknown message

def parseVerbalSentence (properties : Properties) : Result := do
  let verb ← parseWordOrSurface (← getRequiredProperty ["verb".toList] properties).json .fil .none
  let fail ← parseWordOrSurface
    (← getRequiredProperty ["fail".toList, "faail".toList, "fa'il".toList, "agent".toList] properties).json .ism .raf
  let maful ← (match Json.lookupAny ["maful".toList, "mafoul".toList, "maf'ul".toList, "patient".toList] properties with
    | some mafulElement => some <$> parseWordOrSurface mafulElement.json .ism .nasb
    | none => .ok none)
  let adjuncts ← (match Json.lookupAny ["adjuncts".toList] properties with
    | some adjunctsElement => parseItems "adjuncts must be an array.".toList adjunctsElement
    | none => .ok [])
  newVerbalSentence verb fail maful adjuncts

def parseIdafaPhrase (properties : Properties) : Result := do
  let mudaf ← parseWordOrSurface (← getRequiredProperty ["mudaf".toList] properties).json .ism .none
  let mudafIlayh ← parseWordOrSurface
    (← getRequiredProperty ["mudafIlayh".toList, "mudaf_ilayh".toList, "dependent".toList] properties).json .ism .jarr
  newIdafaPhrase mudaf mudafIlayh

def parseHarfGovernance (properties : Properties) : Result := do
  let operator ← parseHarfLike (← getRequiredProperty ["operator".toList, "harf".toList] properties).json
  let operand ← (← getRequiredProperty ["operand".toList] properties).result
  newHarfGovernance operator operand

def missingConsequence {α : Type} (connector : Word) : Except AdgException α :=
  throwType .missingConditionalConsequence
    ("ConditionalOperator \"".toList ++ connector.surface ++ "\" requires ConsequenceClause.".toList)

def parseConnectedSentence (properties : Properties) : Result := do
  let left ← (← getRequiredProperty ["left".toList] properties).result
  let connector ← parseHarfLike (← getRequiredProperty ["connector".toList] properties).json
  match Json.lookupAny ["right".toList, "consequence".toList, "answer".toList] properties with
  | none =>
    if connector.role = .conditionalConnector then missingConsequence connector
    else throwParse .unknown "ConnectedSentence requires a right operand.".toList
  | some rightElement => newConnectedSentence left connector (← rightElement.result)

/-- The particle under one of the names, or one with the given role and a default surface. -/
def parseParticle (elementNames surfaceNames : List Text) (defaultSurface : Text) (role : HarfRole)
    (properties : Properties) : Except AdgException Word :=
  match Json.lookupAny elementNames properties with
  | some element => parseHarfLike element.json
  | none => do
    Word.harf ((← getOptionalString surfaceNames (rawProperties properties)).getD defaultSurface) role

def parseConditionalExpression (properties : Properties) : Result := do
  let condition ← (← getRequiredProperty ["condition".toList, "left".toList] properties).result
  let connector ← parseParticle ["connector".toList] ["operator".toList, "surface".toList] "إذا".toList
    .conditionalConnector properties
  throwIf (connector.role ≠ .conditionalConnector) (.type .unknown
    ("ConditionalOperator expected ConditionalConnector, but received ".toList ++ connector.text ++ ".".toList))
  match Json.lookupAny ["consequence".toList, "answer".toList, "right".toList] properties with
  | none => missingConsequence connector
  | some consequenceElement => newConnectedSentence condition connector (← consequenceElement.result)

def parseExplanatoryExpression (properties : Properties) : Result := do
  let explained ← (← getRequiredProperty ["explained".toList, "left".toList] properties).result
  let connector ← parseParticle ["connector".toList] ["operator".toList, "surface".toList] "أي".toList
    .explanatoryConnector properties
  throwIf (connector.role ≠ .explanatoryConnector) (.type .unknown
    ("ExplanatoryConnector expected ExplanatoryConnector, but received ".toList ++ connector.text ++ ".".toList))
  match Json.lookupAny ["explanation".toList, "right".toList] properties with
  | none => throwType .unknown ("ExplanatoryConnector \"".toList ++ connector.surface ++
      "\" requires an explanation operand.".toList)
  | some explanationElement => newConnectedSentence explained connector (← explanationElement.result)

/-- `ParseOperatorApplication`, for the negation or the interrogative operator. -/
def parseOperatorApplication (expectedRole : HarfRole) (properties : Properties) : Result := do
  let defaultSurface := if expectedRole = .negationOperator then "لا".toList else "هل".toList
  let operator ← parseParticle ["operator".toList, "harf".toList] ["surface".toList] defaultSurface expectedRole properties
  let operator ← (if operator.role = .none then Word.harf operator.surface expectedRole else .ok operator)
  throwIf (operator.role ≠ expectedRole) (.type .invalidOperatorArity (expectedRole.text ++ " expected ".toList ++
    expectedRole.text ++ ", but received ".toList ++ operator.text ++ ".".toList))
  match Json.lookupAny ["target".toList, "operand".toList, "sentence".toList, "clause".toList] properties with
  | none =>
    if expectedRole = .negationOperator then
      throwType .missingNegationTarget "NegationOperator requires a target Token, Clause, or Sentence.".toList
    else
      throwType .missingInterrogativeTarget
        "InterrogativeOperator requires a complete target Sentence or typed UnknownSlot.".toList
  | some targetElement => newOperatorApplication operator (← targetElement.result)

def parseClause (properties : Properties) : Result := do
  let partsElement ← getRequiredProperty ["parts".toList, "body".toList] properties
  newClause (← parseItems "Clause parts must be an array.".toList partsElement)

/-- The arms of `Parse`: the normalized kinds, and the parser of each. -/
def nodeKinds : List (List Text × (List (Text × Json) → Properties → Result)) := [
  (["word".toList], fun raw _ => Node.word <$> parseWord raw),
  (["ism".toList], fun raw _ => Node.word <$> parseIsm raw),
  (["fil".toList, "fiil".toList, "fi'l".toList], fun raw _ => Node.word <$> parseFil raw),
  (["harf".toList], fun raw _ => Node.word <$> parseHarf raw),
  (["verbalsentence".toList, "verbal".toList], fun _ properties => parseVerbalSentence properties),
  (["idafaphrase".toList, "idafa".toList], fun _ properties => parseIdafaPhrase properties),
  (["harfgovernance".toList, "governance".toList], fun _ properties => parseHarfGovernance properties),
  (["connectedsentence".toList, "connected".toList, "sequence".toList],
    fun _ properties => parseConnectedSentence properties),
  (["condition".toList, "conditional".toList], fun _ properties => parseConditionalExpression properties),
  (["explanation".toList, "explanatory".toList], fun _ properties => parseExplanatoryExpression properties),
  (["negation".toList], fun _ properties => parseOperatorApplication .negationOperator properties),
  (["question".toList, "interrogative".toList],
    fun _ properties => parseOperatorApplication .interrogativeOperator properties),
  (["clause".toList], fun _ properties => parseClause properties)]

/-- `Parse`, given what it returns on the element's properties. -/
def parseNode (element : Json) (properties : Properties) : Result := do
  let raw ← propertiesOf element
  let kind ← getRequiredString ["kind".toList, "type".toList] raw
  match nodeKinds.find? (fun arm => decide (normalize kind ∈ arm.1)) with
  | some arm => arm.2 raw properties
  | none => throwParse .unknown ("Unsupported ADG node kind '".toList ++ kind ++ "'.".toList)

/-- `AdgJsonParser.Parse`. -/
def parse : Json → Result := Json.fold parseNode

end JsonParser
end Adg
