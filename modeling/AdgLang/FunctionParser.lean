import AdgLang.FunctionSyntax
import AdgLang.TextDirectionHeader
import AdgLang.TypeSystem
/-!
# FunctionParser — function programs and their parser

The records of `FunctionModel.cs` and `AdgFunctionParser.ParseLines`, a loop over the lines with the function under
construction as part of its state.
-/
namespace Adg

inductive AdgParamType
  | text | number
deriving DecidableEq

inductive ComparisonOperator
  | greater | less | equal
deriving DecidableEq

structure FunctionParameter where
  name : Text
  type : AdgParamType
  marker : AdgCase
deriving DecidableEq

structure ConditionStatement where
  parameterName : Text
  operator : ComparisonOperator
  value : Int
  template : Text
deriving DecidableEq

structure FunctionDefinition where
  name : Text
  parameters : List FunctionParameter
  bodyTemplate : Text
  conditions : List ConditionStatement
  returnType : AdgParamType
deriving DecidableEq

/-- `CallArgument`, by its kind. -/
inductive CallArgument
  | text (text : Text)
  | number (number : Int)
deriving DecidableEq

structure CallSite where
  functionName : Text
  arguments : List CallArgument
deriving DecidableEq

structure AdgFunctionProgram where
  functions : List FunctionDefinition
  calls : List CallSite
deriving DecidableEq

/-- `FindParameter`. -/
def FunctionDefinition.findParameter (function : FunctionDefinition) (name : Text) : Option FunctionParameter :=
  function.parameters.find? (fun parameter => decide (parameter.name = name))

/-- `FindFunction`. -/
def AdgFunctionProgram.findFunction (program : AdgFunctionProgram) (name : Text) : Option FunctionDefinition :=
  program.functions.find? (fun function => decide (function.name = name))

namespace FunctionParser

open FunctionSyntax

/-! ## The function under construction -/

structure FunctionBuilder where
  name : Text
  parameters : List FunctionParameter
  conditions : List ConditionStatement
  bodyTemplate : Option Text
  returnType : AdgParamType

def FunctionBuilder.new (name : Text) : FunctionBuilder where
  name := name
  parameters := []
  conditions := []
  bodyTemplate := none
  returnType := .text

def FunctionBuilder.setBody (builder : FunctionBuilder) (template : Text) : Except AdgException FunctionBuilder := do
  throwIf builder.bodyTemplate.isSome (.parse .unknown ("Function '".toList ++ builder.name ++ "' declares '".toList ++
    bodyKeyword ++ "' more than once.".toList))
  return { builder with bodyTemplate := some template }

def FunctionBuilder.build (builder : FunctionBuilder) : FunctionDefinition where
  name := builder.name
  parameters := builder.parameters
  bodyTemplate := builder.bodyTemplate.getD []
  conditions := builder.conditions
  returnType := builder.returnType

/-! ## Statements -/

/-- The first of some keywords that a token is; each comparison may throw. -/
def firstKeyword {α : Type} (token : Text) : List (Text × α) → Except AdgException (Option α)
  | [] => .ok none
  | (canonical, a) :: keywords => do
    if ← isKeyword token canonical then return some a
    else firstKeyword token keywords

def parseParameter (name typeLabel : Text) : Except AdgException FunctionParameter := do
  match ← firstKeyword typeLabel [(numberTypeKeyword, (AdgParamType.number, AdgCase.none)),
      (rafLabel, (.text, .raf)), (nasbLabel, (.text, .nasb)), (jarrLabel, (.text, .jarr))] with
  | some (type, marker) => return ⟨name, type, marker⟩
  | none => throwParse .invalidParameterType ("Parameter '".toList ++ name ++ "' has an invalid type label '".toList ++
      typeLabel ++ "'. Expected one of '".toList ++ rafLabel ++ "', '".toList ++ nasbLabel ++ "', '".toList ++
      jarrLabel ++ "', '".toList ++ numberTypeKeyword ++ "'.".toList)

/-- The loop of `ParseDefinitionHeader` over the tokens after the parameters' keyword. -/
def parseParameters (line : Text) : List FunctionToken → Except AdgException (List FunctionParameter)
  | [] => .ok []
  | nameToken :: tokens => do
    throwIf (!nameToken.isQuoted) (.parse .unknown ("Function parameter name must be quoted: ".toList ++ line))
    match tokens with
    | [] => throwParse .unknown ("Function parameter '".toList ++ nameToken.text ++
        "' is missing a type label: ".toList ++ line)
    | typeToken :: tokens => do
      throwIf typeToken.isQuoted (.parse .unknown ("Function parameter '".toList ++ nameToken.text ++
        "' is missing a type label: ".toList ++ line))
      let parameter ← parseParameter nameToken.text typeToken.text
      return parameter :: (← parseParameters line tokens)

def parseDefinitionHeader (tokens : List FunctionToken) (line : Text) : Except AdgException FunctionBuilder :=
  match tokens with
  | _ :: ⟨name, true⟩ :: [] => .ok (FunctionBuilder.new name)
  | _ :: ⟨name, true⟩ :: introducer :: tokens => do
    if ← isKeyword introducer.text parametersKeyword then
      return { FunctionBuilder.new name with parameters := ← parseParameters line tokens }
    else throwParse .unknown ("Function parameters must be introduced by '".toList ++ parametersKeyword ++ "': ".toList ++
      line)
  | _ => throwParse .unknown ("Function definition requires a quoted name: ".toList ++ line)

def parseBody (tokens : List FunctionToken) (line : Text) : Except AdgException Text :=
  match tokens with
  | [_, ⟨template, true⟩] => .ok template
  | _ => throwParse .unknown ("Body statement requires a single quoted template: ".toList ++ line)

def parseComparison (token line : Text) : Except AdgException ComparisonOperator := do
  match ← firstKeyword token [(greaterKeyword, ComparisonOperator.greater), (lessKeyword, .less),
      (equalKeyword, .equal)] with
  | some operator => return operator
  | none => throwParse .unknown ("Unknown comparison operator '".toList ++ token ++ "'. Expected '".toList ++
      greaterKeyword ++ "', '".toList ++ lessKeyword ++ "', or '".toList ++ equalKeyword ++ "': ".toList ++ line)

def parseCondition (tokens : List FunctionToken) (line : Text) : Except AdgException ConditionStatement :=
  match tokens with
  | [_, ⟨parameterName, true⟩, ⟨comparison, false⟩, ⟨number, false⟩, ⟨introducer, false⟩, ⟨template, true⟩] => do
    let operator ← parseComparison comparison line
    match tryParseInteger number with
    | none => throwParse .unknown ("Condition comparison value '".toList ++ number ++ "' is not an integer: ".toList ++
        line)
    | some value =>
      if ← isKeyword introducer consequenceKeyword then return ⟨parameterName, operator, value, template⟩
      else throwParse .unknown ("Condition consequence must be introduced by '".toList ++ consequenceKeyword ++
        "': ".toList ++ line)
  | _ => throwParse .unknown ("Condition statement must be '".toList ++ conditionKeyword ++
      " \"<param>\" <op> <number> ".toList ++ consequenceKeyword ++ " \"<template>\"': ".toList ++ line)

def parseReturn (tokens : List FunctionToken) (line : Text) : Except AdgException AdgParamType :=
  match tokens with
  | [_, ⟨type, false⟩] => do
    match ← firstKeyword type [(textTypeKeyword, AdgParamType.text), (numberTypeKeyword, .number)] with
    | some type => return type
    | none => throwParse .invalidParameterType ("Return type '".toList ++ type ++ "' is invalid. Expected '".toList ++
        textTypeKeyword ++ "' or '".toList ++ numberTypeKeyword ++ "': ".toList ++ line)
  | _ => throwParse .unknown ("Return statement requires a single type keyword: ".toList ++ line)

def parseArgument (line : Text) (token : FunctionToken) : Except AdgException CallArgument :=
  if token.isQuoted then .ok (.text token.text)
  else match tryParseInteger token.text with
    | some value => .ok (.number value)
    | none => throwParse .unknown ("Call argument '".toList ++ token.text ++
        "' must be a quoted string or an integer: ".toList ++ line)

def parseCall (tokens : List FunctionToken) (line : Text) : Except AdgException CallSite :=
  match tokens with
  | _ :: ⟨name, true⟩ :: arguments => do return ⟨name, ← arguments.mapM (parseArgument line)⟩
  | _ => throwParse .unknown ("Call statement requires a quoted function name: ".toList ++ line)

/-! ## The lines -/

/-- The keyword a statement starts with. -/
inductive Head
  | definition | call | body | condition | output
deriving DecidableEq

def heads : List (Text × Head) :=
  [(definitionKeyword, .definition), (callKeyword, .call), (bodyKeyword, .body), (conditionKeyword, .condition),
   (outputKeyword, .output)]

/-- The functions and calls so far, and the function under construction. -/
structure ParserState where
  functions : List FunctionDefinition
  calls : List CallSite
  current : Option FunctionBuilder

/-- `FlushFunction`. -/
def ParserState.flush (state : ParserState) : ParserState :=
  match state.current with
  | some builder => { state with functions := state.functions ++ [builder.build], current := none }
  | none => state

def requireCurrent (current : Option FunctionBuilder) (keyword : Text) : Except AdgException FunctionBuilder :=
  match current with
  | some builder => .ok builder
  | none => throwParse .unknown ("'".toList ++ keyword ++ "' statement requires a preceding '".toList ++
      definitionKeyword ++ "' definition.".toList)

/-- One statement: its tokens, the keyword first. -/
def ParserState.statement (state : ParserState) (tokens : List FunctionToken) (line : Text) :
    Except AdgException ParserState :=
  match tokens with
  | [] => .ok state
  | head :: _ => do
    throwIf head.isQuoted (.parse .unknown
      ("ADG function statement must start with a keyword, not a string: ".toList ++ line))
    match ← firstKeyword head.text heads with
    | some .definition => return { state.flush with current := some (← parseDefinitionHeader tokens line) }
    | some .call => return { state.flush with calls := state.flush.calls ++ [← parseCall tokens line] }
    | some .body => do
      let builder ← requireCurrent state.current bodyKeyword
      return { state with current := some (← builder.setBody (← parseBody tokens line)) }
    | some .condition => do
      let builder ← requireCurrent state.current conditionKeyword
      let condition ← parseCondition tokens line
      return { state with current := some { builder with conditions := builder.conditions ++ [condition] } }
    | some .output => do
      let builder ← requireCurrent state.current outputKeyword
      return { state with current := some { builder with returnType := ← parseReturn tokens line } }
    | none => throwParse .unknown ("Unsupported ADG function statement: ".toList ++ line)

/-- Lines that carry no statement: `adg ..` and `program ..`. -/
def isProgramLine (line : Text) : Bool :=
  startsWithIgnoreCase line "adg ".toList || startsWithIgnoreCase line "program ".toList

/-- The loop of `ParseLines`, with `directionHeaderValidated`. -/
def parseFrom : List Text → Bool → ParserState → Except AdgException (Bool × ParserState)
  | [], directionHeaderValidated, state => .ok (directionHeaderValidated, state)
  | rawLine :: lines, directionHeaderValidated, state =>
    let line := trim (stripComment rawLine)
    if line = [] then parseFrom lines directionHeaderValidated state
    else if !directionHeaderValidated then do
      TextDirectionHeader.validate line
      parseFrom lines true state
    else if isProgramLine line then parseFrom lines directionHeaderValidated state
    else do
      let state ← state.statement (← tokenize line) line
      parseFrom lines directionHeaderValidated state

/-- `AdgFunctionParser.ParseLines`. -/
def parseLines (lines : List Text) : Except AdgException AdgFunctionProgram := do
  let (directionHeaderValidated, state) ← parseFrom lines false ⟨[], [], none⟩
  if !directionHeaderValidated then TextDirectionHeader.missing
  else return ⟨state.flush.functions, state.flush.calls⟩

end FunctionParser
end Adg
