import AdgLang.FunctionParser
/-!
# FunctionTypeChecker — templates and the checks of a function program

`FunctionTemplate.Parse` cuts a template into literal text and placeholders; `FunctionTypeChecker.Check` accepts a program
whose templates and conditions name declared parameters and whose calls match a function.
-/
namespace Adg

/-! ## Templates -/

structure TemplateSegment where
  isPlaceholder : Bool
  text : Text
deriving DecidableEq

namespace FunctionTemplate

/-- The literal text collected, unless it is empty. -/
def flush (literal : Text) : List TemplateSegment := if literal.length > 0 then [⟨false, literal⟩] else []

/-- The loop of `Parse`, with the literal text collected and, between braces, the name so far. -/
def parseFrom (template : Text) : Text → Text → Option Text → Except AdgException (List TemplateSegment)
  | [], literal, none => .ok (flush literal)
  | [], _, some _ => throwParse .unknown ("Unterminated placeholder in template: ".toList ++ template)
  | c :: rest, literal, none =>
    if c = '\x7b' then parseFrom template rest literal (some [])
    else parseFrom template rest (literal ++ [c]) none
  | c :: rest, literal, some name =>
    if c = '\x7d' then
      if (trim name).length = 0 then throwParse .unknown ("Empty placeholder in template: ".toList ++ template)
      else (flush literal ++ ⟨true, trim name⟩ :: ·) <$> parseFrom template rest [] none
    else parseFrom template rest literal (some (name ++ [c]))

attribute [grind =] parseFrom

/-- `FunctionTemplate.Parse`. -/
def parse (template : Text) : Except AdgException (List TemplateSegment) := parseFrom template template [] none

/-- `FunctionTemplate.Placeholders`. -/
def placeholders (template : Text) : Except AdgException (List Text) :=
  (fun segments => (segments.filter TemplateSegment.isPlaceholder).map TemplateSegment.text) <$> parse template

end FunctionTemplate

/-! ## Checks -/

namespace FunctionTypeChecker

def requireParameter (function : FunctionDefinition) (name context : Text) : Except AdgException FunctionParameter :=
  match function.findParameter name with
  | some parameter => .ok parameter
  | none => throwType .undefinedFunctionParameter ("The ".toList ++ context ++ " of function '".toList ++ function.name ++
      "' references undefined parameter '".toList ++ name ++ "'.".toList)

def requireParameters (function : FunctionDefinition) (names : List Text) (context : Text) : Except AdgException Unit :=
  names.forM (fun name => do let _ ← requireParameter function name context)

def checkCondition (function : FunctionDefinition) (condition : ConditionStatement) : Except AdgException Unit := do
  let parameter ← requireParameter function condition.parameterName "condition".toList
  throwIf (parameter.type ≠ .number) (.type .conditionRequiresNumber ("Condition in function '".toList ++
    function.name ++ "' compares parameter '".toList ++ condition.parameterName ++ "', but only numeric ('".toList ++
    FunctionSyntax.numberTypeKeyword ++ "') parameters can be compared.".toList))
  requireParameters function (← FunctionTemplate.placeholders condition.template) "consequence".toList

def checkFunction (function : FunctionDefinition) : Except AdgException Unit := do
  throwIf (isNullOrWhiteSpace function.bodyTemplate) (.type .missingFunctionBody ("Function '".toList ++ function.name ++
    "' is missing its '".toList ++ FunctionSyntax.bodyKeyword ++ "' body statement.".toList))
  requireParameters function (← FunctionTemplate.placeholders function.bodyTemplate) "body".toList
  function.conditions.forM (checkCondition function)

/-- The loop over the functions, with the names seen. -/
def checkFunctions : List Text → List FunctionDefinition → Except AdgException Unit
  | _, [] => .ok ()
  | seen, function :: functions => do
    throwIf (function.name ∈ seen) (.type .duplicateFunctionName ("Function '".toList ++ function.name ++
      "' is defined more than once.".toList))
    checkFunction function
    checkFunctions (function.name :: seen) functions

/-- The kind of argument a parameter takes. -/
def argumentHasType : CallArgument → AdgParamType → Bool
  | .text _, .text => true
  | .number _, .number => true
  | _, _ => false

/-- The loop over the arguments of a call, from index `index` on. -/
def checkArguments (function : FunctionDefinition) : Nat → List FunctionParameter → List CallArgument →
    Except AdgException Unit
  | index, parameter :: parameters, argument :: arguments => do
    throwIf (!argumentHasType argument parameter.type) (.type .functionArgumentKindMismatch
      ("Argument ".toList ++ decimal (index + 1) ++ " of the call to '".toList ++ function.name ++ "' must be ".toList ++
        (if parameter.type = .number then "an integer".toList else "a quoted string".toList) ++
        " for parameter '".toList ++ parameter.name ++ "'.".toList))
    checkArguments function (index + 1) parameters arguments
  | _, _, _ => .ok ()

def checkCall (program : AdgFunctionProgram) (call : CallSite) : Except AdgException Unit :=
  match program.findFunction call.functionName with
  | none => throwType .undefinedFunctionCall ("Call references undefined function '".toList ++ call.functionName ++
      "'.".toList)
  | some function => do
    throwIf (call.arguments.length ≠ function.parameters.length) (.type .functionArityMismatch
      ("Function '".toList ++ function.name ++ "' expects ".toList ++ decimal function.parameters.length ++
        " argument(s) but the call supplies ".toList ++ decimal call.arguments.length ++ ".".toList))
    checkArguments function 0 function.parameters call.arguments

/-- `FunctionTypeChecker.Check`. -/
def check (program : AdgFunctionProgram) : Except AdgException Unit := do
  throwIf (program.functions.length = 0 ∨ program.calls.length = 0) (.type .emptyFunctionProgram
    ("An ADG function program must declare at least one function and one call so the native module has an ".toList ++
      "entry point.".toList))
  checkFunctions [] program.functions
  program.calls.forM (checkCall program)

end FunctionTypeChecker
end Adg
