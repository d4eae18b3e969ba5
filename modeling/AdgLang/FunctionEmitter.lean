import AdgLang.FunctionTypeChecker
import AdgLang.Llvm
import Mathlib.Algebra.Group.Int.Defs
/-!
# FunctionEmitter — from a function program to an LLVM module

`LlvmFunctionEmitter.Emit`: texts are interned in a pool of string constants, a function prints its body and, behind a
branch for each condition, its consequences, and `@main` calls the functions in the order of the program's calls.
-/
namespace Adg
namespace FunctionEmitter

open Llvm (Bytes Ty Operand Predicate Instr Terminator Block Function Global Module utf8)

/-! ## Text of constants -/

/-- A byte in `EscapeCString`; `X2` writes upper case digits. -/
def escapeByte (value : UInt8) : Text :=
  if 0x20 ≤ value ∧ value ≤ 0x7e ∧ value ≠ 0x5c ∧ value ≠ 0x22 then [Char.ofNat value.toNat]
  else ['\\', (Nat.digitChar (value.toNat / 16)).toUpper, (Nat.digitChar (value.toNat % 16)).toUpper]

/-- `LlvmText.EscapeCString`. -/
def escapeCString (bytes : Bytes) : Text := bytes.flatMap escapeByte

/-- `LlvmText.EscapePlain`. -/
def escapePlain (value : Text) : Text :=
  value.flatMap (fun c => if c = '\\' then "\\5C".toList else if c = '"' then "\\22".toList else [c])

/-! ## The pool -/

def stringSymbol (counter : Nat) : Text := "@.adg.s".toList ++ decimal counter

/-- The constant of a text: its bytes and a zero byte. -/
def stringGlobal (content symbol : Text) : Global where
  symbol := symbol
  length := (utf8 content).length + 1
  initializer := escapeCString (utf8 content) ++ "\\00".toList

/-- `_pool`, `_globals` and `_stringCounter`. -/
structure Pool where
  pool : List (Text × Text)
  globals : List Global
  stringCounter : Nat
  globals_eq : globals = pool.map (fun entry => stringGlobal entry.1 entry.2)
  symbols_eq : pool.map Prod.snd = (List.range stringCounter).map stringSymbol

def Pool.empty : Pool where
  pool := []
  globals := []
  stringCounter := 0
  globals_eq := rfl
  symbols_eq := rfl

/-- A text that is not in the pool, added with the next symbol. -/
def Pool.add (p : Pool) (content : Text) : Pool where
  pool := p.pool ++ [(content, stringSymbol p.stringCounter)]
  globals := p.globals ++ [stringGlobal content (stringSymbol p.stringCounter)]
  stringCounter := p.stringCounter + 1
  globals_eq := by rw [p.globals_eq, List.map_append]; rfl
  symbols_eq := by rw [List.map_append, p.symbols_eq, List.range_succ, List.map_append]; rfl

/-- `Intern`. -/
def Pool.intern (p : Pool) (content : Text) : Text × Pool :=
  match p.pool.lookup content with
  | some existing => (existing, p)
  | none => (stringSymbol p.stringCounter, p.add content)

/-! ## Functions -/

def llvmType : AdgParamType → Ty
  | .number => .i32
  | .text => .ptr

def parameterName (index : Nat) : Text := 'p' :: decimal index

def cmpName (index : Nat) : Text := "cmp".toList ++ decimal index

def thenLabel (index : Nat) : Text := "then".toList ++ decimal index

def contLabel (index : Nat) : Text := "cont".toList ++ decimal index

def indexOfParameter (function : FunctionDefinition) (name : Text) :
    Except AdgException (Fin function.parameters.length) :=
  match function.parameters.findFinIdx? (fun parameter => decide (parameter.name = name)) with
  | some index => .ok index
  | none => throwType .undefinedFunctionParameter ("Function '".toList ++ function.name ++
      "' references undefined parameter '".toList ++ name ++ "'.".toList)

/-- Literal text in a format. -/
def escapePercent (text : Text) : Text := text.flatMap (fun ch => if ch = '%' then ['%', '%'] else [ch])

/-- The loop of `EmitPrintf`: the format and the arguments after it. -/
def formatOf (function : FunctionDefinition) : List TemplateSegment → Except AdgException (Text × List (Nat × AdgParamType))
  | [] => .ok ([], [])
  | segment :: segments =>
    if !segment.isPlaceholder then do
      let (format, args) ← formatOf function segments
      return (escapePercent segment.text ++ format, args)
    else do
      let index ← indexOfParameter function segment.text
      let parameter := function.parameters[index]
      let (format, args) ← formatOf function segments
      return ((if parameter.type = .number then "%d".toList else "%s".toList) ++ format,
        (index.val, parameter.type) :: args)

def parameterOperand (arg : Nat × AdgParamType) : Ty × Operand := (llvmType arg.2, .named (parameterName arg.1))

/-- `EmitPrintf`. -/
def emitPrintf (p : Pool) (function : FunctionDefinition) (template : Text) : Except AdgException (Instr × Pool) := do
  let (format, args) ← formatOf function (← FunctionTemplate.parse template)
  let (symbol, p) := p.intern (format ++ ['\n'])
  return (.printf (.address symbol) (args.map parameterOperand), p)

def comparison : ComparisonOperator → Predicate
  | .greater => .sgt
  | .less => .slt
  | .equal => .eq

/-- The loop over the conditions, from number `conditionIndex` on: `label` and `instrs` are the block still open. -/
def emitConditions (function : FunctionDefinition) (conditionIndex : Nat) (label : Text) (instrs : List Instr) :
    Pool → List ConditionStatement → Except AdgException (List Block × Pool)
  | p, [] => .ok ([⟨label, instrs, .ret none⟩], p)
  | p, condition :: conditions => do
    let parameterIndex ← indexOfParameter function condition.parameterName
    let (consequence, p) ← emitPrintf p function condition.template
    let (blocks, p) ← emitConditions function (conditionIndex + 1) (contLabel conditionIndex) [] p conditions
    let icmp := Instr.icmp (cmpName conditionIndex) (comparison condition.operator) (.named (parameterName parameterIndex))
      (.literal condition.value)
    return (⟨label, instrs ++ [icmp], .br (cmpName conditionIndex) (thenLabel conditionIndex) (contLabel conditionIndex)⟩ ::
      ⟨thenLabel conditionIndex, [consequence], .jump (contLabel conditionIndex)⟩ :: blocks, p)

/-- The parameters of the signature. -/
def signature (parameters : List FunctionParameter) : List (Ty × Text) :=
  parameters.zipIdx.map (fun (parameter, index) => (llvmType parameter.type, parameterName index))

/-- `EmitFunction`. -/
def emitFunction (p : Pool) (function : FunctionDefinition) (symbol : Text) : Except AdgException (Function × Pool) := do
  let (body, p) ← emitPrintf p function function.bodyTemplate
  let (blocks, p) ← emitConditions function 0 "entry".toList [body] p function.conditions
  return (⟨none, symbol, signature function.parameters, blocks⟩, p)

/-! ## The module -/

def functionSymbol (index : Nat) : Text := "@adg_func".toList ++ decimal index

/-- `functionSymbols`: of functions of one name, the last gave the symbol. -/
def functionSymbols (functions : List FunctionDefinition) (name : Text) : Except AdgException Text :=
  match functions.zipIdx.reverse.find? (fun (function, _) => decide (function.name = name)) with
  | some (_, index) => .ok (functionSymbol index)
  | none => .error .keyNotFound

def emitFunctions (program : AdgFunctionProgram) : Pool → List FunctionDefinition →
    Except AdgException (List Function × Pool)
  | p, [] => .ok ([], p)
  | p, function :: functions => do
    let (emitted, p) ← emitFunction p function (← functionSymbols program.functions function.name)
    let (definitions, p) ← emitFunctions program p functions
    return (emitted :: definitions, p)

/-- The arguments of a call. -/
def emitArguments : Pool → List CallArgument → List (Ty × Operand) × Pool
  | p, [] => ([], p)
  | p, .text text :: arguments =>
    let (symbol, p) := p.intern text
    let (operands, p) := emitArguments p arguments
    ((.ptr, .address symbol) :: operands, p)
  | p, .number number :: arguments =>
    let (operands, p) := emitArguments p arguments
    ((.i32, .literal number) :: operands, p)

def separator (clauseNumber : Nat) : Text := "«البند رقم ".toList ++ decimal clauseNumber ++ "»\n".toList

/-- `FindFunction(name)!`, dereferenced. -/
def requireFunction (program : AdgFunctionProgram) (name : Text) : Except AdgException FunctionDefinition :=
  match program.findFunction name with
  | some function => .ok function
  | none => .error .nullReference

/-- The loop over the calls. -/
def emitCalls (program : AdgFunctionProgram) (newlineSymbol : Text) : Nat → Pool → List CallSite →
    Except AdgException (List Instr × Pool)
  | _, p, [] => .ok ([], p)
  | clauseNumber, p, call :: calls => do
    let function ← requireFunction program call.functionName
    let (separatorSymbol, p) := p.intern (separator clauseNumber)
    let symbol ← functionSymbols program.functions function.name
    let (operands, p) := emitArguments p call.arguments
    let (instrs, p) ← emitCalls program newlineSymbol (clauseNumber + 1) p calls
    return (.printf (.address separatorSymbol) [] :: .call symbol operands :: .printf (.address newlineSymbol) [] :: instrs, p)

/-- `EmitMain`. -/
def emitMain (p : Pool) (program : AdgFunctionProgram) : Except AdgException (Function × Pool) := do
  let (newlineSymbol, p) := p.intern ['\n']
  let (instrs, p) ← emitCalls program newlineSymbol 1 p program.calls
  return (⟨some .i32, "@main".toList, [], [⟨"entry".toList, instrs, .ret (some (.i32, .literal 0))⟩]⟩, p)

/-- `Build`. -/
def emit (program : AdgFunctionProgram) (sourceName : Text) : Except AdgException Module := do
  let (definitions, p) ← emitFunctions program .empty program.functions
  let (main, p) ← emitMain p program
  return ⟨escapePlain sourceName, p.globals, definitions ++ [main]⟩

/-- `CompileFunctionProgram`, from the lines of the file to the module. -/
def compileFunctionProgram (lines : List Text) (fileName : Text) : Except AdgException Module := do
  let program ← FunctionParser.parseLines lines
  FunctionTypeChecker.check program
  emit program fileName

end FunctionEmitter
end Adg
