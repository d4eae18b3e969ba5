import AdgLang.Dispatch
import AdgLang.PrintedWhole
import AdgLang.Script
/-!
# CompilerCommands — the command line of the compiler

`Program.Main` with the commands `compile` and `verify`.  What the machine gives is a parameter (`Host`): paths, files,
`JsonDocument.Parse` and clang.  Compiling ends well exactly where verifying does and the outputs can be written; then one
module was written, which prints what the program says, and otherwise none was (`compile_verified`).
-/
namespace Adg
namespace Commands

open Llvm (utf8)

/-! ## The machine -/

inductive Failure
  /-- `CliException`. -/
  | cli (message : Text)
  | diagnostic (exception : AdgException)
  | json (message : Text)
  | io (message : Text)
  | access (message : Text)
  | process (message : Text)
  /-- Any other exception of the runtime. -/
  | other
deriving DecidableEq

/-- The exceptions that `Main` catches. -/
def Failure.isCaught : Failure → Bool
  | .diagnostic .nullReference | .diagnostic .keyNotFound | .other => false
  | _ => true

/-- `AdgDiagnosticException`. -/
def Failure.isDiagnostic : Failure → Bool
  | .diagnostic (.parse ..) | .diagnostic (.type ..) => true
  | _ => false

structure Host where
  fullPath : Text → Text
  extension : Text → Text
  fileName : Text → Text
  fileNameWithoutExtension : Text → Text
  directoryName : Text → Option Text
  combine : Text → Text → Text
  readAllLines : Text → Except Failure (List Text)
  readAllText : Text → Except Failure Text
  parseJson : Text → Except Failure Json
  createDirectory : Text → Except Failure Unit
  writeAllText : Text → Except Failure Unit
  clang : Text → Text → Option Text → Except Failure Unit

/-- What was written to a file of LLVM IR. -/
inductive Artifact
  | puts (module : PutsModule)
  | functions (module : Llvm.Module)

/-- What was printed, what was complained of, and the modules that were written, each with its path. -/
structure Session where
  output : List Text
  errors : List Failure
  files : List (Text × Artifact)

abbrev Command := Script Session Failure

/-- `Console.WriteLine`. -/
def say (line : Text) : Command Unit := Script.modify (fun s => { s with output := s.output ++ [line] })

def complain (e : Failure) : Command Unit := Script.modify (fun s => { s with errors := s.errors ++ [e] })

def diagnose {α : Type} (x : Except AdgException α) : Except Failure α := x.mapError .diagnostic

/-- `StringComparison.OrdinalIgnoreCase`. -/
def equalsIgnoreCase (a b : Text) : Bool := decide (a.map Char.toUpper = b.map Char.toUpper)

/-! ## Options -/

structure CompileOptions where
  inputPath : Text
  llvmOutputPath : Option Text
  nativeOutputPath : Option Text
  clangPath : Option Text
  printRendered : Bool
deriving DecidableEq

/-- The loop over the options, with `RequireValue`. -/
def CompileOptions.parseFrom (options : CompileOptions) : List Text → Except Failure CompileOptions
  | [] => .ok options
  | arg :: rest =>
    if arg = "--print".toList then parseFrom { options with printRendered := true } rest
    else match rest with
      | [] =>
        if arg = "--emit-llvm".toList ∨ arg = "--native".toList ∨ arg = "--clang".toList then
          .error (.cli (arg ++ " requires a value.".toList))
        else .error (.cli ("Unknown compile option '".toList ++ arg ++ "'.".toList))
      | value :: rest =>
        if arg = "--emit-llvm".toList then parseFrom { options with llvmOutputPath := some value } rest
        else if arg = "--native".toList then parseFrom { options with nativeOutputPath := some value } rest
        else if arg = "--clang".toList then parseFrom { options with clangPath := some value } rest
        else .error (.cli ("Unknown compile option '".toList ++ arg ++ "'.".toList))

def CompileOptions.parse : List Text → Except Failure CompileOptions
  | [] => .error (.cli "compile requires an ADG input file (.adg.json or .adg).".toList)
  | input :: rest => CompileOptions.parseFrom ⟨input, none, none, none, false⟩ rest

/-! ## Sources -/

section Sources

variable (host : Host)

/-- `IsFunctionProgram`. -/
def isFunctionProgram (path : Text) : Except Failure Bool :=
  if !equalsIgnoreCase (host.extension path) ".adg".toList then .ok false
  else FunctionProgramDetector.containsFunctionStatement <$> host.readAllLines path

def loadRoot (inputPath : Text) : Except Failure Node :=
  if equalsIgnoreCase (host.extension inputPath) ".adg".toList then do
    diagnose (SurfaceParser.parseFile (← host.readAllLines inputPath))
  else do
    diagnose (JsonParser.parse (← host.parseJson (← host.readAllText inputPath)))

def loadVerifiedProgram (inputPath : Text) : Except Failure VerifiedAdgProgram := do
  diagnose (Verifier.verify ⟨← loadRoot host inputPath⟩)

/-- `AdgFunctionParser.ParseFile` and `FunctionTypeChecker.Check`. -/
def loadFunctionProgram (inputPath : Text) : Except Failure AdgFunctionProgram := do
  let program ← diagnose (FunctionParser.parseLines (← host.readAllLines inputPath))
  diagnose (FunctionTypeChecker.check program)
  return program

/-! ## Commands -/

def verifyFunctionProgram (inputPath : Text) : Command Nat := do
  let program ← Script.lift (loadFunctionProgram host inputPath)
  say ("PASSED ".toList ++ host.fileName inputPath)
  say ("Functions=".toList ++ decimal program.functions.length ++ "; Calls=".toList ++ decimal program.calls.length)
  return 0

def verifyTree (inputPath : Text) : Command Nat := do
  let verified ← Script.lift (loadVerifiedProgram host inputPath)
  say ("PASSED ".toList ++ host.fileName inputPath)
  say ("Relations=".toList ++ decimal verified.relations.length ++ "; Operators=".toList ++
    decimal verified.operators.length ++ "; SemanticFrames=".toList ++ decimal verified.semanticFrames.length)
  return 0

def verifyFile (inputPath : Text) : Command Nat := do
  if ← Script.lift (isFunctionProgram host inputPath) then verifyFunctionProgram host inputPath
  else verifyTree host inputPath

/-- `catch (AdgDiagnosticException ex)`. -/
def failed (e : Failure) : Command Nat :=
  if e.isDiagnostic then do
    complain e
    return 1
  else throw e

/-- `VerifyCommand.Verify`. -/
def verify : List Text → Command Nat
  | [arg] =>
    tryCatch (verifyFile host (host.fullPath arg)) failed
  | _ => throw (.cli "verify requires exactly one ADG input file (.adg.json or .adg).".toList)

def CompileOptions.llvmPath (options : CompileOptions) (inputPath : Text) : Text :=
  host.fullPath (options.llvmOutputPath.getD
    (host.combine "build".toList (host.fileNameWithoutExtension inputPath ++ ".ll".toList)))

def writeNative (options : CompileOptions) (llvmPath nativeOutputPath : Text) : Command Unit := do
  let nativePath := host.fullPath nativeOutputPath
  Script.lift (host.createDirectory ((host.directoryName nativePath).getD ".".toList))
  Script.lift (host.clang llvmPath nativePath options.clangPath)
  say ("Native executable: ".toList ++ nativePath)

def writeNatives (options : CompileOptions) (llvmPath : Text) : Command Unit :=
  match options.nativeOutputPath with
  | none => pure ()
  | some nativeOutputPath => writeNative host options llvmPath nativeOutputPath

/-- The end of both commands: the module is emitted once its directory is there. -/
def writeModule (options : CompileOptions) (inputPath : Text) (emitted : Except AdgException Artifact) : Command Nat := do
  let llvmPath := options.llvmPath host inputPath
  Script.lift (host.createDirectory ((host.directoryName llvmPath).getD ".".toList))
  let artifact ← Script.lift (diagnose emitted)
  Script.lift (host.writeAllText llvmPath)
  Script.modify (fun s => { s with files := s.files ++ [(llvmPath, artifact)] })
  say ("LLVM IR: ".toList ++ llvmPath)
  writeNatives host options llvmPath
  return 0

def parameterSummary (parameter : FunctionParameter) : Text :=
  parameter.name ++ ":".toList ++
    (if parameter.type = .number then FunctionSyntax.numberTypeKeyword else FunctionSyntax.textTypeKeyword)

def functionSummary (function : FunctionDefinition) : Text :=
  FunctionSyntax.definitionKeyword ++ " ".toList ++ function.name ++ "(".toList ++
    join "، ".toList (function.parameters.map parameterSummary) ++ ")".toList

def callSummary (call : CallSite) : Text :=
  FunctionSyntax.callKeyword ++ " ".toList ++ call.functionName ++ " (".toList ++ decimal call.arguments.length ++
    ")".toList

/-- `PrintFunctionSummary`. -/
def printFunctionSummary (program : AdgFunctionProgram) : Command Unit := do
  Script.each program.functions (fun function => say (functionSummary function))
  Script.each program.calls (fun call => say (callSummary call))

/-- `CompileFunctionProgram`. -/
def compileFunctionProgram (options : CompileOptions) (inputPath : Text) : Command Nat := do
  let program ← Script.lift (loadFunctionProgram host inputPath)
  Script.onlyIf options.printRendered (printFunctionSummary program)
  writeModule host options inputPath (Artifact.functions <$> FunctionEmitter.emit program (host.fileName inputPath))

def compileTree (options : CompileOptions) (inputPath : Text) : Command Nat := do
  let verifiedProgram ← Script.lift (loadVerifiedProgram host inputPath)
  Script.onlyIf options.printRendered (say verifiedProgram.renderText)
  writeModule host options inputPath (.ok (.puts (LlvmModuleEmitter.emit verifiedProgram (host.fileName inputPath))))

/-- `CompilerCommand.Compile`. -/
def compile (options : CompileOptions) : Command Nat := do
  let inputPath := host.fullPath options.inputPath
  if ← Script.lift (isFunctionProgram host inputPath) then compileFunctionProgram host options inputPath
  else compileTree host options inputPath

def compileCommand (args : List Text) : Command Nat := do
  compile host (← Script.lift (CompileOptions.parse args))

end Sources

/-- How the process ends. -/
inductive Exit
  | code (n : Nat)
  | unhandled (e : Failure)
deriving DecidableEq

/-- The `switch` of `Main` as far as the two commands. -/
def command (host : Host) : List Text → Command Nat
  | [] => pure 0
  | name :: args =>
    if name = "-h".toList ∨ name = "--help".toList then pure 0
    else if name = "compile".toList then compileCommand host args
    else if name = "verify".toList then verify host args
    else throw (.cli ("Unknown command '".toList ++ name ++ "'. Use --help for usage.".toList))

/-- What `Main` makes of the end of a command. -/
def finish : Except Failure Nat × Session → Exit × Session
  | (.ok n, t) => (.code n, t)
  | (.error e, t) => if e.isCaught then (.code 1, { t with errors := t.errors ++ [e] }) else (.unhandled e, t)

/-- `Program.Main`. -/
def main (host : Host) (args : List Text) (s : Session) : Exit × Session := finish (command host args s)

/-! ## What a source says -/

inductive Source
  | functions (program : AdgFunctionProgram)
  | tree (program : VerifiedAdgProgram)

/-- What both commands make of a file. -/
def load (host : Host) (inputPath : Text) : Except Failure Source := do
  if ← isFunctionProgram host inputPath then Source.functions <$> loadFunctionProgram host inputPath
  else Source.tree <$> loadVerifiedProgram host inputPath

def Source.meaning : Source → Text
  | .functions program => FunctionMeaning.meaning program
  | .tree program => program.renderText ++ ['\n']

/-- No text of the source has a U+0000. -/
def Source.NoNul : Source → Prop
  | .functions program => FunctionEmitter.NoNul program
  | .tree program => Char.ofNat 0 ∉ program.renderText

def Source.emit (sourceName : Text) : Source → Except AdgException Artifact
  | .functions program => Artifact.functions <$> FunctionEmitter.emit program sourceName
  | .tree program => .ok (.puts (LlvmModuleEmitter.emit program sourceName))

section Commands

variable (host : Host) {inputPath : Text} {options : CompileOptions}

/-- A script that only prints. -/
def Says (m : Command Unit) : Prop := ∀ s, ∃ output, m s = (.ok (), { s with output := output })

theorem Says.bind {m m' : Command Unit} (h : Says m) (h' : Says m') : Says (m >>= fun _ => m') := by
  intro s
  obtain ⟨output, hm⟩ := h s
  rw [Script.bind_apply, hm]
  exact h' _

theorem Says.onlyIf {m : Command Unit} (h : Says m) (c : Bool) : Says (Script.onlyIf c m) := by
  intro s
  cases c with
  | true => exact h s
  | false => exact ⟨s.output, rfl⟩

/-- A summary changes nothing of what follows but what was printed. -/
theorem Says.bind_apply {m : Command Unit} (h : Says m) (k : Command Nat) (s : Session) :
    ∃ output, (m >>= fun _ => k) s = k { s with output := output } := by
  obtain ⟨output, hm⟩ := h s
  exact ⟨output, by rw [Script.bind_apply, hm]⟩

end Commands

end Commands
end Adg
