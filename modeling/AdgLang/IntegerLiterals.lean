import AdgLang.EmitterMeaning
/-!
# IntegerLiterals — the integers of a program in the emitted module

`TryParseInteger` reads 64-bit integers and no check narrows them, while the emitter writes them as `i32` constants.  The
constants of the module are the integers of the program (`literals_of_compile`), so they are kept exactly when every
integer of the program is a 32-bit word (`integersKept_iff`).
-/
namespace Adg
namespace FunctionEmitter

open Llvm
open FunctionMeaning (argumentNamed satisfies word Accepted)

/-! ## The constants of the module -/

def numberOf : CallArgument → List Int
  | .text _ => []
  | .number number => [number]

/-- The integers of a program: the condition constants and the number arguments. -/
def integers (program : AdgFunctionProgram) : List Int :=
  program.functions.flatMap (fun function => function.conditions.map ConditionStatement.value) ++
    program.calls.flatMap (fun call => call.arguments.flatMap numberOf)

variable {function : FunctionDefinition}

theorem emitPrintf_literals {p q : Pool} {template : Text} {instr : Instr}
    (h : emitPrintf p function template = .ok (instr, q)) : instr.literals = [] := by
  obtain ⟨segments, _, h⟩ := bind_eq_ok.1 h
  obtain ⟨⟨format, args⟩, _, h⟩ := bind_eq_ok.1 h
  cases h
  rw [Instr.literals, List.flatMap_map]
  exact List.flatMap_eq_nil_iff.2 fun arg _ => rfl

theorem emitConditions_literals : ∀ {conditions : List ConditionStatement} {k : Nat} {label : Text} {instrs : List Instr}
    {p q : Pool} {blocks : List Block}, emitConditions function k label instrs p conditions = .ok (blocks, q) →
      blocks.flatMap Block.literals = instrs.flatMap Instr.literals ++ conditions.map ConditionStatement.value
  | [], _, _, _, _, _, _, h => by
    cases h
    simp [Block.literals, Terminator.literals]
  | condition :: conditions, _, _, instrs, _, _, _, h => by
    obtain ⟨index, _, h⟩ := bind_eq_ok.1 h
    obtain ⟨⟨consequence, p'⟩, hprintf, h⟩ := bind_eq_ok.1 h
    obtain ⟨⟨blocks', q'⟩, hrest, h⟩ := bind_eq_ok.1 h
    cases h
    have ih := emitConditions_literals hrest
    rw [List.flatMap_cons, List.flatMap_cons, ih]
    simp [Block.literals, Terminator.literals, emitPrintf_literals hprintf]

theorem emitFunction_literals {p q : Pool} {symbol : Text} {f : Llvm.Function}
    (h : emitFunction p function symbol = .ok (f, q)) :
    f.literals = function.conditions.map ConditionStatement.value := by
  obtain ⟨⟨body, p'⟩, hbody, h⟩ := bind_eq_ok.1 h
  obtain ⟨⟨blocks, q'⟩, hblocks, h⟩ := bind_eq_ok.1 h
  cases h
  rw [Llvm.Function.literals, emitConditions_literals hblocks]
  simp [emitPrintf_literals hbody]

theorem emitFunctions_literals {program : AdgFunctionProgram} : ∀ {functions : List FunctionDefinition} {p q : Pool}
    {definitions : List Llvm.Function}, emitFunctions program p functions = .ok (definitions, q) →
      definitions.flatMap Llvm.Function.literals =
        functions.flatMap (fun function => function.conditions.map ConditionStatement.value)
  | [], _, _, _, h => by cases h; rfl
  | function :: functions, _, _, _, h => by
    obtain ⟨symbol, _, h⟩ := bind_eq_ok.1 h
    obtain ⟨⟨f, p'⟩, hf, h⟩ := bind_eq_ok.1 h
    obtain ⟨⟨definitions, q'⟩, hrest, h⟩ := bind_eq_ok.1 h
    cases h
    rw [List.flatMap_cons, List.flatMap_cons, emitFunction_literals hf, emitFunctions_literals hrest]

theorem emitArguments_literals : ∀ (arguments : List CallArgument) (p : Pool),
    (emitArguments p arguments).1.flatMap (fun arg => arg.2.literals) = arguments.flatMap numberOf
  | [], _ => rfl
  | .text text :: arguments, p => by
    rw [emitArguments, List.flatMap_cons, List.flatMap_cons, emitArguments_literals arguments]
    rfl
  | .number number :: arguments, p => by
    rw [emitArguments, List.flatMap_cons, List.flatMap_cons, emitArguments_literals arguments]
    rfl

theorem emitCalls_literals {program : AdgFunctionProgram} {newlineSymbol : Text} : ∀ {calls : List CallSite}
    {clauseNumber : Nat} {p q : Pool} {instrs : List Instr},
      emitCalls program newlineSymbol clauseNumber p calls = .ok (instrs, q) →
      instrs.flatMap Instr.literals = calls.flatMap (fun call => call.arguments.flatMap numberOf)
  | [], _, _, _, _, h => by cases h; rfl
  | call :: calls, clauseNumber, p, _, _, h => by
    obtain ⟨function, _, h⟩ := bind_eq_ok.1 h
    obtain ⟨symbol, _, h⟩ := bind_eq_ok.1 h
    obtain ⟨⟨instrs, q'⟩, hrest, h⟩ := bind_eq_ok.1 h
    cases h
    rw [List.flatMap_cons (x := call), ← emitCalls_literals hrest,
      ← emitArguments_literals call.arguments (p.intern (separator clauseNumber)).2]
    rfl

/-- **The constants of the emitted module** are the integers of the program and the status that `@main` returns. -/
theorem literals_of_emit {program : AdgFunctionProgram} {sourceName : Text} {m : Module}
    (h : emit program sourceName = .ok m) : m.literals = integers program ++ [0] := by
  obtain ⟨⟨definitions, p⟩, hdefs, h⟩ := bind_eq_ok.1 h
  obtain ⟨⟨main, q⟩, hmain, h⟩ := bind_eq_ok.1 h
  obtain ⟨⟨instrs, q'⟩, hcalls, hmain⟩ := bind_eq_ok.1 hmain
  cases hmain
  cases h
  rw [Module.literals, List.flatMap_append, emitFunctions_literals hdefs, integers, ← emitCalls_literals hcalls]
  simp [Llvm.Function.literals, Block.literals, Terminator.literals]

/-! ## Words -/

/-- The range of an `i32`. -/
def InWord (n : Int) : Prop := -2 ^ 31 ≤ n ∧ n ≤ 2 ^ 31 - 1

instance (n : Int) : Decidable (InWord n) := inferInstanceAs (Decidable (_ ∧ _))

theorem word_eq_of_inWord {n : Int} (h : InWord n) : word n = n := by
  refine Int.bmod_eq_of_le ?_ ?_ <;> simp only [InWord] at h <;> omega

/-- **The integers of a program are kept**: every constant of the module is a word, a number argument denotes the integer
parsed, and a comparison has the truth value of the comparison of the integers parsed. -/
structure IntegersKept (program : AdgFunctionProgram) (m : Module) : Prop where
  literals : ∀ n ∈ m.literals, InWord n
  arguments : ∀ call ∈ program.calls, ∀ number, .number number ∈ call.arguments → (BitVec.ofInt 32 number).toInt = number
  comparisons : ∀ call ∈ program.calls, ∀ function, program.findFunction call.functionName = some function →
    ∀ condition ∈ function.conditions, ∀ number,
      argumentNamed function call.arguments condition.parameterName = some (.number number) →
      (comparison condition.operator).eval (BitVec.ofInt 32 number) (BitVec.ofInt 32 condition.value) =
        satisfies condition.operator number condition.value

theorem mem_integers_of_argument {program : AdgFunctionProgram} {call : CallSite} {number : Int}
    (hcall : call ∈ program.calls) (h : .number number ∈ call.arguments) : number ∈ integers program :=
  List.mem_append_right _ (List.mem_flatMap.2 ⟨call, hcall, List.mem_flatMap.2 ⟨_, h, List.mem_singleton_self _⟩⟩)

theorem mem_integers_of_condition {program : AdgFunctionProgram} {condition : ConditionStatement}
    (hf : function ∈ program.functions) (h : condition ∈ function.conditions) : condition.value ∈ integers program :=
  List.mem_append_left _ (List.mem_flatMap.2 ⟨function, hf, List.mem_map_of_mem h⟩)

/-- Words are compared as the integers they are. -/
theorem integersKept_of_inWord {program : AdgFunctionProgram} {m : Module} {sourceName : Text}
    (hm : emit program sourceName = .ok m) (h : ∀ n ∈ integers program, InWord n) : IntegersKept program m where
  literals n hn := by
    rw [literals_of_emit hm] at hn
    rcases List.mem_append.1 hn with hn | hn
    · exact h n hn
    · rw [List.mem_singleton.1 hn]; decide
  arguments call hcall number hnumber := by
    rw [BitVec.toInt_ofInt]
    exact word_eq_of_inWord (h number (mem_integers_of_argument hcall hnumber))
  comparisons call hcall function hf condition hcondition number hnumber := by
    have hmem : .number number ∈ call.arguments := by
      obtain ⟨⟨parameter, argument⟩, hfind, rfl⟩ := Option.map_eq_some_iff.1 hnumber
      exact (List.of_mem_zip (List.mem_of_find?_eq_some hfind)).2
    have hvalue := mem_integers_of_condition (List.mem_of_find?_eq_some hf) hcondition
    rw [comparison_eval, word_eq_of_inWord (h number (mem_integers_of_argument hcall hmem)),
      word_eq_of_inWord (h _ hvalue)]

/-- **Compilation keeps the integers of an accepted program exactly when each of them is a 32-bit word.** -/
theorem integersKept_iff {lines : List Text} {program : AdgFunctionProgram}
    (hparse : FunctionParser.parseLines lines = .ok program) (hcheck : FunctionTypeChecker.check program = .ok ())
    (fileName : Text) :
    ∃ m, compileFunctionProgram lines fileName = .ok m ∧
      (IntegersKept program m ↔ ∀ n ∈ integers program, InWord n) := by
  obtain ⟨m, hemit, -, -⟩ := emit_prints (FunctionMeaning.check_ok hcheck) fileName
  refine ⟨m, ?_, fun h n hn => ?_, integersKept_of_inWord hemit⟩
  · rw [compileFunctionProgram, hparse]
    show (FunctionTypeChecker.check program >>= _) = _
    rw [hcheck]
    exact hemit
  · exact h.literals n (literals_of_emit hemit ▸ List.mem_append_left _ hn)

theorem integersKept_greeting :
    ∃ m, compileFunctionProgram greetingLines "greeting.adg".toList = .ok m ∧
      (IntegersKept greeting m ↔ ∀ n ∈ integers greeting, InWord n) :=
  integersKept_iff (by decide +kernel) (by decide +kernel) _

/-! ## An integer out of range -/

/-- A number of three thousand million, which is compared with 17. -/
def creditLines : List Text := [
  "اتجاهُ النصِّ: RTL".toList,
  "دالةٌ \"رصيد\" مُعامِلاتُها \"مبلغ\" عددٌ".toList,
  "متنٌ \"\x7bمبلغ\x7d\"".toList,
  "شرطٌ \"مبلغ\" أكبرُ 17 جزاؤُهُ \"كثير\"".toList,
  "استدعاءٌ \"رصيد\" 3000000000".toList]

def credit : AdgFunctionProgram where
  functions := [⟨"رصيد".toList, [⟨"مبلغ".toList, .number, .none⟩], "\x7bمبلغ\x7d".toList,
    [⟨"مبلغ".toList, .greater, 17, "كثير".toList⟩], .text⟩]
  calls := [⟨"رصيد".toList, [.number 3000000000]⟩]

/-- **The integers of an accepted program are not always kept**: the constant is out of range, and the comparison of
the emitted module is false where the comparison of the integers is true. -/
theorem not_integersKept :
    FunctionParser.parseLines creditLines = .ok credit ∧ FunctionTypeChecker.check credit = .ok () ∧
      ∃ m, compileFunctionProgram creditLines "credit.adg".toList = .ok m ∧ ¬ IntegersKept credit m ∧
        3000000000 ∈ m.literals ∧ ¬ InWord 3000000000 ∧
        (comparison .greater).eval (BitVec.ofInt 32 3000000000) (BitVec.ofInt 32 17) = false ∧
        satisfies .greater 3000000000 17 = true := by
  have hliterals : 3000000000 ∈ (valueOf (compileFunctionProgram creditLines "credit.adg".toList)
    (by decide +kernel)).literals := by decide +kernel
  refine ⟨by decide +kernel, by decide +kernel, _, eq_ok_valueOf _, fun h => ?_, hliterals, by decide, by decide,
    by decide⟩
  exact absurd (h.literals _ hliterals) (by decide)

end FunctionEmitter
end Adg
