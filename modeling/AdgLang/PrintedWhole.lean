import AdgLang.EmitterWellFormed
import AdgLang.Verifier
/-!
# PrintedWhole — the strings handed to the C runtime

`LlvmModuleEmitter` writes the text of a verified tree into one constant and puts it.  A constant holds any text
(`stringGlobal_bytes`), but the C runtime reads it up to its first zero byte.  No check keeps U+0000 out of a program:
the output is the text of the tree exactly when no word has one (`run_emit`), and the constants of a function program are
read whole exactly when the literal text of its templates and its text arguments have none (`globals_whole`).
-/
namespace Adg

open Llvm (Bytes Global utf8 cString)

/-! ## LlvmModuleEmitter -/

/-- The module of `LlvmModuleEmitter`: one constant, which its `@main` puts. -/
structure PutsModule where
  sourceFilename : Text
  output : Global
deriving DecidableEq

/-- What `@main` prints: the constant up to its first zero byte, and the line break of `puts`. -/
def PutsModule.run (m : PutsModule) : Option Bytes := (m.output.bytes.bind cString).map (· ++ utf8 ['\n'])

namespace LlvmModuleEmitter

/-- `EscapeLlvmCString`, which is the loop of `LlvmText.EscapeCString` again. -/
def escapeLlvmCString (bytes : Bytes) : Text := FunctionEmitter.escapeCString bytes

/-- `EscapeLlvmString`. -/
def escapeLlvmString (value : Text) : Text := FunctionEmitter.escapePlain value

/-- `LlvmModuleEmitter.Emit`. -/
def emit (program : VerifiedAdgProgram) (sourceName : Text) : PutsModule :=
  let outputBytes := utf8 program.renderText
  let length := outputBytes.length + 1
  ⟨escapeLlvmString sourceName, ⟨"@adg_output".toList, length, escapeLlvmCString outputBytes ++ "\\00".toList⟩⟩

theorem output_emit (program : VerifiedAdgProgram) (sourceName : Text) :
    (emit program sourceName).output = FunctionEmitter.stringGlobal program.renderText "@adg_output".toList := rfl

/-- The module prints the text of the tree, and a line break, exactly when the text has no NUL. -/
theorem run_emit_iff (program : VerifiedAdgProgram) (sourceName : Text) :
    (emit program sourceName).run = some (utf8 (program.renderText ++ ['\n'])) ↔ Char.ofNat 0 ∉ program.renderText := by
  rw [PutsModule.run, output_emit, FunctionEmitter.stringGlobal_bytes, Option.bind_some, Llvm.utf8_append,
    ← Llvm.cString_utf8_iff, Option.map_eq_some_iff]
  constructor
  · rintro ⟨string, hstring, heq⟩
    rw [hstring, List.append_cancel_right heq]
  · exact fun h => ⟨_, h, rfl⟩

end LlvmModuleEmitter

theorem notMem_renderText {program : AdgProgram} {c : Char} (hc : c ≠ ' ') :
    c ∉ program.renderText ↔ ∀ w ∈ program.root.renderWords, c ∉ w.surface := by
  rw [AdgProgram.renderText, mem_join_iff (by simpa using hc)]
  simp

/-! ## Function programs -/

namespace FunctionEmitter

open FunctionMeaning (render instantiate)

/-- What a template holds outside its placeholders. -/
def literalText (template : Text) : Text := instantiate (fun _ => []) template

/-- No NUL in the literal text of the templates and in the text arguments of a program. -/
structure LiteralsNoNul (program : AdgFunctionProgram) : Prop where
  bodies : ∀ function ∈ program.functions, Char.ofNat 0 ∉ literalText function.bodyTemplate
  consequences : ∀ function ∈ program.functions, ∀ condition ∈ function.conditions,
    Char.ofNat 0 ∉ literalText condition.template
  arguments : ∀ call ∈ program.calls, ∀ text, .text text ∈ call.arguments → Char.ofNat 0 ∉ text

theorem isWhole_stringGlobal (content symbol : Text) :
    (stringGlobal content symbol).isWhole = true ↔ Char.ofNat 0 ∉ content := by
  rw [Global.isWhole, stringGlobal_bytes, decide_eq_true_iff, ← Llvm.cString_utf8_iff, Option.map_eq_some_iff]
  constructor
  · rintro ⟨string, hstring, heq⟩
    rw [hstring, List.append_cancel_right heq]
  · exact fun h => ⟨_, h, rfl⟩

/-- No text of the pool has a NUL. -/
def Pool.NoNul (p : Pool) : Prop := ∀ entry ∈ p.pool, Char.ofNat 0 ∉ entry.1

theorem Pool.noNul_globals (p : Pool) : (∀ g ∈ p.globals, g.isWhole = true) ↔ p.NoNul := by
  simp only [p.globals_eq, List.forall_mem_map, isWhole_stringGlobal, Pool.NoNul]

theorem Pool.noNul_intern (p : Pool) (content : Text) : (p.intern content).2.NoNul ↔ p.NoNul ∧ Char.ofNat 0 ∉ content := by
  unfold Pool.intern
  split
  · rename_i symbol h
    obtain ⟨l, l', hl, -⟩ := List.lookup_eq_some_iff.1 h
    exact ⟨fun hp => ⟨hp, hp (content, symbol) (by rw [hl]; simp)⟩, And.left⟩
  · simp only [Pool.NoNul, Pool.add, List.forall_mem_append, List.forall_mem_singleton]

variable {function : FunctionDefinition} {program : AdgFunctionProgram}

/-- A format has the characters of the literals, and those of its conversions. -/
theorem mem_format {c : Char} (hc : c ∉ "%ds".toList) : ∀ {segments : List TemplateSegment} {format : Text}
    {args : List (Nat × AdgParamType)}, formatOf function segments = .ok (format, args) →
      (c ∈ format ↔ c ∈ render (fun _ => []) segments)
  | [], format, args, h => by
    cases h
    exact Iff.rfl
  | segment :: segments, format, args, h => by
    rw [formatOf] at h
    split at h
    · rename_i hp
      obtain ⟨⟨format', args'⟩, hrest, h⟩ := bind_eq_ok.1 h
      cases h
      have hescape : c ∈ escapePercent segment.text ↔ c ∈ segment.text := by
        rw [escapePercent, List.mem_flatMap]
        constructor
        · rintro ⟨ch, hch, hmem⟩
          split at hmem
          · rename_i hpercent
            rw [show c = '%' by simpa using hmem, ← hpercent]; exact hch
          · rw [List.mem_singleton.1 hmem]; exact hch
        · intro hmem
          refine ⟨c, hmem, ?_⟩
          split <;> simp_all
      rw [render_cons, if_neg (by simpa using hp), List.mem_append, List.mem_append, hescape, mem_format hc hrest]
    · rename_i hp
      obtain ⟨index, hindex, h⟩ := bind_eq_ok.1 h
      obtain ⟨⟨format', args'⟩, hrest, h⟩ := bind_eq_ok.1 h
      cases h
      have hconversion : c ∉ (if function.parameters[index].type = .number then "%d".toList else "%s".toList) := by
        split <;> simp_all
      have hplaceholder : segment.isPlaceholder = true := by simpa using hp
      rw [render_cons, hplaceholder, if_pos rfl, List.mem_append, List.nil_append, mem_format hc hrest]
      exact or_iff_right hconversion

/-- **The format of a template is whole when its literal text is.** -/
theorem emitPrintf_noNul {p q : Pool} {template : Text} {instr : Llvm.Instr}
    (h : emitPrintf p function template = .ok (instr, q)) : q.NoNul ↔ p.NoNul ∧ Char.ofNat 0 ∉ literalText template := by
  obtain ⟨segments, hsegments, h⟩ := bind_eq_ok.1 h
  obtain ⟨⟨format, args⟩, hformat, h⟩ := bind_eq_ok.1 h
  cases h
  have hbreak : Char.ofNat 0 ∉ ['\n'] := by decide
  show (p.intern (format ++ ['\n'])).2.NoNul ↔ _
  rw [Pool.noNul_intern, List.mem_append, mem_format (by decide) hformat, FunctionMeaning.parse_render hsegments,
    or_iff_left hbreak, literalText]

theorem emitConditions_noNul : ∀ {conditions : List ConditionStatement} {k : Nat} {label : Text}
    {instrs : List Llvm.Instr} {p q : Pool} {blocks : List Llvm.Block},
    emitConditions function k label instrs p conditions = .ok (blocks, q) →
      (q.NoNul ↔ p.NoNul ∧ ∀ condition ∈ conditions, Char.ofNat 0 ∉ literalText condition.template)
  | [], k, label, instrs, p, q, blocks, h => by
    cases h
    simp
  | condition :: conditions, k, label, instrs, p, q, blocks, h => by
    obtain ⟨index, hindex, h⟩ := bind_eq_ok.1 h
    obtain ⟨⟨consequence, p'⟩, hconsequence, h⟩ := bind_eq_ok.1 h
    obtain ⟨⟨blocks', q'⟩, hblocks, h⟩ := bind_eq_ok.1 h
    cases h
    rw [emitConditions_noNul hblocks, emitPrintf_noNul hconsequence, List.forall_mem_cons, and_assoc]

theorem emitFunctions_noNul : ∀ {functions : List FunctionDefinition} {p q : Pool} {definitions : List Llvm.Function},
    emitFunctions program p functions = .ok (definitions, q) →
      (q.NoNul ↔ p.NoNul ∧ ∀ function ∈ functions, Char.ofNat 0 ∉ literalText function.bodyTemplate ∧
        ∀ condition ∈ function.conditions, Char.ofNat 0 ∉ literalText condition.template)
  | [], p, q, definitions, h => by
    cases h
    simp
  | function :: functions, p, q, definitions, h => by
    obtain ⟨symbol, hsymbol, h⟩ := bind_eq_ok.1 h
    obtain ⟨⟨f, p'⟩, hf, h⟩ := bind_eq_ok.1 h
    obtain ⟨⟨definitions', q'⟩, hdefinitions, h⟩ := bind_eq_ok.1 h
    cases h
    obtain ⟨⟨body, pbody⟩, hbody, hf⟩ := bind_eq_ok.1 hf
    obtain ⟨⟨blocks, pblocks⟩, hblocks, hf⟩ := bind_eq_ok.1 hf
    cases hf
    rw [emitFunctions_noNul hdefinitions, emitConditions_noNul hblocks, emitPrintf_noNul hbody, List.forall_mem_cons,
      and_assoc, and_assoc, and_assoc]

theorem emitArguments_noNul : ∀ (arguments : List CallArgument) (p : Pool), (emitArguments p arguments).2.NoNul ↔
    p.NoNul ∧ ∀ text, .text text ∈ arguments → Char.ofNat 0 ∉ text
  | [], p => by simp [emitArguments]
  | .text text :: arguments, p => by
    rw [emitArguments]
    show (emitArguments (p.intern text).2 arguments).2.NoNul ↔ _
    rw [emitArguments_noNul arguments, Pool.noNul_intern]
    simp only [List.mem_cons, CallArgument.text.injEq, or_imp, forall_and, forall_eq, and_assoc]
  | .number number :: arguments, p => by
    rw [emitArguments]
    show (emitArguments p arguments).2.NoNul ↔ _
    rw [emitArguments_noNul arguments]
    simp

theorem emitCalls_noNul {newlineSymbol : Text} : ∀ {calls : List CallSite} {clauseNumber : Nat} {p q : Pool}
    {instrs : List Llvm.Instr}, emitCalls program newlineSymbol clauseNumber p calls = .ok (instrs, q) →
      (q.NoNul ↔ p.NoNul ∧ ∀ call ∈ calls, ∀ text, .text text ∈ call.arguments → Char.ofNat 0 ∉ text)
  | [], clauseNumber, p, q, instrs, h => by
    cases h
    simp
  | call :: calls, clauseNumber, p, q, instrs, h => by
    obtain ⟨function, hfunction, h⟩ := bind_eq_ok.1 h
    obtain ⟨symbol, hsymbol, h⟩ := bind_eq_ok.1 h
    obtain ⟨⟨instrs', q'⟩, hinstrs, h⟩ := bind_eq_ok.1 h
    cases h
    have hseparator := notMem_separator (.inl rfl) clauseNumber
    have hintern := p.noNul_intern (separator clauseNumber)
    rw [and_iff_left hseparator] at hintern
    rw [emitCalls_noNul hinstrs, emitArguments_noNul, List.forall_mem_cons, and_assoc]
    exact and_congr_left fun _ => hintern

/-- **The constants of an emitted program are whole exactly when its literals have no NUL.** -/
theorem globals_whole {sourceName : Text} {m : Llvm.Module} (h : emit program sourceName = .ok m) :
    (∀ g ∈ m.globals, g.isWhole = true) ↔ LiteralsNoNul program := by
  obtain ⟨definitions, p, instrs, q, hdefinitions, hinstrs, rfl⟩ := emit_ok h
  have hempty : Pool.empty.NoNul := nofun
  have hbreak : Char.ofNat 0 ∉ ['\n'] := by decide
  show (∀ g ∈ q.globals, _) ↔ _
  rw [q.noNul_globals, emitCalls_noNul hinstrs, Pool.noNul_intern, emitFunctions_noNul hdefinitions]
  constructor
  · rintro ⟨⟨⟨-, hfunctions⟩, -⟩, hcalls⟩
    exact ⟨fun f hf => (hfunctions f hf).1, fun f hf => (hfunctions f hf).2, hcalls⟩
  · exact fun hp => ⟨⟨⟨hempty, fun f hf => ⟨hp.bodies f hf, hp.consequences f hf⟩⟩, hbreak⟩, hp.arguments⟩

end FunctionEmitter

/-! ## Both pipelines -/

/-- **What is printed is whole exactly when no word, no literal text of a template and no text argument has a NUL.** -/
theorem printed_whole_iff (program : AdgProgram) (functionProgram : AdgFunctionProgram) (sourceName : Text) :
    (∀ p, Verifier.verify program = .ok p →
      ((LlvmModuleEmitter.emit p sourceName).run = some (utf8 (p.renderText ++ ['\n'])) ↔
        ∀ w ∈ program.root.renderWords, Char.ofNat 0 ∉ w.surface)) ∧
    (FunctionTypeChecker.check functionProgram = .ok () →
      ∃ m, FunctionEmitter.emit functionProgram sourceName = .ok m ∧
        ((∀ g ∈ m.globals, g.isWhole = true) ↔ FunctionEmitter.LiteralsNoNul functionProgram)) := by
  refine ⟨fun p h => ?_, fun h => ?_⟩
  · rw [Verifier.verify_eq] at h
    cases h
    rw [LlvmModuleEmitter.run_emit_iff]
    exact notMem_renderText (by decide)
  · obtain ⟨m, hemit, -⟩ := FunctionEmitter.emit_prints (FunctionMeaning.check_ok h) sourceName
    exact ⟨m, hemit, FunctionEmitter.globals_whole hemit⟩

/-- A word whose surface has a NUL. -/
def nulDocument : Json := .object [("kind".toList, .string "fil".toList),
  ("surface".toList, .string ("كتب".toList ++ Char.ofNat 0 :: "الدرس".toList))]

def nulWord : Word := ⟨"كتب".toList ++ Char.ofNat 0 :: "الدرس".toList, .fil, .none, .none⟩

theorem parse_nulDocument : JsonParser.parse nulDocument = .ok (.word nulWord) := by rfl

/-- A call whose argument has a NUL. -/
def nulLines : List Text := [
  "اتجاهُ النصِّ: RTL".toList,
  "دالةٌ \"تحية\" مُعامِلاتُها \"اسم\" مرفوعٌ".toList,
  "متنٌ \"سلام \x7bاسم\x7d\"".toList,
  "استدعاءٌ \"تحية\" \"زيد".toList ++ Char.ofNat 0 :: "هند\"".toList]

def nulProgram : AdgFunctionProgram where
  functions := [⟨"تحية".toList, [⟨"اسم".toList, .text, .raf⟩], "سلام \x7bاسم\x7d".toList, [], .text⟩]
  calls := [⟨"تحية".toList, [.text ("زيد".toList ++ Char.ofNat 0 :: "هند".toList)]⟩]

theorem parse_nulLines : FunctionParser.parseLines nulLines = .ok nulProgram := by decide +kernel

theorem printed_whole_iff_samples :
    (LlvmModuleEmitter.emit (valueOf (Verifier.verify ⟨.word nulWord⟩) rfl) "greeting.adg".toList).run ≠
      some (utf8 ((valueOf (Verifier.verify ⟨.word nulWord⟩) rfl).renderText ++ ['\n'])) ∧
    ∃ m, FunctionEmitter.emit FunctionEmitter.greeting "greeting.adg".toList = .ok m ∧
      ∀ g ∈ m.globals, g.isWhole = true := by
  obtain ⟨htree, hfunctions⟩ := printed_whole_iff ⟨.word nulWord⟩ FunctionEmitter.greeting "greeting.adg".toList
  refine ⟨fun h => absurd ((htree _ rfl).1 h) (by decide), ?_⟩
  obtain ⟨m, hemit, hwhole⟩ := hfunctions (by decide +kernel)
  refine ⟨m, hemit, hwhole.2 ⟨?_, ?_, ?_⟩⟩
  · decide +kernel
  · decide +kernel
  · simp only [FunctionEmitter.greeting, List.forall_mem_cons]
    simp

/-- **Programs with a NUL are accepted**, and the C runtime stops at it. -/
theorem not_printed_whole :
    (∃ root p, JsonParser.parse nulDocument = .ok root ∧ Verifier.verify ⟨root⟩ = .ok p ∧
      Char.ofNat 0 ∈ p.renderText ∧ (LlvmModuleEmitter.emit p "nul.adg.json".toList).run = some (utf8 "كتب\n".toList)) ∧
    ∃ program m, FunctionParser.parseLines nulLines = .ok program ∧ FunctionTypeChecker.check program = .ok () ∧
      FunctionEmitter.emit program "nul.adg".toList = .ok m ∧ ¬ ∀ g ∈ m.globals, g.isWhole = true := by
  refine ⟨⟨_, _, parse_nulDocument, rfl, by decide +kernel, by decide +kernel⟩, ?_⟩
  have hcheck : FunctionTypeChecker.check nulProgram = .ok () := by decide +kernel
  obtain ⟨m, hemit, -⟩ := FunctionEmitter.emit_prints (FunctionMeaning.check_ok hcheck) "nul.adg".toList
  refine ⟨_, m, parse_nulLines, hcheck, hemit, fun hwhole => ?_⟩
  have hliterals := (FunctionEmitter.globals_whole hemit).1 hwhole
  exact hliterals.arguments _ List.mem_cons_self _ List.mem_cons_self (by decide)

end Adg
