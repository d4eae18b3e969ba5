import AdgLang.PrintedWhole
import Mathlib.Logic.Relation
/-!
# StringConstants — the text of a constant and the bytes it stands for

Every constant either emitter writes is the escaped text of some bytes and `\00`.  Escaped text is printable ASCII in
which a backslash always stands before two digits of its own (`Escaped`), and it is read back as the bytes it was made of.
`Intern` gives a text one symbol for the whole run: what a pool says of a text stays true of every pool interning leads
to (`Pool.Reaches`), and emission does nothing to its pool but intern (`emit_reaches`).
-/
namespace Llvm

/-- An upper case hexadecimal digit. -/
def isUpperHex (c : Char) : Bool := decide (('0' ≤ c ∧ c ≤ '9') ∨ ('A' ≤ c ∧ c ≤ 'F'))

/-- Printable ASCII without a quote, in which every backslash stands before two hexadecimal digits. -/
inductive Escaped : List Char → Prop
  | nil : Escaped []
  | plain {c : Char} {t : List Char} (hmin : ' ' ≤ c) (hmax : c ≤ '~') (hquote : c ≠ '"') (hslash : c ≠ '\\')
      (h : Escaped t) : Escaped (c :: t)
  | code {hi lo : Char} {t : List Char} (hhi : isUpperHex hi = true) (hlo : isUpperHex lo = true) (h : Escaped t) :
      Escaped ('\\' :: hi :: lo :: t)

/-- A constant that holds bytes and a zero byte after them, and is declared with as many. -/
structure Global.Holds (g : Global) (bytes : Bytes) : Prop where
  escaped : Escaped g.initializer
  content : unescape g.initializer = some (bytes ++ [0])
  length : g.length = bytes.length + 1

theorem Escaped.append {s t : List Char} (hs : Escaped s) (ht : Escaped t) : Escaped (s ++ t) := by
  induction hs with
  | nil => exact ht
  | plain hmin hmax hquote hslash _ ih => exact .plain hmin hmax hquote hslash ih
  | code hhi hlo _ ih => exact .code hhi hlo ih

theorem isUpperHex_bounds {c : Char} (h : isUpperHex c = true) : ' ' ≤ c ∧ c ≤ '~' ∧ c ≠ '"' := by
  simp only [isUpperHex, decide_eq_true_iff, Char.le_def, UInt32.le_iff_toNat_le] at h ⊢
  have hmin : (' ' : Char).val.toNat = 32 := rfl
  have hmax : ('~' : Char).val.toNat = 126 := rfl
  have h0 : ('0' : Char).val.toNat = 48 := rfl
  have h9 : ('9' : Char).val.toNat = 57 := rfl
  have hA : ('A' : Char).val.toNat = 65 := rfl
  have hF : ('F' : Char).val.toNat = 70 := rfl
  refine ⟨by omega, by omega, fun hc => ?_⟩
  have hquote : c.val.toNat = 34 := by rw [hc]; rfl
  omega

/-- Escaped text has no raw quote and nothing that is not printable. -/
theorem Escaped.printable {t : List Char} (h : Escaped t) : ∀ c ∈ t, ' ' ≤ c ∧ c ≤ '~' ∧ c ≠ '"' := by
  induction h with
  | nil => nofun
  | plain hmin hmax hquote _ _ ih => exact List.forall_mem_cons.2 ⟨⟨hmin, hmax, hquote⟩, ih⟩
  | code hhi hlo _ ih =>
    exact List.forall_mem_cons.2 ⟨by decide, List.forall_mem_cons.2 ⟨isUpperHex_bounds hhi,
      List.forall_mem_cons.2 ⟨isUpperHex_bounds hlo, ih⟩⟩⟩

theorem utf8_injective : Function.Injective utf8 := by
  intro s t h
  have hbytes : s.utf8Encode = t.utf8Encode := congrArg List.toByteArray h
  exact String.ofList_injective (String.toByteArray_inj.1 (by simpa using hbytes))

end Llvm

namespace Adg
namespace FunctionEmitter

open Llvm (Bytes Global Escaped isUpperHex unescape utf8)

/-! ## Escaped text -/

theorem isUpperHex_digitChar : ∀ n < 16, isUpperHex (Nat.digitChar n).toUpper = true := by decide

theorem ofNat_bounds : ∀ n < 127, 32 ≤ n → ' ' ≤ Char.ofNat n ∧ Char.ofNat n ≤ '~' := by decide

theorem escaped_escapeByte (b : UInt8) : Escaped (escapeByte b) := by
  unfold escapeByte
  split
  · rename_i h
    obtain ⟨hge, hle, hslash, hquote⟩ := h
    have hge : 32 ≤ b.toNat := hge
    have hle : b.toNat ≤ 126 := hle
    obtain ⟨hmin, hmax⟩ := ofNat_bounds b.toNat (by omega) hge
    obtain ⟨-, hn⟩ := utf8EncodeChar_ofNat b.toNat (by omega)
    have hq : Char.ofNat b.toNat ≠ '"' := fun he => hquote (UInt8.toNat.inj (by rw [← hn, he]; rfl))
    have hs : Char.ofNat b.toNat ≠ '\\' := fun he => hslash (UInt8.toNat.inj (by rw [← hn, he]; rfl))
    exact .plain hmin hmax hq hs .nil
  · have hb := b.toNat_lt
    exact .code (isUpperHex_digitChar _ (by omega)) (isUpperHex_digitChar _ (by omega)) .nil

theorem escaped_escapeCString (bytes : Bytes) : Escaped (escapeCString bytes) := by
  induction bytes with
  | nil => exact .nil
  | cons b bytes ih => exact (escaped_escapeByte b).append ih

theorem unescape_escaped (bytes : Bytes) : unescape (escapeCString bytes) = some bytes := by
  simpa [unescape] using unescape_escapeCString bytes []

theorem holds_stringGlobal (content symbol : Text) : (stringGlobal content symbol).Holds (utf8 content) where
  escaped := (escaped_escapeCString _).append (.code (by decide) (by decide) .nil)
  content := by
    have h : unescape ['\\', '0', '0'] = some [0] := by decide
    simp [stringGlobal, unescape_escapeCString, h]
  length := rfl

/-! ## Pools along a run -/

/-- Interning some texts, one after the other, leads from one pool to the other. -/
def Pool.Reaches : Pool → Pool → Prop := Relation.ReflTransGen (fun p q => ∃ content, q = (p.intern content).2)

theorem Pool.reaches_intern (p : Pool) (content : Text) : p.Reaches (p.intern content).2 := .single ⟨content, rfl⟩

/-- What interning keeps holds of every pool it leads to. -/
theorem Pool.Reaches.induct {P : Pool → Prop} (hintern : ∀ p content, P p → P (p.intern content).2) {p q : Pool}
    (h : p.Reaches q) (hp : P p) : P q := by
  induction h with
  | refl => exact hp
  | tail _ hstep ih =>
    obtain ⟨content, rfl⟩ := hstep
    exact hintern _ content ih

theorem Pool.Reaches.le {p q : Pool} (h : p.Reaches q) : p.Le q :=
  h.induct (fun r content hr => hr.trans (r.le_intern content)) (.refl p)

/-- The texts of a pool differ. -/
def Pool.Distinct (p : Pool) : Prop := (p.pool.map Prod.fst).Nodup

theorem Pool.distinct_intern (p : Pool) (content : Text) (h : p.Distinct) : (p.intern content).2.Distinct := by
  unfold Pool.intern
  split
  · exact h
  · rename_i hnone
    have hnew : content ∉ p.pool.map Prod.fst := by
      intro hmem
      obtain ⟨entry, hentry, rfl⟩ := List.mem_map.1 hmem
      exact absurd (List.lookup_eq_none_iff.1 hnone entry hentry) (by simp)
    simp only [Pool.Distinct, Pool.add, List.map_append, List.map_cons, List.map_nil]
    refine List.nodup_append.2 ⟨h, List.nodup_singleton _, fun a ha b hb he => ?_⟩
    rw [List.mem_singleton.1 hb] at he
    exact hnew (he ▸ ha)

theorem Pool.distinct_of_reaches {p : Pool} (h : Pool.empty.Reaches p) : p.Distinct :=
  h.induct Pool.distinct_intern List.nodup_nil

theorem Pool.intern_of_lookup {p : Pool} {content symbol : Text} (h : p.pool.lookup content = some symbol) :
    p.intern content = (symbol, p) := by
  rw [Pool.intern, h]

/-- Two texts of a pool with one symbol are one text. -/
theorem Pool.lookup_injective {p : Pool} {content content' symbol : Text} (h : p.pool.lookup content = some symbol)
    (h' : p.pool.lookup content' = some symbol) : content = content' := by
  have hnodup : (p.pool.map Prod.snd).Nodup := by
    rw [p.symbols_eq]
    exact List.nodup_range.map stringSymbol_injective
  have hmem : ∀ {c}, p.pool.lookup c = some symbol → (c, symbol) ∈ p.pool := fun {c} hc => by
    obtain ⟨l, l', hl, -⟩ := List.lookup_eq_some_iff.1 hc
    rw [hl]; simp
  exact congrArg Prod.fst (List.inj_on_of_nodup_map hnodup (hmem h) (hmem h') rfl)

/-- A global that stands for a text in every pool from some pool on. -/
structure Pool.Interned (p : Pool) (content symbol : Text) : Prop where
  global : ∀ q, p.Reaches q → ∃ g ∈ q.globals, g.symbol = symbol ∧ g.Holds (utf8 content)
  shared : ∀ q, p.Reaches q → q.intern content = (symbol, q)
  apart : ∀ q content', p.Reaches q → content' ≠ content → (q.intern content').1 ≠ symbol

/-- **An interned text keeps its symbol, its global and its bytes, and shares them with no other text.** -/
theorem Pool.interned_intern (p : Pool) (content : Text) :
    (p.intern content).2.Interned content (p.intern content).1 := by
  have hlookup : ∀ q, (p.intern content).2.Reaches q → q.pool.lookup content = some (p.intern content).1 := fun q hq =>
    hq.le _ _ (p.lookup_intern content)
  refine ⟨fun q hq => ?_, fun q hq => Pool.intern_of_lookup (hlookup q hq), fun q content' hq hne he => ?_⟩
  · obtain ⟨l, l', hl, -⟩ := List.lookup_eq_some_iff.1 (hlookup q hq)
    refine ⟨stringGlobal content (p.intern content).1, ?_, rfl, holds_stringGlobal content _⟩
    rw [q.globals_eq, hl]
    simp
  · have hlater := hlookup _ (hq.tail ⟨content', rfl⟩)
    have hother := q.lookup_intern content'
    rw [he] at hother
    exact hne (Pool.lookup_injective hother hlater)

/-- **Every global of a run's pool holds a text, and no two globals hold the same bytes.** -/
theorem Pool.globals_of_reaches {p : Pool} (h : Pool.empty.Reaches p) :
    (∀ g ∈ p.globals, ∃ content, g.Holds (utf8 content)) ∧ (p.globals.map Global.symbol).Nodup ∧
      (p.globals.map Global.bytes).Nodup := by
  refine ⟨fun g hg => ?_, p.keyed, ?_⟩
  · rw [p.globals_eq] at hg
    obtain ⟨entry, -, rfl⟩ := List.mem_map.1 hg
    exact ⟨entry.1, holds_stringGlobal entry.1 entry.2⟩
  · have hmap : p.globals.map Global.bytes = (p.pool.map Prod.fst).map (fun content => some (utf8 content ++ [0])) := by
      rw [p.globals_eq, List.map_map, List.map_map]
      exact List.map_congr_left (fun entry _ => stringGlobal_bytes entry.1 entry.2)
    rw [hmap]
    exact (Pool.distinct_of_reaches h).map (fun s t he =>
      Llvm.utf8_injective (List.append_cancel_right (Option.some.inj he)))

/-! ## Emission -/

variable {function : FunctionDefinition} {program : AdgFunctionProgram}

theorem emitPrintf_reaches {p q : Pool} {template : Text} {instr : Llvm.Instr}
    (h : emitPrintf p function template = .ok (instr, q)) : p.Reaches q := by
  obtain ⟨segments, hsegments, h⟩ := bind_eq_ok.1 h
  obtain ⟨⟨format, args⟩, hformat, h⟩ := bind_eq_ok.1 h
  cases h
  exact p.reaches_intern _

theorem emitConditions_reaches : ∀ {conditions : List ConditionStatement} {k : Nat} {label : Text}
    {instrs : List Llvm.Instr} {p q : Pool} {blocks : List Llvm.Block},
    emitConditions function k label instrs p conditions = .ok (blocks, q) → p.Reaches q
  | [], k, label, instrs, p, q, blocks, h => by
    cases h
    exact .refl
  | condition :: conditions, k, label, instrs, p, q, blocks, h => by
    obtain ⟨index, hindex, h⟩ := bind_eq_ok.1 h
    obtain ⟨⟨consequence, p'⟩, hconsequence, h⟩ := bind_eq_ok.1 h
    obtain ⟨⟨blocks', q'⟩, hblocks, h⟩ := bind_eq_ok.1 h
    cases h
    exact (emitPrintf_reaches hconsequence).trans (emitConditions_reaches hblocks)

theorem emitFunctions_reaches : ∀ {functions : List FunctionDefinition} {p q : Pool} {definitions : List Llvm.Function},
    emitFunctions program p functions = .ok (definitions, q) → p.Reaches q
  | [], p, q, definitions, h => by
    cases h
    exact .refl
  | function :: functions, p, q, definitions, h => by
    obtain ⟨symbol, hsymbol, h⟩ := bind_eq_ok.1 h
    obtain ⟨⟨f, p'⟩, hf, h⟩ := bind_eq_ok.1 h
    obtain ⟨⟨definitions', q'⟩, hdefinitions, h⟩ := bind_eq_ok.1 h
    cases h
    obtain ⟨⟨body, pbody⟩, hbody, hf⟩ := bind_eq_ok.1 hf
    obtain ⟨⟨blocks, pblocks⟩, hblocks, hf⟩ := bind_eq_ok.1 hf
    cases hf
    have hfunction : p.Reaches p' := (emitPrintf_reaches hbody).trans (emitConditions_reaches hblocks)
    exact hfunction.trans (emitFunctions_reaches hdefinitions)

theorem emitArguments_reaches : ∀ (arguments : List CallArgument) (p : Pool), p.Reaches (emitArguments p arguments).2
  | [], _ => .refl
  | .text text :: arguments, p => (p.reaches_intern text).trans (emitArguments_reaches arguments (p.intern text).2)
  | .number _ :: arguments, p => emitArguments_reaches arguments p

theorem emitCalls_reaches {newlineSymbol : Text} : ∀ {calls : List CallSite} {clauseNumber : Nat} {p q : Pool}
    {instrs : List Llvm.Instr}, emitCalls program newlineSymbol clauseNumber p calls = .ok (instrs, q) → p.Reaches q
  | [], clauseNumber, p, q, instrs, h => by
    cases h
    exact .refl
  | call :: calls, clauseNumber, p, q, instrs, h => by
    obtain ⟨function, hfunction, h⟩ := bind_eq_ok.1 h
    obtain ⟨symbol, hsymbol, h⟩ := bind_eq_ok.1 h
    obtain ⟨⟨instrs', q'⟩, hinstrs, h⟩ := bind_eq_ok.1 h
    cases h
    have hseparator := p.reaches_intern (separator clauseNumber)
    exact (hseparator.trans (emitArguments_reaches call.arguments _)).trans (emitCalls_reaches hinstrs)

/-- **The constants of an emitted module are those of a pool that interning alone made.** -/
theorem emit_reaches {sourceName : Text} {m : Llvm.Module} (h : emit program sourceName = .ok m) :
    ∃ p, Pool.empty.Reaches p ∧ m.globals = p.globals := by
  obtain ⟨definitions, p, instrs, q, hdefinitions, hinstrs, rfl⟩ := emit_ok h
  have hbreak := p.reaches_intern ['\n']
  exact ⟨q, ((emitFunctions_reaches hdefinitions).trans hbreak).trans (emitCalls_reaches hinstrs), rfl⟩

end FunctionEmitter

namespace LlvmModuleEmitter

theorem holds_output (program : VerifiedAdgProgram) (sourceName : Text) :
    (emit program sourceName).output.Holds (Llvm.utf8 program.renderText) :=
  FunctionEmitter.holds_stringGlobal _ _

end LlvmModuleEmitter

open FunctionEmitter (escapeCString Pool) in
open LlvmModuleEmitter (escapeLlvmCString) in
/-- **Emitted string constants are exact**, and one text is one global. -/
theorem string_constants_exact (bytes : Llvm.Bytes) (verified : VerifiedAdgProgram) (program : AdgFunctionProgram)
    (sourceName : Text) :
    (Llvm.Escaped (escapeCString bytes) ∧ Llvm.unescape (escapeCString bytes) = some bytes) ∧
    (Llvm.Escaped (escapeLlvmCString bytes) ∧ Llvm.unescape (escapeLlvmCString bytes) = some bytes) ∧
    (LlvmModuleEmitter.emit verified sourceName).output.Holds (Llvm.utf8 verified.renderText) ∧
    (∀ m, FunctionEmitter.emit program sourceName = .ok m → (∃ p, Pool.empty.Reaches p ∧ m.globals = p.globals) ∧
      (∀ g ∈ m.globals, ∃ content, g.Holds (Llvm.utf8 content)) ∧ (m.globals.map Llvm.Global.symbol).Nodup ∧
      (m.globals.map Llvm.Global.bytes).Nodup) ∧
    ∀ (p : Pool) (content : Text), (p.intern content).2.Interned content (p.intern content).1 := by
  have hescaped := FunctionEmitter.escaped_escapeCString bytes
  have hunescape := FunctionEmitter.unescape_escaped bytes
  refine ⟨⟨hescaped, hunescape⟩, ⟨hescaped, hunescape⟩, LlvmModuleEmitter.holds_output verified sourceName,
    fun m h => ?_, Pool.interned_intern⟩
  obtain ⟨p, hp, hglobals⟩ := FunctionEmitter.emit_reaches h
  exact ⟨⟨p, hp, hglobals⟩, hglobals ▸ Pool.globals_of_reaches hp⟩

theorem string_constants_exact_greeting :
    Llvm.unescape (FunctionEmitter.escapeCString [0, 0x41, 0x22, 0x5c, 0x42]) = some [0, 0x41, 0x22, 0x5c, 0x42] ∧
    ∃ m, FunctionEmitter.emit FunctionEmitter.greeting "greeting.adg".toList = .ok m ∧
      (m.globals.map Llvm.Global.symbol).Nodup ∧ (m.globals.map Llvm.Global.bytes).Nodup := by
  obtain ⟨hbytes, -, -, hglobals, -⟩ := string_constants_exact [0, 0x41, 0x22, 0x5c, 0x42]
    (valueOf (Verifier.verify ⟨.word nulWord⟩) rfl) FunctionEmitter.greeting "greeting.adg".toList
  have haccepted : FunctionTypeChecker.check FunctionEmitter.greeting = .ok () := by decide +kernel
  obtain ⟨m, hemit, -⟩ := FunctionEmitter.emit_prints (FunctionMeaning.check_ok haccepted) "greeting.adg".toList
  obtain ⟨-, -, hsymbols, hcontents⟩ := hglobals m hemit
  exact ⟨hbytes.2, m, hemit, hsymbols, hcontents⟩

end Adg
