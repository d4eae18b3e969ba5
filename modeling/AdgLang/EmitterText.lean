import AdgLang.FunctionEmitter
import AdgLang.FunctionMeaning
import AdgLang.Table
/-!
# EmitterText — the strings and formats of the emitted module

The escaped text of a constant is read back as its bytes (`unescape_escapeCString`), so a module whose constants are
those of a pool holds every text of the pool (`holds_of_globals`).  A format prints the segments it was made of
(`printed_format`), and so the call that `EmitPrintf` writes prints its template instantiated (`emitPrintf_spec`).
-/
namespace Adg
namespace FunctionEmitter

open Llvm
open FunctionMeaning (instantiate render value argumentNamed TemplateOk Fits)

/-! ## Escaped text -/

theorem hexDigit_digitChar : ∀ n < 16, hexDigit (Nat.digitChar n).toUpper = some (UInt8.ofNat n) ∧
    (Nat.digitChar n).toUpper ≠ '\\' := by decide

theorem utf8EncodeChar_ofNat : ∀ n < 128, String.utf8EncodeChar (Char.ofNat n) = [UInt8.ofNat n] ∧
    (Char.ofNat n).toNat = n := by decide +kernel

theorem unescape_escapeByte (b : UInt8) (rest : Text) :
    unescape (escapeByte b ++ rest) = (b :: ·) <$> unescape rest := by
  unfold escapeByte
  split
  · rename_i h
    obtain ⟨-, hle, hslash, hquote⟩ := h
    have hle : b.toNat ≤ 126 := hle
    obtain ⟨hc, hn⟩ := utf8EncodeChar_ofNat b.toNat (by omega)
    rw [UInt8.ofNat_toNat] at hc
    have hq : Char.ofNat b.toNat ≠ '"' := fun he => hquote (UInt8.toNat.inj (by rw [← hn, he]; rfl))
    have hs : Char.ofNat b.toNat ≠ '\\' := fun he => hslash (UInt8.toNat.inj (by rw [← hn, he]; rfl))
    rw [List.singleton_append, unescape.eq_def]
    simp [hq, hs, hc]
  · have hb := b.toNat_lt
    obtain ⟨hhi, hne⟩ := hexDigit_digitChar (b.toNat / 16) (by omega)
    obtain ⟨hlo, -⟩ := hexDigit_digitChar (b.toNat % 16) (by omega)
    have hsum : 16 * UInt8.ofNat (b.toNat / 16) + UInt8.ofNat (b.toNat % 16) = b := by
      apply UInt8.toNat.inj
      simp
      omega
    rw [unescape.eq_def]
    simp [hne, hhi, hlo, hsum]

theorem unescape_escapeCString (bytes : Bytes) (rest : Text) :
    unescape (escapeCString bytes ++ rest) = (bytes ++ ·) <$> unescape rest := by
  induction bytes with
  | nil => simp [escapeCString]
  | cons b bytes ih =>
    have h : escapeCString (b :: bytes) ++ rest = escapeByte b ++ (escapeCString bytes ++ rest) := by
      simp [escapeCString]
    rw [h, unescape_escapeByte, ih]
    simp [Function.comp_def]

/-- **The constant of a text is the bytes of the text and a zero byte.** -/
theorem stringGlobal_bytes (content symbol : Text) : (stringGlobal content symbol).bytes = some (utf8 content ++ [0]) := by
  have h : unescape ['\\', '0', '0'] = some [0] := by decide
  simp [Global.bytes, stringGlobal, unescape_escapeCString, h]

/-! ## The pool -/

theorem stringSymbol_injective : Function.Injective stringSymbol := fun _ _ h =>
  decimal_injective (List.append_cancel_left h)

/-- A later pool gives the texts of an earlier one the same symbols. -/
def Pool.Le (p q : Pool) : Prop :=
  ∀ content symbol, p.pool.lookup content = some symbol → q.pool.lookup content = some symbol

theorem Pool.Le.refl (p : Pool) : p.Le p := fun _ _ h => h

theorem Pool.Le.trans {p q r : Pool} (h : p.Le q) (h' : q.Le r) : p.Le r := fun content symbol hp =>
  h' content symbol (h content symbol hp)

theorem Pool.le_intern (p : Pool) (content : Text) : p.Le (p.intern content).2 := by
  unfold Pool.intern
  split
  · exact .refl p
  · intro content' symbol h
    simp only [Pool.add, List.lookup_append, h, Option.some_or]

theorem Pool.lookup_intern (p : Pool) (content : Text) :
    (p.intern content).2.pool.lookup content = some (p.intern content).1 := by
  unfold Pool.intern
  split
  · rename_i h; exact h
  · rename_i h
    simp [Pool.add, List.lookup_append, h]

theorem Pool.keyed (p : Pool) : Table.Keyed Global.symbol p.globals := by
  have h : p.globals.map Global.symbol = p.pool.map Prod.snd := by
    rw [p.globals_eq, List.map_map]; rfl
  rw [Table.Keyed, h, p.symbols_eq]
  exact List.nodup_range.map stringSymbol_injective

/-- A module in which every text of a pool is the string at its symbol. -/
def Holds (m : Module) (p : Pool) : Prop :=
  ∀ content symbol, p.pool.lookup content = some symbol → Char.ofNat 0 ∉ content → m.string symbol = some (utf8 content)

theorem Holds.mono {m : Module} {p q : Pool} (h : Holds m q) (hle : p.Le q) : Holds m p := fun content symbol hp =>
  h content symbol (hle content symbol hp)

/-- **A module with the constants of a pool holds its texts.** -/
theorem holds_of_globals {m : Module} {p : Pool} (h : m.globals = p.globals) : Holds m p := by
  intro content symbol hp hnul
  obtain ⟨l, l', hl, -⟩ := List.lookup_eq_some_iff.1 hp
  have hmem : stringGlobal content symbol ∈ p.globals := by
    rw [p.globals_eq, hl]; simp
  have hfind : m.globals.find? (fun g => decide (g.symbol = symbol)) = some (stringGlobal content symbol) := by
    rw [h]
    exact p.keyed.lookup_eq_some_iff.2 ⟨hmem, rfl⟩
  simp only [Module.string, hfind, stringGlobal_bytes, Option.bind_some, cString_utf8 hnul]

/-! ## Arguments -/

/-- A value that stands for an argument. -/
inductive Denotes (m : Module) : CallArgument → Value → Prop
  | text {text symbol : Text} (h : m.string symbol = some (utf8 text)) : Denotes m (.text text) (.ptr symbol)
  | number (number : Int) : Denotes m (.number number) (.int (BitVec.ofInt 32 number))

/-- Locals that hold arguments under the parameters' names. -/
def Binds (m : Module) (arguments : List CallArgument) (locals : Locals) : Prop :=
  ∀ index argument, arguments[index]? = some argument →
    ∃ v, locals.lookup (parameterName index) = some v ∧ Denotes m argument v

/-- A value has the type of the parameter its argument fits. -/
theorem Denotes.hasTy {m : Module} {argument : CallArgument} {v : Value} {type : AdgParamType} (h : Denotes m argument v)
    (ht : FunctionTypeChecker.argumentHasType argument type = true) : v.hasTy (llvmType type) = true := by
  cases h <;> cases type <;> first | rfl | cases ht

/-- The first parameter of a name and its argument are at one index. -/
theorem find_zip {name : Text} {parameters : List FunctionParameter} {arguments : List CallArgument}
    (h : List.Forall₂ (fun parameter argument => FunctionTypeChecker.argumentHasType argument parameter.type = true)
      parameters arguments) {index : Fin parameters.length}
    (hi : parameters.findFinIdx? (fun parameter => decide (parameter.name = name)) = some index) :
    ∃ argument, arguments[index.val]? = some argument ∧
      (parameters.zip arguments).find? (fun binding => decide (binding.1.name = name)) = some (parameters[index], argument) ∧
      FunctionTypeChecker.argumentHasType argument parameters[index].type = true := by
  induction h with
  | nil => exact index.elim0
  | @cons parameter argument parameters arguments ht _ ih =>
    rw [List.findFinIdx?_cons] at hi
    split at hi
    · rename_i hname
      cases hi
      exact ⟨argument, rfl, by simp [hname], ht⟩
    · rename_i hname
      obtain ⟨i, hi', rfl⟩ := Option.map_eq_some_iff.1 hi
      obtain ⟨a, ha, hfind, hta⟩ := ih hi'
      exact ⟨a, by simpa using ha, by simpa [hname] using hfind, by simpa using hta⟩

theorem argumentNamed_of_index {function : FunctionDefinition} {arguments : List CallArgument} {name : Text}
    {index : Fin function.parameters.length} (hfits : Fits function arguments)
    (hi : indexOfParameter function name = .ok index) :
    ∃ argument, arguments[index.val]? = some argument ∧ argumentNamed function arguments name = some argument ∧
      FunctionTypeChecker.argumentHasType argument (function.parameters.get index).type = true := by
  unfold indexOfParameter at hi
  split at hi
  · rename_i hfind
    cases hi
    obtain ⟨argument, ha, hz, ht⟩ := find_zip hfits hfind
    exact ⟨argument, ha, by rw [argumentNamed, hz]; rfl, ht⟩
  · cases hi

/-- The index of a declared parameter. -/
theorem indexOfParameter_ok {function : FunctionDefinition} {name : Text} {parameter : FunctionParameter}
    (h : function.findParameter name = some parameter) :
    ∃ index, indexOfParameter function name = .ok index ∧ function.parameters.get index = parameter := by
  rw [FunctionDefinition.findParameter, List.find?_eq_map_findFinIdx?_getElem] at h
  obtain ⟨index, hi, hp⟩ := Option.map_eq_some_iff.1 h
  exact ⟨index, by rw [indexOfParameter, hi], hp⟩

/-! ## Formats -/

variable {m : Module} {string : Name → Option Bytes} {values : List Value}

theorem printed_percent (rest : Bytes) : printed string (37 :: 37 :: rest) values = (37 :: ·) <$> printed string rest values := by
  rw [printed.eq_def]; rfl

/-- Escaped literal text is printed as it was. -/
theorem printed_escapePercent (text : Text) (rest : Bytes) :
    printed string (utf8 (escapePercent text) ++ rest) values = (utf8 text ++ ·) <$> printed string rest values := by
  induction text with
  | nil => simp [escapePercent]
  | cons c text ih =>
    have h : escapePercent (c :: text) = (if c = '%' then ['%', '%'] else [c]) ++ escapePercent text := rfl
    rw [h, utf8_append, List.append_assoc]
    split
    · rename_i hc
      have h37 : utf8 ['%', '%'] = [37, 37] := by decide
      have hc37 : String.utf8EncodeChar '%' = [37] := by decide
      rw [h37, hc]
      simp only [List.cons_append, List.nil_append, printed_percent, ih, utf8_cons, hc37, Option.map_eq_map,
        Option.map_map, Function.comp_def]
    · rename_i hc
      simp only [utf8_cons, utf8_nil, List.append_nil, printed_utf8EncodeChar hc, ih, List.append_assoc,
        Option.map_eq_map, Option.map_map, Function.comp_def]

theorem signedDecimal_word (n : Int) : FunctionMeaning.signedDecimal (FunctionMeaning.word n) =
    Llvm.decimal (BitVec.ofInt 32 n).toInt := by
  rw [BitVec.toInt_ofInt]
  cases h : FunctionMeaning.word n <;> (unfold FunctionMeaning.word at h; rw [h]; rfl)

/-- A conversion prints the argument it was written for. -/
theorem printed_conversion {argument : CallArgument} {v : Value} {type : AdgParamType} (h : Denotes m argument v)
    (ht : FunctionTypeChecker.argumentHasType argument type = true) (rest : Bytes) :
    printed m.string (utf8 (if type = .number then "%d".toList else "%s".toList) ++ rest) (v :: values) =
      (utf8 (FunctionMeaning.printed argument) ++ ·) <$> printed m.string rest values := by
  have hd : utf8 "%d".toList = [37, 100] := by decide
  have hs : utf8 "%s".toList = [37, 115] := by decide
  cases h with
  | text h =>
    cases type with
    | text => rw [if_neg (by decide), hs, printed.eq_def]; simp [convert, h, FunctionMeaning.printed]
    | number => cases ht
  | number n =>
    cases type with
    | text => cases ht
    | number =>
      rw [if_pos rfl, hd, printed.eq_def]
      simp [convert, FunctionMeaning.printed, signedDecimal_word]

/-- A format and its arguments print segments: for any arguments bound, the values of the operands are taken up and the
rest of the format is printed after them.  The format has no characters but the literals' and the conversions'. -/
structure FormatPrints (function : FunctionDefinition) (segments : List TemplateSegment) (format : Text)
    (args : List (Nat × AdgParamType)) : Prop where
  chars : ∀ c ∈ format, c ∈ render (fun _ => []) segments ∨ c ∈ "%ds".toList
  prints : ∀ (m : Module) (arguments : List CallArgument) (locals : Locals), Fits function arguments →
    Binds m arguments locals → ∃ values, (args.map parameterOperand).mapM (evalArg locals) = some values ∧
      ∀ rest values', printed m.string (utf8 format ++ rest) (values ++ values') =
        (utf8 (render (value function arguments) segments) ++ ·) <$> printed m.string rest values'

variable {function : FunctionDefinition} {segment : TemplateSegment} {segments : List TemplateSegment} {format : Text}
  {args : List (Nat × AdgParamType)}

theorem render_cons (f : Text → Text) : render f (segment :: segments) =
    (if segment.isPlaceholder then f segment.text else segment.text) ++ render f segments := rfl

theorem FormatPrints.nil : FormatPrints function [] [] [] where
  chars := nofun
  prints m arguments locals _ _ := ⟨[], rfl, fun rest values' => by simp [render]⟩

theorem FormatPrints.literal (h : FormatPrints function segments format args) (hp : segment.isPlaceholder = false) :
    FormatPrints function (segment :: segments) (escapePercent segment.text ++ format) args where
  chars c hc := by
    rw [render_cons, hp]
    rcases List.mem_append.1 hc with hc | hc
    · obtain ⟨ch, hch, hmem⟩ := List.mem_flatMap.1 hc
      refine .inl (List.mem_append_left _ ?_)
      split at hmem
      · rename_i hpercent
        obtain rfl : c = '%' := by simpa using hmem
        exact hpercent ▸ hch
      · exact List.mem_singleton.1 hmem ▸ hch
    · exact (h.chars c hc).imp_left (fun h => List.mem_append_right _ h)
  prints m arguments locals hfits hbinds := by
    obtain ⟨values, hvalues, hprinted⟩ := h.prints m arguments locals hfits hbinds
    refine ⟨values, hvalues, fun rest values' => ?_⟩
    rw [utf8_append, List.append_assoc, printed_escapePercent, hprinted, render_cons, hp]
    simp [Function.comp_def]

theorem FormatPrints.placeholder {index : Fin function.parameters.length} (h : FormatPrints function segments format args)
    (hp : segment.isPlaceholder = true) (hindex : indexOfParameter function segment.text = .ok index) :
    FormatPrints function (segment :: segments)
      ((if (function.parameters.get index).type = .number then "%d".toList else "%s".toList) ++ format)
      ((index.val, (function.parameters.get index).type) :: args) where
  chars c hc := by
    rw [render_cons, hp]
    rcases List.mem_append.1 hc with hc | hc
    · right
      split at hc <;> (simp only [String.reduceToList, List.mem_cons, List.not_mem_nil, or_false] at hc ⊢; tauto)
    · exact (h.chars c hc).imp_left (fun h => List.mem_append_right _ h)
  prints m arguments locals hfits hbinds := by
    obtain ⟨values, hvalues, hprinted⟩ := h.prints m arguments locals hfits hbinds
    obtain ⟨argument, harg, hnamed, htype⟩ := argumentNamed_of_index hfits hindex
    obtain ⟨v, hv, hden⟩ := hbinds index argument harg
    have heval : evalArg locals (parameterOperand (index.val, (function.parameters.get index).type)) = some v := by
      simp only [evalArg, parameterOperand, Operand.eval, hv, hden.hasTy htype, if_true]
    have hvalue : value function arguments segment.text = FunctionMeaning.printed argument := by
      rw [value, hnamed]; rfl
    refine ⟨v :: values, ?_, fun rest values' => ?_⟩
    · rw [List.map_cons, List.mapM_cons, heval, hvalues]; rfl
    · rw [utf8_append, List.append_assoc, List.cons_append, printed_conversion hden htype, hprinted, render_cons, hp]
      simp [Function.comp_def, hvalue]

/-- **The format of segments whose placeholders are declared prints them.** -/
theorem formatOf_spec : ∀ {segments : List TemplateSegment},
    (∀ segment ∈ segments, segment.isPlaceholder = true → (function.findParameter segment.text).isSome = true) →
    ∃ format args, formatOf function segments = .ok (format, args) ∧ FormatPrints function segments format args
  | [], _ => ⟨[], [], rfl, .nil⟩
  | segment :: segments, hparams => by
    obtain ⟨hseg, hrest⟩ := List.forall_mem_cons.1 hparams
    obtain ⟨format, args, hformat, hprints⟩ := formatOf_spec hrest
    cases hp : segment.isPlaceholder with
    | false =>
      refine ⟨_, _, ?_, hprints.literal hp⟩
      rw [formatOf, hp, hformat]; rfl
    | true =>
      obtain ⟨parameter, hparameter⟩ := Option.isSome_iff_exists.1 (hseg hp)
      obtain ⟨index, hindex, -⟩ := indexOfParameter_ok hparameter
      refine ⟨_, _, ?_, hprints.placeholder hp hindex⟩
      rw [formatOf, hp, hindex, hformat]; rfl

/-! ## Printed lines -/

/-- A template renders with no character of its own when every value is empty. -/
theorem mem_of_mem_instantiateFrom {c : Char} : ∀ {rest : Text} {name : Option Text},
    c ∈ FunctionMeaning.instantiateFrom (fun _ => []) rest name → c ∈ rest
  | [], name, h => by cases name <;> cases h
  | c' :: rest, none, h => by
    rw [FunctionMeaning.instantiateFrom] at h
    split at h
    · exact List.mem_cons_of_mem _ (mem_of_mem_instantiateFrom h)
    · exact (List.mem_cons.1 h).elim (fun h => h ▸ List.mem_cons_self)
        (fun h => List.mem_cons_of_mem _ (mem_of_mem_instantiateFrom h))
  | c' :: rest, some name, h => by
    rw [FunctionMeaning.instantiateFrom] at h
    split at h
    · exact List.mem_cons_of_mem _ (mem_of_mem_instantiateFrom h)
    · exact List.mem_cons_of_mem _ (mem_of_mem_instantiateFrom h)

/-- An instruction that prints a template as a line, whatever arguments are bound. -/
def PrintsLine (m : Module) (function : FunctionDefinition) (template : Text) (instr : Instr) : Prop :=
  ∀ arguments locals, Fits function arguments → Binds m arguments locals → ∀ instrs locals' out,
    Execs m instrs locals locals' out →
    Execs m (instr :: instrs) locals locals' (utf8 (FunctionMeaning.line function arguments template) ++ out)

/-- A text of the pool that has no `%` is printed as it is. -/
theorem execs_printf_text {p : Pool} {content symbol : Text} {instrs : List Instr} {locals locals' : Locals} {out : Bytes}
    (hp : p.pool.lookup content = some symbol) (hm : Holds m p) (hnul : Char.ofNat 0 ∉ content) (hpercent : '%' ∉ content)
    (h : Execs m instrs locals locals' out) :
    Execs m (.printf (.address symbol) [] :: instrs) locals locals' (utf8 content ++ out) :=
  Execs.printf rfl (hm content symbol hp hnul) rfl (printed_utf8 hpercent) h

/-- **`EmitPrintf` writes a call that prints its template.** -/
theorem emitPrintf_spec (p : Pool) {template : Text} (h : TemplateOk function template) :
    ∃ instr q, emitPrintf p function template = .ok (instr, q) ∧ p.Le q ∧ instr.result = none ∧
      (Char.ofNat 0 ∉ template → ∀ m, Holds m q → PrintsLine m function template instr) := by
  obtain ⟨segments, hparse, hparams⟩ := h
  obtain ⟨format, args, hformat, hprints⟩ := formatOf_spec hparams
  refine ⟨.printf (.address (p.intern (format ++ ['\n'])).1) (args.map parameterOperand), (p.intern (format ++ ['\n'])).2,
    ?_, p.le_intern _, rfl, fun hnul m hm arguments locals hfits hbinds instrs locals' out hexec => ?_⟩
  · rw [emitPrintf, hparse]
    show (formatOf function segments >>= _) = _
    rw [hformat]; rfl
  · obtain ⟨values, hvalues, hprinted⟩ := hprints.prints m arguments locals hfits hbinds
    have hnul' : Char.ofNat 0 ∉ format ++ ['\n'] := by
      intro hmem
      rcases List.mem_append.1 hmem with hmem | hmem
      · rcases hprints.chars _ hmem with hmem | hmem
        · rw [FunctionMeaning.parse_render hparse] at hmem
          exact hnul (mem_of_mem_instantiateFrom hmem)
        · revert hmem; decide
      · revert hmem; decide
    refine Execs.printf rfl (hm _ _ (p.lookup_intern _) hnul') hvalues ?_ hexec
    have h := hprinted (utf8 ['\n']) []
    rw [List.append_nil] at h
    rw [utf8_append, h, FunctionMeaning.parse_render hparse, FunctionMeaning.line, utf8_append]
    rfl

end FunctionEmitter
end Adg
