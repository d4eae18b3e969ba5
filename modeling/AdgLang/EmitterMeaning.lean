import AdgLang.EmitterText
/-!
# EmitterMeaning — the emitted module prints the meaning of the program

Each part of the emitter is shown to return, to keep the pool's symbols, and to write code that prints its part of the
meaning in any module that holds the final pool: the conditions of a function (`emitConditions_spec`), a function
(`emitFunction_spec`), the calls of `@main` (`emitCalls_spec`).  The whole module is valid, and running it prints the
meaning of the program (`compileFunctionProgram_prints`).
-/
namespace Adg
namespace FunctionEmitter

open Llvm
open FunctionMeaning (TemplateOk ConditionOk FunctionOk Fits Accepted argumentNamed satisfies word holds consequences
  application meaning)

/-! ## Names of a function -/

/-- The names that one condition defines. -/
def conditionNames (index : Nat) : List Text := [cmpName index, thenLabel index, contLabel index]

theorem conditionNames_disjoint {i j : Nat} (h : i ≠ j) : List.Disjoint (conditionNames i) (conditionNames j) := by
  have hd : decimal i ≠ decimal j := fun he => h (decimal_injective he)
  intro name hi hj
  simp only [conditionNames, List.mem_cons, List.not_mem_nil, or_false] at hi hj
  rcases hi with rfl | rfl | rfl <;> simp [cmpName, thenLabel, contLabel, hd] at hj

theorem nodup_conditionNames (k n : Nat) : ((List.range' k n).flatMap conditionNames).Nodup := by
  rw [List.nodup_flatMap]
  refine ⟨fun index _ => by simp [conditionNames, cmpName, thenLabel, contLabel], ?_⟩
  exact (show (List.range' k n).Nodup from List.nodup_range').imp conditionNames_disjoint

theorem parameterName_injective : Function.Injective parameterName := fun _ _ h =>
  decimal_injective (List.cons.inj h).2

/-- The names of a function with `n` parameters and `k` conditions are distinct. -/
theorem nodup_functionNames (n k : Nat) :
    ((List.range n).map parameterName ++ "entry".toList :: (List.range' 0 k).flatMap conditionNames).Nodup := by
  refine List.nodup_append'.2 ⟨List.nodup_range.map parameterName_injective, List.nodup_cons.2 ⟨?_,
    nodup_conditionNames 0 k⟩, ?_⟩
  · intro hmem
    obtain ⟨index, -, hmem⟩ := List.mem_flatMap.1 hmem
    simp [conditionNames, cmpName, thenLabel, contLabel] at hmem
  · intro name hp hc
    obtain ⟨index, -, rfl⟩ := List.mem_map.1 hp
    rcases List.mem_cons.1 hc with hc | hc
    · simp [parameterName] at hc
    · obtain ⟨index', -, hc⟩ := List.mem_flatMap.1 hc
      simp [conditionNames, parameterName, cmpName, thenLabel, contLabel] at hc

/-- In a function whose names are distinct, a block is found under its label. -/
theorem block_of_nodup {f : Llvm.Function} (h : f.names.Nodup) {b : Block} (hb : b ∈ f.blocks) : f.block b.label = some b := by
  have hsub : (f.blocks.map Block.label).Sublist f.names := by
    refine List.Sublist.trans ?_ (List.sublist_append_right _ _)
    induction f.blocks with
    | nil => exact .slnil
    | cons b blocks ih =>
      rw [List.map_cons, List.flatMap_cons]
      exact .cons_cons _ (ih.trans (List.sublist_append_right _ _))
  exact (show Table.Keyed Block.label f.blocks from h.sublist hsub).lookup_eq_some_iff.2 ⟨hb, rfl⟩

/-! ## Conditions -/

/-- **The emitted comparison is the comparison of the 32-bit words.** -/
theorem comparison_eval (operator : ComparisonOperator) (a b : Int) :
    (comparison operator).eval (BitVec.ofInt 32 a) (BitVec.ofInt 32 b) = satisfies operator (word a) (word b) := by
  have ha : (BitVec.ofInt 32 a).toInt = word a := BitVec.toInt_ofInt ..
  have hb : (BitVec.ofInt 32 b).toInt = word b := BitVec.toInt_ofInt ..
  cases operator with
  | greater => rw [← ha, ← hb]; rfl
  | less => rw [← ha, ← hb]; rfl
  | equal =>
    rw [← ha, ← hb]
    exact decide_eq_decide.2 BitVec.toInt_inj.symm

variable {function : FunctionDefinition}

theorem consequences_cons (arguments : List CallArgument) (condition : ConditionStatement)
    (conditions : List ConditionStatement) : consequences function arguments (condition :: conditions) =
      (if holds function arguments condition then FunctionMeaning.line function arguments condition.template else []) ++
        consequences function arguments conditions := by
  rw [consequences, List.filter_cons]
  split <;> simp [consequences]

/-- Blocks that start with the block open and print the consequences of the conditions after it. -/
structure BlocksPrint (function : FunctionDefinition) (k : Nat) (label : Text) (instrs : List Instr)
    (conditions : List ConditionStatement) (q : Pool) (b : Block) (blocks : List Block) : Prop where
  label_eq : b.label = label
  names_eq : (b :: blocks).flatMap Block.names =
    label :: instrs.filterMap Instr.result ++ (List.range' k conditions.length).flatMap conditionNames
  runs : (∀ condition ∈ conditions, Char.ofNat 0 ∉ condition.template) → ∀ m, Holds m q → ∀ f : Llvm.Function,
    f.result = none → (∀ b' ∈ b :: blocks, f.block b'.label = some b') →
    ∀ arguments locals locals' out, Fits function arguments → Binds m arguments locals' →
      Execs m instrs locals locals' out → Runs m f b locals (out ++ utf8 (consequences function arguments conditions))

theorem BlocksPrint.nil (k : Nat) (label : Text) (instrs : List Instr) (q : Pool) :
    BlocksPrint function k label instrs [] q ⟨label, instrs, .ret none⟩ [] where
  label_eq := rfl
  names_eq := by simp [Block.names]
  runs _ m _ f hf _ arguments locals locals' out _ _ h := by
    have hc : out ++ utf8 (consequences function arguments []) = out := List.append_nil out
    rw [hc]
    exact Runs.ret rfl hf.symm h

/-- The comparison of a condition leaves its truth under its name and the parameters where they were. -/
theorem execs_icmp {m : Module} {condition : ConditionStatement} {index : Fin function.parameters.length} {k : Nat}
    {arguments : List CallArgument} {locals : Locals} (hnumber : (function.parameters.get index).type = .number)
    (hindex : indexOfParameter function condition.parameterName = .ok index) (hfits : Fits function arguments)
    (hbinds : Binds m arguments locals) :
    ∃ locals', locals'.lookup (cmpName k) = some (.bool (holds function arguments condition)) ∧ Binds m arguments locals' ∧
      Execs m [.icmp (cmpName k) (comparison condition.operator) (.named (parameterName index))
        (.literal condition.value)] locals locals' [] := by
  obtain ⟨argument, harg, hnamed, htype⟩ := argumentNamed_of_index hfits hindex
  obtain ⟨v, hv, hden⟩ := hbinds index argument harg
  rw [hnumber] at htype
  cases hden with
  | text _ => cases htype
  | number n =>
    have hholds : holds function arguments condition =
        (comparison condition.operator).eval (BitVec.ofInt 32 n) (BitVec.ofInt 32 condition.value) := by
      rw [comparison_eval, holds, hnamed]
    refine ⟨(cmpName k, .bool (holds function arguments condition)) :: locals, List.lookup_cons_self, ?_, ?_⟩
    · intro i argument' ha
      obtain ⟨v', hv', hden'⟩ := hbinds i argument' ha
      have hne : (parameterName i == cmpName k) = false := by simp [parameterName, cmpName]
      exact ⟨v', by rw [List.lookup_cons, hne]; exact hv', hden'⟩
    · rw [hholds]
      refine Execs.icmp (x := BitVec.ofInt 32 n) (y := BitVec.ofInt 32 condition.value) ?_ rfl Execs.nil
      simp [evalArg, Operand.eval, hv, Value.hasTy]

/-- **One condition**: its comparison ends the block open, and its consequence is in a block of its own. -/
theorem BlocksPrint.cons {k : Nat} {label : Text} {instrs : List Instr} {condition : ConditionStatement}
    {conditions : List ConditionStatement} {q : Pool} {b : Block} {blocks : List Block} {consequence : Instr}
    {index : Fin function.parameters.length} (h : BlocksPrint function (k + 1) (contLabel k) [] conditions q b blocks)
    (hnumber : (function.parameters.get index).type = .number)
    (hindex : indexOfParameter function condition.parameterName = .ok index) (hresult : consequence.result = none)
    (hprints : Char.ofNat 0 ∉ condition.template → ∀ m, Holds m q → PrintsLine m function condition.template consequence) :
    BlocksPrint function k label instrs (condition :: conditions) q
      ⟨label, instrs ++ [.icmp (cmpName k) (comparison condition.operator) (.named (parameterName index))
        (.literal condition.value)], .br (cmpName k) (thenLabel k) (contLabel k)⟩
      (⟨thenLabel k, [consequence], .jump (contLabel k)⟩ :: b :: blocks) where
  label_eq := rfl
  names_eq := by
    have hnames := h.names_eq
    rw [List.flatMap_cons, List.flatMap_cons, hnames, List.length_cons, List.range'_succ, List.flatMap_cons]
    simp [Block.names, hresult, conditionNames]
  runs hnul m hm f hf hblocks arguments locals locals' out hfits hbinds hexec := by
    obtain ⟨hnulc, hnul⟩ := List.forall_mem_cons.1 hnul
    obtain ⟨-, hblocks⟩ := List.forall_mem_cons.1 hblocks
    obtain ⟨hthen, hblocks⟩ := List.forall_mem_cons.1 hblocks
    have hcont : f.block (contLabel k) = some b := h.label_eq ▸ hblocks b List.mem_cons_self
    obtain ⟨locals'', hcmp, hbinds', hicmp⟩ := execs_icmp (k := k) hnumber hindex hfits hbinds
    have hopen := hexec.append hicmp
    rw [List.append_nil] at hopen
    have hrest := h.runs hnul m hm f hf hblocks arguments locals'' locals'' [] hfits hbinds' Execs.nil
    rw [List.nil_append] at hrest
    rw [consequences_cons, utf8_append]
    cases hc : holds function arguments condition with
    | true =>
      have hline := hprints hnulc m hm arguments locals'' hfits hbinds' [] locals'' [] Execs.nil
      rw [List.append_nil] at hline
      rw [if_pos rfl]
      exact Runs.br_true rfl hopen (hc ▸ hcmp) hthen (Runs.jump rfl hcont hline hrest)
    | false =>
      rw [if_neg Bool.false_ne_true]
      exact Runs.br_false rfl hopen (hc ▸ hcmp) hcont hrest

/-- **The blocks of the conditions print the consequences of those that hold.** -/
theorem emitConditions_spec : ∀ (conditions : List ConditionStatement) (k : Nat) (label : Text) (instrs : List Instr)
    (p : Pool), (∀ condition ∈ conditions, ConditionOk function condition) →
      ∃ b blocks q, emitConditions function k label instrs p conditions = .ok (b :: blocks, q) ∧ p.Le q ∧
        BlocksPrint function k label instrs conditions q b blocks
  | [], k, label, instrs, p, _ => ⟨_, [], p, rfl, .refl p, .nil k label instrs p⟩
  | condition :: conditions, k, label, instrs, p, hok => by
    obtain ⟨⟨⟨parameter, hparameter, hnumber⟩, htemplate⟩, hok⟩ := List.forall_mem_cons.1 hok
    obtain ⟨index, hindex, rfl⟩ := indexOfParameter_ok hparameter
    obtain ⟨consequence, p', hemit, hle, hresult, hprints⟩ := emitPrintf_spec p htemplate
    obtain ⟨b, blocks, q, hrest, hle', hblocks⟩ := emitConditions_spec conditions (k + 1) (contLabel k) [] p' hok
    refine ⟨_, _, q, ?_, hle.trans hle', hblocks.cons hnumber hindex hresult fun hnul m hm =>
      hprints hnul m (hm.mono hle')⟩
    rw [emitConditions, hindex]
    show (emitPrintf p function condition.template >>= _) = _
    rw [hemit]
    show (emitConditions function (k + 1) (contLabel k) [] p' conditions >>= _) = _
    rw [hrest]
    rfl

/-! ## Functions -/

theorem signature_names (parameters : List FunctionParameter) :
    (signature parameters).map Prod.snd = (List.range parameters.length).map parameterName := by
  rw [signature, List.map_map, List.range_eq_range', ← List.zipIdx_map_snd 0 parameters, List.map_map]
  rfl

/-- The values of arguments that fit are of the types of the signature. -/
theorem values_hasTy {m : Module} {parameters : List FunctionParameter} {arguments : List CallArgument} {values : List Value}
    (hfits : List.Forall₂ (fun parameter argument => FunctionTypeChecker.argumentHasType argument parameter.type = true)
      parameters arguments) (hden : List.Forall₂ (Denotes m) arguments values) (k : Nat) :
    values.length = parameters.length ∧
      (values.zip ((parameters.zipIdx k).map (fun (parameter, index) => (llvmType parameter.type, parameterName index)))).all
        (fun (v, p) => v.hasTy p.1) = true := by
  induction hfits generalizing values k with
  | nil => cases hden; exact ⟨rfl, rfl⟩
  | cons ht _ ih =>
    cases hden with
    | cons hd hden =>
      obtain ⟨hlen, hall⟩ := ih hden (k + 1)
      refine ⟨by rw [List.length_cons, List.length_cons, hlen], ?_⟩
      rw [List.zipIdx_cons, List.map_cons, List.zip_cons_cons, List.all_cons, hall, Bool.and_true]
      exact hd.hasTy ht

/-- The value of a parameter is found under its name. -/
theorem lookup_parameterName {names : Nat} {values : List Value} {index k : Nat} {v : Value} (hv : values[index]? = some v)
    (hlen : values.length = names) :
    (((List.range' k names).map parameterName).zip values).lookup (parameterName (k + index)) = some v := by
  induction names generalizing values index k with
  | zero =>
    rw [List.length_eq_zero_iff.1 hlen] at hv
    cases hv
  | succ names ih =>
    cases values with
    | nil => cases hlen
    | cons value values =>
      rw [List.range'_succ, List.map_cons, List.zip_cons_cons]
      cases index with
      | zero =>
        rw [List.getElem?_cons_zero] at hv
        rw [Nat.add_zero, List.lookup_cons_self, hv]
      | succ index =>
        have hne : (parameterName (k + (index + 1)) == parameterName k) = false := by
          refine beq_false_of_ne fun he => ?_
          have := parameterName_injective he
          omega
        rw [List.lookup_cons, hne, show k + (index + 1) = k + 1 + index by omega]
        exact ih (by simpa using hv) (Nat.succ.inj hlen)

/-- A call of an emitted function starts with its arguments bound. -/
theorem enter_binds {m : Module} {arguments : List CallArgument} {values : List Value} (symbol : Text) (blocks : List Block)
    (hfits : Fits function arguments) (hden : List.Forall₂ (Denotes m) arguments values) :
    ∃ locals, Llvm.Function.enter ⟨none, symbol, signature function.parameters, blocks⟩ values = some locals ∧
      Binds m arguments locals := by
  obtain ⟨hlen, hall⟩ := values_hasTy hfits hden 0
  refine ⟨_, if_pos ⟨by simp [signature, hlen], hall⟩, fun index argument harg => ?_⟩
  obtain ⟨hi, harg⟩ := List.getElem?_eq_some_iff.1 harg
  have hi' : index < values.length := hden.length_eq ▸ hi
  refine ⟨values[index], ?_, by rw [← harg]; exact hden.get hi hi'⟩
  have h := lookup_parameterName (k := 0) (List.getElem?_eq_getElem hi') hlen
  rw [Nat.zero_add, ← List.range_eq_range'] at h
  rw [signature_names]
  exact h

/-- No NUL in a function's templates. -/
def TemplatesNoNul (function : FunctionDefinition) : Prop :=
  Char.ofNat 0 ∉ function.bodyTemplate ∧ ∀ condition ∈ function.conditions, Char.ofNat 0 ∉ condition.template

/-- A function whose call prints the application of the source function. -/
def FunctionPrints (q : Pool) (function : FunctionDefinition) (f : Llvm.Function) : Prop :=
  TemplatesNoNul function → ∀ m, Holds m q → m.functions.find? (fun g => decide (g.symbol = f.symbol)) = some f →
    ∀ arguments values, Fits function arguments → List.Forall₂ (Denotes m) arguments values →
      Calls m none f.symbol values (utf8 (application function arguments))

/-- **An emitted function prints the body and the consequences of the conditions that hold.** -/
theorem emitFunction_spec (p : Pool) (hok : FunctionOk function) (symbol : Text) :
    ∃ f q, emitFunction p function symbol = .ok (f, q) ∧ p.Le q ∧ f.symbol = symbol ∧ f.names.Nodup ∧
      FunctionPrints q function f := by
  obtain ⟨body, p', hbody, hle, hresult, hline⟩ := emitPrintf_spec p hok.body
  obtain ⟨b, blocks, q, hemit, hle', hblocks⟩ := emitConditions_spec function.conditions 0 "entry".toList [body] p'
    hok.conditions
  have hnodup : (⟨none, symbol, signature function.parameters, b :: blocks⟩ : Llvm.Function).names.Nodup := by
    have hresults : List.filterMap Instr.result [body] = [] := by simp [hresult]
    rw [Llvm.Function.names, signature_names, hblocks.names_eq, hresults, List.cons_append, List.nil_append]
    exact nodup_functionNames _ _
  refine ⟨_, q, ?_, hle.trans hle', rfl, hnodup, fun hnul m hm hfind arguments values hfits hden => ?_⟩
  · rw [emitFunction, hbody]
    show (emitConditions function 0 "entry".toList [body] p' function.conditions >>= _) = _
    rw [hemit]
    rfl
  · obtain ⟨locals, henter, hbinds⟩ := enter_binds symbol (b :: blocks) hfits hden
    have hexec := hline hnul.1 m (hm.mono hle') arguments locals hfits hbinds [] locals [] Execs.nil
    rw [List.append_nil] at hexec
    have hruns := hblocks.runs hnul.2 m hm _ rfl (fun b' hb' => block_of_nodup hnodup hb') arguments locals locals _ hfits
      hbinds hexec
    rw [← utf8_append] at hruns
    exact Calls.of_runs hfind rfl henter hruns

/-- **The symbol of a function** of distinct names is its position. -/
theorem functionSymbols_ok {functions : List FunctionDefinition} (hnodup : (functions.map FunctionDefinition.name).Nodup)
    {index : Nat} (h : functions[index]? = some function) :
    functionSymbols functions function.name = .ok (functionSymbol index) := by
  have hkeyed : Table.Keyed (fun entry : FunctionDefinition × Nat => entry.1.name) functions.zipIdx.reverse := by
    rw [Table.Keyed, List.map_reverse, List.nodup_reverse]
    have hmap : functions.zipIdx.map (fun entry => entry.1.name) = functions.map FunctionDefinition.name := by
      rw [← List.zipIdx_map_fst 0 functions, List.map_map, List.zipIdx_map_fst]
      rfl
    rwa [hmap]
  have hmem : (function, index) ∈ functions.zipIdx.reverse := by
    rw [List.mem_reverse, List.mem_zipIdx_iff_getElem?]
    exact h
  have hfind := hkeyed.lookup_eq_some_iff.2 ⟨hmem, rfl⟩
  rw [Table.lookup] at hfind
  simp only [functionSymbols, hfind]

/-- **Every function is emitted**, under the symbol of its name. -/
theorem emitFunctions_spec (program : AdgFunctionProgram) : ∀ (functions : List FunctionDefinition) (p : Pool),
    (∀ function ∈ functions, FunctionOk function ∧ ∃ symbol, functionSymbols program.functions function.name = .ok symbol) →
    ∃ definitions q, emitFunctions program p functions = .ok (definitions, q) ∧ p.Le q ∧
      List.Forall₂ (fun function f => functionSymbols program.functions function.name = .ok f.symbol ∧ f.names.Nodup ∧
        FunctionPrints q function f) functions definitions
  | [], p, _ => ⟨[], p, rfl, .refl p, .nil⟩
  | function :: functions, p, hok => by
    obtain ⟨⟨hfunction, symbol, hsymbol⟩, hok⟩ := List.forall_mem_cons.1 hok
    obtain ⟨f, p', hemit, hle, rfl, hnodup, hprints⟩ := emitFunction_spec p hfunction symbol
    obtain ⟨definitions, q, hrest, hle', hall⟩ := emitFunctions_spec program functions p' hok
    refine ⟨f :: definitions, q, ?_, hle.trans hle', .cons ⟨hsymbol, hnodup, fun hnul m hm => hprints hnul m (hm.mono hle')⟩
      hall⟩
    rw [emitFunctions, hsymbol]
    show (emitFunction p function f.symbol >>= _) = _
    rw [hemit]
    show (emitFunctions program p' functions >>= _) = _
    rw [hrest]
    rfl

/-! ## Calls -/

/-- **The operands of a call stand for its arguments.** -/
theorem emitArguments_spec : ∀ (arguments : List CallArgument) (p : Pool), p.Le (emitArguments p arguments).2 ∧
    ((∀ text, .text text ∈ arguments → Char.ofNat 0 ∉ text) → ∀ m, Holds m (emitArguments p arguments).2 →
      ∀ locals, ∃ values, (emitArguments p arguments).1.mapM (evalArg locals) = some values ∧
        List.Forall₂ (Denotes m) arguments values)
  | [], p => ⟨.refl p, fun _ _ _ _ => ⟨[], rfl, .nil⟩⟩
  | .text text :: arguments, p => by
    obtain ⟨hle, hvalues⟩ := emitArguments_spec arguments (p.intern text).2
    refine ⟨(p.le_intern text).trans hle, fun hnul m hm locals => ?_⟩
    obtain ⟨values, heval, hden⟩ := hvalues (fun t ht => hnul t (List.mem_cons_of_mem _ ht)) m hm locals
    have hstring := hm text _ (hle _ _ (p.lookup_intern text)) (hnul text List.mem_cons_self)
    refine ⟨.ptr (p.intern text).1 :: values, ?_, .cons (.text hstring) hden⟩
    rw [emitArguments, List.mapM_cons, heval]
    rfl
  | .number number :: arguments, p => by
    obtain ⟨hle, hvalues⟩ := emitArguments_spec arguments p
    refine ⟨hle, fun hnul m hm locals => ?_⟩
    obtain ⟨values, heval, hden⟩ := hvalues (fun t ht => hnul t (List.mem_cons_of_mem _ ht)) m hm locals
    refine ⟨.int (BitVec.ofInt 32 number) :: values, ?_, .cons (.number number) hden⟩
    rw [emitArguments, List.mapM_cons, heval]
    rfl

/-- A numbered line has neither a NUL nor a `%`. -/
theorem notMem_separator {c : Char} (hc : c = Char.ofNat 0 ∨ c = '%') (clauseNumber : Nat) : c ∉ separator clauseNumber := by
  intro hmem
  rcases List.mem_append.1 hmem with hmem | hmem
  · rcases List.mem_append.1 hmem with hmem | hmem
    · rcases hc with rfl | rfl <;> revert hmem <;> decide
    · have hdigit : c.isDigit = true := Nat.isDigit_of_mem_toDigits (by decide) (by decide) hmem
      rcases hc with rfl | rfl <;> revert hdigit <;> decide
  · rcases hc with rfl | rfl <;> revert hmem <;> decide

/-- A call whose function is in the module and prints its application. -/
def CallPrints (m : Module) (program : AdgFunctionProgram) (call : CallSite) : Prop :=
  (∀ text, .text text ∈ call.arguments → Char.ofNat 0 ∉ text) ∧
  ∀ function symbol, program.findFunction call.functionName = some function →
    functionSymbols program.functions function.name = .ok symbol →
    ∀ values, List.Forall₂ (Denotes m) call.arguments values →
      Calls m none symbol values (utf8 (application function call.arguments))

/-- **The calls are emitted in their order**, each with its numbered line before it and an empty line after it. -/
theorem emitCalls_spec (program : AdgFunctionProgram) (newlineSymbol : Text) : ∀ (calls : List CallSite) (clauseNumber : Nat)
    (p : Pool), p.pool.lookup ['\n'] = some newlineSymbol →
      (∀ call ∈ calls, ∃ function symbol, program.findFunction call.functionName = some function ∧
        functionSymbols program.functions function.name = .ok symbol) →
      ∃ instrs q, emitCalls program newlineSymbol clauseNumber p calls = .ok (instrs, q) ∧ p.Le q ∧
        instrs.filterMap Instr.result = [] ∧
        ∀ m, Holds m q → (∀ call ∈ calls, CallPrints m program call) → ∀ locals,
          Execs m instrs locals locals (utf8 (FunctionMeaning.calls program clauseNumber calls))
  | [], _, p, _, _ => ⟨[], p, rfl, .refl p, rfl, fun _ _ _ _ => Execs.nil⟩
  | call :: calls, clauseNumber, p, hnewline, hcalls => by
    obtain ⟨⟨function, symbol, hfind, hsymbol⟩, hcalls⟩ := List.forall_mem_cons.1 hcalls
    let p1 := (p.intern (separator clauseNumber)).2
    let p2 := (emitArguments p1 call.arguments).2
    have hle1 : p.Le p1 := p.le_intern _
    obtain ⟨hle2, hvalues⟩ := emitArguments_spec call.arguments p1
    obtain ⟨instrs, q, hemit, hle3, hresult, hexec⟩ := emitCalls_spec program newlineSymbol calls (clauseNumber + 1) p2
      (hle2 _ _ (hle1 _ _ hnewline)) hcalls
    refine ⟨.printf (.address (p.intern (separator clauseNumber)).1) [] ::
      .call symbol (emitArguments p1 call.arguments).1 :: .printf (.address newlineSymbol) [] :: instrs, q, ?_,
      (hle1.trans hle2).trans hle3, hresult, fun m hm hprints locals => ?_⟩
    · rw [emitCalls, requireFunction, hfind]
      show (functionSymbols program.functions function.name >>= _) = _
      rw [hsymbol]
      show (emitCalls program newlineSymbol (clauseNumber + 1) p2 calls >>= _) = _
      rw [hemit]
      rfl
    · obtain ⟨⟨hnul, hcall⟩, hprints⟩ := List.forall_mem_cons.1 hprints
      obtain ⟨values, heval, hden⟩ := hvalues hnul m (hm.mono hle3) locals
      have hrest := execs_printf_text (hle3 _ _ (hle2 _ _ (hle1 _ _ hnewline))) hm (by decide) (by decide)
        (hexec m hm hprints locals)
      have hline := execs_printf_text ((hle2.trans hle3) _ _ (p.lookup_intern _)) hm
        (notMem_separator (.inl rfl) clauseNumber) (notMem_separator (.inr rfl) clauseNumber)
        (Execs.call heval (hcall function symbol hfind hsymbol values hden) hrest)
      rw [FunctionMeaning.calls, hfind, show FunctionMeaning.numberedLine clauseNumber = separator clauseNumber from rfl]
      simpa only [utf8_append, List.append_assoc, Option.map_some, Option.getD_some] using hline

/-! ## The module -/

/-- No NUL in the templates and the text arguments of a program. -/
structure NoNul (program : AdgFunctionProgram) : Prop where
  templates : ∀ function ∈ program.functions, TemplatesNoNul function
  arguments : ∀ call ∈ program.calls, ∀ text, .text text ∈ call.arguments → Char.ofNat 0 ∉ text

theorem functionSymbol_injective : Function.Injective functionSymbol := fun _ _ h =>
  decimal_injective (List.append_cancel_left h)

/-- The symbols of the emitted functions are `@adg_func0`, `@adg_func1`, and so on. -/
theorem definitions_symbols {program : AdgFunctionProgram} {definitions : List Llvm.Function}
    (hnodup : (program.functions.map FunctionDefinition.name).Nodup)
    (h : List.Forall₂ (fun function (f : Llvm.Function) => functionSymbols program.functions function.name = .ok f.symbol)
      program.functions definitions) :
    definitions.map Llvm.Function.symbol = (List.range definitions.length).map functionSymbol := by
  refine List.ext_getElem (by simp) fun index hi _ => ?_
  have hd : index < definitions.length := by simpa using hi
  have hf : index < program.functions.length := h.length_eq ▸ hd
  have hsymbol := functionSymbols_ok hnodup (List.getElem?_eq_getElem hf)
  have hsymbol' : functionSymbols program.functions program.functions[index].name = .ok definitions[index].symbol := h.get hf hd
  rw [List.getElem_map, List.getElem_map, List.getElem_range]
  exact (Except.ok.inj (hsymbol.symm.trans hsymbol')).symm

theorem functionSymbol_second (index : Nat) : (functionSymbol index)[1]? = some 'a' := rfl

theorem stringSymbol_second (counter : Nat) : (stringSymbol counter)[1]? = some '.' := rfl

/-- The symbols of constants, of functions, `@printf` and `@main` are distinct: they differ in their second character. -/
theorem nodup_symbols (strings functions : Nat) :
    ("@printf".toList :: ((List.range strings).map stringSymbol ++ ((List.range functions).map functionSymbol ++
      ["@main".toList]))).Nodup := by
  have hprintf : ("@printf".toList)[1]? = some 'p' := by decide
  have hmain : ("@main".toList)[1]? = some 'm' := by decide
  have hfunctions : ∀ symbol ∈ (List.range functions).map functionSymbol, symbol[1]? = some 'a' := by
    intro symbol hs
    obtain ⟨index, -, rfl⟩ := List.mem_map.1 hs
    exact functionSymbol_second index
  have hstrings : ∀ symbol ∈ (List.range strings).map stringSymbol, symbol[1]? = some '.' := by
    intro symbol hs
    obtain ⟨counter, -, rfl⟩ := List.mem_map.1 hs
    exact stringSymbol_second counter
  have hcode : ∀ symbol ∈ (List.range functions).map functionSymbol ++ ["@main".toList],
      symbol[1]? = some 'a' ∨ symbol[1]? = some 'm' := by
    intro symbol hs
    rcases List.mem_append.1 hs with hs | hs
    · exact .inl (hfunctions symbol hs)
    · exact .inr (List.mem_singleton.1 hs ▸ hmain)
  refine List.nodup_cons.2 ⟨fun hmem => ?_, List.nodup_append'.2 ⟨List.nodup_range.map stringSymbol_injective,
    List.nodup_append'.2 ⟨List.nodup_range.map functionSymbol_injective, List.nodup_singleton _, ?_⟩, ?_⟩⟩
  · rcases List.mem_append.1 hmem with hs | hs
    · exact absurd (hprintf.symm.trans (hstrings _ hs)) (by decide)
    · rcases hcode _ hs with hs | hs <;> exact absurd (hprintf.symm.trans hs) (by decide)
  · intro symbol hs hm
    exact absurd ((hfunctions symbol hs).symm.trans (List.mem_singleton.1 hm ▸ hmain)) (by decide)
  · intro symbol hs hc
    rcases hcode symbol hc with hc | hc <;> exact absurd ((hstrings symbol hs).symm.trans hc) (by decide)

/-- **The emitted module of an accepted program is valid and prints its meaning.** -/
theorem emit_prints {program : AdgFunctionProgram} (h : Accepted program) (sourceName : Text) :
    ∃ m, emit program sourceName = .ok m ∧ m.Valid ∧
      (NoNul program → ∃ bound, ∀ fuel ≥ bound, m.run fuel = some (utf8 (meaning program))) := by
  have hindexed : ∀ function ∈ program.functions, ∃ symbol, functionSymbols program.functions function.name = .ok symbol := by
    intro function hmem
    obtain ⟨index, hi⟩ := List.getElem?_of_mem hmem
    exact ⟨_, functionSymbols_ok h.distinct hi⟩
  have hfound : ∀ {name function}, program.findFunction name = some function → function ∈ program.functions :=
    fun hf => List.mem_of_find?_eq_some hf
  obtain ⟨definitions, p, hdefs, -, hall⟩ := emitFunctions_spec program program.functions .empty
    fun function hmem => ⟨h.functions function hmem, hindexed function hmem⟩
  obtain ⟨instrs, q, hcalls, hle, hresult, hexec⟩ := emitCalls_spec program (p.intern ['\n']).1 program.calls 1
    (p.intern ['\n']).2 (p.lookup_intern _) fun call hmem => by
      obtain ⟨function, hf, -⟩ := h.calls call hmem
      obtain ⟨symbol, hs⟩ := hindexed function (hfound hf)
      exact ⟨function, symbol, hf, hs⟩
  let main : Llvm.Function := ⟨some .i32, "@main".toList, [], [⟨"entry".toList, instrs, .ret (some (.i32, .literal 0))⟩]⟩
  let m : Module := ⟨escapePlain sourceName, q.globals, definitions ++ [main]⟩
  have hsymbols : m.functions.map Llvm.Function.symbol =
      (List.range definitions.length).map functionSymbol ++ ["@main".toList] := by
    rw [List.map_append, definitions_symbols h.distinct (hall.imp fun _ _ h => h.1)]
    rfl
  have hglobals : q.globals.map Global.symbol = (List.range q.stringCounter).map stringSymbol := by
    rw [q.globals_eq, List.map_map, ← q.symbols_eq]; rfl
  have hvalid : m.Valid := by
    refine ⟨?_, ?_, ?_⟩
    · rw [Module.symbols, hglobals, hsymbols]
      exact nodup_symbols _ _
    · intro f hf
      rcases List.mem_append.1 hf with hf | hf
      · obtain ⟨i, hi, rfl⟩ := List.getElem_of_mem hf
        exact (hall.get (hall.length_eq ▸ hi) hi).2.1
      · obtain rfl := List.mem_singleton.1 hf
        simp [main, Llvm.Function.names, Block.names, hresult]
    · intro g hg
      rw [show m.globals = _ from q.globals_eq] at hg
      obtain ⟨entry, -, rfl⟩ := List.mem_map.1 hg
      rw [stringGlobal_bytes]; rfl
  have hholds : Holds m q := holds_of_globals rfl
  have hkeyed : Table.Keyed Llvm.Function.symbol m.functions := by
    have := hvalid.symbols
    rw [Module.symbols, List.nodup_cons] at this
    exact (List.nodup_append'.1 this.2).2.1
  refine ⟨m, ?_, hvalid, fun hnul => Module.run_of_calls hvalid ?_⟩
  · rw [emit, hdefs]
    show (emitMain p program >>= _) = _
    rw [emitMain]
    show ((emitCalls program (p.intern ['\n']).1 1 (p.intern ['\n']).2 program.calls >>= _) >>= _) = _
    rw [hcalls]
    rfl
  · have hcallsprint : ∀ call ∈ program.calls, CallPrints m program call := by
      intro call hmem
      refine ⟨hnul.arguments call hmem, fun function symbol hf hs values hden => ?_⟩
      obtain ⟨function', hf', hfits⟩ := h.calls call hmem
      obtain rfl : function' = function := Option.some.inj (hf'.symm.trans hf)
      obtain ⟨index, hi, hget⟩ := List.getElem_of_mem (hfound hf)
      have hi' : index < definitions.length := hall.length_eq ▸ hi
      obtain ⟨hs', -, hprints⟩ := hall.get hi hi'
      have hget' : program.functions.get ⟨index, hi⟩ = function' := hget
      rw [hget'] at hs' hprints
      obtain rfl := Except.ok.inj (hs'.symm.trans hs)
      refine hprints (hnul.templates _ (hfound hf)) m (hholds.mono ((p.le_intern _).trans hle)) ?_ _ _ hfits hden
      exact hkeyed.lookup_eq_some_iff.2 ⟨List.mem_append_left _ (List.get_mem definitions _), rfl⟩
    have hmain : m.functions.find? (fun f => decide (f.symbol = "@main".toList)) = some main :=
      hkeyed.lookup_eq_some_iff.2 ⟨List.mem_append_right _ (List.mem_singleton_self _), rfl⟩
    exact Calls.of_runs hmain rfl rfl (Runs.ret rfl rfl (hexec m hholds hcallsprint []))

/-- A function of a text and a number, with a condition on the number, called twice. -/
def greetingLines : List Text := [
  "اتجاهُ النصِّ: RTL".toList,
  "دالةٌ \"تحية\" مُعامِلاتُها \"اسم\" مرفوعٌ \"عمر\" عددٌ".toList,
  "متنٌ \"\x7bاسم\x7d: \x7b عمر \x7d%\"".toList,
  "شرطٌ \"عمر\" أكبرُ 17 جزاؤُهُ \"راشد: \x7bاسم\x7d\"".toList,
  "استدعاءٌ \"تحية\" \"زيد\" 20".toList,
  "استدعاءٌ \"تحية\" \"هند\" 9".toList]

def greeting : AdgFunctionProgram where
  functions := [⟨"تحية".toList, [⟨"اسم".toList, .text, .raf⟩, ⟨"عمر".toList, .number, .none⟩],
    "\x7bاسم\x7d: \x7b عمر \x7d%".toList, [⟨"عمر".toList, .greater, 17, "راشد: \x7bاسم\x7d".toList⟩], .text⟩]
  calls := [⟨"تحية".toList, [.text "زيد".toList, .number 20]⟩, ⟨"تحية".toList, [.text "هند".toList, .number 9]⟩]

end FunctionEmitter
end Adg
