import Mathlib.Order.Filter.AtTopBot.Basic
/-!
# Llvm — a fragment of LLVM IR whose programs print

Modules with string constants, functions over `i32` and `ptr` parameters, calls to `printf`, signed comparisons and
branches.  A module is well formed (`Module.WellFormed`) when what it uses is defined, once and with its type.  `run`
executes `@main` of a valid module and returns what it printed; `Execs`, `Runs` and `Calls` say what
instructions, blocks and calls print once the fuel is large enough, with one rule for each form of instruction and
terminator.  An `i32` constant is read modulo 2^32.
-/
namespace Llvm

open Filter

abbrev Name := List Char

abbrev Bytes := List UInt8

def utf8 (t : List Char) : Bytes := t.flatMap String.utf8EncodeChar

/-- `%d`. -/
def decimal : Int → List Char
  | .ofNat n => Nat.toDigits 10 n
  | .negSucc n => '-' :: Nat.toDigits 10 (n + 1)

/-! ## Modules -/

inductive Ty
  | i32 | ptr
deriving DecidableEq

inductive Operand
  | named (name : Name)
  | literal (n : Int)
  | address (symbol : Name)
deriving DecidableEq

inductive Predicate
  | sgt | slt | eq
deriving DecidableEq

/-- `call i32 (ptr, ...) @printf(ptr format, args)`, `call void callee(args)`, `result = icmp predicate i32 lhs, rhs`. -/
inductive Instr
  | printf (format : Operand) (args : List (Ty × Operand))
  | call (callee : Name) (args : List (Ty × Operand))
  | icmp (result : Name) (predicate : Predicate) (lhs rhs : Operand)
deriving DecidableEq

inductive Terminator
  | br (condition : Name) (ifTrue ifFalse : Name)
  | jump (label : Name)
  | ret (value : Option (Ty × Operand))
deriving DecidableEq

structure Block where
  label : Name
  instrs : List Instr
  terminator : Terminator
deriving DecidableEq

structure Function where
  result : Option Ty
  symbol : Name
  params : List (Ty × Name)
  blocks : List Block
deriving DecidableEq

/-- `symbol = private unnamed_addr constant [length x i8] c"initializer"`. -/
structure Global where
  symbol : Name
  length : Nat
  initializer : List Char
deriving DecidableEq

/-- A module, which also declares `@printf`. -/
structure Module where
  sourceFilename : List Char
  globals : List Global
  functions : List Function
deriving DecidableEq

/-! ## Constants -/

def Operand.literals : Operand → List Int
  | .literal n => [n]
  | _ => []

@[simp] theorem Operand.literals_named (name : Name) : (Operand.named name).literals = [] := rfl

@[simp] theorem Operand.literals_literal (n : Int) : (Operand.literal n).literals = [n] := rfl

@[simp] theorem Operand.literals_address (symbol : Name) : (Operand.address symbol).literals = [] := rfl

def Instr.literals : Instr → List Int
  | .printf format args => format.literals ++ args.flatMap (fun arg => arg.2.literals)
  | .call _ args => args.flatMap (fun arg => arg.2.literals)
  | .icmp _ _ lhs rhs => lhs.literals ++ rhs.literals

@[simp] theorem Instr.literals_icmp {result : Name} {predicate : Predicate} {lhs rhs : Operand} :
    (Instr.icmp result predicate lhs rhs).literals = lhs.literals ++ rhs.literals := rfl

def Terminator.literals : Terminator → List Int
  | .ret (some value) => value.2.literals
  | _ => []

def Block.literals (b : Block) : List Int := b.instrs.flatMap Instr.literals ++ b.terminator.literals

def Function.literals (f : Function) : List Int := f.blocks.flatMap Block.literals

/-- The integer constants written in a module. -/
def Module.literals (m : Module) : List Int := m.functions.flatMap Function.literals

/-! ## Validity -/

def hexDigit (c : Char) : Option UInt8 :=
  let n := c.toNat
  if 48 ≤ n ∧ n ≤ 57 then some (UInt8.ofNat (n - 48))
  else if 65 ≤ n ∧ n ≤ 70 then some (UInt8.ofNat (n - 55))
  else if 97 ≤ n ∧ n ≤ 102 then some (UInt8.ofNat (n - 87))
  else none

/-- The bytes that the text between the quotes of `c"…"` stands for. -/
def unescape : List Char → Option Bytes
  | [] => some []
  | c :: rest =>
    if c = '"' then none
    else if c ≠ '\\' then (utf8 [c] ++ ·) <$> unescape rest
    else match rest with
      | [] => some (utf8 [c])
      | a :: rest' =>
        if a = '\\' then (utf8 [c] ++ ·) <$> unescape rest'
        else match rest' with
          | [] => (utf8 [c] ++ ·) <$> unescape (a :: [])
          | b :: rest'' => match hexDigit a, hexDigit b with
            | some hi, some lo => ((16 * hi + lo) :: ·) <$> unescape rest''
            | _, _ => (utf8 [c] ++ ·) <$> unescape (a :: b :: rest'')

/-- The content of a constant whose array type has the length of its initializer. -/
def Global.bytes (g : Global) : Option Bytes :=
  match unescape g.initializer with
  | some bytes => if bytes.length = g.length then some bytes else none
  | none => none

def Instr.result : Instr → Option Name
  | .icmp result _ _ _ => some result
  | _ => none

@[simp] theorem Instr.result_icmp {result : Name} {predicate : Predicate} {lhs rhs : Operand} :
    (Instr.icmp result predicate lhs rhs).result = some result := rfl

/-- The names a block defines. -/
def Block.names (b : Block) : List Name := b.label :: b.instrs.filterMap Instr.result

def Function.names (f : Function) : List Name := f.params.map Prod.snd ++ f.blocks.flatMap Block.names

def Module.symbols (m : Module) : List Name :=
  "@printf".toList :: (m.globals.map Global.symbol ++ m.functions.map Function.symbol)

/-- No name is defined twice and every constant has its declared length. -/
structure Module.Valid (m : Module) : Prop where
  symbols : m.symbols.Nodup
  names : ∀ f ∈ m.functions, f.names.Nodup
  globals : ∀ g ∈ m.globals, g.bytes.isSome = true

instance (m : Module) : Decidable m.Valid :=
  decidable_of_iff (m.symbols.Nodup ∧ (∀ f ∈ m.functions, f.names.Nodup) ∧ ∀ g ∈ m.globals, g.bytes.isSome = true)
    ⟨fun ⟨hs, hn, hg⟩ => ⟨hs, hn, hg⟩, fun h => ⟨h.symbols, h.names, h.globals⟩⟩

/-! ## Lines -/

/-- A line of the text of a module; comments and empty lines say nothing. -/
inductive Line
  | sourceFilename (name : List Char)
  | global (g : Global)
  | declarePrintf
  | define (result : Option Ty) (symbol : Name) (params : List (Ty × Name))
  | label (name : Name)
  | instr (instr : Instr)
  | terminator (terminator : Terminator)
  | close
  | comment (text : List Char)
  | empty
deriving DecidableEq

def Line.isCode : Line → Bool
  | .comment _ => false
  | .empty => false
  | _ => true

def Block.lines (b : Block) : List Line := .label b.label :: (b.instrs.map .instr ++ [.terminator b.terminator])

def Function.lines (f : Function) : List Line :=
  .define f.result f.symbol f.params :: (f.blocks.flatMap Block.lines ++ [.close])

def Module.lines (m : Module) : List Line :=
  .sourceFilename m.sourceFilename :: (m.globals.map .global ++ .declarePrintf :: m.functions.flatMap Function.lines)

/-! ## Well-formedness -/

/-- An operand of a type, in a function: a parameter declared with it, an integer, or the address of a constant. -/
inductive Operand.HasTy (m : Module) (f : Function) : Operand → Ty → Prop
  | named {name : Name} {ty : Ty} (h : (ty, name) ∈ f.params) : HasTy m f (.named name) ty
  | literal (n : Int) : HasTy m f (.literal n) .i32
  | address {symbol : Name} (h : symbol ∈ m.globals.map Global.symbol) : HasTy m f (.address symbol) .ptr

/-- Arguments of the types written before them. -/
def ArgsTyped (m : Module) (f : Function) (args : List (Ty × Operand)) : Prop := ∀ arg ∈ args, arg.2.HasTy m f arg.1

/-- An instruction whose operands have their types; a call passes what the signature of a function asks for. -/
inductive Instr.WellFormed (m : Module) (f : Function) : Instr → Prop
  | printf {format : Operand} {args : List (Ty × Operand)} (hformat : format.HasTy m f .ptr)
      (hargs : ArgsTyped m f args) : WellFormed m f (.printf format args)
  | call {g : Function} {args : List (Ty × Operand)} (hg : g ∈ m.functions) (hresult : g.result = none)
      (hsignature : args.map Prod.fst = g.params.map Prod.fst) (hargs : ArgsTyped m f args) :
      WellFormed m f (.call g.symbol args)
  | icmp {result : Name} {predicate : Predicate} {lhs rhs : Operand} (hlhs : lhs.HasTy m f .i32)
      (hrhs : rhs.HasTy m f .i32) : WellFormed m f (.icmp result predicate lhs rhs)

/-- The labels a function may branch to: those of the blocks after its entry. -/
def Function.targets (f : Function) : List Name := f.blocks.tail.map Block.label

/-- A terminator on a comparison of its block, whose targets exist and whose value has the type of the function. -/
inductive Terminator.WellFormed (m : Module) (f : Function) (b : Block) : Terminator → Prop
  | br {condition ifTrue ifFalse : Name} (hcondition : condition ∈ b.instrs.filterMap Instr.result)
      (hifTrue : ifTrue ∈ f.targets) (hifFalse : ifFalse ∈ f.targets) : WellFormed m f b (.br condition ifTrue ifFalse)
  | jump {label : Name} (h : label ∈ f.targets) : WellFormed m f b (.jump label)
  | ret {value : Option (Ty × Operand)} (hresult : value.map Prod.fst = f.result)
      (hvalue : ArgsTyped m f value.toList) : WellFormed m f b (.ret value)

structure Block.WellFormed (m : Module) (f : Function) (b : Block) : Prop where
  instrs : ∀ instr ∈ b.instrs, instr.WellFormed m f
  terminator : b.terminator.WellFormed m f b

structure Function.WellFormed (m : Module) (f : Function) : Prop where
  entry : f.blocks ≠ []
  blocks : ∀ b ∈ f.blocks, b.WellFormed m f

/-- Nothing is defined twice, and what is used is defined with the type it is used at. -/
structure Module.WellFormed (m : Module) : Prop where
  valid : m.Valid
  functions : ∀ f ∈ m.functions, f.WellFormed m

/-! ## Execution -/

inductive Value
  | int (n : BitVec 32)
  | ptr (symbol : Name)
  | bool (b : Bool)
deriving DecidableEq

def Value.hasTy : Value → Ty → Bool
  | .int _, .i32 => true
  | .ptr _, .ptr => true
  | _, _ => false

abbrev Locals := List (Name × Value)

def Operand.eval (locals : Locals) : Operand → Option Value
  | .named name => locals.lookup name
  | .literal n => some (.int (BitVec.ofInt 32 n))
  | .address symbol => some (.ptr symbol)

/-- The value of an argument, which has the type written before it. -/
def evalArg (locals : Locals) (arg : Ty × Operand) : Option Value :=
  match arg.2.eval locals with
  | some v => if v.hasTy arg.1 then some v else none
  | none => none

/-- The bytes before the first zero byte. -/
def cString : Bytes → Option Bytes
  | [] => none
  | b :: rest => if b = 0 then some [] else (b :: ·) <$> cString rest

/-- The C string a pointer to a constant points to. -/
def Module.string (m : Module) (symbol : Name) : Option Bytes :=
  match m.globals.find? (fun g => decide (g.symbol = symbol)) with
  | some g => g.bytes.bind cString
  | none => none

/-- The conversions `%d` and `%s`. -/
def convert (string : Name → Option Bytes) (specifier : UInt8) : Value → Option Bytes
  | .int n => if specifier = 100 then some (utf8 (decimal n.toInt)) else none
  | .ptr symbol => if specifier = 115 then string symbol else none
  | .bool _ => none

/-- What `printf` prints for a format, with the strings its pointers point to; arguments left over are not read. -/
def printed (string : Name → Option Bytes) : Bytes → List Value → Option Bytes
  | [], _ => some []
  | b :: rest, args =>
    if b ≠ 37 then (b :: ·) <$> printed string rest args
    else match rest with
      | [] => none
      | specifier :: rest =>
        if specifier = 37 then (37 :: ·) <$> printed string rest args
        else match args with
          | [] => none
          | v :: args => match convert string specifier v with
            | some bytes => (bytes ++ ·) <$> printed string rest args
            | none => none

attribute [grind =] printed

def Predicate.eval : Predicate → BitVec 32 → BitVec 32 → Bool
  | .sgt, a, b => b.slt a
  | .slt, a, b => a.slt b
  | .eq, a, b => a == b

/-- The locals after an instruction and what it printed; `call` is what a callee prints. -/
def Instr.exec (m : Module) (call : Name → List Value → Option Bytes) (locals : Locals) :
    Instr → Option (Locals × Bytes)
  | .printf format args => do
    match ← evalArg locals (.ptr, format) with
    | .ptr symbol => return (locals, ← printed m.string (← m.string symbol) (← args.mapM (evalArg locals)))
    | _ => none
  | .call callee args => do return (locals, ← call callee (← args.mapM (evalArg locals)))
  | .icmp result predicate lhs rhs => do
    match ← evalArg locals (.i32, lhs), ← evalArg locals (.i32, rhs) with
    | .int a, .int b => return ((result, .bool (predicate.eval a b)) :: locals, [])
    | _, _ => none

def execAll (m : Module) (call : Name → List Value → Option Bytes) : List Instr → Locals → Option (Locals × Bytes)
  | [], locals => some (locals, [])
  | instr :: instrs, locals => do
    let (locals, out) ← instr.exec m call locals
    let (locals, out') ← execAll m call instrs locals
    return (locals, out ++ out')

attribute [grind =] execAll

def Function.block (f : Function) (label : Name) : Option Block := f.blocks.find? (fun b => decide (b.label = label))

/-- The locals a function starts with. -/
def Function.enter (f : Function) (values : List Value) : Option Locals :=
  if values.length = f.params.length ∧ (values.zip f.params).all (fun (v, p) => v.hasTy p.1) then
    some ((f.params.map Prod.snd).zip values)
  else none

/-- A call: what the callee's entry block prints. -/
def Module.invoke (m : Module) (runBlock : Function → Block → Locals → Option Bytes) (result : Option Ty) (callee : Name)
    (values : List Value) : Option Bytes := do
  let f ← m.functions.find? (fun f => decide (f.symbol = callee))
  if f.result = result then runBlock f (← f.blocks.head?) (← f.enter values) else none

/-- What is printed from a block on, `none` where the fuel runs out or the program goes wrong. -/
def runBlock (m : Module) : Nat → Function → Block → Locals → Option Bytes
  | 0, _, _, _ => none
  | fuel + 1, f, b, locals => do
    let (locals, out) ← execAll m (m.invoke (runBlock m fuel) none) b.instrs locals
    match b.terminator with
    | .ret value => if value.map Prod.fst = f.result then some out else none
    | .jump label => (out ++ ·) <$> runBlock m fuel f (← f.block label) locals
    | .br condition ifTrue ifFalse => match locals.lookup condition with
      | some (.bool c) => (out ++ ·) <$> runBlock m fuel f (← f.block (if c then ifTrue else ifFalse)) locals
      | _ => none

attribute [grind =] runBlock

/-- What `@main` of a valid module prints. -/
def Module.run (m : Module) (fuel : Nat) : Option Bytes :=
  if m.Valid then m.invoke (runBlock m fuel) (some .i32) "@main".toList [] else none

/-! ## Rules -/

/-- A call prints `out`, given enough fuel. -/
def Calls (m : Module) (result : Option Ty) (callee : Name) (values : List Value) (out : Bytes) : Prop :=
  ∀ᶠ fuel in atTop, m.invoke (runBlock m fuel) result callee values = some out

/-- Instructions print `out`, given enough fuel. -/
def Execs (m : Module) (instrs : List Instr) (locals locals' : Locals) (out : Bytes) : Prop :=
  ∀ᶠ fuel in atTop, execAll m (m.invoke (runBlock m fuel) none) instrs locals = some (locals', out)

/-- A block and what follows it print `out`, given enough fuel. -/
def Runs (m : Module) (f : Function) (b : Block) (locals : Locals) (out : Bytes) : Prop :=
  ∀ᶠ fuel in atTop, runBlock m fuel f b locals = some out

variable {m : Module} {f : Function} {b : Block} {locals locals' locals'' : Locals} {out out' : Bytes}
  {instrs : List Instr} {values : List Value} {args : List (Ty × Operand)}

theorem Execs.nil : Execs m [] locals locals [] := Eventually.of_forall fun _ => rfl

theorem Execs.printf {format : Operand} {symbol : Name} {bytes : Bytes}
    (hformat : evalArg locals (.ptr, format) = some (.ptr symbol)) (hstring : m.string symbol = some bytes)
    (hargs : args.mapM (evalArg locals) = some values) (hprinted : printed m.string bytes values = some out)
    (h : Execs m instrs locals locals' out') :
    Execs m (.printf format args :: instrs) locals locals' (out ++ out') := by
  filter_upwards [h] with fuel h
  simp [execAll, Instr.exec, hformat, hstring, hargs, hprinted, h]

theorem Execs.call {callee : Name} (hargs : args.mapM (evalArg locals) = some values)
    (hcall : Calls m none callee values out) (h : Execs m instrs locals locals' out') :
    Execs m (.call callee args :: instrs) locals locals' (out ++ out') := by
  filter_upwards [hcall, h] with fuel hcall h
  simp [execAll, Instr.exec, hargs, hcall, h]

theorem Execs.icmp {result : Name} {predicate : Predicate} {lhs rhs : Operand} {x y : BitVec 32}
    (hlhs : evalArg locals (.i32, lhs) = some (.int x)) (hrhs : evalArg locals (.i32, rhs) = some (.int y))
    (h : Execs m instrs ((result, .bool (predicate.eval x y)) :: locals) locals' out) :
    Execs m (.icmp result predicate lhs rhs :: instrs) locals locals' out := by
  filter_upwards [h] with fuel h
  simp [execAll, Instr.exec, hlhs, hrhs, h]

theorem execAll_append (call : Name → List Value → Option Bytes) (instrs instrs' : List Instr) (locals : Locals) :
    execAll m call (instrs ++ instrs') locals = (do
      let (locals, out) ← execAll m call instrs locals
      let (locals, out') ← execAll m call instrs' locals
      return (locals, out ++ out')) := by
  induction instrs generalizing locals with
  | nil => simp [execAll]
  | cons instr instrs ih =>
    simp only [List.cons_append, execAll, ih]
    cases instr.exec m call locals with
    | none => rfl
    | some r => cases hr : execAll m call instrs r.1 with
      | none => simp [hr]
      | some r' => cases hr' : execAll m call instrs' r'.1 <;> simp [hr, hr']

theorem Execs.append {instrs' : List Instr} (h : Execs m instrs locals locals' out)
    (h' : Execs m instrs' locals' locals'' out') : Execs m (instrs ++ instrs') locals locals'' (out ++ out') := by
  filter_upwards [h, h'] with fuel h h'
  simp [execAll_append, h, h']

/-- A block runs if it does with one unit of fuel more. -/
theorem runs_of_succ (h : ∀ᶠ fuel in atTop, runBlock m (fuel + 1) f b locals = some out) : Runs m f b locals out := by
  rw [Runs, ← map_add_atTop_eq_nat 1]
  exact h

theorem Runs.ret {value : Option (Ty × Operand)} (hb : b.terminator = .ret value)
    (hvalue : value.map Prod.fst = f.result) (h : Execs m b.instrs locals locals' out) : Runs m f b locals out := by
  apply runs_of_succ
  filter_upwards [h] with fuel h
  simp [runBlock, h, hb, hvalue]

theorem Runs.jump {label : Name} {b' : Block} (hb : b.terminator = .jump label) (hb' : f.block label = some b')
    (h : Execs m b.instrs locals locals' out) (h' : Runs m f b' locals' out') : Runs m f b locals (out ++ out') := by
  apply runs_of_succ
  filter_upwards [h, h'] with fuel h h'
  simp [runBlock, h, hb, hb', h']

theorem Runs.br_true {condition ifTrue ifFalse : Name} {b' : Block} (hb : b.terminator = .br condition ifTrue ifFalse)
    (h : Execs m b.instrs locals locals' out) (hc : locals'.lookup condition = some (.bool true))
    (hb' : f.block ifTrue = some b') (h' : Runs m f b' locals' out') : Runs m f b locals (out ++ out') := by
  apply runs_of_succ
  filter_upwards [h, h'] with fuel h h'
  simp [runBlock, h, hb, hc, hb', h']

theorem Runs.br_false {condition ifTrue ifFalse : Name} {b' : Block} (hb : b.terminator = .br condition ifTrue ifFalse)
    (h : Execs m b.instrs locals locals' out) (hc : locals'.lookup condition = some (.bool false))
    (hb' : f.block ifFalse = some b') (h' : Runs m f b' locals' out') : Runs m f b locals (out ++ out') := by
  apply runs_of_succ
  filter_upwards [h, h'] with fuel h h'
  simp [runBlock, h, hb, hc, hb', h']

theorem Calls.of_runs {callee : Name} {blocks : List Block}
    (hf : m.functions.find? (fun f => decide (f.symbol = callee)) = some f) (hblocks : f.blocks = b :: blocks)
    (hlocals : f.enter values = some locals) (h : Runs m f b locals out) :
    Calls m f.result callee values out := by
  filter_upwards [h] with fuel h
  simp [Module.invoke, hf, hblocks, hlocals, h]

theorem Module.run_of_calls (hm : m.Valid) (h : Calls m (some .i32) "@main".toList [] out) :
    ∃ bound, ∀ fuel ≥ bound, m.run fuel = some out := by
  refine eventually_atTop.1 ?_
  filter_upwards [h] with fuel h
  rw [Module.run, if_pos hm, h]

/-! ## Bytes and C strings -/

/-- **A byte below 128 in the encoding of a character is the whole of it.** -/
theorem eq_of_mem_utf8EncodeChar {c : Char} {b : UInt8} (h : b ∈ String.utf8EncodeChar c) (hb : b.toNat < 128) :
    String.utf8EncodeChar c = [b] ∧ c.toNat = b.toNat := by
  have hc : c.toNat = c.val.toNat := rfl
  simp only [String.utf8EncodeChar] at h ⊢
  split at h
  · rename_i hle
    rw [if_pos hle]
    obtain rfl : b = UInt8.ofNat c.val.toNat := by simpa using h
    have hsmall : c.val.toNat ≤ 127 := hle
    exact ⟨rfl, by rw [hc, UInt8.toNat_ofNat']; omega⟩
  · -- every byte of a longer encoding has its highest bit set
    exfalso
    split at h
    · simp only [List.mem_cons, List.not_mem_nil, or_false] at h
      rcases h with rfl | rfl <;> rw [UInt8.toNat_ofNat'] at hb <;> omega
    · split at h
      · simp only [List.mem_cons, List.not_mem_nil, or_false] at h
        rcases h with rfl | rfl | rfl <;> rw [UInt8.toNat_ofNat'] at hb <;> omega
      · simp only [List.mem_cons, List.not_mem_nil, or_false] at h
        rcases h with rfl | rfl | rfl | rfl <;> rw [UInt8.toNat_ofNat'] at hb <;> omega

@[simp] theorem utf8_nil : utf8 [] = [] := rfl

@[simp] theorem utf8_cons (c : Char) (t : List Char) : utf8 (c :: t) = String.utf8EncodeChar c ++ utf8 t := rfl

@[simp] theorem utf8_append (s t : List Char) : utf8 (s ++ t) = utf8 s ++ utf8 t := List.flatMap_append

theorem cString_append {bytes : Bytes} (h : (0 : UInt8) ∉ bytes) : cString (bytes ++ [0]) = some bytes := by
  induction bytes with
  | nil => rfl
  | cons b bytes ih =>
    have hb : b ≠ 0 := fun hb => h (by simp [hb])
    simp only [List.cons_append, cString, if_neg hb, ih (fun hmem => h (List.mem_cons_of_mem _ hmem)), Option.map_eq_map,
      Option.map_some]

/-- An ASCII character that is not in a text is not among its bytes. -/
theorem notMem_utf8 {c : Char} {t : List Char} (hc : c.toNat < 128) (h : c ∉ t) : UInt8.ofNat c.toNat ∉ utf8 t := by
  intro hmem
  obtain ⟨c', hc', hb⟩ := List.mem_flatMap.1 hmem
  have hn : (UInt8.ofNat c.toNat).toNat = c.toNat := by rw [UInt8.toNat_ofNat']; omega
  obtain ⟨-, he⟩ := eq_of_mem_utf8EncodeChar hb (by omega)
  exact h ((Char.ext (UInt32.toNat.inj (he.trans hn)) : c' = c) ▸ hc')

/-- A text without a NUL is read back from its bytes and a zero byte. -/
theorem cString_utf8 {t : List Char} (h : Char.ofNat 0 ∉ t) : cString (utf8 t ++ [0]) = some (utf8 t) :=
  cString_append (notMem_utf8 (c := Char.ofNat 0) (by decide) h)

theorem notMem_cString : ∀ {bytes string : Bytes}, cString bytes = some string → (0 : UInt8) ∉ string
  | b :: rest, string, h => by
    rw [cString] at h
    split at h
    · cases h
      exact List.not_mem_nil
    · rename_i hb
      obtain ⟨string', hrest, rfl⟩ := Option.map_eq_some_iff.1 h
      exact fun hmem => (List.mem_cons.1 hmem).elim (fun he => hb he.symm) (notMem_cString hrest)

/-- **A text is read back exactly when it has no NUL.** -/
theorem cString_utf8_iff {t : List Char} : cString (utf8 t ++ [0]) = some (utf8 t) ↔ Char.ofNat 0 ∉ t := by
  refine ⟨fun h hmem => notMem_cString h (List.mem_flatMap.2 ⟨_, hmem, ?_⟩), cString_utf8⟩
  decide

/-- A constant that is a C string and its terminator, with nothing behind it. -/
def Global.isWhole (g : Global) : Bool :=
  match g.bytes with
  | some bytes => decide ((cString bytes).map (· ++ [0]) = some bytes)
  | none => false

variable {string : Name → Option Bytes}

theorem printed_append {pre rest : Bytes} (h : (37 : UInt8) ∉ pre) :
    printed string (pre ++ rest) values = (pre ++ ·) <$> printed string rest values := by
  induction pre with
  | nil => simp
  | cons b pre ih =>
    have hb : b ≠ 37 := fun hb => h (by simp [hb])
    rw [List.cons_append, printed.eq_def]
    simp only [if_pos hb, ih (fun hmem => h (List.mem_cons_of_mem _ hmem)), List.cons_append, Option.map_eq_map,
      Option.map_map, Function.comp_def]

/-- A character other than `%` is printed as it is. -/
theorem printed_utf8EncodeChar {c : Char} (h : c ≠ '%') (rest : Bytes) :
    printed string (String.utf8EncodeChar c ++ rest) values =
      (String.utf8EncodeChar c ++ ·) <$> printed string rest values := by
  refine printed_append fun hmem => h ?_
  exact Char.ext (UInt32.toNat.inj (eq_of_mem_utf8EncodeChar hmem (by decide)).2)

/-- A text without a `%` is printed as it is. -/
theorem printed_utf8 {t : List Char} (h : '%' ∉ t) : printed string (utf8 t) values = some (utf8 t) := by
  have hpre : printed string (utf8 t ++ []) values = (utf8 t ++ ·) <$> printed string [] values :=
    printed_append (notMem_utf8 (c := '%') (by decide) h)
  rw [List.append_nil] at hpre
  rw [hpre, printed, Option.map_eq_map, Option.map_some, List.append_nil]

end Llvm
