import AdgLang.FunctionTypeChecker
/-!
# FunctionMeaning — what a function program says

The meaning of a program is a text: for each call its numbered line, the body with the arguments in place, the
consequence of every condition that holds, and an empty line.  Integers are taken as 32-bit words.  The meaning reads
templates by itself; `parse_render` connects it with `FunctionTemplate.Parse`, and `Accepted` is what
`FunctionTypeChecker.Check` promises of a program.
-/
namespace Adg
namespace FunctionMeaning

/-! ## Meaning -/

/-- A template from some point on, between braces with the name so far. -/
def instantiateFrom (value : Text → Text) : Text → Option Text → Text
  | [], _ => []
  | c :: rest, none => if c = '\x7b' then instantiateFrom value rest (some []) else c :: instantiateFrom value rest none
  | c :: rest, some name =>
    if c = '\x7d' then value (trim name) ++ instantiateFrom value rest none
    else instantiateFrom value rest (some (name ++ [c]))

/-- A template with the value of its name in place of each placeholder. -/
def instantiate (value : Text → Text) (template : Text) : Text := instantiateFrom value template none

/-- An integer as a 32-bit word in two's complement. -/
def word (n : Int) : Int := n.bmod (2 ^ 32)

def signedDecimal : Int → Text
  | .ofNat n => decimal n
  | .negSucc n => '-' :: decimal (n + 1)

def printed : CallArgument → Text
  | .text text => text
  | .number number => signedDecimal (word number)

/-- The argument for the first parameter of a name. -/
def argumentNamed (function : FunctionDefinition) (arguments : List CallArgument) (name : Text) : Option CallArgument :=
  ((function.parameters.zip arguments).find? (fun binding => decide (binding.1.name = name))).map Prod.snd

def value (function : FunctionDefinition) (arguments : List CallArgument) (name : Text) : Text :=
  ((argumentNamed function arguments name).map printed).getD []

def satisfies : ComparisonOperator → Int → Int → Bool
  | .greater, a, b => b < a
  | .less, a, b => a < b
  | .equal, a, b => a = b

def holds (function : FunctionDefinition) (arguments : List CallArgument) (condition : ConditionStatement) : Bool :=
  match argumentNamed function arguments condition.parameterName with
  | some (.number number) => satisfies condition.operator (word number) (word condition.value)
  | _ => false

/-- A template on a line of its own. -/
def line (function : FunctionDefinition) (arguments : List CallArgument) (template : Text) : Text :=
  instantiate (value function arguments) template ++ ['\n']

/-- The consequences of the conditions that hold, in their order. -/
def consequences (function : FunctionDefinition) (arguments : List CallArgument) (conditions : List ConditionStatement) :
    Text :=
  (conditions.filter (holds function arguments)).flatMap (fun condition => line function arguments condition.template)

def application (function : FunctionDefinition) (arguments : List CallArgument) : Text :=
  line function arguments function.bodyTemplate ++ consequences function arguments function.conditions

def numberedLine (clauseNumber : Nat) : Text := "«البند رقم ".toList ++ decimal clauseNumber ++ "»\n".toList

/-- The calls from number `clauseNumber` on. -/
def calls (program : AdgFunctionProgram) : Nat → List CallSite → Text
  | _, [] => []
  | clauseNumber, call :: rest =>
    numberedLine clauseNumber ++
      ((program.findFunction call.functionName).map (application · call.arguments)).getD [] ++ ['\n'] ++
      calls program (clauseNumber + 1) rest

/-- **The meaning of a program.** -/
def meaning (program : AdgFunctionProgram) : Text := calls program 1 program.calls

/-! ## Segments -/

/-- The text of segments, with the value of its name in place of each placeholder. -/
def render (value : Text → Text) (segments : List TemplateSegment) : Text :=
  segments.flatMap (fun segment => if segment.isPlaceholder then value segment.text else segment.text)

theorem render_flush (value : Text → Text) (literal : Text) : render value (FunctionTemplate.flush literal) = literal := by
  unfold FunctionTemplate.flush
  split
  · simp [render]
  · rename_i h
    simp only [gt_iff_lt, List.length_pos_iff, ne_eq, not_not] at h
    rw [h]; rfl

theorem render_append (value : Text → Text) (l l' : List TemplateSegment) :
    render value (l ++ l') = render value l ++ render value l' := List.flatMap_append

/-- Reading the rest of a template into segments and rendering them is instantiating it, after the literal collected. -/
theorem parseFrom_render (value : Text → Text) (template : Text) :
    ∀ (rest literal : Text) (name : Option Text) (segments : List TemplateSegment),
      FunctionTemplate.parseFrom template rest literal name = .ok segments →
      render value segments = literal ++ instantiateFrom value rest name
  | [], literal, none, segments, h => by
    cases h
    rw [render_flush, instantiateFrom, List.append_nil]
  | [], literal, some name, segments, h => by cases h
  | c :: rest, literal, none, segments, h => by
    rw [FunctionTemplate.parseFrom] at h
    rw [instantiateFrom]
    split at h
    · rename_i hc
      rw [if_pos hc]
      exact parseFrom_render value template rest literal (some []) segments h
    · rename_i hc
      rw [if_neg hc, parseFrom_render value template rest (literal ++ [c]) none segments h, List.append_assoc]
      rfl
  | c :: rest, literal, some name, segments, h => by
    rw [FunctionTemplate.parseFrom] at h
    rw [instantiateFrom]
    split at h
    · rename_i hc
      rw [if_pos hc]
      split at h
      · cases h
      · obtain ⟨segments', h', rfl⟩ := map_eq_ok.1 h
        have ih := parseFrom_render value template rest [] none segments' h'
        rw [List.nil_append] at ih
        rw [render_append, render_flush, ← ih]
        rfl
    · rename_i hc
      rw [if_neg hc]
      exact parseFrom_render value template rest literal (some (name ++ [c])) segments h

/-- **The segments of a template render to its instantiation.** -/
theorem parse_render {template : Text} {segments : List TemplateSegment}
    (h : FunctionTemplate.parse template = .ok segments) (value : Text → Text) :
    render value segments = instantiate value template :=
  parseFrom_render value template template [] none segments h

/-! ## Accepted programs -/

/-- A template that parses and names parameters only. -/
def TemplateOk (function : FunctionDefinition) (template : Text) : Prop :=
  ∃ segments, FunctionTemplate.parse template = .ok segments ∧
    ∀ segment ∈ segments, segment.isPlaceholder = true → (function.findParameter segment.text).isSome = true

/-- A condition on a number whose consequence names parameters only. -/
structure ConditionOk (function : FunctionDefinition) (condition : ConditionStatement) : Prop where
  parameter : ∃ parameter, function.findParameter condition.parameterName = some parameter ∧ parameter.type = .number
  template : TemplateOk function condition.template

structure FunctionOk (function : FunctionDefinition) : Prop where
  body : TemplateOk function function.bodyTemplate
  conditions : ∀ condition ∈ function.conditions, ConditionOk function condition

/-- Arguments of the number and the kinds the parameters have. -/
def Fits (function : FunctionDefinition) (arguments : List CallArgument) : Prop :=
  List.Forall₂ (fun parameter argument => FunctionTypeChecker.argumentHasType argument parameter.type = true)
    function.parameters arguments

/-- What the checks promise of a program. -/
structure Accepted (program : AdgFunctionProgram) : Prop where
  distinct : (program.functions.map FunctionDefinition.name).Nodup
  functions : ∀ function ∈ program.functions, FunctionOk function
  calls : ∀ call ∈ program.calls, ∃ function, program.findFunction call.functionName = some function ∧
    Fits function call.arguments

open FunctionTypeChecker

theorem requireParameter_ok {function : FunctionDefinition} {name context : Text} {parameter : FunctionParameter} :
    requireParameter function name context = .ok parameter ↔ function.findParameter name = some parameter := by
  unfold requireParameter
  split
  · rename_i h
    rw [h, Except.ok.injEq, Option.some.injEq]
  · rename_i h
    simp [h]

theorem requireParameters_ok {function : FunctionDefinition} {names : List Text} {context : Text}
    (h : requireParameters function names context = .ok ()) : ∀ name ∈ names, (function.findParameter name).isSome = true := by
  intro name hname
  obtain ⟨parameter, hp, -⟩ := bind_eq_ok.1 (forM_eq_ok.1 h name hname)
  rw [requireParameter_ok.1 hp]; rfl

theorem templateOk_of_placeholders {function : FunctionDefinition} {template context : Text} {names : List Text}
    (hnames : FunctionTemplate.placeholders template = .ok names)
    (h : requireParameters function names context = .ok ()) : TemplateOk function template := by
  obtain ⟨segments, hs, rfl⟩ := map_eq_ok.1 hnames
  refine ⟨segments, hs, fun segment hmem hp => requireParameters_ok h _ (List.mem_map_of_mem ?_)⟩
  exact List.mem_filter.2 ⟨hmem, hp⟩

theorem checkCondition_ok {function : FunctionDefinition} {condition : ConditionStatement}
    (h : checkCondition function condition = .ok ()) : ConditionOk function condition := by
  obtain ⟨parameter, hp, h⟩ := bind_eq_ok.1 h
  obtain ⟨_, ht, h⟩ := bind_eq_ok.1 h
  obtain ⟨names, hn, h⟩ := bind_eq_ok.1 h
  exact ⟨⟨parameter, requireParameter_ok.1 hp, not_not.1 (throwIf_eq_ok.1 ht)⟩, templateOk_of_placeholders hn h⟩

theorem checkFunction_ok {function : FunctionDefinition} (h : checkFunction function = .ok ()) : FunctionOk function := by
  obtain ⟨_, _, h⟩ := bind_eq_ok.1 h
  obtain ⟨names, hn, h⟩ := bind_eq_ok.1 h
  obtain ⟨_, hb, h⟩ := bind_eq_ok.1 h
  exact ⟨templateOk_of_placeholders hn hb, fun condition hc => checkCondition_ok (forM_eq_ok.1 h condition hc)⟩

theorem checkFunctions_ok : ∀ {functions : List FunctionDefinition} {seen : List Text},
    checkFunctions seen functions = .ok () →
      (∀ function ∈ functions, FunctionOk function ∧ function.name ∉ seen) ∧
      (functions.map FunctionDefinition.name).Nodup
  | [], _, _ => ⟨nofun, List.nodup_nil⟩
  | function :: functions, seen, h => by
    obtain ⟨_, hseen, h⟩ := bind_eq_ok.1 h
    obtain ⟨_, hf, h⟩ := bind_eq_ok.1 h
    obtain ⟨hall, hnodup⟩ := checkFunctions_ok h
    refine ⟨List.forall_mem_cons.2 ⟨⟨checkFunction_ok hf, throwIf_eq_ok.1 hseen⟩, fun g hg => ⟨(hall g hg).1, ?_⟩⟩, ?_⟩
    · exact fun hmem => (hall g hg).2 (List.mem_cons_of_mem _ hmem)
    · refine List.nodup_cons.2 ⟨fun hmem => ?_, hnodup⟩
      obtain ⟨g, hg, hname⟩ := List.mem_map.1 hmem
      exact (hall g hg).2 (hname ▸ List.mem_cons_self)

theorem checkArguments_ok (function : FunctionDefinition) : ∀ (index : Nat) (parameters : List FunctionParameter)
    (arguments : List CallArgument), checkArguments function index parameters arguments = .ok () →
      arguments.length = parameters.length →
      List.Forall₂ (fun parameter argument => argumentHasType argument parameter.type = true) parameters arguments
  | _, [], [], _, _ => .nil
  | _, [], _ :: _, _, hlen => by cases hlen
  | _, _ :: _, [], _, hlen => by cases hlen
  | index, parameter :: parameters, argument :: arguments, h, hlen => by
    obtain ⟨_, ht, h⟩ := bind_eq_ok.1 h
    have ht := throwIf_eq_ok.1 ht
    rw [Bool.not_eq_true', Bool.not_eq_false] at ht
    exact .cons ht (checkArguments_ok function (index + 1) parameters arguments h (Nat.succ.inj hlen))

theorem checkCall_ok {program : AdgFunctionProgram} {call : CallSite} (h : checkCall program call = .ok ()) :
    ∃ function, program.findFunction call.functionName = some function ∧ Fits function call.arguments := by
  unfold checkCall at h
  split at h
  · cases h
  · rename_i function hf
    obtain ⟨_, hlen, h⟩ := bind_eq_ok.1 h
    exact ⟨function, hf, checkArguments_ok function 0 _ _ h (not_not.1 (throwIf_eq_ok.1 hlen))⟩

/-- **A program that passes the checks is accepted.** -/
theorem check_ok {program : AdgFunctionProgram} (h : check program = .ok ()) : Accepted program := by
  obtain ⟨_, _, h⟩ := bind_eq_ok.1 h
  obtain ⟨_, hf, h⟩ := bind_eq_ok.1 h
  obtain ⟨hall, hnodup⟩ := checkFunctions_ok hf
  exact ⟨hnodup, fun function hmem => (hall function hmem).1, fun call hmem => checkCall_ok (forM_eq_ok.1 h call hmem)⟩

end FunctionMeaning
end Adg
