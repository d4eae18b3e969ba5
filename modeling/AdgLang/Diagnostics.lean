import AdgLang.Fallible
import AdgLang.Text
/-!
# Diagnostics — the exceptions the compiler throws

An exception carries its diagnostic code and the message its source text composes (`RawMessage`).
-/
namespace Adg

inductive DiagnosticCode
  | unknown
  | invalidKeywordIrab | unknownArabicKeyword | mixedSurfaceSyntax | missingTextDirectionHeader | nonRtlTextDirection
  | invalidFaelCase | invalidMafulCase | invalidJarrOperand
  | missingConditionalConsequence | explanationCaseMismatch | missingInterrogativeTarget | missingNegationTarget
  | invalidOperatorArity
  | invalidSemanticFrame
  | invalidParameterType | undefinedFunctionParameter | conditionRequiresNumber | missingFunctionBody
  | undefinedFunctionCall | functionArityMismatch | functionArgumentKindMismatch | duplicateFunctionName
  | emptyFunctionProgram
deriving DecidableEq

/-- `AdgParseException`, `AdgTypeException`, and the two exceptions the runtime would raise in the emitter. -/
inductive AdgException
  | parse (code : DiagnosticCode) (message : Text)
  | type (code : DiagnosticCode) (message : Text)
  | nullReference
  | keyNotFound
deriving DecidableEq

/-- `throw new AdgParseException(code, message)`. -/
def throwParse {α : Type} (code : DiagnosticCode) (message : Text) : Except AdgException α :=
  .error (.parse code message)

/-- `throw new AdgTypeException(code, message)`. -/
def throwType {α : Type} (code : DiagnosticCode) (message : Text) : Except AdgException α :=
  .error (.type code message)

/-- `if (c) throw e`. -/
def throwIf (c : Prop) [Decidable c] (e : AdgException) : Except AdgException Unit := if c then .error e else .ok ()

@[simp] theorem throwIf_eq_ok {c : Prop} [Decidable c] {e : AdgException} {u : Unit} : throwIf c e = .ok u ↔ ¬ c := by
  unfold throwIf
  split <;> simp [*]

@[simp] theorem throwParse_ne_ok {α : Type} {code : DiagnosticCode} {message : Text} {a : α} :
    (throwParse code message : Except AdgException α) ≠ .ok a := nofun

@[simp] theorem throwType_ne_ok {α : Type} {code : DiagnosticCode} {message : Text} {a : α} :
    (throwType code message : Except AdgException α) ≠ .ok a := nofun

@[simp] theorem pure_eq_ok {α : Type} {a b : α} : (pure a : Except AdgException α) = .ok b ↔ b = a := by
  constructor
  · intro h; cases h; rfl
  · intro h; rw [h]; rfl

/-- A loop that checks every element throws on none. -/
theorem forM_eq_ok {α : Type} {f : α → Except AdgException Unit} {l : List α} :
    l.forM f = .ok () ↔ ∀ a ∈ l, f a = .ok () := by
  induction l with
  | nil => simp [List.forM]
  | cons a l ih =>
    rw [show (a :: l).forM f = f a >>= fun _ => l.forM f from rfl, bind_eq_ok, List.forall_mem_cons, ← ih]
    exact ⟨fun ⟨(), h⟩ => h, fun h => ⟨(), h⟩⟩

/-- What a computation that succeeded returned. -/
def valueOf {ε α : Type} : (x : Except ε α) → x.isOk = true → α
  | .ok a, _ => a
  | .error _, h => by cases h

theorem eq_ok_valueOf {ε α : Type} {x : Except ε α} (h : x.isOk = true) : x = .ok (valueOf x h) := by
  cases x with
  | error e => cases h
  | ok a => rfl

end Adg
