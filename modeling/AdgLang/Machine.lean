import Mathlib.Data.List.Basic
/-!
# Machine — runs of a partial step function

A machine is a step function on states and actions, `none` where the action is not enabled.  `Steps C s t` is a run
from `s` to `t` whose every action meets `C` at the state it is taken in, so a property that holds only of the runs
which avoid some steps is an invariant of `Steps C` (`Steps.invariant`).  `run` executes a list of actions.  `Chain` says
that the events of a log carry one state to another.
-/

/-- A partial step function on states `σ` and actions `α`. -/
structure Machine (σ α : Type) where
  step : σ → α → Option σ

namespace Machine

variable {σ α : Type} (M : Machine σ α)

/-- A run from `s` whose every action meets `C` at the state before it. -/
inductive Steps (C : σ → α → Prop) (s : σ) : σ → Prop
  | refl : Steps C s s
  | snoc {t u : σ} {a : α} (h : Steps C s t) (hc : C t a) (hs : M.step t a = some u) : Steps C s u

/-- A run without a condition on its actions. -/
abbrev Reaches (s t : σ) : Prop := M.Steps (fun _ _ => True) s t

/-- The state after a list of actions. -/
def run : σ → List α → Option σ
  | s, [] => some s
  | s, a :: as => match M.step s a with
    | none => none
    | some t => run t as

variable {M} {C D : σ → α → Prop} {s t u : σ}

/-- **An invariant of the start and of every step that meets the condition holds at the end of the run.** -/
theorem Steps.invariant {I : σ → Prop} (hrun : M.Steps C s t) (h0 : I s)
    (hstep : ∀ x a y, I x → C x a → M.step x a = some y → I y) : I t := by
  induction hrun with
  | refl => exact h0
  | snoc _ hc hs ih => exact hstep _ _ _ ih hc hs

/-- **A relation between the start and the state reached, kept by every step.** -/
theorem Steps.relates {R : σ → σ → Prop} (hrun : M.Steps C s t) (h0 : R s s)
    (hstep : ∀ x a y, R s x → C x a → M.step x a = some y → R s y) : R s t :=
  hrun.invariant (I := R s) h0 hstep

theorem Steps.mono (h : ∀ x a, C x a → D x a) (hrun : M.Steps C s t) : M.Steps D s t := by
  induction hrun with
  | refl => exact .refl
  | snoc _ hc hs ih => exact .snoc ih (h _ _ hc) hs

theorem Steps.reaches (hrun : M.Steps C s t) : M.Reaches s t :=
  hrun.mono (fun _ _ _ => trivial)

theorem Steps.head {a : α} (hc : C s a) (hs : M.step s a = some t) (hrun : M.Steps C t u) : M.Steps C s u := by
  induction hrun with
  | refl => exact .snoc .refl hc hs
  | snoc _ hc' hs' ih => exact .snoc ih hc' hs'

/-- The actions of an executed run, each checked against a condition at the state before it. -/
def runMeets (M : Machine σ α) (C : σ → α → Prop) : σ → List α → Prop
  | _, [] => True
  | s, a :: as => C s a ∧ ∀ t ∈ M.step s a, M.runMeets C t as

instance decidableRunMeets (M : Machine σ α) (C : σ → α → Prop) [∀ s a, Decidable (C s a)] :
    ∀ (s : σ) (as : List α), Decidable (M.runMeets C s as)
  | _, [] => isTrue trivial
  | s, a :: as =>
    have (t : σ) : Decidable (M.runMeets C t as) := decidableRunMeets M C t as
    inferInstanceAs (Decidable (C s a ∧ ∀ t ∈ M.step s a, M.runMeets C t as))

/-- **An executed run is a run.** -/
theorem steps_of_run : ∀ {as : List α} {s t : σ}, M.run s as = some t → M.runMeets C s as → M.Steps C s t
  | [], s, t, h, _ => by
    simp only [run, Option.some.injEq] at h
    subst h; exact .refl
  | a :: as, s, t, h, hm => by
    simp only [run] at h
    cases hs : M.step s a with
    | none => rw [hs] at h; cases h
    | some x =>
      rw [hs] at h
      exact .head hm.1 hs (steps_of_run h (hm.2 x hs))

/-- The state after a list of actions, where each meets the condition at the state before it. -/
def runIf (M : Machine σ α) (C : σ → α → Prop) [∀ s a, Decidable (C s a)] : σ → List α → Option σ
  | s, [] => some s
  | s, a :: as =>
    if C s a then
      match M.step s a with
      | none => none
      | some t => M.runIf C t as
    else none

/-- **An executed run that was checked on its way is a run.** -/
theorem steps_of_runIf [∀ s a, Decidable (C s a)] : ∀ {as : List α} {s t : σ}, M.runIf C s as = some t → M.Steps C s t
  | [], s, t, h => by
    rw [runIf, Option.some.injEq] at h
    rw [h]
    exact .refl
  | a :: as, s, t, h => by
    rw [runIf] at h
    split at h
    · rename_i hc
      split at h
      · cases h
      · rename_i x hs
        exact .head hc hs (steps_of_runIf h)
    · cases h

theorem steps_of_isSome {as : List α} (h : (M.run s as).isSome) (hm : M.runMeets C s as) :
    M.Steps C s ((M.run s as).get h) :=
  steps_of_run (Option.some_get h).symm hm

theorem runMeets_true : ∀ (as : List α) (s : σ), M.runMeets (fun _ _ => True) s as
  | [], _ => trivial
  | _ :: as, _ => ⟨trivial, fun t _ => runMeets_true as t⟩

theorem reaches_of_isSome {as : List α} (h : (M.run s as).isSome) : M.Reaches s ((M.run s as).get h) :=
  steps_of_isSome h (runMeets_true as s)

end Machine

/-- The events of a log, each from `src` to `dst`, lead from one state to another. -/
def Chain {σ ε : Type} (src dst : ε → σ) : σ → List ε → σ → Prop
  | s, [], t => s = t
  | s, e :: es, t => src e = s ∧ Chain src dst (dst e) es t

theorem Chain.append {σ ε : Type} {src dst : ε → σ} : ∀ {es es' : List ε} {s t u : σ}, Chain src dst s es t →
    Chain src dst t es' u → Chain src dst s (es ++ es') u
  | [], _, _, _, _, h, h' => by
    have h : _ = _ := h
    subst h; exact h'
  | _ :: _, _, _, _, _, h, h' => ⟨h.1, Chain.append h.2 h'⟩

theorem Chain.single {σ ε : Type} {src dst : ε → σ} (e : ε) : Chain src dst (src e) [e] (dst e) := ⟨rfl, rfl⟩
