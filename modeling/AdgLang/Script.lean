import Mathlib.Data.List.Basic
/-!
# Script — programs that may throw and keep what they did

A script runs on a state and returns or throws; what it did before it threw stays done.  `Script.Triple P m Q E` says that
`m`, run where `P` holds, leaves `Q` when it returns and `E` when it throws; there is a rule for each way to build a
script, and one for a loop over a list with what holds after the items done (`Triple.each`).
-/

/-- What a program returns or throws, and the state it leaves. -/
def Script (σ ε α : Type) : Type := σ → Except ε α × σ

namespace Script

variable {σ ε α β : Type}

def bind (m : Script σ ε α) (f : α → Script σ ε β) : Script σ ε β := fun s =>
  match m s with
  | (.ok a, t) => f a t
  | (.error e, t) => (.error e, t)

instance : Monad (Script σ ε) where
  pure a := fun s => (.ok a, s)
  bind := bind

/-- The handler runs on the state that the error left. -/
def handle (m : Script σ ε α) (f : ε → Script σ ε α) : Script σ ε α := fun s =>
  match m s with
  | (.ok a, t) => (.ok a, t)
  | (.error e, t) => f e t

instance : MonadExcept ε (Script σ ε) where
  throw e := fun s => (.error e, s)
  tryCatch := handle

/-- A value of the state. -/
def read (f : σ → α) : Script σ ε α := fun s => (.ok (f s), s)

def modify (f : σ → σ) : Script σ ε Unit := fun s => (.ok (), f s)

/-- A computation that does not touch the state. -/
def lift (x : Except ε α) : Script σ ε α := fun s => (x, s)

/-- `if (c) throw e;`. -/
def throwIf (c : Bool) (e : ε) : Script σ ε Unit := if c then throw e else pure ()

/-- `if (c) m;`. -/
def onlyIf (c : Bool) (m : Script σ ε Unit) : Script σ ε Unit := if c then m else pure ()

/-- One item after the other. -/
def each (items : List β) (f : β → Script σ ε Unit) : Script σ ε Unit :=
  match items with
  | [] => pure ()
  | b :: items => do
    f b
    each items f

theorem bind_apply (m : Script σ ε α) (f : α → Script σ ε β) (s : σ) : (m >>= f) s = match m s with
    | (.ok a, t) => f a t
    | (.error e, t) => (.error e, t) := rfl

/-- Run where `P` holds, the script leaves `Q` when it returns and `E` when it throws. -/
def Triple (P : σ → Prop) (m : Script σ ε α) (Q : α → σ → Prop) (E : σ → Prop) : Prop :=
  ∀ s, P s → (∀ a t, m s = (.ok a, t) → Q a t) ∧ (∀ e t, m s = (.error e, t) → E t)

variable {P P' : σ → Prop} {Q Q' : α → σ → Prop} {R : β → σ → Prop} {E E' : σ → Prop} {m : Script σ ε α}

theorem Triple.mono (h : Triple P m Q E) (hP : ∀ s, P' s → P s) (hQ : ∀ a s, Q a s → Q' a s) (hE : ∀ s, E s → E' s) :
    Triple P' m Q' E' := fun s hs =>
  ⟨fun a t hm => hQ a t ((h s (hP s hs)).1 a t hm), fun e t hm => hE t ((h s (hP s hs)).2 e t hm)⟩

theorem Triple.pre (h : Triple P m Q E) (hP : ∀ s, P' s → P s) : Triple P' m Q E := h.mono hP (fun _ _ h => h) (fun _ h => h)

theorem Triple.pure {a : α} (h : ∀ s, P s → Q a s) : Triple P (pure a : Script σ ε α) Q E := by
  intro s hs
  refine ⟨fun b t hm => ?_, fun e t hm => ?_⟩
  · simp only [Pure.pure, Prod.mk.injEq, Except.ok.injEq] at hm
    obtain ⟨rfl, rfl⟩ := hm
    exact h _ hs
  · simp [Pure.pure] at hm

theorem Triple.throw {e : ε} (h : ∀ s, P s → E s) : Triple P (throw e : Script σ ε α) Q E := by
  intro s hs
  refine ⟨fun b t hm => ?_, fun e' t hm => ?_⟩
  · simp [MonadExcept.throw] at hm
  · simp only [MonadExcept.throw, Prod.mk.injEq, Except.error.injEq] at hm
    obtain ⟨-, rfl⟩ := hm
    exact h _ hs

/-- **One script after the other**: what the first leaves is where the second is run. -/
theorem Triple.bind {f : α → Script σ ε β} (hm : Triple P m Q E) (hf : ∀ a, Triple (Q a) (f a) R E) :
    Triple P (m >>= f) R E := by
  intro s hs
  obtain ⟨hok, herror⟩ := hm s hs
  have hbind : (m >>= f) s = Script.bind m f s := rfl
  rw [hbind, Script.bind]
  rcases hrun : m s with ⟨a | a, t⟩
  · refine ⟨fun b u h => absurd h (by simp), fun e u h => ?_⟩
    simp only [Prod.mk.injEq, Except.error.injEq] at h
    obtain ⟨-, rfl⟩ := h
    exact herror _ _ hrun
  · exact hf a t (hok a t hrun)

/-- **A handler** is run on what the error left. -/
theorem Triple.tryCatch {f : ε → Script σ ε α} (hm : Triple P m Q E) (hf : ∀ e, Triple E (f e) Q E') :
    Triple P (tryCatch m f) Q E' := by
  intro s hs
  obtain ⟨hok, herror⟩ := hm s hs
  have hhandle : MonadExcept.tryCatch m f s = Script.handle m f s := rfl
  rw [hhandle, Script.handle]
  rcases hrun : m s with ⟨a | a, t⟩
  · exact hf a t (herror a t hrun)
  · refine ⟨fun b u h => ?_, fun e u h => absurd h (by simp)⟩
    simp only [Prod.mk.injEq, Except.ok.injEq] at h
    obtain ⟨rfl, rfl⟩ := h
    exact hok _ _ hrun

theorem Triple.read {f : σ → α} (h : ∀ s, P s → Q (f s) s) : Triple P (read f : Script σ ε α) Q E := by
  intro s hs
  refine ⟨fun b t hm => ?_, fun e t hm => by simp [Script.read] at hm⟩
  simp only [Script.read, Prod.mk.injEq, Except.ok.injEq] at hm
  obtain ⟨rfl, rfl⟩ := hm
  exact h _ hs

theorem Triple.modify {f : σ → σ} {R : Unit → σ → Prop} (h : ∀ s, P s → R () (f s)) :
    Triple P (modify f : Script σ ε Unit) R E := by
  intro s hs
  refine ⟨fun b t hm => ?_, fun e t hm => by simp [Script.modify] at hm⟩
  simp only [Script.modify, Prod.mk.injEq] at hm
  obtain ⟨-, rfl⟩ := hm
  exact h _ hs

theorem Triple.lift {x : Except ε α} (hok : ∀ a s, x = .ok a → P s → Q a s) (herror : ∀ s, P s → E s) :
    Triple P (lift x : Script σ ε α) Q E := by
  intro s hs
  refine ⟨fun b t hm => ?_, fun e t hm => ?_⟩
  · simp only [Script.lift, Prod.mk.injEq] at hm
    obtain ⟨hx, rfl⟩ := hm
    exact hok b _ hx hs
  · simp only [Script.lift, Prod.mk.injEq] at hm
    obtain ⟨-, rfl⟩ := hm
    exact herror _ hs

theorem Triple.ite {c : Prop} [Decidable c] {m' : Script σ ε α} (ht : c → Triple P m Q E) (hf : ¬ c → Triple P m' Q E) :
    Triple P (if c then m else m') Q E := by
  split
  · exact ht ‹_›
  · exact hf ‹_›

theorem Triple.throwIf {c : Bool} {e : ε} {R : Unit → σ → Prop} (h : ∀ s, c = false → P s → R () s)
    (herror : ∀ s, c = true → P s → E s) : Triple P (throwIf c e : Script σ ε Unit) R E := by
  rw [Script.throwIf]
  cases c with
  | true => exact .throw (fun s hs => herror s rfl hs)
  | false => exact .pure (fun s hs => h s rfl hs)

theorem Triple.onlyIf {c : Bool} {m : Script σ ε Unit} {R : Unit → σ → Prop} (ht : c = true → Triple P m R E)
    (hf : ∀ s, c = false → P s → R () s) : Triple P (onlyIf c m) R E := by
  rw [Script.onlyIf]
  cases c with
  | true => exact ht rfl
  | false => exact .pure (fun s hs => hf s rfl hs)

/-- A fact that does not depend on the state. -/
theorem Triple.fact {φ : Prop} (h : φ → Triple P m Q E) : Triple (fun s => φ ∧ P s) m Q E := fun s hs => h hs.1 s hs.2

theorem Triple.exists {ι : Type} {P : ι → σ → Prop} (h : ∀ i, Triple (P i) m Q E) : Triple (fun s => ∃ i, P i s) m Q E :=
  fun s ⟨i, hs⟩ => h i s hs

theorem Triple.bind_lift {x : Except ε β} {f : β → Script σ ε α} (herror : ∀ s, P s → E s)
    (hf : ∀ b, x = .ok b → Triple P (f b) Q E) : Triple P (Script.lift x >>= f) Q E :=
  .bind (Q := fun b s => x = .ok b ∧ P s) (.lift (fun _ _ hx hs => ⟨hx, hs⟩) herror) (fun b => .fact (hf b))

theorem Triple.bind_throwIf {c : Bool} {e : ε} {f : Unit → Script σ ε α} (herror : ∀ s, c = true → P s → E s)
    (hf : c = false → Triple P (f ()) Q E) : Triple P (Script.throwIf c e >>= f) Q E :=
  .bind (Q := fun _ s => c = false ∧ P s) (.throwIf (fun _ hc hs => ⟨hc, hs⟩) herror) (fun _ => .fact hf)

theorem Triple.bind_modify {S : σ → Prop} {g : σ → σ} {f : Unit → Script σ ε α} (h : ∀ s, P s → S (g s))
    (hf : Triple S (f ()) Q E) : Triple P (Script.modify g >>= f) Q E :=
  .bind (Q := fun _ => S) (.modify h) (fun _ => hf)

theorem Triple.bind_read {g : σ → β} {f : β → Script σ ε α} (hf : ∀ b, Triple (fun s => g s = b ∧ P s) (f b) Q E) :
    Triple P (Script.read g >>= f) Q E := .bind (Q := fun b s => g s = b ∧ P s) (.read (fun _ hs => ⟨rfl, hs⟩)) hf

/-- **A loop over a list**, with what holds after the items done. -/
theorem Triple.each {items : List β} {f : β → Script σ ε Unit} (I : List β → σ → Prop)
    (h : ∀ pre b post, items = pre ++ b :: post → Triple (I pre) (f b) (fun _ => I (pre ++ [b])) E) :
    Triple (I []) (each items f) (fun _ => I items) E := by
  suffices hsuffix : ∀ post pre, items = pre ++ post → Triple (I pre) (Script.each post f) (fun _ => I items) E from
    hsuffix items [] rfl
  intro post
  induction post with
  | nil =>
    intro pre hitems
    rw [List.append_nil] at hitems
    exact .pure (fun s hs => hitems ▸ hs)
  | cons b post ih =>
    intro pre hitems
    exact (h pre b post hitems).bind (fun _ => ih (pre ++ [b]) (by rw [hitems, List.append_assoc]; rfl))

end Script
