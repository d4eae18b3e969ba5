import AdgLang.Machine
/-!
# Interleaving — programs that share a store

A program stops at every access to the store: it may run a command, which is data, and goes on with what it found.  Any
number of programs run against one store, one access at a time and in any order, and any of them may stop for good.

A discipline says which fact has to hold of the store where a command is run, and which invariant the commands then
keep.  `Program.Obeys` proves the fact of every command of a program from what the program has read, as long as what it
has read is not undone by the commands of the others (`Discipline.Stable`).  Where all programs obey, the store of a
world only ever takes steps whose facts hold (`Discipline.Kept.step`), so that an invariant is proved of the commands
alone (`Discipline.invariant`), and with it what held wherever a command was run (`Discipline.log_spec`).
-/

/-- A program over a store `σ` with commands `κ`; an access finds an input from outside and the store before it. -/
inductive Program (ι κ σ ε α : Type) : Type
  | done (a : α)
  | fail (e : ε)
  | access (c : Option κ) (next : ι → σ → Program ι κ σ ε α)

namespace Program

variable {ι κ σ ε α β : Type}

def bind : Program ι κ σ ε α → (α → Program ι κ σ ε β) → Program ι κ σ ε β
  | .done a, k => k a
  | .fail e, _ => .fail e
  | .access c next, k => .access c (fun x s => (next x s).bind k)

instance : Monad (Program ι κ σ ε) where
  pure := .done
  bind := bind

/-- What the handler makes of the error that a program ends with. -/
def handle : Program ι κ σ ε α → (ε → Program ι κ σ ε α) → Program ι κ σ ε α
  | .done a, _ => .done a
  | .fail e, k => k e
  | .access c next, k => .access c (fun x s => (next x s).handle k)

instance : MonadExcept ε (Program ι κ σ ε) where
  throw := .fail
  tryCatch := handle

/-- A query. -/
def read (f : σ → α) : Program ι κ σ ε α := .access none (fun _ s => .done (f s))

/-- A value from outside the store. -/
def input : Program ι κ σ ε ι := .access none (fun x _ => .done x)

/-- A command, with what it reports of the store that it found. -/
def perform (c : κ) (report : ι → σ → α) : Program ι κ σ ε α := .access (some c) (fun x s => .done (report x s))

/-- `if (c) throw e;`. -/
def throwIf (c : Bool) (e : ε) : Program ι κ σ ε Unit := if c then .fail e else .done ()

/-- One program after the other for each item of a list. -/
def each (items : List β) (p : β → Program ι κ σ ε Unit) : Program ι κ σ ε Unit :=
  match items with
  | [] => .done ()
  | b :: items => (p b).bind (fun _ => each items p)

/-- The command that the next access runs. -/
def pending : Program ι κ σ ε α → Option κ
  | .access c _ => c
  | _ => none

end Program

/-- Which fact is to hold where a command is run, and what the commands keep. -/
structure Discipline (ι κ σ : Type) where
  exec : ι → κ → σ → σ
  Fact : κ → σ → Prop
  Inv : σ → Prop
  keeps : ∀ x c s, Inv s → Fact c s → Inv (exec x c s)

namespace Discipline

variable {ι κ σ ε α β : Type} (D : Discipline ι κ σ)

def run (x : ι) (c : Option κ) (s : σ) : σ :=
  match c with
  | none => s
  | some c => D.exec x c s

/-- No command takes it back. -/
def Stable (P : σ → Prop) : Prop := ∀ x c s, D.Inv s → D.Fact c s → P s → P (D.exec x c s)

variable {D}

theorem Stable.true : D.Stable (fun _ => True) := fun _ _ _ _ _ _ => trivial

theorem Stable.const (p : Prop) : D.Stable (fun _ => p) := fun _ _ _ _ _ h => h

theorem Stable.and {P Q : σ → Prop} (hP : D.Stable P) (hQ : D.Stable Q) : D.Stable (fun s => P s ∧ Q s) :=
  fun x c s hi hf h => ⟨hP x c s hi hf h.1, hQ x c s hi hf h.2⟩

theorem Stable.exists {γ : Type} {P : γ → σ → Prop} (hP : ∀ g, D.Stable (P g)) : D.Stable (fun s => ∃ g, P g s) :=
  fun x c s hi hf ⟨g, h⟩ => ⟨g, hP g x c s hi hf h⟩

theorem Stable.imp {p : Prop} {P : σ → Prop} (hP : p → D.Stable P) : D.Stable (fun s => p → P s) :=
  fun x c s hi hf h hp => hP hp x c s hi hf (h hp)

end Discipline

/-- Every command of the program is run where its fact holds, from stores that satisfy `P` on; a value is returned where
`Q` holds of it.  What is known between two accesses is stable. -/
def Program.Obeys {ι κ σ ε α : Type} (D : Discipline ι κ σ) :
    Program ι κ σ ε α → (σ → Prop) → (α → σ → Prop) → Prop
  | .done a, P, Q => ∀ s, D.Inv s → P s → Q a s
  | .fail _, _, _ => True
  | .access c next, P, Q => ∀ x s, D.Inv s → P s →
      (∀ w, c = some w → D.Fact w s) ∧
        ∃ P', D.Stable P' ∧ P' (D.run x c s) ∧ Program.Obeys D (next x s) P' Q

namespace Program

variable {ι κ σ ε α β : Type} {D : Discipline ι κ σ} {P P' : σ → Prop} {Q : α → σ → Prop} {R : β → σ → Prop}

theorem Obeys.weaken {p : Program ι κ σ ε α} (h : p.Obeys D P Q) (hP : ∀ s, D.Inv s → P' s → P s) :
    p.Obeys D P' Q := by
  cases p with
  | done a => exact fun s hi hs => h s hi (hP s hi hs)
  | fail e => trivial
  | access c next => exact fun x s hi hs => h x s hi (hP s hi hs)

/-- A consequence of what is known that does not speak of the store may be used from the start. -/
theorem Obeys.extract {p : Program ι κ σ ε α} {c : Prop} (hc : ∀ s, D.Inv s → P s → c) (h : c → p.Obeys D P Q) :
    p.Obeys D P Q := by
  by_cases hp : c
  · exact h hp
  · cases p with
    | done a => exact fun s hi hs => absurd (hc s hi hs) hp
    | fail e => trivial
    | access w next => exact fun x s hi hs => absurd (hc s hi hs) hp

theorem Obeys.strengthen {Q' : α → σ → Prop} {p : Program ι κ σ ε α} (hQ : ∀ a s, D.Inv s → Q a s → Q' a s) :
    ∀ {P : σ → Prop}, p.Obeys D P Q → p.Obeys D P Q' := by
  induction p with
  | done a => exact fun h s hi hs => hQ a s hi (h s hi hs)
  | fail e => exact fun _ => trivial
  | access c next ih =>
    intro P h x s hi hs
    obtain ⟨hfact, P', hstable, hpost, hnext⟩ := h x s hi hs
    exact ⟨hfact, P', hstable, hpost, ih x s hnext⟩

/-- **What holds of the first program's value is what the second may rely on.** -/
theorem Obeys.bind {p : Program ι κ σ ε α} {k : α → Program ι κ σ ε β}
    (hk : ∀ a, (k a).Obeys D (Q a) R) : ∀ {P : σ → Prop}, p.Obeys D P Q → (p.bind k).Obeys D P R := by
  induction p with
  | done a => exact fun h => (hk a).weaken h
  | fail e => exact fun _ => trivial
  | access c next ih =>
    intro P h x s hi hs
    obtain ⟨hfact, P', hstable, hpost, hnext⟩ := h x s hi hs
    exact ⟨hfact, P', hstable, hpost, ih x s hnext⟩

/-- A handler may rely on what no command takes back. -/
theorem Obeys.handle {p : Program ι κ σ ε α} {k : ε → Program ι κ σ ε α} {F : σ → Prop} (hF : D.Stable F)
    (hk : ∀ e, (k e).Obeys D F Q) : ∀ {P : σ → Prop}, p.Obeys D P Q → (∀ s, D.Inv s → P s → F s) →
      (p.handle k).Obeys D P Q := by
  induction p with
  | done a => exact fun h _ => h
  | fail e => exact fun _ hP => (hk e).weaken hP
  | access c next ih =>
    intro P h hP x s hi hs
    obtain ⟨hfact, P', hstable, hpost, hnext⟩ := h x s hi hs
    refine ⟨hfact, fun t => P' t ∧ F t, hstable.and hF, ⟨hpost, ?_⟩, ih x s (hnext.weaken (fun _ _ h => h.1))
      (fun _ _ h => h.2)⟩
    cases c with
    | none => exact hP s hi hs
    | some w => exact hF x w s hi (hfact w rfl) (hP s hi hs)

theorem Obeys.read {f : σ → α} (hQ : ∀ a, D.Stable (Q a)) (h : ∀ s, D.Inv s → P s → Q (f s) s) :
    (Program.read f : Program ι κ σ ε α).Obeys D P Q :=
  fun _ s hi hs => ⟨nofun, Q (f s), hQ _, h s hi hs, fun _ _ h => h⟩

theorem Obeys.input {Q : ι → σ → Prop} (hQ : ∀ x, D.Stable (Q x)) (h : ∀ x s, D.Inv s → P s → Q x s) :
    (Program.input : Program ι κ σ ε ι).Obeys D P Q :=
  fun x s hi hs => ⟨nofun, Q x, hQ _, h x s hi hs, fun _ _ h => h⟩

theorem Obeys.perform {c : κ} {report : ι → σ → α} (hfact : ∀ s, D.Inv s → P s → D.Fact c s)
    (hQ : ∀ a, D.Stable (Q a)) (h : ∀ x s, D.Inv s → P s → D.Fact c s → Q (report x s) (D.exec x c s)) :
    (Program.perform c report : Program ι κ σ ε α).Obeys D P Q := by
  intro x s hi hs
  refine ⟨fun w hw => ?_, Q (report x s), hQ _, h x s hi hs (hfact s hi hs), fun _ _ h => h⟩
  obtain rfl := Option.some.inj hw
  exact hfact s hi hs

/-- A query that starts a program adds what it finds to what is known. -/
theorem Obeys.bind_read {P : σ → Prop} {f : σ → α} {k : α → Program ι κ σ ε β} (hP : D.Stable P) (K : α → σ → Prop)
    (hK : ∀ a, D.Stable (K a)) (h : ∀ s, D.Inv s → P s → K (f s) s)
    (hk : ∀ a, (k a).Obeys D (fun s => P s ∧ K a s) R) : ((Program.read f).bind k).Obeys D P R :=
  Obeys.bind (Q := fun a s => P s ∧ K a s) hk (Obeys.read (fun a => hP.and (hK a)) (fun s hi hs => ⟨hs, h s hi hs⟩))

/-- A query whose answer is not relied on. -/
theorem Obeys.bind_query {P : σ → Prop} {f : σ → α} {k : α → Program ι κ σ ε β} (hP : D.Stable P)
    (hk : ∀ a, (k a).Obeys D P R) : ((Program.read f).bind k).Obeys D P R :=
  Obeys.bind (Q := fun _ s => P s) hk (Obeys.read (fun _ => hP) (fun _ _ hs => hs))

theorem Obeys.bind_input {P : σ → Prop} {k : ι → Program ι κ σ ε β} (hP : D.Stable P) (hk : ∀ x, (k x).Obeys D P R) :
    (Program.input.bind k).Obeys D P R :=
  Obeys.bind (Q := fun _ s => P s) hk (Obeys.input (fun _ => hP) (fun _ _ _ hs => hs))

theorem Obeys.throwIf {Q : Unit → σ → Prop} {c : Bool} {e : ε} (h : c = false → ∀ s, D.Inv s → P s → Q () s) :
    (Program.throwIf c e : Program ι κ σ ε Unit).Obeys D P Q := by
  cases c with
  | true => trivial
  | false => exact h rfl

theorem Obeys.bind_throwIf {P : σ → Prop} {c : Bool} {e : ε} {k : Unit → Program ι κ σ ε β}
    (hk : c = false → (k ()).Obeys D P R) : ((Program.throwIf c e).bind k).Obeys D P R := by
  cases c with
  | true => trivial
  | false => exact hk rfl

/-- A command keeps what is known, and may add to it. -/
theorem Obeys.bind_perform {P : σ → Prop} {c : κ} {report : ι → σ → α} {k : α → Program ι κ σ ε β} (hP : D.Stable P)
    (K : α → σ → Prop) (hK : ∀ a, D.Stable (K a)) (hfact : ∀ s, D.Inv s → P s → D.Fact c s)
    (h : ∀ x s, D.Inv s → P s → D.Fact c s → K (report x s) (D.exec x c s))
    (hk : ∀ a, (k a).Obeys D (fun s => P s ∧ K a s) R) : ((Program.perform c report).bind k).Obeys D P R :=
  Obeys.bind (Q := fun a s => P s ∧ K a s) hk (Obeys.perform hfact (fun a => hP.and (hK a))
    (fun x s hi hs hf => ⟨hP x c s hi hf hs, h x s hi hs hf⟩))

/-- What no command takes back holds after a program as it did before it. -/
theorem Obeys.frame {F : σ → Prop} (hF : D.Stable F) {p : Program ι κ σ ε α} :
    ∀ {P : σ → Prop}, p.Obeys D P Q → p.Obeys D (fun s => P s ∧ F s) (fun a s => Q a s ∧ F s) := by
  induction p with
  | done a => exact fun h s hi hs => ⟨h s hi hs.1, hs.2⟩
  | fail e => exact fun _ => trivial
  | access c next ih =>
    intro P h x s hi hs
    obtain ⟨hfact, P', hstable, hpost, hnext⟩ := h x s hi hs.1
    refine ⟨hfact, fun t => P' t ∧ F t, hstable.and hF, ⟨hpost, ?_⟩, ih x s hnext⟩
    cases c with
    | none => exact hs.2
    | some w => exact hF x w s hi (hfact w rfl) hs.2

/-- A call adds what is known of its result to what is known. -/
theorem Obeys.call {P P₀ : σ → Prop} {p : Program ι κ σ ε α} {k : α → Program ι κ σ ε β} (hP : D.Stable P)
    (hp : p.Obeys D P₀ Q) (hpre : ∀ s, D.Inv s → P s → P₀ s) (hk : ∀ a, (k a).Obeys D (fun s => P s ∧ Q a s) R) :
    (p.bind k).Obeys D P R :=
  Obeys.bind (fun a => (hk a).weaken (fun _ _ h => ⟨h.2, h.1⟩))
    ((hp.frame hP).weaken (fun s hi hs => ⟨hpre s hi hs, hs⟩))

theorem Obeys.each {items : List β} {p : β → Program ι κ σ ε Unit}
    (h : ∀ b ∈ items, (p b).Obeys D P (fun _ => P)) : (Program.each items p).Obeys D P (fun _ => P) := by
  induction items with
  | nil => exact fun _ _ h => h
  | cons b items ih =>
    exact Obeys.bind (fun _ => ih (fun b' hb' => h b' (List.mem_cons_of_mem _ hb'))) (h b (by simp))

end Program

/-! ## Worlds -/

/-- A command that was run: the index of its program, the input it found, the command and the store before it. -/
structure Ran (ι κ σ : Type) where
  program : Nat
  input : ι
  command : κ
  before : σ

/-- The requests, each with where its program stands, the store that they share and the commands run so far. -/
structure Interleaved (ι κ σ ε ρ : Type) where
  store : σ
  programs : List (ρ × Program ι κ σ ε Unit)
  log : List (Ran ι κ σ)

namespace Interleaved

variable {ι κ σ ε ρ : Type}

/-- A request comes in, a program makes its next access, or a program stops for good. -/
inductive Action (ι ρ : Type)
  | start (request : ρ)
  | advance (i : Nat) (x : ι)
  | stop (i : Nat)

def step (D : Discipline ι κ σ) (programOf : ρ → Program ι κ σ ε Unit) (w : Interleaved ι κ σ ε ρ) :
    Action ι ρ → Option (Interleaved ι κ σ ε ρ)
  | .start request => some { w with programs := w.programs ++ [(request, programOf request)] }
  | .advance i x =>
    match w.programs[i]? with
    | some (request, .access c next) => some {
        store := D.run x c w.store
        programs := w.programs.set i (request, next x w.store)
        log := w.log ++ (c.map (fun c => ⟨i, x, c, w.store⟩)).toList }
    | _ => none
  | .stop i =>
    match w.programs[i]? with
    | some (request, _) => some { w with programs := w.programs.set i (request, .done ()) }
    | none => none

def machine (D : Discipline ι κ σ) (programOf : ρ → Program ι κ σ ε Unit) :
    Machine (Interleaved ι κ σ ε ρ) (Action ι ρ) := ⟨step D programOf⟩

/-- Nothing has come in yet. -/
def start (s : σ) : Interleaved ι κ σ ε ρ := ⟨s, [], []⟩

/-- A condition on the commands that are run. -/
def Allows (C : ι → κ → σ → Prop) (w : Interleaved ι κ σ ε ρ) : Action ι ρ → Prop
  | .advance i x => ∀ p ∈ w.programs[i]?, ∀ c ∈ p.2.pending, C x c w.store
  | _ => True

instance decidableAllows (C : ι → κ → σ → Prop) [∀ x c s, Decidable (C x c s)] (w : Interleaved ι κ σ ε ρ) :
    ∀ a, Decidable (Allows C w a)
  | .start _ => isTrue trivial
  | .stop _ => isTrue trivial
  | .advance i x => inferInstanceAs (Decidable (∀ p ∈ w.programs[i]?, ∀ c ∈ p.2.pending, C x c w.store))

/-- What a step does to the store and to the log. -/
inductive Moves (D : Discipline ι κ σ) (w w' : Interleaved ι κ σ ε ρ) (a : Action ι ρ) : Prop
  | rests (hstore : w'.store = w.store) (hlog : w'.log = w.log)
  | runs (i : Nat) (x : ι) (p : ρ × Program ι κ σ ε Unit) (c : κ) (ha : a = .advance i x) (hp : w.programs[i]? = some p)
      (hpending : p.2.pending = some c) (hfact : D.Fact c w.store) (hstore : w'.store = D.exec x c w.store)
      (hlog : w'.log = w.log ++ [⟨i, x, c, w.store⟩])

end Interleaved

namespace Discipline

variable {ι κ σ ε ρ : Type} {D : Discipline ι κ σ} {programOf : ρ → Program ι κ σ ε Unit}

open Interleaved

/-- Every program in flight obeys, from something that is known of the store on. -/
def Kept (D : Discipline ι κ σ) (w : Interleaved ι κ σ ε ρ) : Prop :=
  D.Inv w.store ∧ ∀ p ∈ w.programs, ∃ P, D.Stable P ∧ P w.store ∧ p.2.Obeys D P (fun _ _ => True)

theorem Kept.step (hprograms : ∀ r, (programOf r).Obeys D (fun _ => True) (fun _ _ => True))
    {w w' : Interleaved ι κ σ ε ρ} {a : Action ι ρ} (h : D.Kept w) (hs : w.step D programOf a = some w') :
    D.Kept w' ∧ Moves D w w' a := by
  cases a with
  | start request =>
    obtain rfl := Option.some.inj hs
    refine ⟨⟨h.1, fun p hp => ?_⟩, .rests rfl rfl⟩
    rcases List.mem_append.1 hp with hp | hp
    · exact h.2 p hp
    · obtain rfl := List.mem_singleton.1 hp
      exact ⟨fun _ => True, Stable.true, trivial, hprograms request⟩
  | stop i =>
    simp only [Interleaved.step] at hs
    split at hs
    · obtain rfl := Option.some.inj hs
      refine ⟨⟨h.1, fun p hp => ?_⟩, .rests rfl rfl⟩
      rcases List.mem_or_eq_of_mem_set hp with hp | rfl
      · exact h.2 p hp
      · exact ⟨fun _ => True, Stable.true, trivial, fun _ _ _ => trivial⟩
    · cases hs
  | advance i x =>
    simp only [Interleaved.step] at hs
    split at hs
    · rename_i request c next hp
      obtain rfl := Option.some.inj hs
      obtain ⟨P, hstable, hpre, hobeys⟩ := h.2 _ (List.mem_of_getElem? hp)
      obtain ⟨hfact, P', hstable', hpost, hnext⟩ := hobeys x w.store h.1 hpre
      have hinv : D.Inv (D.run x c w.store) := by
        cases c with
        | none => exact h.1
        | some c => exact D.keeps x c w.store h.1 (hfact c rfl)
      refine ⟨⟨hinv, fun q hq => ?_⟩, ?_⟩
      · rcases List.mem_or_eq_of_mem_set hq with hq | rfl
        · obtain ⟨P₂, hstable₂, hpre₂, hobeys₂⟩ := h.2 q hq
          refine ⟨P₂, hstable₂, ?_, hobeys₂⟩
          cases c with
          | none => exact hpre₂
          | some c => exact hstable₂ x c w.store h.1 (hfact c rfl) hpre₂
        · exact ⟨P', hstable', hpost, hnext⟩
      · cases c with
        | none => exact .rests rfl (by simp)
        | some c => exact .runs i x _ c rfl hp rfl (hfact c rfl) rfl (by simp)
    · cases hs

section Runs

variable {I : σ → Prop} {C : ι → κ → σ → Prop} {s₀ : σ} {w : Interleaved ι κ σ ε ρ}
  (hprograms : ∀ r, (programOf r).Obeys D (fun _ => True) (fun _ _ => True)) (hinv : D.Inv s₀) (h₀ : I s₀)
  (hstep : ∀ x c s, D.Inv s → D.Fact c s → C x c s → I s → I (D.exec x c s))
include hprograms hinv h₀ hstep

/-- **What held wherever a command was run**, and what holds of the store now. -/
theorem log_spec (hrun : (machine D programOf).Steps (Allows C) (Interleaved.start s₀) w) :
    D.Kept w ∧ I w.store ∧ ∀ e ∈ w.log, D.Inv e.before ∧ D.Fact e.command e.before ∧
      C e.input e.command e.before ∧ I e.before := by
  refine hrun.invariant (I := fun w => D.Kept w ∧ I w.store ∧ ∀ e ∈ w.log, D.Inv e.before ∧
    D.Fact e.command e.before ∧ C e.input e.command e.before ∧ I e.before)
    ⟨⟨hinv, fun _ hp => by cases hp⟩, h₀, fun _ he => by cases he⟩ (fun w a w' h hc hs => ?_)
  obtain ⟨hkept, hmoves⟩ := h.1.step hprograms hs
  cases hmoves with
  | rests hstore hlog => exact ⟨hkept, hstore ▸ h.2.1, hlog ▸ h.2.2⟩
  | runs i x p c ha hp hpending hfact hstore hlog =>
    subst ha
    have hC : C x c w.store := hc p hp c hpending
    refine ⟨hkept, hstore ▸ hstep x c w.store h.1.1 hfact hC h.2.1, fun e he => ?_⟩
    rw [hlog] at he
    rcases List.mem_append.1 he with he | he
    · exact h.2.2 e he
    · obtain rfl := List.mem_singleton.1 he
      exact ⟨h.1.1, hfact, hC, h.2.1⟩

/-- **An invariant of the commands is one of every run**: it is enough that each command keeps it where its fact and the
condition of the run hold. -/
theorem invariant (hrun : (machine D programOf).Steps (Allows C) (Interleaved.start s₀) w) :
    D.Inv w.store ∧ I w.store :=
  have h := log_spec hprograms hinv h₀ hstep hrun
  ⟨h.1.1, h.2.1⟩

end Runs

end Discipline
