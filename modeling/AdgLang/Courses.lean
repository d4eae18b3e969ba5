import AdgLang.Interleaving
/-!
# Courses — the courses that a program may take

What is so of a program whatever it finds: that all its commands are of a kind (`Program.Only`), that it returns
(`Program.Returns`), that it comes to a command of a kind (`Program.Comes`), and that wherever it runs a command,
something is so of how it goes on (`Program.Always`).  A step of a world starts a program, stops one or advances one
(`Interleaved.Turns`), and what is always so of the programs of the requests is so of what is left of them
(`Interleaved.Turns.always`).
-/

namespace Program

variable {ι κ σ ε α β : Type} {ok E : κ → Prop}

/-- All its commands are of a kind. -/
def Only (ok : κ → Prop) : Program ι κ σ ε α → Prop
  | .done _ => True
  | .fail _ => True
  | .access c next => (∀ k, c = some k → ok k) ∧ ∀ x s, Only ok (next x s)

/-- It does not fail. -/
def Returns : Program ι κ σ ε α → Prop
  | .done _ => True
  | .fail _ => False
  | .access _ next => ∀ x s, Returns (next x s)

/-- Unless it is stopped, it comes to a command of a kind. -/
inductive Comes (E : κ → Prop) : Program ι κ σ ε α → Prop
  | now {c : κ} {next : ι → σ → Program ι κ σ ε α} (h : E c) : Comes E (.access (some c) next)
  | later {c : Option κ} {next : ι → σ → Program ι κ σ ε α} (h : ∀ x s, Comes E (next x s)) : Comes E (.access c next)

/-- Wherever it runs a command, `T` holds of the command, of what it finds, and of what is left of the program. -/
def Always (T : κ → ι → σ → Program ι κ σ ε α → Prop) : Program ι κ σ ε α → Prop
  | .done _ => True
  | .fail _ => True
  | .access c next => ∀ x s, (∀ k, c = some k → T k x s (next x s)) ∧ Always T (next x s)

/-! ## Programs of one kind of command -/

theorem Only.bind {p : Program ι κ σ ε α} {k : α → Program ι κ σ ε β} (h : p.Only ok) (hk : ∀ a, (k a).Only ok) :
    (p.bind k).Only ok := by
  induction p with
  | done a => exact hk a
  | fail e => trivial
  | access c next ih => exact ⟨h.1, fun x s => ih x s (h.2 x s)⟩

theorem Only.handle {p : Program ι κ σ ε α} {k : ε → Program ι κ σ ε α} (h : p.Only ok) (hk : ∀ e, (k e).Only ok) :
    (p.handle k).Only ok := by
  induction p with
  | done a => trivial
  | fail e => exact hk e
  | access c next ih => exact ⟨h.1, fun x s => ih x s (h.2 x s)⟩

theorem Only.read {f : σ → α} : (Program.read f : Program ι κ σ ε α).Only ok := ⟨nofun, fun _ _ => trivial⟩

theorem Only.input : (Program.input : Program ι κ σ ε ι).Only ok := ⟨nofun, fun _ _ => trivial⟩

theorem Only.perform {c : κ} {report : ι → σ → α} (h : ok c) : (Program.perform c report : Program ι κ σ ε α).Only ok :=
  ⟨fun _ hk => Option.some.inj hk ▸ h, fun _ _ => trivial⟩

theorem Only.throwIf {c : Bool} {e : ε} : (Program.throwIf c e : Program ι κ σ ε Unit).Only ok := by
  cases c <;> trivial

theorem Only.each {items : List β} {p : β → Program ι κ σ ε Unit} (h : ∀ b ∈ items, (p b).Only ok) :
    (Program.each items p).Only ok := by
  induction items with
  | nil => trivial
  | cons b items ih => exact (h b (by simp)).bind (fun _ => ih (fun b' hb' => h b' (List.mem_cons_of_mem _ hb')))

theorem Only.mono {ok' : κ → Prop} (hok : ∀ k, ok k → ok' k) {p : Program ι κ σ ε α} (h : p.Only ok) : p.Only ok' := by
  induction p with
  | done a => trivial
  | fail e => trivial
  | access c next ih => exact ⟨fun k hk => hok k (h.1 k hk), fun x s => ih x s (h.2 x s)⟩

/-- A program whose commands may be run anywhere obeys. -/
theorem Only.obeys {D : Discipline ι κ σ} (hok : ∀ k s, ok k → D.Fact k s) {p : Program ι κ σ ε α} (h : p.Only ok) :
    p.Obeys D (fun _ => True) (fun _ _ => True) := by
  induction p with
  | done a => exact fun _ _ _ => trivial
  | fail e => trivial
  | access c next ih =>
    exact fun x s _ _ => ⟨fun k hk => hok k s (h.1 k hk), fun _ => True, .true, trivial, ih x s (h.2 x s)⟩

/-! ## Programs that come to a command -/

theorem Returns.bind {p : Program ι κ σ ε α} {k : α → Program ι κ σ ε β} (h : p.Returns) (hk : ∀ a, (k a).Returns) :
    (p.bind k).Returns := by
  induction p with
  | done a => exact hk a
  | fail e => exact h.elim
  | access c next ih => exact fun x s => ih x s (h x s)

theorem Comes.bind {p : Program ι κ σ ε α} {k : α → Program ι κ σ ε β} (h : p.Comes E) : (p.bind k).Comes E := by
  induction h with
  | now h => exact .now h
  | later _ ih => exact .later ih

/-- What is bound to a program that returns is come to. -/
theorem Comes.of_returns {p : Program ι κ σ ε α} {k : α → Program ι κ σ ε β} (h : p.Returns) (hk : ∀ a, (k a).Comes E) :
    (p.bind k).Comes E := by
  induction p with
  | done a => exact hk a
  | fail e => exact h.elim
  | access c next ih => exact .later (fun x s => ih x s (h x s))

/-! ## What is always so -/

theorem Only.always {T : κ → ι → σ → Program ι κ σ ε α → Prop} (hT : ∀ k x s q, ok k → T k x s q)
    {p : Program ι κ σ ε α} (h : p.Only ok) : p.Always T := by
  induction p with
  | done a => trivial
  | fail e => trivial
  | access c next ih => exact fun x s => ⟨fun k hk => hT k x s _ (h.1 k hk), ih x s (h.2 x s)⟩

theorem Always.read {T : κ → ι → σ → Program ι κ σ ε α → Prop} {f : σ → α} : (Program.read f).Always T :=
  fun _ _ => ⟨nofun, trivial⟩

theorem Always.bind {T : κ → ι → σ → Program ι κ σ ε β → Prop} {p : Program ι κ σ ε α}
    {k : α → Program ι κ σ ε β} (h : p.Always (fun c x s q => T c x s (q.bind k))) (hk : ∀ a, (k a).Always T) :
    (p.bind k).Always T := by
  induction p with
  | done a => exact hk a
  | fail e => trivial
  | access c next ih => exact fun x s => ⟨(h x s).1, ih x s (h x s).2⟩

theorem Always.each {T : κ → ι → σ → Program ι κ σ ε Unit → Prop} {items : List β} {p : β → Program ι κ σ ε Unit}
    (h : ∀ b ∈ items, ∀ rest : Unit → Program ι κ σ ε Unit, (p b).Always (fun c x s q => T c x s (q.bind rest))) :
    (Program.each items p).Always T := by
  induction items with
  | nil => trivial
  | cons b items ih =>
    exact Always.bind (h b (by simp) _) (fun _ => ih (fun b' hb' => h b' (List.mem_cons_of_mem _ hb')))

end Program

/-! ## Worlds -/

namespace Interleaved

variable {ι κ σ ε ρ : Type} {D : Discipline ι κ σ} {programOf : ρ → Program ι κ σ ε Unit}

/-- What a step does to the programs, the store and the log. -/
inductive Turns (D : Discipline ι κ σ) (programOf : ρ → Program ι κ σ ε Unit) (w w' : Interleaved ι κ σ ε ρ) :
    Action ι ρ → Prop
  | started (request : ρ) (hprograms : w'.programs = w.programs ++ [(request, programOf request)])
      (hstore : w'.store = w.store) (hlog : w'.log = w.log) : Turns D programOf w w' (.start request)
  | stopped (i : Nat) (p : ρ × Program ι κ σ ε Unit) (hp : w.programs[i]? = some p)
      (hprograms : w'.programs = w.programs.set i (p.1, .done ())) (hstore : w'.store = w.store)
      (hlog : w'.log = w.log) : Turns D programOf w w' (.stop i)
  | advanced (i : Nat) (x : ι) (request : ρ) (c : Option κ) (next : ι → σ → Program ι κ σ ε Unit)
      (hp : w.programs[i]? = some (request, .access c next))
      (hprograms : w'.programs = w.programs.set i (request, next x w.store)) (hstore : w'.store = D.run x c w.store)
      (hlog : w'.log = w.log ++ (c.map (fun c => ⟨i, x, c, w.store⟩)).toList) : Turns D programOf w w' (.advance i x)

theorem turns_of_step {w w' : Interleaved ι κ σ ε ρ} {a : Action ι ρ} (hs : w.step D programOf a = some w') :
    Turns D programOf w w' a := by
  cases a with
  | start request =>
    obtain rfl := Option.some.inj hs
    exact .started request rfl rfl rfl
  | stop i =>
    simp only [step] at hs
    split at hs
    · rename_i request p hp
      obtain rfl := Option.some.inj hs
      exact .stopped i (request, p) hp rfl rfl rfl
    · cases hs
  | advance i x =>
    simp only [step] at hs
    split at hs
    · rename_i request c next hp
      obtain rfl := Option.some.inj hs
      exact .advanced i x request c next hp rfl rfl rfl
    · cases hs

/-- **What is always so of the programs of the requests is so of what is left of them.** -/
theorem Turns.always {T : ρ → κ → ι → σ → Program ι κ σ ε Unit → Prop} (hprograms : ∀ r, (programOf r).Always (T r))
    {w w' : Interleaved ι κ σ ε ρ} {a : Action ι ρ} (h : Turns D programOf w w' a)
    (hw : ∀ p ∈ w.programs, p.2.Always (T p.1)) : ∀ p ∈ w'.programs, p.2.Always (T p.1) := by
  intro p hp
  cases h with
  | started request hprograms' =>
    rw [hprograms'] at hp
    rcases List.mem_append.1 hp with hp | hp
    · exact hw p hp
    · obtain rfl := List.mem_singleton.1 hp
      exact hprograms request
  | stopped i q hq hprograms' =>
    rw [hprograms'] at hp
    rcases List.mem_or_eq_of_mem_set hp with hp | rfl
    · exact hw p hp
    · trivial
  | advanced i x request c next hq hprograms' =>
    rw [hprograms'] at hp
    rcases List.mem_or_eq_of_mem_set hp with hp | rfl
    · exact hw p hp
    · exact (hw _ (List.mem_of_getElem? hq) x w.store).2

end Interleaved
