import AdgLang.Interleaving
/-!
# Attempts — a program that fails has changed nothing

A program is clean where it fails only before it has changed anything: once a command has changed something, it only
reads, and does not fail (`Program.Clean`).  No command of a clean program that has failed has changed anything,
whatever the others did in between (`Discipline.failed_unchanged`).
-/

namespace Program

variable {ι κ σ ε α β : Type}

/-- From stores that satisfy `P` on, the program only reads and returns what satisfies `Q`; whether it may fail. -/
def Reads (P : σ → Prop) (mayFail : Prop) (Q : α → Prop) : Program ι κ σ ε α → Prop
  | .done a => Q a
  | .fail _ => mayFail
  | .access c next => c = none ∧ ∀ x s, P s → (next x s).Reads P mayFail Q

section Reads

variable {P : σ → Prop} {mayFail : Prop} {Q : α → Prop} {R : β → Prop}

theorem Reads.bind {p : Program ι κ σ ε α} {k : α → Program ι κ σ ε β} (hk : ∀ a, Q a → (k a).Reads P mayFail R)
    (h : p.Reads P mayFail Q) : (p.bind k).Reads P mayFail R := by
  induction p with
  | done a => exact hk a h
  | fail e => exact h
  | access c next ih => exact ⟨h.1, fun x s hs => ih x s (h.2 x s hs)⟩

theorem Reads.read {f : σ → α} (h : ∀ s, P s → Q (f s)) : (Program.read f : Program ι κ σ ε α).Reads P mayFail Q :=
  ⟨rfl, fun _ s hs => h s hs⟩

theorem Reads.throwIf {c : Bool} {e : ε} {Q : Unit → Prop} (hfail : c = true → mayFail) (hpass : c = false → Q ()) :
    (Program.throwIf c e : Program ι κ σ ε Unit).Reads P mayFail Q := by
  cases c with
  | true => exact hfail rfl
  | false => exact hpass rfl

theorem Reads.each {items : List β} {p : β → Program ι κ σ ε Unit}
    (h : ∀ b ∈ items, (p b).Reads P mayFail (fun _ => True)) : (Program.each items p).Reads P mayFail (fun _ => True) := by
  induction items with
  | nil => trivial
  | cons b items ih =>
    exact Reads.bind (fun _ _ => ih (fun b' hb' => h b' (List.mem_cons_of_mem _ hb'))) (h b List.mem_cons_self)

end Reads

/-- The program fails only before one of its commands has changed anything: from there on it reads, and does not fail.
`I` is an invariant of the commands that are run where `C` holds. -/
def Clean (D : Discipline ι κ σ) (I : σ → Prop) (C Changes : ι → κ → σ → Prop) : Program ι κ σ ε α → Prop
  | .done _ => True
  | .fail _ => True
  | .access none next => ∀ x s, D.Inv s → (next x s).Clean D I C Changes
  | .access (some c) next => ∀ x s, D.Inv s → I s → D.Fact c s → C x c s →
      (¬ Changes x c s ∧ (next x s).Clean D I C Changes) ∨
        ∃ P, D.Stable P ∧ P (D.exec x c s) ∧ (next x s).Reads (fun s => D.Inv s ∧ P s) False (fun _ => True)

/-- What only reads may come first. -/
theorem Clean.of_reads {D : Discipline ι κ σ} {I : σ → Prop} {C Changes : ι → κ → σ → Prop} {Q : α → Prop}
    {p : Program ι κ σ ε α} {k : α → Program ι κ σ ε β} (hk : ∀ a, Q a → (k a).Clean D I C Changes)
    (h : p.Reads D.Inv True Q) : (p.bind k).Clean D I C Changes := by
  induction p with
  | done a => exact hk a h
  | fail e => trivial
  | access c next ih =>
    obtain ⟨rfl, hnext⟩ := h
    exact fun x s hi => ih x s (hnext x s hi)

end Program

namespace Discipline

open Interleaved

variable {ι κ σ ε ρ : Type} {D : Discipline ι κ σ} {programOf : ρ → Program ι κ σ ε Unit}
  {I : σ → Prop} {C Changes : ι → κ → σ → Prop} {selected : ρ → Prop}

/-- The selected programs in flight are clean and have changed nothing yet, or they will not fail. -/
structure Attempted (D : Discipline ι κ σ) (I : σ → Prop) (C Changes : ι → κ → σ → Prop) (selected : ρ → Prop)
    (w : Interleaved ι κ σ ε ρ) : Prop where
  kept : D.Kept w
  inv : I w.store
  started : ∀ e ∈ w.log, e.program < w.programs.length
  attempts : ∀ i p, w.programs[i]? = some p → selected p.1 →
    (p.2.Clean D I C Changes ∧ ∀ e ∈ w.log, e.program = i → ¬ Changes e.input e.command e.before) ∨
      ∃ P, D.Stable P ∧ P w.store ∧ p.2.Reads (fun s => D.Inv s ∧ P s) False (fun _ => True)

section Step

variable {w w' : Interleaved ι κ σ ε ρ}

/-- A program that makes its next access stays clean with nothing changed, or will not fail. -/
theorem Attempted.advance (h : Attempted D I C Changes selected w) {i : Nat} {x : ι} {request : ρ} {c : Option κ}
    {next : ι → σ → Program ι κ σ ε Unit} (hp : w.programs[i]? = some (request, .access c next))
    (hfact : ∀ k, c = some k → D.Fact k w.store) (hC : ∀ k, c = some k → C x k w.store) (hselected : selected request) :
    ((next x w.store).Clean D I C Changes ∧
        ∀ e ∈ w.log ++ (c.map (fun k => ⟨i, x, k, w.store⟩)).toList, e.program = i → ¬ Changes e.input e.command e.before) ∨
      ∃ P, D.Stable P ∧ P (D.run x c w.store) ∧
        (next x w.store).Reads (fun s => D.Inv s ∧ P s) False (fun _ => True) := by
  obtain ⟨hclean, hlog⟩ | ⟨P, hstable, hpre, hreads⟩ := h.attempts i _ hp hselected
  · cases c with
    | none => exact .inl ⟨hclean x w.store h.kept.1, fun e he => hlog e (by simpa using he)⟩
    | some k =>
      obtain ⟨hnot, hnext⟩ | hwill := hclean x w.store h.kept.1 h.inv (hfact k rfl) (hC k rfl)
      · refine .inl ⟨hnext, fun e he hprogram => ?_⟩
        rcases List.mem_append.1 he with he | he
        · exact hlog e he hprogram
        · obtain rfl := List.mem_singleton.1 he
          exact hnot
      · exact .inr hwill
  · obtain ⟨rfl, hnext⟩ := hreads
    exact .inr ⟨P, hstable, hpre, hnext x w.store ⟨h.kept.1, hpre⟩⟩

theorem Attempted.step (hprograms : ∀ r, (programOf r).Obeys D (fun _ => True) (fun _ _ => True))
    (hstep : ∀ x c s, D.Inv s → D.Fact c s → C x c s → I s → I (D.exec x c s))
    (hclean : ∀ r, selected r → (programOf r).Clean D I C Changes) {a : Action ι ρ} (h : Attempted D I C Changes selected w)
    (hC : Allows C w a) (hs : w.step D programOf a = some w') : Attempted D I C Changes selected w' := by
  obtain ⟨hkept, hmoves⟩ := h.kept.step hprograms hs
  cases a with
  | start request =>
    obtain rfl := Option.some.inj hs
    refine ⟨hkept, h.inv, fun e he => ?_, fun i p hp hselected => ?_⟩
    · have hlt := h.started e he
      rw [List.length_append]
      omega
    · rcases Nat.lt_or_ge i w.programs.length with hlt | hge
      · rw [List.getElem?_append_left hlt] at hp
        exact h.attempts i p hp hselected
      · rw [List.getElem?_append_right hge] at hp
        obtain rfl := List.mem_singleton.1 (List.mem_of_getElem? hp)
        -- no entry is of a program that has only come in
        exact .inl ⟨hclean request hselected, fun e he hprogram => absurd (h.started e he) (by omega)⟩
  | stop i =>
    simp only [Interleaved.step] at hs
    split at hs
    · rename_i hi
      obtain rfl := Option.some.inj hs
      refine ⟨hkept, h.inv, fun e he => ?_, fun j p hp hselected => ?_⟩
      · rw [List.length_set]
        exact h.started e he
      · by_cases hij : i = j
        · subst hij
          rw [List.getElem?_set_self (List.getElem?_eq_some_iff.1 hi).1] at hp
          obtain rfl := Option.some.inj hp
          exact .inr ⟨fun _ => True, Stable.true, trivial, trivial⟩
        · rw [List.getElem?_set_ne hij] at hp
          exact h.attempts j p hp hselected
    · cases hs
  | advance i x =>
    simp only [Interleaved.step] at hs
    split at hs
    · rename_i request c next hi
      obtain rfl := Option.some.inj hs
      have hfact : ∀ k, c = some k → D.Fact k w.store := by
        obtain ⟨P, hstable, hpre, hobeys⟩ := h.kept.2 _ (List.mem_of_getElem? hi)
        exact (hobeys x w.store h.kept.1 hpre).1
      have hallowed : ∀ k, c = some k → C x k w.store := fun k hk => hC _ hi k hk
      have hinv : I (D.run x c w.store) := by
        cases c with
        | none => exact h.inv
        | some k => exact hstep x k w.store h.kept.1 (hfact k rfl) (hallowed k rfl) h.inv
      refine ⟨hkept, hinv, fun e he => ?_, fun j p hp hselected => ?_⟩
      · rw [List.length_set]
        rcases List.mem_append.1 he with he | he
        · exact h.started e he
        · obtain ⟨k, -, rfl⟩ := Option.map_eq_some_iff.1 (Option.mem_toList.1 he)
          exact (List.getElem?_eq_some_iff.1 hi).1
      · by_cases hij : i = j
        · subst hij
          rw [List.getElem?_set_self (List.getElem?_eq_some_iff.1 hi).1] at hp
          obtain rfl := Option.some.inj hp
          exact h.advance hi hfact hallowed hselected
        · rw [List.getElem?_set_ne hij] at hp
          obtain ⟨hclean, hlog⟩ | ⟨P, hstable, hpre, hreads⟩ := h.attempts j p hp hselected
          · refine .inl ⟨hclean, fun e he hprogram => ?_⟩
            rcases List.mem_append.1 he with he | he
            · exact hlog e he hprogram
            · obtain ⟨k, -, rfl⟩ := Option.map_eq_some_iff.1 (Option.mem_toList.1 he)
              exact absurd hprogram hij
          · refine .inr ⟨P, hstable, ?_, hreads⟩
            cases c with
            | none => exact hpre
            | some k => exact hstable x k w.store h.kept.1 (hfact k rfl) hpre
    · cases hs

end Step

/-- **Of a program that has failed, no command changed anything.** -/
theorem failed_unchanged {s₀ : σ} {w : Interleaved ι κ σ ε ρ}
    (hprograms : ∀ r, (programOf r).Obeys D (fun _ => True) (fun _ _ => True))
    (hstep : ∀ x c s, D.Inv s → D.Fact c s → C x c s → I s → I (D.exec x c s))
    (hclean : ∀ r, selected r → (programOf r).Clean D I C Changes) (hinv : D.Inv s₀) (h₀ : I s₀)
    (hrun : (machine D programOf).Steps (Allows C) (Interleaved.start s₀) w) {i : Nat} {request : ρ} {e : ε}
    (hi : w.programs[i]? = some (request, .fail e)) (hselected : selected request) :
    ∀ r ∈ w.log, r.program = i → ¬ Changes r.input r.command r.before := by
  have h := hrun.invariant (I := Attempted D I C Changes selected)
    ⟨⟨hinv, fun _ hp => absurd hp List.not_mem_nil⟩, h₀, fun _ he => absurd he List.not_mem_nil, nofun⟩
    (fun w a w' h hc hs => h.step hprograms hstep hclean hc hs)
  obtain ⟨-, hlog⟩ | ⟨P, -, -, hreads⟩ := h.attempts i _ hi hselected
  · exact hlog
  · exact hreads.elim

end Discipline
