import AdgLang.Courses
import Mathlib.Algebra.BigOperators.Group.Finset.Piecewise
import Mathlib.Algebra.Order.BigOperators.Group.List
import Mathlib.Algebra.Order.Group.Nat
import Mathlib.Algebra.GroupWithZero.Nat
/-!
# Histories — what the log of a world adds up to

An invariant may speak of the log as well as of the store (`Discipline.log_invariant`).  Commands may earn credit for the
program that runs them, and spend it: where every program of a world spends no more than it has earned
(`Program.Affords`), the commands of the log have spent no more than they earned (`Interleaved.spent_le_earned`).
-/

namespace Discipline

variable {ι κ σ ε ρ : Type} {D : Discipline ι κ σ} {programOf : ρ → Program ι κ σ ε Unit}

open Interleaved

/-- **An invariant of the commands run so far and the store that they left.** -/
theorem log_invariant {J : List (Ran ι κ σ) → σ → Prop} {C : Interleaved ι κ σ ε ρ → Action ι ρ → Prop} {s₀ : σ}
    {w : Interleaved ι κ σ ε ρ} (hprograms : ∀ r, (programOf r).Obeys D (fun _ => True) (fun _ _ => True))
    (hinv : D.Inv s₀) (h₀ : J [] s₀)
    (hstep : ∀ log e, D.Inv e.before → D.Fact e.command e.before → J log e.before →
      J (log ++ [e]) (D.exec e.input e.command e.before))
    (hrun : (machine D programOf).Steps C (Interleaved.start s₀) w) : D.Inv w.store ∧ J w.log w.store := by
  have h : D.Kept w ∧ J w.log w.store := by
    refine hrun.invariant (I := fun w => D.Kept w ∧ J w.log w.store) ⟨⟨hinv, fun _ hp => by cases hp⟩, h₀⟩
      (fun w a w' h _ hs => ?_)
    obtain ⟨hkept, hmoves⟩ := h.1.step hprograms hs
    cases hmoves with
    | rests hstore hlog => exact ⟨hkept, hstore ▸ hlog ▸ h.2⟩
    | runs i x p c ha hp hpending hfact hstore hlog =>
      refine ⟨hkept, ?_⟩
      rw [hstore, hlog]
      exact hstep w.log ⟨i, x, c, w.store⟩ h.1.1 hfact h.2
  exact ⟨h.1.1, h.2⟩

end Discipline

namespace Program

variable {ι κ σ ε α β : Type} {earn spend : ι → κ → σ → Nat} {n m : Nat} {Q : α → Nat} {R : β → Nat}

/-- What an access comes to, nothing where it runs no command. -/
def worth (f : ι → κ → σ → Nat) (c : Option κ) (x : ι) (s : σ) : Nat := c.elim 0 (fun c => f x c s)

/-- With `n` to begin with, the program spends no more than it has, and is left with `Q` of what it returns. -/
def Affords (earn spend : ι → κ → σ → Nat) : Program ι κ σ ε α → Nat → (α → Nat) → Prop
  | .done a, n, Q => Q a ≤ n
  | .fail _, _, _ => True
  | .access c next, n, Q => ∀ x s, worth spend c x s ≤ n + worth earn c x s ∧
      (next x s).Affords earn spend (n + worth earn c x s - worth spend c x s) Q

theorem Affords.mono {p : Program ι κ σ ε α} (h : p.Affords earn spend n Q) (hnm : n ≤ m) :
    p.Affords earn spend m Q := by
  induction p generalizing n m with
  | done a => exact Nat.le_trans h hnm
  | fail e => trivial
  | access c next ih =>
    intro x s
    obtain ⟨hspent, hnext⟩ := h x s
    exact ⟨by omega, ih x s hnext (by omega)⟩

theorem Affords.leave {p : Program ι κ σ ε α} {Q' : α → Nat} (h : p.Affords earn spend n Q) (hQ : ∀ a, Q' a ≤ Q a) :
    p.Affords earn spend n Q' := by
  induction p generalizing n with
  | done a => exact Nat.le_trans (hQ a) h
  | fail e => trivial
  | access c next ih => exact fun x s => ⟨(h x s).1, ih x s (h x s).2⟩

/-- What the first program leaves is what the second may spend. -/
theorem Affords.bind {p : Program ι κ σ ε α} {k : α → Program ι κ σ ε β} (h : p.Affords earn spend n Q)
    (hk : ∀ a, (k a).Affords earn spend (Q a) R) : (p.bind k).Affords earn spend n R := by
  induction p generalizing n with
  | done a => exact (hk a).mono h
  | fail e => trivial
  | access c next ih => exact fun x s => ⟨(h x s).1, ih x s (h x s).2⟩

/-- A handler has nothing to spend. -/
theorem Affords.handle {p : Program ι κ σ ε α} {k : ε → Program ι κ σ ε α} (h : p.Affords earn spend n Q)
    (hk : ∀ e, (k e).Affords earn spend 0 Q) : (p.handle k).Affords earn spend n Q := by
  induction p generalizing n with
  | done a => exact h
  | fail e => exact (hk e).mono (Nat.zero_le n)
  | access c next ih => exact fun x s => ⟨(h x s).1, ih x s (h x s).2⟩

theorem Affords.perform {c : κ} {report : ι → σ → α} (h : ∀ x s, spend x c s + Q (report x s) ≤ n + earn x c s) :
    (Program.perform c report : Program ι κ σ ε α).Affords earn spend n Q := by
  intro x s
  have hc := h x s
  refine ⟨?_, ?_⟩
  · show spend x c s ≤ n + earn x c s
    omega
  · show Q (report x s) ≤ n + earn x c s - spend x c s
    omega

theorem Affords.throwIf {c : Bool} {e : ε} {Q : Unit → Nat} (h : c = false → Q () ≤ n) :
    (Program.throwIf c e : Program ι κ σ ε Unit).Affords earn spend n Q := by
  cases c with
  | true => trivial
  | false => exact h rfl

/-- A program whose commands spend nothing keeps what it has. -/
theorem Only.affords {p : Program ι κ σ ε α} (h : p.Only (fun c => ∀ x s, spend x c s = 0)) :
    p.Affords earn spend n (fun _ => n) := by
  induction p generalizing n with
  | done a => exact Nat.le_refl n
  | fail e => trivial
  | access c next ih =>
    intro x s
    have hspent : worth spend c x s = 0 := by
      cases c with
      | none => rfl
      | some c => exact h.1 c rfl x s
    rw [hspent]
    exact ⟨Nat.zero_le _, (ih x s (h.2 x s)).leave (fun _ => Nat.le_add_right n _)⟩

end Program

namespace Interleaved

variable {ι κ σ ε ρ : Type} {D : Discipline ι κ σ} {programOf : ρ → Program ι κ σ ε Unit}
  {earn spend : ι → κ → σ → Nat}

/-- What the commands of a log come to. -/
def total (f : ι → κ → σ → Nat) (log : List (Ran ι κ σ)) : Nat := (log.map (fun e => f e.input e.command e.before)).sum

theorem total_append (f : ι → κ → σ → Nat) (log log' : List (Ran ι κ σ)) :
    total f (log ++ log') = total f log + total f log' := by
  rw [total, List.map_append, List.sum_append]
  rfl

theorem total_run (f : ι → κ → σ → Nat) (log : List (Ran ι κ σ)) (i : Nat) (c : Option κ) (x : ι) (s : σ) :
    total f (log ++ (c.map (fun c => (⟨i, x, c, s⟩ : Ran ι κ σ))).toList) = total f log + Program.worth f c x s := by
  rw [total_append]
  cases c with
  | none => rfl
  | some c => exact congrArg (total f log + ·) (Nat.add_zero _)

theorem total_add (f g : ι → κ → σ → Nat) (log : List (Ran ι κ σ)) :
    total (fun x c s => f x c s + g x c s) log = total f log + total g log := List.sum_map_add

theorem total_mono {f g : ι → κ → σ → Nat} {log : List (Ran ι κ σ)}
    (h : ∀ e ∈ log, f e.input e.command e.before ≤ g e.input e.command e.before) : total f log ≤ total g log :=
  List.sum_le_sum h

/-- What comes to something happened. -/
theorem exists_of_total {f : ι → κ → σ → Nat} {log : List (Ran ι κ σ)} (h : total f log ≠ 0) :
    ∃ e ∈ log, f e.input e.command e.before ≠ 0 := by
  by_contra hnone
  refine h (List.sum_eq_zero (fun n hn => ?_))
  obtain ⟨e, he, rfl⟩ := List.mem_map.1 hn
  by_contra hne
  exact hnone ⟨e, he, hne⟩

/-- The credits that the programs are left with, one for each index. -/
def Credited (earn spend : ι → κ → σ → Nat) (w : Interleaved ι κ σ ε ρ) (credit : Nat → Nat) : Prop :=
  (∀ (i : Nat) (p : ρ × Program ι κ σ ε Unit), w.programs[i]? = some p → p.2.Affords earn spend (credit i) (fun _ => 0)) ∧
    ∑ i ∈ Finset.range w.programs.length, credit i + total spend w.log ≤ total earn w.log

theorem Turns.credited (hprograms : ∀ r, (programOf r).Affords earn spend 0 (fun _ => 0))
    {w w' : Interleaved ι κ σ ε ρ} {a : Action ι ρ} (h : Turns D programOf w w' a) {credit : Nat → Nat}
    (hw : w.Credited earn spend credit) : ∃ credit', w'.Credited earn spend credit' := by
  obtain ⟨hafford, hsum⟩ := hw
  cases h with
  | started request hprograms' hstore hlog =>
    refine ⟨Function.update credit w.programs.length 0, fun i p hp => ?_, ?_⟩
    · rw [hprograms', List.getElem?_append] at hp
      split at hp
      · rename_i hlt
        rw [Function.update_of_ne (Nat.ne_of_lt hlt)]
        exact hafford i p hp
      · rename_i hge
        have hi : i = w.programs.length := by
          by_contra hne
          rw [List.getElem?_eq_none (by simp; omega)] at hp
          cases hp
        subst hi
        rw [Nat.sub_self, List.getElem?_cons_zero] at hp
        obtain rfl := Option.some.inj hp
        rw [Function.update_self]
        exact hprograms request
    · rw [hprograms', List.length_append, List.length_singleton, Finset.sum_range_succ, Function.update_self, hlog]
      have hrest : ∑ i ∈ Finset.range w.programs.length, Function.update credit w.programs.length 0 i =
          ∑ i ∈ Finset.range w.programs.length, credit i :=
        Finset.sum_congr rfl (fun i hi => Function.update_of_ne (Nat.ne_of_lt (Finset.mem_range.1 hi)) _ _)
      omega
  | stopped i p hp hprograms' hstore hlog =>
    refine ⟨credit, fun j q hq => ?_, ?_⟩
    · rw [hprograms', List.getElem?_set] at hq
      split at hq
      · split at hq
        · obtain rfl := Option.some.inj hq
          exact Nat.zero_le _
        · cases hq
      · exact hafford j q hq
    · rw [hprograms', List.length_set, hlog]
      exact hsum
  | advanced i x request c next hp hprograms' hstore hlog =>
    obtain ⟨hspent, hnext⟩ := hafford i _ hp x w.store
    have hi : i ∈ Finset.range w.programs.length := Finset.mem_range.2 (List.getElem?_eq_some_iff.1 hp).1
    refine ⟨Function.update credit i (credit i + Program.worth earn c x w.store - Program.worth spend c x w.store),
      fun j q hq => ?_, ?_⟩
    · rw [hprograms', List.getElem?_set] at hq
      split at hq
      · rename_i hij
        subst hij
        split at hq
        · obtain rfl := Option.some.inj hq
          rw [Function.update_self]
          exact hnext
        · cases hq
      · rename_i hij
        rw [Function.update_of_ne (Ne.symm hij)]
        exact hafford j q hq
    · rw [hprograms', List.length_set, hlog, total_run, total_run, Finset.sum_update_of_mem hi]
      have hsplit := Finset.sum_erase_add (Finset.range w.programs.length) credit hi
      rw [Finset.erase_eq] at hsplit
      omega

/-- **Where every program affords what it spends, no more is spent than is earned.** -/
theorem spent_le_earned (hprograms : ∀ r, (programOf r).Affords earn spend 0 (fun _ => 0))
    {C : Interleaved ι κ σ ε ρ → Action ι ρ → Prop} {s₀ : σ} {w : Interleaved ι κ σ ε ρ}
    (hrun : (machine D programOf).Steps C (Interleaved.start s₀) w) : total spend w.log ≤ total earn w.log := by
  obtain ⟨credit, -, hsum⟩ : ∃ credit, w.Credited earn spend credit := by
    refine hrun.invariant (I := fun w => ∃ credit, w.Credited earn spend credit)
      ⟨fun _ => 0, ⟨(fun _ _ hp => by cases hp), Nat.le_refl 0⟩⟩ (fun w a w' ⟨credit, hw⟩ _ hs => ?_)
    exact (turns_of_step hs).credited hprograms hw
  omega

/-- What closes for good when it happens, and happens only where it is not closed, happens at most once. -/
theorem total_le_one {f : ι → κ → σ → Nat} {K : σ → Prop}
    (hprograms : ∀ r, (programOf r).Obeys D (fun _ => True) (fun _ _ => True)) {s₀ : σ} (hinv : D.Inv s₀)
    (hle : ∀ x c s, f x c s ≤ 1) (hstable : D.Stable K)
    (hcloses : ∀ x c s, D.Inv s → D.Fact c s → f x c s ≠ 0 → ¬ K s ∧ K (D.exec x c s))
    {C : Interleaved ι κ σ ε ρ → Action ι ρ → Prop} {w : Interleaved ι κ σ ε ρ}
    (hrun : (machine D programOf).Steps C (Interleaved.start s₀) w) :
    total f w.log ≤ 1 ∧ (total f w.log ≠ 0 → K w.store) := by
  refine (Discipline.log_invariant (J := fun log s => total f log ≤ 1 ∧ (total f log ≠ 0 → K s)) hprograms hinv
    ⟨Nat.zero_le 1, fun h => absurd rfl h⟩ (fun log e hi hfact h => ?_) hrun).2
  have hlog : total f (log ++ [e]) = total f log + f e.input e.command e.before := by
    rw [total_append]
    exact congrArg (total f log + ·) (Nat.add_zero _)
  rw [hlog]
  by_cases hf : f e.input e.command e.before = 0
  · rw [hf, Nat.add_zero]
    exact ⟨h.1, fun hne => hstable e.input e.command e.before hi hfact (h.2 hne)⟩
  · obtain ⟨hopen, hclosed⟩ := hcloses e.input e.command e.before hi hfact hf
    have hnone : total f log = 0 := by
      by_contra hne
      exact hopen (h.2 hne)
    rw [hnone, Nat.zero_add]
    exact ⟨hle _ _ _, fun _ => hclosed⟩

end Interleaved
