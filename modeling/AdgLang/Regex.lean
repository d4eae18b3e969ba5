import Mathlib.Data.List.Basic
/-!
# Regex — backtracking regular expressions with captures

The part of the .NET engine that line patterns need: character sets, greedy runs of a set, sequences, an optional part,
named groups and the end anchor.  A pattern is run from the start of the text with a continuation that receives the rest
and the captures so far, so alternatives are tried in the engine's order and a part given up takes its captures along.
-/

/-- A pattern with groups named by `γ`. -/
inductive Regex (γ : Type)
  | empty
  /-- One character of a set. -/
  | set (p : Char → Bool)
  /-- As many characters of a set as the rest allows: `[p]*`. -/
  | many (p : Char → Bool)
  | seq (a b : Regex γ)
  /-- `(?:a)?`. -/
  | opt (a : Regex γ)
  /-- `(?<g>a)`. -/
  | group (g : γ) (a : Regex γ)
  /-- `$`: the end, or before a final line feed. -/
  | eos

namespace Regex

variable {γ ρ : Type}

/-- The groups captured, the last one first. -/
abbrev Captures (γ : Type) := List (γ × List Char)

/-- `[p]+`. -/
def many1 (p : Char → Bool) : Regex γ := .seq (.set p) (.many p)

def literal : List Char → Regex γ
  | [] => .empty
  | c :: cs => .seq (.set (fun x => x == c)) (literal cs)

def seqs : List (Regex γ) → Regex γ
  | [] => .empty
  | a :: as => .seq a (seqs as)

/-- The longest run first. -/
def runMany (p : Char → Bool) (k : List Char → Option ρ) : List Char → Option ρ
  | [] => k []
  | c :: s => if p c then (runMany p k s).or (k (c :: s)) else k (c :: s)

def run : Regex γ → List Char → Captures γ → (List Char → Captures γ → Option ρ) → Option ρ
  | .empty, s, cs, k => k s cs
  | .set _, [], _, _ => none
  | .set p, c :: s, cs, k => if p c then k s cs else none
  | .many p, s, cs, k => runMany p (fun s' => k s' cs) s
  | .seq a b, s, cs, k => run a s cs (fun s' cs' => run b s' cs' k)
  | .opt a, s, cs, k => (run a s cs k).or (k s cs)
  | .group g a, s, cs, k => run a s cs (fun s' cs' => k s' ((g, s.take (s.length - s'.length)) :: cs'))
  | .eos, s, cs, k => if s = [] ∨ s = ['\n'] then k s cs else none

/-- The captures of the first match at the start of the text. -/
def matchStart (r : Regex γ) (s : List Char) : Option (Captures γ) := r.run s [] (fun _ cs => some cs)

/-- The text after the first match at the start of the text. -/
def matchRest (r : Regex γ) (s : List Char) : Option (List Char) := r.run s [] (fun s' _ => some s')

/-- `Groups[g].Success`. -/
def Captures.success [DecidableEq γ] (cs : Captures γ) (g : γ) : Bool := cs.any (fun c => decide (c.1 = g))

/-- `Groups[g].Value`, empty where the group did not take part. -/
def Captures.value [DecidableEq γ] (cs : Captures γ) (g : γ) : List Char :=
  ((cs.find? (fun c => decide (c.1 = g))).map Prod.snd).getD []

/-- `Replace` of a pattern whose matches are not empty; `fuel` bounds the characters visited. -/
def replace (r : Regex γ) (replacement : List Char) : Nat → List Char → List Char
  | 0, s => s
  | _ + 1, [] => []
  | fuel + 1, c :: s => match r.matchRest (c :: s) with
    | some s' => replacement ++ replace r replacement fuel s'
    | none => c :: replace r replacement fuel s

/-! ## What a run consumes -/

/-- A run takes a longest stretch of the set from which its continuation succeeds. -/
theorem runMany_spec {p : Char → Bool} {k : List Char → Option ρ} {x : ρ} : ∀ {s : List Char}, runMany p k s = some x →
    ∃ t s', s = t ++ s' ∧ (∀ c ∈ t, p c = true) ∧ k s' = some x ∧
      ∀ u v, s' = u ++ v → u ≠ [] → (∀ c ∈ u, p c = true) → k v = none
  | [], h => ⟨[], [], rfl, nofun, h, fun u v huv hu => absurd (List.append_eq_nil_iff.1 huv.symm).1 hu⟩
  | c :: s, h => by
    have hstop : p c = false → ∀ u v, c :: s = u ++ v → u ≠ [] → (∀ d ∈ u, p d = true) → k v = none := by
      intro hc u v huv hu hall
      obtain ⟨d, u, rfl⟩ := List.exists_cons_of_ne_nil hu
      cases huv
      rw [hall c List.mem_cons_self] at hc
      cases hc
    simp only [runMany] at h
    split at h
    · rename_i hc
      rcases Option.or_eq_some_iff.1 h with h | ⟨hnone, h⟩
      · obtain ⟨t, s', rfl, ht, hk, hmax⟩ := runMany_spec h
        exact ⟨c :: t, s', rfl, List.forall_mem_cons.2 ⟨hc, ht⟩, hk, hmax⟩
      · refine ⟨[], c :: s, rfl, nofun, h, fun u v huv hu hall => ?_⟩
        obtain ⟨d, u, rfl⟩ := List.exists_cons_of_ne_nil hu
        cases huv
        exact runMany_eq_none hnone (fun d hd => hall d (List.mem_cons_of_mem _ hd))
    · rename_i hc
      exact ⟨[], c :: s, rfl, nofun, h, hstop (Bool.eq_false_iff.2 hc)⟩
where
  runMany_eq_none : ∀ {u v : List Char}, runMany p k (u ++ v) = none → (∀ c ∈ u, p c = true) → k v = none
    | [], v, h, _ => by
      cases v with
      | nil => exact h
      | cons d v =>
        simp only [List.nil_append, runMany] at h
        split at h
        · exact (Option.or_eq_none_iff.1 h).2
        · exact h
    | c :: u, v, h, hall => by
      simp only [List.cons_append, runMany, hall c List.mem_cons_self, if_true] at h
      exact runMany_eq_none (Option.or_eq_none_iff.1 h).1 (fun d hd => hall d (List.mem_cons_of_mem _ hd))

theorem isSome_runMany {p : Char → Bool} {k : List Char → Option ρ} : ∀ {t s : List Char}, (∀ c ∈ t, p c = true) →
    (k s).isSome = true → (runMany p k (t ++ s)).isSome = true
  | [], s, _, h => by
    cases s with
    | nil => exact h
    | cons c s =>
      simp only [List.nil_append, runMany]
      split
      · rw [Option.isSome_or, h, Bool.or_true]
      · exact h
  | c :: t, s, ht, h => by
    simp only [List.cons_append, runMany, if_pos (ht c List.mem_cons_self)]
    rw [Option.isSome_or, isSome_runMany (fun d hd => ht d (List.mem_cons_of_mem _ hd)) h, Bool.true_or]

/-- The pattern may take a text to a rest, and captures to more captures. -/
def Consumes : Regex γ → List Char → Captures γ → List Char → Captures γ → Prop
  | .empty, s, cs, s', cs' => s' = s ∧ cs' = cs
  | .set p, s, cs, s', cs' => cs' = cs ∧ ∃ c, p c = true ∧ s = c :: s'
  | .many p, s, cs, s', cs' => cs' = cs ∧ ∃ t, (∀ c ∈ t, p c = true) ∧ s = t ++ s'
  | .seq a b, s, cs, s', cs' => ∃ s₁ cs₁, a.Consumes s cs s₁ cs₁ ∧ b.Consumes s₁ cs₁ s' cs'
  | .opt a, s, cs, s', cs' => a.Consumes s cs s' cs' ∨ (s' = s ∧ cs' = cs)
  | .group g a, s, cs, s', cs' => ∃ t cs₁, a.Consumes s cs s' cs₁ ∧ s = t ++ s' ∧ cs' = (g, t) :: cs₁
  | .eos, s, cs, s', cs' => s' = s ∧ cs' = cs ∧ (s = [] ∨ s = ['\n'])

theorem Consumes.suffix : ∀ (r : Regex γ) {s s' : List Char} {cs cs' : Captures γ}, r.Consumes s cs s' cs' → s' <:+ s
  | .empty, _, _, _, _, ⟨rfl, _⟩ => List.suffix_refl _
  | .set _, _, _, _, _, ⟨_, c, _, h⟩ => ⟨[c], h.symm⟩
  | .many _, _, _, _, _, ⟨_, t, _, h⟩ => ⟨t, h.symm⟩
  | .seq a b, _, _, _, _, ⟨_, _, ha, hb⟩ => (suffix b hb).trans (suffix a ha)
  | .opt a, _, _, _, _, .inl h => suffix a h
  | .opt _, _, _, _, _, .inr ⟨rfl, _⟩ => List.suffix_refl _
  | .group _ a, _, _, _, _, ⟨_, _, h, _⟩ => suffix a h
  | .eos, _, _, _, _, ⟨rfl, _⟩ => List.suffix_refl _

/-- **A successful run ends in its continuation**, after a stretch of the text that the pattern takes. -/
theorem run_consumes {x : ρ} : ∀ (r : Regex γ) {s : List Char} {cs : Captures γ}
    {k : List Char → Captures γ → Option ρ}, r.run s cs k = some x →
    ∃ s' cs', r.Consumes s cs s' cs' ∧ k s' cs' = some x
  | .empty, s, cs, k, h => ⟨s, cs, ⟨rfl, rfl⟩, h⟩
  | .set p, [], cs, k, h => by cases h
  | .set p, c :: s, cs, k, h => by
    simp only [run] at h
    split at h
    · rename_i hc
      exact ⟨s, cs, ⟨rfl, c, hc, rfl⟩, h⟩
    · cases h
  | .many p, s, cs, k, h => by
    obtain ⟨t, s', hs, ht, hk, -⟩ := runMany_spec h
    exact ⟨s', cs, ⟨rfl, t, ht, hs⟩, hk⟩
  | .seq a b, s, cs, k, h => by
    obtain ⟨s₁, cs₁, ha, h₁⟩ := run_consumes a h
    obtain ⟨s₂, cs₂, hb, h₂⟩ := run_consumes b h₁
    exact ⟨s₂, cs₂, ⟨s₁, cs₁, ha, hb⟩, h₂⟩
  | .opt a, s, cs, k, h => by
    rcases Option.or_eq_some_iff.1 h with h | ⟨-, h⟩
    · obtain ⟨s', cs', ha, hk⟩ := run_consumes a h
      exact ⟨s', cs', .inl ha, hk⟩
    · exact ⟨s, cs, .inr ⟨rfl, rfl⟩, h⟩
  | .group g a, s, cs, k, h => by
    obtain ⟨s', cs', ha, hk⟩ := run_consumes a h
    obtain ⟨t, rfl⟩ := ha.suffix
    refine ⟨s', (g, t) :: cs', ⟨t, cs', ha, rfl, rfl⟩, ?_⟩
    rw [List.length_append, Nat.add_sub_cancel, List.take_left] at hk
    exact hk
  | .eos, s, cs, k, h => by
    simp only [run] at h
    split at h
    · rename_i hs
      exact ⟨s, cs, ⟨rfl, rfl, hs⟩, h⟩
    · cases h

theorem matchStart_consumes {r : Regex γ} {s : List Char} {cs : Captures γ} (h : r.matchStart s = some cs) :
    ∃ s', r.Consumes s [] s' cs := by
  obtain ⟨s', cs', hr, hk⟩ := run_consumes r h
  cases hk
  exact ⟨s', hr⟩

theorem run_literal {x : ρ} : ∀ {t s : List Char} {cs : Captures γ} {k : List Char → Captures γ → Option ρ},
    (literal t).run s cs k = some x → ∃ s', s = t ++ s' ∧ k s' cs = some x
  | [], s, cs, k, h => ⟨s, rfl, h⟩
  | c :: t, [], cs, k, h => by cases h
  | c :: t, d :: s, cs, k, h => by
    simp only [literal, run] at h
    split at h
    · rename_i hd
      obtain ⟨s', rfl, hk⟩ := run_literal h
      exact ⟨s', by rw [eq_of_beq hd]; rfl, hk⟩
    · cases h

/-- What is captured is no longer than the text. -/
theorem Consumes.captures : ∀ (r : Regex γ) {s s' : List Char} {cs cs' : Captures γ}, r.Consumes s cs s' cs' →
    ∀ c ∈ cs', c ∈ cs ∨ c.2.length ≤ s.length
  | .empty, _, _, _, _, ⟨_, rfl⟩, _, hc => .inl hc
  | .set _, _, _, _, _, ⟨rfl, _⟩, _, hc => .inl hc
  | .many _, _, _, _, _, ⟨rfl, _⟩, _, hc => .inl hc
  | .seq a b, _, _, _, _, ⟨_, _, ha, hb⟩, c, hc => by
    rcases captures b hb c hc with hc | hc
    · exact captures a ha c hc
    · exact .inr (Nat.le_trans hc (suffix a ha).length_le)
  | .opt a, _, _, _, _, .inl h, c, hc => captures a h c hc
  | .opt _, _, _, _, _, .inr ⟨_, rfl⟩, _, hc => .inl hc
  | .group _ a, s, s', _, _, ⟨t, _, h, hs, rfl⟩, c, hc => by
    rcases List.mem_cons.1 hc with rfl | hc
    · have hlen := congrArg List.length hs
      rw [List.length_append] at hlen
      exact .inr (by show t.length ≤ s.length; omega)
    · exact captures a h c hc
  | .eos, _, _, _, _, ⟨_, rfl, _⟩, _, hc => .inl hc

/-! ## Consumption, part by part -/

theorem consumes_literal : ∀ {t s s' : List Char} {cs cs' : Captures γ},
    (literal t).Consumes s cs s' cs' → s = t ++ s' ∧ cs' = cs
  | [], _, _, _, _, ⟨rfl, rfl⟩ => ⟨rfl, rfl⟩
  | c :: t, _, _, _, _, ⟨_, _, ⟨rfl, d, hd, rfl⟩, h⟩ => by
    obtain ⟨rfl, rfl⟩ := consumes_literal h
    exact ⟨by rw [eq_of_beq hd]; rfl, rfl⟩

theorem consumes_many1 {p : Char → Bool} {s s' : List Char} {cs cs' : Captures γ}
    (h : (many1 p).Consumes s cs s' cs') : ∃ t, t ≠ [] ∧ (∀ c ∈ t, p c = true) ∧ s = t ++ s' ∧ cs' = cs := by
  obtain ⟨_, _, ⟨rfl, c, hc, rfl⟩, rfl, t, ht, rfl⟩ := h
  exact ⟨c :: t, List.cons_ne_nil _ _, List.forall_mem_cons.2 ⟨hc, ht⟩, rfl, rfl⟩

theorem consumes_seqs_append {bs : List (Regex γ)} : ∀ {as : List (Regex γ)} {s s' : List Char} {cs cs' : Captures γ},
    (seqs (as ++ bs)).Consumes s cs s' cs' ↔
      ∃ s₁ cs₁, (seqs as).Consumes s cs s₁ cs₁ ∧ (seqs bs).Consumes s₁ cs₁ s' cs'
  | [], s, _, cs, _ => by
    constructor
    · intro h; exact ⟨s, cs, ⟨rfl, rfl⟩, h⟩
    · rintro ⟨_, _, ⟨rfl, rfl⟩, h⟩; exact h
  | _ :: _, _, _, _, _ => by
    constructor
    · rintro ⟨s₁, cs₁, ha, h⟩
      obtain ⟨s₂, cs₂, has, hbs⟩ := consumes_seqs_append.1 h
      exact ⟨s₂, cs₂, ⟨s₁, cs₁, ha, has⟩, hbs⟩
    · rintro ⟨s₂, cs₂, ⟨s₁, cs₁, ha, has⟩, hbs⟩
      exact ⟨s₁, cs₁, ha, consumes_seqs_append.2 ⟨s₂, cs₂, has, hbs⟩⟩

theorem run_seqs_append {as bs : List (Regex γ)} {s : List Char} {cs : Captures γ}
    {k : List Char → Captures γ → Option ρ} :
    (seqs (as ++ bs)).run s cs k = (seqs as).run s cs (fun s' cs' => (seqs bs).run s' cs' k) := by
  induction as generalizing s cs with
  | nil => rfl
  | cons a as ih =>
    show a.run s cs _ = a.run s cs _
    congr 1
    funext s' cs'
    exact ih

section Values

variable [DecidableEq γ] {g : γ} {cs : Captures γ}

theorem value_cons_self (t : List Char) : Captures.value ((g, t) :: cs) g = t := by
  simp [Captures.value]

theorem value_cons_of_ne {g' : γ} (h : g' ≠ g) (t : List Char) :
    Captures.value ((g', t) :: cs) g = cs.value g := by
  simp [Captures.value, h]

theorem success_cons {g' : γ} (t : List Char) :
    Captures.success ((g', t) :: cs) g = (decide (g' = g) || cs.success g) := rfl

end Values

/-- A pattern that starts with a literal captures less than the text. -/
theorem value_length_lt [DecidableEq γ] {t : List Char} {rs : List (Regex γ)} {s : List Char} {cs : Captures γ} {g : γ}
    (ht : t ≠ []) (h : (seqs (.literal t :: rs)).matchStart s = some cs) : (cs.value g).length < s.length := by
  have h : (literal t).run s [] (fun s' cs' => (seqs rs).run s' cs' (fun _ cs => some cs)) = some cs := h
  obtain ⟨s', rfl, hrest⟩ := run_literal h
  obtain ⟨s'', hcs⟩ := matchStart_consumes hrest
  have hpos : 0 < t.length := List.length_pos_iff.2 ht
  rw [List.length_append]
  unfold Captures.value
  cases hf : cs.find? (fun c => decide (c.1 = g)) with
  | none => simp; omega
  | some c =>
    rcases Consumes.captures _ hcs c (List.mem_of_find?_eq_some hf) with hc | hc
    · cases hc
    · show c.2.length < t.length + s'.length
      omega

end Regex
