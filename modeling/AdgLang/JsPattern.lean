import AdgLang.JsNumber
import Mathlib.Data.List.Forall2
/-!
# JsPattern — regular expressions of JavaScript, as tests

A pattern is run from a place in a text to all the places where a match may end, so that `test` says whether there is a
match anywhere.  The sets of a pattern are sets of units; a set that leaves out both halves of a surrogate pair or holds
both reads a text as its code points do.  `run_spec` says what a match consumes, and `test_whole` what a pattern between
`^` and `$` says of the text.
-/
namespace Js

inductive Pattern
  | empty
  | set (p : UInt16 → Bool)
  | seq (a b : Pattern)
  | alt (a b : Pattern)
  | star (a : Pattern)
  /-- `^`. -/
  | start
  /-- `$`. -/
  | finish
  /-- `\b`, with the units of which words are made. -/
  | boundary (word : UInt16 → Bool)

namespace Pattern

/-- A place in a text: the unit before it, if there is one, and what follows. -/
abbrev Place := Option UInt16 × Str

/-- The places after any number of rounds, each of which takes a unit at least. -/
def rounds (f : Place → List Place) : Nat → Place → List Place
  | 0, p => [p]
  | fuel + 1, p => p :: ((f p).filter (fun q => decide (q.2.length < p.2.length))).flatMap (rounds f fuel)

def run : Pattern → Place → List Place
  | .empty, p => [p]
  | .set _, (_, []) => []
  | .set s, (_, u :: rest) => if s u then [(some u, rest)] else []
  | .seq a b, p => (run a p).flatMap (run b)
  | .alt a b, p => run a p ++ run b p
  | .star a, p => rounds (run a) p.2.length p
  | .start, p => if p.1 = none then [p] else []
  | .finish, p => if p.2 = [] then [p] else []
  | .boundary word, p => if p.1.any word = p.2.head?.any word then [] else [p]

attribute [grind =] run

/-- The search goes on from place to place. -/
def testFrom (a : Pattern) (before : Option UInt16) : Str → Bool
  | [] => !(a.run (before, [])).isEmpty
  | u :: rest => !(a.run (before, u :: rest)).isEmpty || testFrom a (some u) rest

/-- `RegExp.prototype.test`. -/
def test (a : Pattern) (s : Str) : Bool := a.testFrom none s

def seqs : List Pattern → Pattern
  | [] => .empty
  | a :: as => .seq a (seqs as)

def literal (s : Str) : Pattern := seqs (s.map (fun u => .set (fun v => v == u)))

/-- `a?`. -/
def opt (a : Pattern) : Pattern := .alt a .empty

/-- `a+`. -/
def plus (a : Pattern) : Pattern := .seq a (.star a)

/-- `a{n}`. -/
def times (n : Nat) (a : Pattern) : Pattern := seqs (List.replicate n a)

/-- `a{n,}`. -/
def atLeast (n : Nat) (a : Pattern) : Pattern := .seq (times n a) (.star a)

/-- `a{0,n}`. -/
def upTo (a : Pattern) : Nat → Pattern
  | 0 => .empty
  | n + 1 => opt (.seq a (upTo a n))

/-- `a{m,n}`. -/
def between (m n : Nat) (a : Pattern) : Pattern := .seq (times m a) (upTo a (n - m))

/-- `^a$`. -/
def whole (a : Pattern) : Pattern := .seq .start (.seq a .finish)

/-! ## What a match consumes -/

/-- Every set of the pattern is within a set. -/
def Within (P : UInt16 → Prop) : Pattern → Prop
  | .set s => ∀ u, s u = true → P u
  | .seq a b => a.Within P ∧ b.Within P
  | .alt a b => a.Within P ∧ b.Within P
  | .star a => a.Within P
  | .empty | .start | .finish | .boundary _ => True

/-- From the one place to the other only units of the set are passed. -/
def Passes (P : UInt16 → Prop) (p q : Place) : Prop := ∃ w, p.2 = w ++ q.2 ∧ ∀ u ∈ w, P u

theorem Passes.refl (P : UInt16 → Prop) (p : Place) : Passes P p p := ⟨[], rfl, nofun⟩

theorem Passes.trans {P : UInt16 → Prop} {p q r : Place} (hpq : Passes P p q) (hqr : Passes P q r) : Passes P p r := by
  obtain ⟨w, hw, hwP⟩ := hpq
  obtain ⟨v, hv, hvP⟩ := hqr
  refine ⟨w ++ v, by rw [hw, hv, List.append_assoc], fun u hu => ?_⟩
  rcases List.mem_append.1 hu with hu | hu
  · exact hwP u hu
  · exact hvP u hu

theorem rounds_spec {P : UInt16 → Prop} {f : Place → List Place} (hf : ∀ p q, q ∈ f p → Passes P p q) :
    ∀ fuel p q, q ∈ rounds f fuel p → Passes P p q
  | 0, p, q, h => by
    rw [rounds, List.mem_singleton] at h
    rw [h]
    exact .refl P p
  | fuel + 1, p, q, h => by
    rw [rounds, List.mem_cons, List.mem_flatMap] at h
    rcases h with rfl | ⟨r, hr, hq⟩
    · exact .refl P q
    · exact (hf p r (List.mem_of_mem_filter hr)).trans (rounds_spec hf fuel r q hq)

/-- **A match passes only units of the pattern's sets.** -/
theorem run_spec {P : UInt16 → Prop} {a : Pattern} (ha : a.Within P) : ∀ p q, q ∈ a.run p → Passes P p q := by
  induction a with
  | empty =>
    intro p q h
    rw [run, List.mem_singleton] at h
    rw [h]
    exact .refl P p
  | set s =>
    rintro ⟨before, text⟩ q h
    cases text with
    | nil => cases h
    | cons u rest =>
      rw [run] at h
      split at h
      · rename_i hu
        rw [List.mem_singleton] at h
        rw [h]
        refine ⟨[u], rfl, fun v hv => ?_⟩
        rw [List.mem_singleton.1 hv]
        exact ha u hu
      · cases h
  | seq a b iha ihb =>
    intro p q h
    rw [run, List.mem_flatMap] at h
    obtain ⟨r, hr, hq⟩ := h
    exact (iha ha.1 p r hr).trans (ihb ha.2 r q hq)
  | alt a b iha ihb =>
    intro p q h
    rw [run, List.mem_append] at h
    rcases h with h | h
    · exact iha ha.1 p q h
    · exact ihb ha.2 p q h
  | star a ih =>
    intro p q h
    exact rounds_spec (ih ha) _ p q h
  | start =>
    intro p q h
    rw [run] at h
    split at h
    · rw [List.mem_singleton] at h
      rw [h]
      exact .refl P p
    · cases h
  | finish =>
    intro p q h
    rw [run] at h
    split at h
    · rw [List.mem_singleton] at h
      rw [h]
      exact .refl P p
    · cases h
  | boundary word =>
    intro p q h
    rw [run] at h
    split at h
    · cases h
    · rw [List.mem_singleton] at h
      rw [h]
      exact .refl P p

theorem within_seqs {P : UInt16 → Prop} {as : List Pattern} (h : ∀ a ∈ as, a.Within P) : (seqs as).Within P := by
  induction as with
  | nil => trivial
  | cons a as ih =>
    rw [List.forall_mem_cons] at h
    exact ⟨h.1, ih h.2⟩

theorem within_times {P : UInt16 → Prop} {a : Pattern} (h : a.Within P) (n : Nat) : (times n a).Within P :=
  within_seqs (fun b hb => by rw [List.eq_of_mem_replicate hb]; exact h)

theorem within_upTo {P : UInt16 → Prop} {a : Pattern} (h : a.Within P) : ∀ n, (upTo a n).Within P
  | 0 => trivial
  | n + 1 => ⟨⟨h, within_upTo h n⟩, trivial⟩

theorem within_between {P : UInt16 → Prop} {a : Pattern} (h : a.Within P) (m n : Nat) : (between m n a).Within P :=
  ⟨within_times h m, within_upTo h (n - m)⟩

/-! ## Patterns between `^` and `$` -/

theorem whole_run_some (a : Pattern) (u : UInt16) (s : Str) : (whole a).run (some u, s) = [] := by
  rw [whole, run, run, if_neg (by nofun)]
  rfl

theorem testFrom_whole_some (a : Pattern) (s : Str) : ∀ u, (whole a).testFrom (some u) s = false := by
  induction s with
  | nil =>
    intro u
    rw [testFrom, whole_run_some]
    rfl
  | cons v s ih =>
    intro u
    rw [testFrom, whole_run_some, ih v]
    rfl

/-- **Between `^` and `$` a pattern is matched by the whole text.** -/
theorem test_whole (a : Pattern) (s : Str) : (whole a).test s = true ↔ ∃ q ∈ a.run (none, s), q.2 = [] := by
  have hrun : (whole a).run (none, s) = (a.run (none, s)).flatMap (run .finish) := by
    rw [whole, run, run, if_pos rfl, List.flatMap_cons, List.flatMap_nil, List.append_nil, run]
  have hends : (!((whole a).run (none, s)).isEmpty) = true ↔ ∃ q ∈ a.run (none, s), q.2 = [] := by
    rw [hrun, Bool.not_eq_true', List.isEmpty_eq_false_iff_exists_mem]
    constructor
    · rintro ⟨r, hr⟩
      obtain ⟨q, hq, hr⟩ := List.mem_flatMap.1 hr
      rw [run] at hr
      split at hr
      · exact ⟨q, hq, ‹_›⟩
      · cases hr
    · rintro ⟨q, hq, hend⟩
      refine ⟨q, List.mem_flatMap.2 ⟨q, hq, ?_⟩⟩
      rw [run, if_pos hend]
      exact List.mem_singleton.2 rfl
  rw [test]
  cases s with
  | nil => rw [testFrom, hends]
  | cons u rest => rw [testFrom, testFrom_whole_some, Bool.or_false, hends]

/-- A text that matches as a whole is made of units of the pattern's sets. -/
theorem mem_of_test_whole {P : UInt16 → Prop} {a : Pattern} (ha : a.Within P) {s : Str} (h : (whole a).test s = true) :
    ∀ u ∈ s, P u := by
  obtain ⟨q, hq, hend⟩ := (test_whole a s).1 h
  obtain ⟨w, hw, hwP⟩ := run_spec ha _ q hq
  rw [hend, List.append_nil] at hw
  have hw : s = w := hw
  rw [hw]
  exact hwP

/-- A row of sets, each for one unit. -/
def row (sets : List (UInt16 → Bool)) : Pattern := seqs (sets.map .set)

theorem run_row (sets : List (UInt16 → Bool)) : ∀ (before : Option UInt16) (s : Str),
    (∃ q ∈ (row sets).run (before, s), q.2 = []) ↔ List.Forall₂ (fun p u => p u = true) sets s := by
  induction sets with
  | nil =>
    intro before s
    rw [row, List.map_nil, seqs, run]
    cases s with
    | nil => simp
    | cons u s => simp
  | cons p sets ih =>
    intro before s
    rw [row, List.map_cons, seqs, run]
    cases s with
    | nil =>
      rw [run, List.flatMap_nil]
      constructor
      · rintro ⟨q, hq, -⟩
        cases hq
      · nofun
    | cons u s =>
      rw [run, List.forall₂_cons, ← ih (some u) s]
      split
      · rename_i hu
        rw [List.flatMap_cons, List.flatMap_nil, List.append_nil]
        exact ⟨fun h => ⟨hu, h⟩, fun h => h.2⟩
      · rename_i hu
        rw [List.flatMap_nil]
        constructor
        · rintro ⟨q, hq, -⟩
          cases hq
        · exact fun h => absurd h.1 hu

/-- **A row between `^` and `$` is a test of every unit.** -/
theorem test_row (sets : List (UInt16 → Bool)) (s : Str) :
    (whole (row sets)).test s = true ↔ List.Forall₂ (fun p u => p u = true) sets s :=
  (test_whole (row sets) s).trans (run_row sets none s)

end Pattern
end Js
