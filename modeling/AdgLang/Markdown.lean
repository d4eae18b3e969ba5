import AdgLang.JsString
import Mathlib.Data.List.TakeWhile
/-!
# Markdown — lines, fences and the blocks of a document

A line ends at a line feed, a carriage return or both.  `scan` reads a document line by line: inside a fence a line is
content unless it closes the fence, and outside every line is a block of its own or opens a fence.  `clear_lines` says
what the lines of a text begin with, for texts that are to stand inside a fence.
-/
namespace Markdown

open Js

def lineFeed : UInt16 := 0x0A

def carriageReturn : UInt16 := 0x0D

/-- The lines of a text after the beginning `line` of the first one; a line feed right after a carriage return ends no
line of its own. -/
def linesFrom (afterReturn : Bool) (line : Str) : Str → List Str
  | [] => if line = [] then [] else [line]
  | u :: rest =>
    if u = lineFeed then
      if afterReturn then linesFrom false [] rest else line :: linesFrom false [] rest
    else if u = carriageReturn then line :: linesFrom true [] rest
    else linesFrom false (line ++ [u]) rest

attribute [grind =] linesFrom

def lines (s : Str) : List Str := linesFrom false [] s

/-- The lines of a text that a line feed ends. -/
def terminated (s : Str) : List Str := lines (s ++ [lineFeed])

theorem linesFrom_append (p q : Str) : ∀ (afterReturn : Bool) (line : Str),
    linesFrom afterReturn line (p ++ lineFeed :: q) =
      linesFrom afterReturn line (p ++ [lineFeed]) ++ linesFrom false [] q := by
  induction p with
  | nil =>
    intro afterReturn line
    cases afterReturn <;> simp [linesFrom]
  | cons u p ih =>
    intro afterReturn line
    rw [List.cons_append, List.cons_append, linesFrom, linesFrom]
    by_cases hlf : u = lineFeed
    · rw [if_pos hlf, if_pos hlf, ih]
      cases afterReturn <;> rfl
    · rw [if_neg hlf, if_neg hlf]
      by_cases hcr : u = carriageReturn
      · rw [if_pos hcr, if_pos hcr, ih, List.cons_append]
      · rw [if_neg hcr, if_neg hcr, ih]

/-- **The lines of parts that each end with a line feed.** -/
theorem lines_parts (parts : List Str) :
    lines (parts.flatMap (fun p => p ++ [lineFeed])) = parts.flatMap terminated := by
  induction parts with
  | nil => rfl
  | cons p parts ih =>
    rw [List.flatMap_cons, List.flatMap_cons, ← ih, List.append_assoc, List.singleton_append, lines, linesFrom_append]
    rfl

/-- No line ends within the text. -/
def OneLine (s : Str) : Prop := lineFeed ∉ s ∧ carriageReturn ∉ s

theorem oneLine_nil : OneLine [] := ⟨nofun, nofun⟩

theorem OneLine.append {a b : Str} (ha : OneLine a) (hb : OneLine b) : OneLine (a ++ b) :=
  ⟨fun h => (List.mem_append.1 h).elim ha.1 hb.1, fun h => (List.mem_append.1 h).elim ha.2 hb.2⟩

theorem linesFrom_plain {a : Str} (ha : OneLine a) (rest : Str) : ∀ line : Str,
    linesFrom false line (a ++ rest) = linesFrom false (line ++ a) rest := by
  induction a with
  | nil =>
    intro line
    rw [List.nil_append, List.append_nil]
  | cons u a ih =>
    intro line
    have hu : u ≠ lineFeed ∧ u ≠ carriageReturn :=
      ⟨fun h => ha.1 (by simp [h]), fun h => ha.2 (by simp [h])⟩
    have ha : OneLine a := ⟨fun h => ha.1 (List.mem_cons_of_mem u h), fun h => ha.2 (List.mem_cons_of_mem u h)⟩
    rw [List.cons_append, linesFrom, if_neg hu.1, if_neg hu.2, ih ha, List.append_assoc]
    rfl

theorem terminated_oneLine {s : Str} (h : OneLine s) : terminated s = [s] := by
  rw [terminated, lines, linesFrom_plain h]
  rfl

/-- A carriage return ends a first line. -/
theorem terminated_return {a b : Str} (ha : OneLine a) :
    terminated (a ++ carriageReturn :: b) = a :: linesFrom true [] (b ++ [lineFeed]) := by
  have hne : carriageReturn ≠ lineFeed := by decide
  rw [terminated, lines, List.append_assoc, linesFrom_plain ha, List.cons_append, linesFrom, if_neg hne, if_pos rfl]
  rfl

theorem linesFrom_ne_nil {s : Str} (hne : s ≠ []) (hlf : lineFeed ∉ s) (afterReturn : Bool) :
    linesFrom afterReturn [] (s ++ [lineFeed]) ≠ [] := by
  have hlonger : ∀ (s line : Str), lineFeed ∉ s → line ≠ [] → linesFrom false line (s ++ [lineFeed]) ≠ [] := by
    intro s
    induction s with
    | nil =>
      intro line _ _
      simp [linesFrom]
    | cons u s ih =>
      intro line hs hline
      rw [List.cons_append, linesFrom, if_neg (fun h => hs (by simp [h]))]
      split
      · nofun
      · exact ih _ (fun h => hs (List.mem_cons_of_mem u h)) (by simp)
  cases s with
  | nil => exact absurd rfl hne
  | cons u s =>
    rw [List.cons_append, linesFrom, if_neg (fun h => hlf (by simp [h]))]
    split
    · nofun
    · exact hlonger s _ (fun h => hlf (List.mem_cons_of_mem u h)) (by simp)

/-! ## Fences -/

def isIndent (u : UInt16) : Bool := u == unit ' '

def isMark (u : UInt16) : Bool := u == unit '\x60' || u == unit '~'

/-- An opening fence: its mark, and how many of them. -/
structure Fence where
  mark : UInt16
  length : Nat
  marks : isMark mark = true
  long : 3 ≤ length
deriving DecidableEq

/-- The line behind its indentation. -/
def unindented (l : Str) : Str := l.dropWhile isIndent

/-- How many marks the line begins with. -/
def run (mark : UInt16) (l : Str) : Nat := ((unindented l).takeWhile (fun u => u == mark)).length

/-- A line indented by four spaces or more belongs to the block before it. -/
def isShallow (l : Str) : Bool := decide ((l.takeWhile isIndent).length ≤ 3)

/-- The fence a line opens; behind backticks there is no further one. -/
def opening (l : Str) : Option Fence :=
  match unindented l with
  | [] => none
  | mark :: _ =>
    if h : isMark mark = true ∧ 3 ≤ run mark l then
      if isShallow l && !(mark == unit '\x60' && ((unindented l).drop (run mark l)).contains mark) then
        some ⟨mark, run mark l, h.1, h.2⟩
      else none
    else none

/-- A closing fence is as long as the opening one and has nothing behind it. -/
def closes (f : Fence) (l : Str) : Bool :=
  isShallow l && decide (f.length ≤ run f.mark l) &&
    ((unindented l).drop (run f.mark l)).all (fun u => isIndent u || u == 0x09)

/-- A line that begins with a mark. -/
def fenceLike (l : Str) : Bool := (unindented l).head?.any isMark

theorem opening_of_not {l : Str} (h : fenceLike l = false) : opening l = none := by
  unfold fenceLike at h
  unfold opening
  cases hl : unindented l with
  | nil => rfl
  | cons mark rest =>
    rw [hl] at h
    have h : isMark mark = false := h
    simp [h]

theorem closes_of_not {l : Str} (h : fenceLike l = false) (f : Fence) : closes f l = false := by
  have hrun : run f.mark l = 0 := by
    unfold fenceLike at h
    unfold run
    cases hl : unindented l with
    | nil => rfl
    | cons mark rest =>
      rw [hl] at h
      have h : isMark mark = false := h
      have hne : (mark == f.mark) = false := by
        rw [beq_eq_false_iff_ne]
        rintro rfl
        rw [f.marks] at h
        cases h
      rw [List.takeWhile_cons, hne]
      rfl
  have hlong : ¬ f.length ≤ 0 := by
    have := f.long
    omega
  simp [closes, hrun, hlong]

/-! ## Blocks -/

inductive Block
  | heading | tableRow | listItem | fence
  /-- Any other line: a paragraph's, a quotation's, an empty one. -/
  | line
deriving DecidableEq

def endsMarker (rest : Str) : Bool := rest.head?.all (fun u => u == unit ' ' || u == 0x09)

def isNumbering (text : Str) : Bool :=
  let digits := text.takeWhile (fun u => decide (48 ≤ u.toNat) && decide (u.toNat ≤ 57))
  let rest := text.drop digits.length
  decide (1 ≤ digits.length) && decide (digits.length ≤ 9) &&
    rest.head?.any (fun u => u == unit '.' || u == unit ')') && endsMarker rest.tail

/-- The block of a line outside a fence that opens none. -/
def blockOf (l : Str) : Block :=
  let text := unindented l
  let marks := (text.takeWhile (fun u => u == unit '#')).length
  if !isShallow l then .line
  else if 1 ≤ marks ∧ marks ≤ 6 ∧ endsMarker (text.drop marks) = true then .heading
  else if text.head?.any (fun u => u == unit '|') then .tableRow
  else if text.head?.any (fun u => u == unit '-' || u == unit '+' || u == unit '*') && endsMarker text.tail ||
    isNumbering text then .listItem
  else .line

/-- The blocks of the lines in order, and the fence that is open behind them. -/
def scan : Option Fence → List Str → List Block × Option Fence
  | s, [] => ([], s)
  | none, l :: ls =>
    match opening l with
    | some f => (.fence :: (scan (some f) ls).1, (scan (some f) ls).2)
    | none => (blockOf l :: (scan none ls).1, (scan none ls).2)
  | some f, l :: ls =>
    if closes f l then (.fence :: (scan none ls).1, (scan none ls).2) else scan (some f) ls

attribute [grind =] scan

/-- The blocks of a document, in order. -/
def blocks (s : Str) : List Block := (scan none (lines s)).1

theorem scan_append (ls ls' : List Str) : ∀ s : Option Fence,
    scan s (ls ++ ls') = ((scan s ls).1 ++ (scan (scan s ls).2 ls').1, (scan (scan s ls).2 ls').2) := by
  induction ls with
  | nil =>
    intro s
    cases s <;> rfl
  | cons l ls ih =>
    intro s
    cases s with
    | none =>
      rw [List.cons_append, scan, scan]
      cases opening l with
      | none => simp only [ih, List.cons_append]
      | some f => simp only [ih, List.cons_append]
    | some f =>
      rw [List.cons_append, scan, scan]
      cases closes f l with
      | true => simp only [ih, if_true, List.cons_append]
      | false => simp only [ih, Bool.false_eq_true, if_false]

/-- Outside a fence every line counts. -/
theorem scan_cons_ne_nil (l : Str) (ls : List Str) : (scan none (l :: ls)).1 ≠ [] := by
  rw [scan]
  cases opening l <;> nofun

theorem scan_plain {ls : List Str} (h : ∀ l ∈ ls, fenceLike l = false) : scan none ls = (ls.map blockOf, none) := by
  induction ls with
  | nil => rfl
  | cons l ls ih =>
    obtain ⟨hl, hls⟩ := List.forall_mem_cons.1 h
    simp only [scan, opening_of_not hl, ih hls, List.map_cons]

theorem scan_inside {f : Fence} {ls : List Str} (h : ∀ l ∈ ls, closes f l = false) : scan (some f) ls = ([], some f) := by
  induction ls with
  | nil => rfl
  | cons l ls ih =>
    obtain ⟨hl, hls⟩ := List.forall_mem_cons.1 h
    rw [scan, hl]
    exact ih hls

theorem scan_inside_plain {f : Fence} {ls : List Str} (h : ∀ l ∈ ls, fenceLike l = false) :
    scan (some f) ls = ([], some f) :=
  scan_inside (fun l hl => closes_of_not (h l hl) f)

/-! ## What the lines of a text begin with -/

def isBreak (u : UInt16) : Bool := u == lineFeed || u == carriageReturn

/-- A line stands at the beginning of the text or behind a unit that ends a line. -/
theorem mem_linesFrom {l : Str} : ∀ {s line : Str} {afterReturn : Bool}, l ∈ linesFrom afterReturn line s →
    ∃ pre post, line ++ s = pre ++ l ++ post ∧ (pre = [] ∨ ∃ before u, pre = before ++ [u] ∧ isBreak u = true) := by
  intro s
  induction s with
  | nil =>
    intro line afterReturn h
    rw [linesFrom] at h
    split at h
    · cases h
    · rw [List.mem_singleton.1 h]
      exact ⟨[], [], by simp, .inl rfl⟩
  | cons u s ih =>
    intro line afterReturn h
    -- the lines behind one that ends in `u`
    have hbehind : ∀ afterReturn, isBreak u = true → l ∈ linesFrom afterReturn [] s → ∃ pre post,
        line ++ u :: s = pre ++ l ++ post ∧ (pre = [] ∨ ∃ before v, pre = before ++ [v] ∧ isBreak v = true) := by
      intro afterReturn hu h
      obtain ⟨pre, post, hs, hpre⟩ := ih h
      refine ⟨line ++ u :: pre, post, ?_, .inr ?_⟩
      · rw [List.nil_append] at hs
        simp [hs]
      · rcases hpre with rfl | ⟨before, v, rfl, hv⟩
        · exact ⟨line, u, rfl, hu⟩
        · exact ⟨line ++ u :: before, v, by simp, hv⟩
    have hfirst : l = line → ∃ pre post, line ++ u :: s = pre ++ l ++ post ∧
        (pre = [] ∨ ∃ before v, pre = before ++ [v] ∧ isBreak v = true) :=
      fun h => ⟨[], u :: s, by simp [h], .inl rfl⟩
    rw [linesFrom] at h
    split at h
    · rename_i hlf
      have hu : isBreak u = true := by simp [isBreak, hlf]
      split at h
      · exact hbehind false hu h
      · exact (List.mem_cons.1 h).elim hfirst (hbehind false hu)
    · split at h
      · rename_i hcr
        have hu : isBreak u = true := by simp [isBreak, hcr]
        exact (List.mem_cons.1 h).elim hfirst (hbehind true hu)
      · obtain ⟨pre, post, hs, hpre⟩ := ih h
        exact ⟨pre, post, by rw [← hs, List.append_assoc, List.singleton_append], hpre⟩

/-- No line is bad from its first unit on that is no indentation; `atStart` says that the line so far is indentation. -/
def clear (bad : Str → Bool) : Bool → Str → Bool
  | _, [] => true
  | atStart, u :: rest =>
    if isBreak u then clear bad true rest
    else if isIndent u then clear bad atStart rest
    else !(atStart && bad (u :: rest)) && clear bad false rest

attribute [grind =] clear

section Clear

variable {bad : Str → Bool}

theorem clear_behind_break {u : UInt16} (hu : isBreak u = true) (rest : Str) : ∀ (before : Str) (atStart : Bool),
    clear bad atStart (before ++ u :: rest) = true → clear bad true rest = true := by
  intro before
  induction before with
  | nil =>
    intro atStart h
    rw [List.nil_append, clear, if_pos hu] at h
    exact h
  | cons v before ih =>
    intro atStart h
    rw [List.cons_append, clear] at h
    split at h
    · exact ih true h
    · split at h
      · exact ih atStart h
      · exact ih false (Bool.and_eq_true _ _ ▸ h).2

theorem clear_unindented (rest : Str) : ∀ l : Str, OneLine l → clear bad true (l ++ rest) = true →
    unindented l = [] ∨ bad (unindented l ++ rest) = false := by
  intro l
  induction l with
  | nil => exact fun _ _ => .inl rfl
  | cons u l ih =>
    intro hl h
    have hu : isBreak u = false := by
      have h1 : u ≠ lineFeed := fun e => hl.1 (by simp [e])
      have h2 : u ≠ carriageReturn := fun e => hl.2 (by simp [e])
      simp [isBreak, h1, h2]
    rw [List.cons_append, clear, hu] at h
    unfold unindented at ih ⊢
    rw [List.dropWhile_cons]
    cases hi : isIndent u with
    | true =>
      rw [hi] at h
      exact ih ⟨fun e => hl.1 (List.mem_cons_of_mem u e), fun e => hl.2 (List.mem_cons_of_mem u e)⟩ h
    | false =>
      rw [hi] at h
      right
      simp only [Bool.false_eq_true, if_false, Bool.true_and, Bool.and_eq_true, Bool.not_eq_true'] at h ⊢
      exact h.1

theorem oneLine_of_mem {l : Str} : ∀ {s line : Str} {afterReturn : Bool}, OneLine line → l ∈ linesFrom afterReturn line s →
    OneLine l := by
  intro s
  induction s with
  | nil =>
    intro line afterReturn hline h
    rw [linesFrom] at h
    split at h
    · cases h
    · rw [List.mem_singleton.1 h]
      exact hline
  | cons u s ih =>
    intro line afterReturn hline h
    rw [linesFrom] at h
    split at h
    · split at h
      · exact ih oneLine_nil h
      · rcases List.mem_cons.1 h with rfl | h
        · exact hline
        · exact ih oneLine_nil h
    · rename_i hlf
      split at h
      · rcases List.mem_cons.1 h with rfl | h
        · exact hline
        · exact ih oneLine_nil h
      · rename_i hcr
        have hu : OneLine [u] := ⟨fun e => hlf (List.mem_singleton.1 e).symm, fun e => hcr (List.mem_singleton.1 e).symm⟩
        exact ih (hline.append hu) h

/-- **What the lines of a clear text begin with.** -/
theorem clear_lines {s : Str} (h : clear bad true s = true) : ∀ l ∈ lines s,
    unindented l = [] ∨ ∃ rest, bad (unindented l ++ rest) = false := by
  intro l hl
  obtain ⟨pre, post, hs, hpre⟩ := mem_linesFrom hl
  have hclear : clear bad true (l ++ post) = true := by
    rw [List.nil_append] at hs
    rw [hs, List.append_assoc] at h
    rcases hpre with rfl | ⟨before, u, rfl, hu⟩
    · exact h
    · rw [List.append_assoc, List.singleton_append] at h
      exact clear_behind_break hu (l ++ post) before true h
  have hline : OneLine l := oneLine_of_mem oneLine_nil hl
  exact (clear_unindented post l hline hclear).imp id (fun hb => ⟨post, hb⟩)

end Clear

/-- A text of which no line begins with a mark. -/
def quiet (atStart : Bool) (s : Str) : Bool := clear (fun t => t.head?.any isMark) atStart s

theorem fenceLike_of_quiet {s : Str} (h : quiet true s = true) : ∀ l ∈ lines s, fenceLike l = false := by
  intro l hl
  unfold fenceLike
  rcases clear_lines h l hl with hnil | ⟨rest, hbad⟩
  · rw [hnil]
    rfl
  · cases hl : unindented l with
    | nil => rfl
    | cons u t =>
      rw [hl] at hbad
      exact hbad

/-- A text without line ends whose first unit is neither indentation nor a mark. -/
theorem quiet_word {u : UInt16} {w : Str} (hw : OneLine (u :: w)) (hu : isIndent u = false ∧ isMark u = false)
    (atStart : Bool) (rest : Str) : quiet atStart (u :: w ++ rest) = quiet false rest := by
  have hbreak : ∀ x ∈ u :: w, isBreak x = false := by
    intro x hx
    have h1 : x ≠ lineFeed := fun e => hw.1 (e ▸ hx)
    have h2 : x ≠ carriageReturn := fun e => hw.2 (e ▸ hx)
    simp [isBreak, h1, h2]
  have hgo : ∀ v : Str, (∀ x ∈ v, isBreak x = false) → quiet false (v ++ rest) = quiet false rest := by
    intro v
    induction v with
    | nil => exact fun _ => rfl
    | cons x v ih =>
      intro hv
      obtain ⟨hx, hv⟩ := List.forall_mem_cons.1 hv
      unfold quiet at ih ⊢
      rw [List.cons_append, clear, hx]
      cases isIndent x <;> simp [ih hv]
  obtain ⟨hx, hw⟩ := List.forall_mem_cons.1 hbreak
  have hrest := hgo w hw
  unfold quiet at hrest ⊢
  rw [List.cons_append, clear, hx, hu.1]
  simp [hu.2, hrest]

/-- The line begins with three backticks. -/
def startsFence (t : Str) : Bool := (List.replicate 3 (unit '\x60')).isPrefixOf t

theorem startsFence_of_run {t : Str} (h : 3 ≤ (t.takeWhile (fun u => u == unit '\x60')).length) (rest : Str) :
    startsFence (t ++ rest) = true := by
  have hmarks : ∀ u ∈ t.takeWhile (fun u => u == unit '\x60'), u = unit '\x60' :=
    fun u hu => by simpa using List.mem_takeWhile_imp hu
  have hthree : List.replicate 3 (unit '\x60') <+: t.takeWhile (fun u => u == unit '\x60') := by
    rw [List.eq_replicate_of_mem hmarks]
    refine ⟨List.replicate ((t.takeWhile (fun u => u == unit '\x60')).length - 3) (unit '\x60'), ?_⟩
    rw [List.replicate_append_replicate]
    congr 1
    omega
  exact List.isPrefixOf_iff_prefix.2 (hthree.trans ((List.takeWhile_prefix _).trans (List.prefix_append t rest)))

/-- A text of which no line begins with three backticks closes no fence of backticks. -/
theorem closes_of_clear {s : Str} (h : clear startsFence true s = true) {f : Fence} (hf : f.mark = unit '\x60') :
    ∀ l ∈ lines s, closes f l = false := by
  intro l hl
  have hrun : run f.mark l < 3 := by
    by_contra hlong
    rw [hf, run] at hlong
    rcases clear_lines h l hl with hnil | ⟨rest, hbad⟩
    · rw [hnil] at hlong
      exact hlong (by decide)
    · have hthree : 3 ≤ ((unindented l).takeWhile (fun u => u == unit '\x60')).length := by omega
      have hmarks := startsFence_of_run hthree rest
      rw [hmarks] at hbad
      cases hbad
  have hlong : ¬ f.length ≤ run f.mark l := by
    have := f.long
    omega
  simp [closes, hlong]

end Markdown
