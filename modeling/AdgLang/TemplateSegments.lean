import AdgLang.FunctionTypeChecker
import Mathlib.Data.List.Chain
import Mathlib.Data.List.TakeWhile
/-!
# TemplateSegments — what `FunctionTemplate.Parse` makes of a template

The segments of a template spell it, each placeholder between its braces with the white space that was trimmed from its
name.  What is refused is said of the template by itself: `Outside` is the scan from the left that passes over whole
placeholders, and a template is refused exactly where that scan meets a brace it cannot pass (`Broken`).
-/
namespace Adg
namespace FunctionTemplate

/-! ## Spelling -/

/-- A literal segment is written as it is, a placeholder between braces with the white space around its name. -/
def Written (segment : TemplateSegment) (piece : Text) : Prop :=
  if segment.isPlaceholder then ∃ before after, (∀ c ∈ before ++ after, isWhiteSpace c = true) ∧
    trim (before ++ segment.text ++ after) = segment.text ∧
    piece = '\x7b' :: (before ++ segment.text ++ after) ++ ['\x7d']
  else piece = segment.text

/-- Segments in which literal text is neither empty nor cut in two nor takes in a placeholder. -/
structure Proper (segments : List TemplateSegment) : Prop where
  literals : ∀ segment ∈ segments, segment.isPlaceholder = false → segment.text ≠ [] ∧ '\x7b' ∉ segment.text
  apart : segments.IsChain (fun segment next => segment.isPlaceholder = true ∨ next.isPlaceholder = true)

/-- Segments that spell a text. -/
def Spells (segments : List TemplateSegment) (text : Text) : Prop :=
  ∃ pieces, List.Forall₂ Written segments pieces ∧ pieces.flatten = text

theorem Spells.append {segments segments' : List TemplateSegment} {text text' : Text} (h : Spells segments text)
    (h' : Spells segments' text') : Spells (segments ++ segments') (text ++ text') := by
  obtain ⟨pieces, hpieces, rfl⟩ := h
  obtain ⟨pieces', hpieces', rfl⟩ := h'
  exact ⟨pieces ++ pieces', List.rel_append hpieces hpieces', List.flatten_append⟩

theorem spells_flush (literal : Text) : Spells (flush literal) literal := by
  unfold flush
  split
  · exact ⟨[literal], .cons rfl .nil, by simp⟩
  · rename_i h
    rw [gt_iff_lt, List.length_pos_iff, not_not] at h
    exact ⟨[], .nil, h.symm⟩

/-- A name is its trimmed text between white space. -/
theorem exists_trimmed (name : Text) :
    ∃ before after, (∀ c ∈ before ++ after, isWhiteSpace c = true) ∧ name = before ++ trim name ++ after := by
  refine ⟨name.takeWhile isWhiteSpace, ((trimStart name).reverse.takeWhile isWhiteSpace).reverse, fun c hc => ?_, ?_⟩
  · obtain hc | hc := List.mem_append.1 hc
    · exact List.all_eq_true.1 List.all_takeWhile c hc
    · exact List.all_eq_true.1 List.all_takeWhile c (List.mem_reverse.1 hc)
  · have hend : trimEnd (trimStart name) ++ ((trimStart name).reverse.takeWhile isWhiteSpace).reverse = trimStart name := by
      rw [trimEnd, ← List.reverse_append, List.takeWhile_append_dropWhile, List.reverse_reverse]
    rw [trim, List.append_assoc, hend, trimStart, List.takeWhile_append_dropWhile]

theorem spells_placeholder (name : Text) : Spells [⟨true, trim name⟩] ('\x7b' :: name ++ ['\x7d']) := by
  obtain ⟨before, after, hspace, hname⟩ := exists_trimmed name
  refine ⟨['\x7b' :: name ++ ['\x7d']], .cons ?_ .nil, by simp⟩
  exact ⟨before, after, hspace, by rw [← hname], by rw [← hname]⟩

theorem proper_flush {literal : Text} (h : '\x7b' ∉ literal) : Proper (flush literal) := by
  unfold flush
  split
  · rename_i hne
    refine ⟨fun segment hsegment _ => ?_, .singleton _⟩
    rw [List.mem_singleton.1 hsegment]
    exact ⟨List.length_pos_iff.1 hne, h⟩
  · exact ⟨nofun, .nil⟩

/-- A placeholder after the literal text that was collected. -/
theorem Proper.placeholder {segments : List TemplateSegment} (h : Proper segments) {literal name : Text}
    (hliteral : '\x7b' ∉ literal) : Proper (flush literal ++ ⟨true, name⟩ :: segments) := by
  refine ⟨fun segment hsegment hkind => ?_, ?_⟩
  · obtain hsegment | hsegment := List.mem_append.1 hsegment
    · exact (proper_flush hliteral).literals segment hsegment hkind
    obtain rfl | hsegment := List.mem_cons.1 hsegment
    · cases hkind
    · exact h.literals segment hsegment hkind
  · have htail : (⟨true, name⟩ :: segments).IsChain
        (fun segment next : TemplateSegment => segment.isPlaceholder = true ∨ next.isPlaceholder = true) := by
      cases segments with
      | nil => exact .singleton _
      | cons next rest => exact .cons_cons (.inl rfl) h.apart
    unfold flush
    split
    · exact .cons_cons (.inr rfl) htail
    · exact htail

/-! ## The loop -/

/-- What the loop still has to spell: the literal text, then the name with the brace before it, then the rest. -/
def pending (literal : Text) (name : Option Text) (rest : Text) : Text :=
  literal ++ (match name with | none => [] | some name => '\x7b' :: name) ++ rest

/-- **The loop spells what was pending**, in proper segments. -/
theorem parseFrom_spells (template : Text) : ∀ (rest literal : Text) (name : Option Text) (segments : List TemplateSegment),
    '\x7b' ∉ literal → parseFrom template rest literal name = .ok segments →
      Spells segments (pending literal name rest) ∧ Proper segments
  | [], literal, none, segments, hliteral, h => by
    cases h
    simp only [pending, List.append_nil]
    exact ⟨spells_flush literal, proper_flush hliteral⟩
  | [], literal, some name, segments, hliteral, h => by cases h
  | c :: rest, literal, none, segments, hliteral, h => by
    rw [parseFrom] at h
    split at h
    · rename_i hc
      subst hc
      obtain ⟨hspells, hproper⟩ := parseFrom_spells template rest literal (some []) segments hliteral h
      refine ⟨?_, hproper⟩
      simpa [pending] using hspells
    · rename_i hc
      have hnext : '\x7b' ∉ literal ++ [c] := by
        rw [List.mem_append, List.mem_singleton, not_or]
        exact ⟨hliteral, fun he => hc he.symm⟩
      obtain ⟨hspells, hproper⟩ := parseFrom_spells template rest (literal ++ [c]) none segments hnext h
      refine ⟨?_, hproper⟩
      simpa [pending] using hspells
  | c :: rest, literal, some name, segments, hliteral, h => by
    rw [parseFrom] at h
    split at h
    · rename_i hc
      subst hc
      split at h
      · cases h
      · obtain ⟨segments', h', rfl⟩ := map_eq_ok.1 h
        obtain ⟨hspells, hproper⟩ := parseFrom_spells template rest [] none segments' List.not_mem_nil h'
        refine ⟨?_, hproper.placeholder hliteral⟩
        have hall := (spells_flush literal).append ((spells_placeholder name).append hspells)
        simpa [pending] using hall
    · obtain ⟨hspells, hproper⟩ := parseFrom_spells template rest literal (some (name ++ [c])) segments hliteral h
      refine ⟨?_, hproper⟩
      simpa [pending] using hspells

/-! ## Refusals -/

/-- The rests of a template that a scan from the left meets outside placeholders; a placeholder ends at the first closing
brace after it opens. -/
inductive Outside (template : Text) : Text → Prop
  | start : Outside template template
  | literal {c : Char} {rest : Text} (h : Outside template (c :: rest)) (hc : c ≠ '\x7b') : Outside template rest
  | placeholder {name rest : Text} (h : Outside template ('\x7b' :: (name ++ '\x7d' :: rest))) (hname : '\x7d' ∉ name) :
    Outside template rest

/-- What follows an opening brace has no closing brace, or only white space before it. -/
def Unpassable (rest : Text) : Prop :=
  '\x7d' ∉ rest ∨ ∃ name after, rest = name ++ '\x7d' :: after ∧ ∀ c ∈ name, isWhiteSpace c = true

/-- An opening brace outside placeholders is one that cannot be passed. -/
def Broken (template : Text) : Prop := ∃ rest, Outside template ('\x7b' :: rest) ∧ Unpassable rest

theorem trim_eq_nil_iff {name : Text} : (trim name).length = 0 ↔ ∀ c ∈ name, isWhiteSpace c = true := by
  rw [List.length_eq_zero_iff]
  constructor
  · intro h c hc
    obtain ⟨before, after, hspace, hname⟩ := exists_trimmed name
    rw [hname, h, List.append_nil] at hc
    exact hspace c hc
  · intro h
    rw [trim, trimStart, List.dropWhile_eq_nil_iff.2 h]
    rfl

/-- The loop in a name goes on to its end. -/
theorem parseFrom_name (template literal : Text) : ∀ {name : Text} (before rest : Text), '\x7d' ∉ name →
    parseFrom template (name ++ rest) literal (some before) = parseFrom template rest literal (some (before ++ name))
  | [], before, rest, _ => by rw [List.nil_append, List.append_nil]
  | c :: name, before, rest, h => by
    rw [List.mem_cons, not_or] at h
    rw [List.cons_append, parseFrom, if_neg (fun hc => h.1 hc.symm), parseFrom_name template literal _ rest h.2,
      List.append_assoc]
    rfl

/-- Where the loop returned, it returned from every rest outside placeholders. -/
theorem ok_of_outside {template rest : Text} {segments : List TemplateSegment} (h : parse template = .ok segments)
    (houtside : Outside template rest) : ∃ literal segments', parseFrom template rest literal none = .ok segments' := by
  induction houtside with
  | start => exact ⟨[], segments, h⟩
  | literal _ hc ih =>
    obtain ⟨literal, segments', hok⟩ := ih
    rw [parseFrom, if_neg hc] at hok
    exact ⟨_, _, hok⟩
  | placeholder _ hname ih =>
    obtain ⟨literal, segments', hok⟩ := ih
    rw [parseFrom, if_pos rfl, parseFrom_name template literal _ _ hname, parseFrom, if_pos rfl] at hok
    split at hok
    · cases hok
    · obtain ⟨segments'', hok, -⟩ := map_eq_ok.1 hok
      exact ⟨[], segments'', hok⟩

/-- Where a brace cannot be passed the loop throws. -/
theorem not_ok_of_unpassable {template rest literal : Text} {segments : List TemplateSegment} (h : Unpassable rest) :
    parseFrom template ('\x7b' :: rest) literal none ≠ .ok segments := by
  intro hok
  rw [parseFrom, if_pos rfl] at hok
  by_cases hclosed : '\x7d' ∈ rest
  · obtain hopen | ⟨name, after, rfl, hspace⟩ := h
    · exact hopen hclosed
    have hname : '\x7d' ∉ name := fun hmem => absurd (hspace _ hmem) (by decide)
    rw [parseFrom_name template literal _ _ hname, parseFrom, if_pos rfl, List.nil_append,
      if_pos (trim_eq_nil_iff.2 hspace)] at hok
    cases hok
  · have hend := parseFrom_name template literal [] [] hclosed
    rw [List.append_nil] at hend
    rw [hend] at hok
    cases hok

/-- The loop, outside a placeholder or in one whose name it has read so far, throws only over a broken template. -/
theorem broken_of_error (template : Text) : ∀ (rest literal : Text) (name : Option Text) (e : AdgException),
    (match name with
      | none => Outside template rest
      | some name => Outside template ('\x7b' :: (name ++ rest)) ∧ '\x7d' ∉ name) →
    parseFrom template rest literal name = .error e → Broken template
  | [], literal, none, e, _, h => by cases h
  | [], literal, some name, e, ⟨houtside, hname⟩, _ => by
    rw [List.append_nil] at houtside
    exact ⟨name, houtside, .inl hname⟩
  | c :: rest, literal, none, e, houtside, h => by
    rw [parseFrom] at h
    split at h
    · rename_i hc
      exact broken_of_error template rest literal (some []) e ⟨hc ▸ houtside, List.not_mem_nil⟩ h
    · rename_i hc
      exact broken_of_error template rest (literal ++ [c]) none e (houtside.literal hc) h
  | c :: rest, literal, some name, e, ⟨houtside, hname⟩, h => by
    rw [parseFrom] at h
    split at h
    · rename_i hc
      subst hc
      split at h
      · rename_i hblank
        exact ⟨_, houtside, .inr ⟨name, rest, rfl, trim_eq_nil_iff.1 hblank⟩⟩
      · cases hrest : parseFrom template rest [] none with
        | error e' => exact broken_of_error template rest [] none e' (houtside.placeholder hname) hrest
        | ok segments =>
          rw [hrest] at h
          cases h
    · rename_i hc
      refine broken_of_error template rest literal (some (name ++ [c])) e ⟨?_, ?_⟩ h
      · rw [List.append_assoc]
        exact houtside
      · rw [List.mem_append, List.mem_singleton, not_or]
        exact ⟨hname, fun he => hc he.symm⟩

/-- **`Parse` is lossless and refuses exactly what is broken**: the segments spell the template, literal text is whole and
without opening braces, and a template is refused where the scan meets a brace that cannot be passed. -/
theorem parse_lossless (template : Text) :
    (∀ segments, parse template = .ok segments →
      (∃ pieces, List.Forall₂ Written segments pieces ∧ pieces.flatten = template) ∧
      (∀ segment ∈ segments, segment.isPlaceholder = false → segment.text ≠ [] ∧ '\x7b' ∉ segment.text) ∧
      segments.IsChain (fun segment next => segment.isPlaceholder = true ∨ next.isPlaceholder = true)) ∧
    ((∃ e, parse template = .error e) ↔ Broken template) := by
  refine ⟨fun segments h => ?_, ⟨fun ⟨e, h⟩ => ?_, fun ⟨rest, houtside, hbrace⟩ => ?_⟩⟩
  · obtain ⟨hspells, hproper⟩ := parseFrom_spells template template [] none segments List.not_mem_nil h
    exact ⟨hspells, hproper.literals, hproper.apart⟩
  · exact broken_of_error template template [] none e .start h
  · cases h : parse template with
    | error e => exact ⟨e, rfl⟩
    | ok segments =>
      obtain ⟨literal, segments', hok⟩ := ok_of_outside h houtside
      exact absurd hok (not_ok_of_unpassable hbrace)

/-- A template of literal text with a closing brace in it, and of a name with an opening one. -/
def mixed : Text := "a\x7d\x7b \x7bb \x7dc".toList

theorem parse_lossless_mixed : ∃ pieces,
    List.Forall₂ Written [⟨false, "a\x7d".toList⟩, ⟨true, "\x7bb".toList⟩, ⟨false, "c".toList⟩] pieces ∧
      pieces.flatten = mixed :=
  ((parse_lossless mixed).1 _ (by decide)).1

end FunctionTemplate
end Adg
