import AdgLang.Contracts
import AdgLang.FunctionSyntax
import Mathlib.Data.List.TakeWhile
/-!
# StatementTokens — the words of an accepted statement line

A statement line, cut by the tokenizer of function lines into quoted and bare tokens.  Every surface pattern is a run of
items (keywords, quoted texts, labels) with white space between them, so the tokens of a line that it matches are the
items with the groups' values (`tokenize_spaced`).  `Reading` says what the tokens of an accepted statement are.
-/
namespace Adg

namespace FunctionSyntax

/-! ## The tokenizer -/

theorem tokenize_spaces : ∀ {t : Text} (s : Text), (∀ c ∈ t, isWhiteSpace c = true) →
    tokenizeFrom (t ++ s) .between = tokenizeFrom s .between
  | [], _, _ => rfl
  | c :: t, s, h => by
    rw [List.cons_append, tokenizeFrom, if_pos (h c List.mem_cons_self)]
    exact tokenize_spaces s (fun d hd => h d (List.mem_cons_of_mem _ hd))

theorem tokenize_quoted (s : Text) : ∀ (t text : Text), '"' ∉ t → tokenizeFrom (t ++ '"' :: s) (.quoted text) =
    (⟨text ++ t, true⟩ :: ·) <$> tokenizeFrom s .between
  | [], text, _ => by
    rw [List.nil_append, tokenizeFrom, if_pos rfl, List.append_nil]
  | c :: t, text, h => by
    have hc : c ≠ '"' := fun hc => h (hc ▸ List.mem_cons_self)
    rw [List.cons_append, tokenizeFrom, if_neg hc,
      tokenize_quoted s t _ (fun ht => h (List.mem_cons_of_mem _ ht)), List.append_assoc]
    rfl

/-- What ends a bare token other than a quotation mark. -/
def AtBreak (s : Text) : Prop := ∀ c ∈ s.head?, isWhiteSpace c = true

theorem tokenize_bareFrom {s : Text} (hs : AtBreak s) : ∀ (t text : Text), '"' ∉ t →
    (∀ c ∈ t, isWhiteSpace c = false) → tokenizeFrom (t ++ s) (.bare text) =
      (⟨text ++ t, false⟩ :: ·) <$> tokenizeFrom s .between
  | [], text, _, _ => by
    rw [List.nil_append, List.append_nil]
    cases s with
    | nil => rfl
    | cons c s =>
      have hc : isWhiteSpace c = true := hs c rfl
      rw [tokenizeFrom, if_pos hc, tokenizeFrom, if_pos hc]
  | c :: t, text, h, hw => by
    have hc : c ≠ '"' := fun hc => h (hc ▸ List.mem_cons_self)
    have hcw : ¬ isWhiteSpace c = true := by rw [hw c List.mem_cons_self]; exact Bool.false_ne_true
    rw [List.cons_append, tokenizeFrom, if_neg hcw, if_neg hc,
      tokenize_bareFrom hs t _ (fun ht => h (List.mem_cons_of_mem _ ht))
        (fun d hd => hw d (List.mem_cons_of_mem _ hd)), List.append_assoc]
    rfl

/-- A text that stands for one bare token. -/
structure Plain (t : Text) : Prop where
  ne_nil : t ≠ []
  no_quote : '"' ∉ t
  no_space : ∀ c ∈ t, isWhiteSpace c = false

instance (t : Text) : Decidable (Plain t) :=
  decidable_of_iff (t ≠ [] ∧ '"' ∉ t ∧ ∀ c ∈ t, isWhiteSpace c = false)
    ⟨fun ⟨h, h', h''⟩ => ⟨h, h', h''⟩, fun ⟨h, h', h''⟩ => ⟨h, h', h''⟩⟩

theorem tokenize_bare {t s : Text} (ht : Plain t) (hs : AtBreak s) :
    tokenizeFrom (t ++ s) .between = (⟨t, false⟩ :: ·) <$> tokenizeFrom s .between := by
  obtain ⟨c, t, rfl⟩ := List.exists_cons_of_ne_nil ht.ne_nil
  have hc : c ≠ '"' := fun hc => ht.no_quote (hc ▸ List.mem_cons_self)
  have hcw : ¬ isWhiteSpace c = true := by rw [ht.no_space c List.mem_cons_self]; exact Bool.false_ne_true
  rw [List.cons_append, tokenizeFrom, if_neg hcw, if_neg hc]
  exact tokenize_bareFrom hs t [c] (fun h => ht.no_quote (List.mem_cons_of_mem _ h))
    (fun d hd => ht.no_space d (List.mem_cons_of_mem _ hd))

/-- **White space at the end of a line is no token.** -/
theorem tokenize_append_spaces {t : Text} (ht : ∀ c ∈ t, isWhiteSpace c = true) : ∀ (s : Text) (r : Reading),
    tokenizeFrom (s ++ t) r = tokenizeFrom s r
  | [], .between => by
    have h := tokenize_spaces [] ht
    rw [List.append_nil] at h
    exact h
  | [], .quoted text => unterminated ht text
  | [], .bare text => by
    cases t with
    | nil => rfl
    | cons c t =>
      have h := tokenize_spaces [] (fun d hd => ht d (List.mem_cons_of_mem c hd))
      rw [List.append_nil] at h
      simp only [List.nil_append, tokenizeFrom, if_pos (ht c List.mem_cons_self), h]
      rfl
  | c :: s, .between => by
    simp only [List.cons_append, tokenizeFrom, tokenize_append_spaces ht s]
  | c :: s, .quoted text => by
    simp only [List.cons_append, tokenizeFrom, tokenize_append_spaces ht s]
  | c :: s, .bare text => by
    simp only [List.cons_append, tokenizeFrom, tokenize_append_spaces ht s]
where
  unterminated : ∀ {t : Text}, (∀ c ∈ t, isWhiteSpace c = true) → ∀ text : Text,
      tokenizeFrom t (.quoted text) =
        throwParse .unknown "Unterminated string literal in ADG function statement.".toList
    | [], _, _ => rfl
    | c :: t, ht, text => by
      have hc : c ≠ '"' := fun hc => by
        have := ht c List.mem_cons_self
        rw [hc] at this
        revert this; decide
      rw [tokenizeFrom, if_neg hc, unterminated (fun d hd => ht d (List.mem_cons_of_mem _ hd))]

/-- Trimming keeps the tokens. -/
theorem tokenize_trim (s : Text) : tokenizeFrom (trim s) .between = tokenizeFrom s .between := by
  have hsplit : ∀ u : Text, ∃ t, (∀ c ∈ t, isWhiteSpace c = true) ∧ u = t ++ u.dropWhile isWhiteSpace := fun u =>
    ⟨u.takeWhile isWhiteSpace, fun c hc => List.mem_takeWhile_imp hc, List.takeWhile_append_dropWhile.symm⟩
  obtain ⟨t, ht, hs⟩ := hsplit s
  obtain ⟨t', ht', hs'⟩ := hsplit (trimStart s).reverse
  have hend : trimStart s = trim s ++ t'.reverse := by
    rw [trim, trimEnd, ← List.reverse_append, ← hs', List.reverse_reverse]
  have hstart : tokenizeFrom s .between = tokenizeFrom (trimStart s) .between := by
    conv_lhs => rw [hs]
    exact tokenize_spaces _ ht
  rw [hstart, hend, tokenize_append_spaces (fun c hc => ht' c (List.mem_reverse.1 hc))]

end FunctionSyntax

namespace SurfaceParser

open FunctionSyntax

/-! ## Items of a pattern -/

/-- A part of a statement pattern that stands between white space. -/
inductive Item
  | keyword (t : Text)
  | quoted (g : Group)
  | label (g : Group)

def Item.pattern : Item → Regex Group
  | .keyword t => .literal t
  | .quoted g => SurfaceParser.quoted g
  | .label g => .group g word

def Item.group : Item → Option Group
  | .keyword _ => none
  | .quoted g => some g
  | .label g => some g

/-- The token an item reads. -/
def Item.token (cs : Regex.Captures Group) : Item → FunctionToken
  | .keyword t => ⟨t, false⟩
  | .quoted g => ⟨cs.value g, true⟩
  | .label g => ⟨cs.value g, false⟩

/-- The items with white space between them. -/
def spaced : List Item → List (Regex Group)
  | [] => []
  | [i] => [i.pattern]
  | i :: j :: is => i.pattern :: spaces1 :: spaced (j :: is)

def verbalItems : List Item :=
  [.keyword "verbal".toList, .quoted .verb, .keyword "fael".toList, .quoted .fail, .label .failCase]

def mafulItems : List Item := [.keyword "maful".toList, .quoted .maful, .label .mafulCase]

def arabicVerbalItems : List Item :=
  [.keyword "جملةٌ".toList, .keyword "فعليةٌ".toList, .quoted .verb, .keyword "فاعلُها".toList, .quoted .fail,
    .label .failCase, .keyword "مفعولُها".toList, .quoted .maful, .label .mafulCase]

/-- An adjunct statement with the keywords of its surface. -/
def adjunctItems (matchedArabic : Bool) : List Item :=
  (if matchedArabic then [.keyword "جارٌّ".toList, .keyword "ومجرورٌ".toList]
    else [.keyword "adjunct".toList, .keyword "jarr".toList]) ++
  [.quoted .operator, .keyword (if matchedArabic then "إضافةٌ".toList else "idafa".toList), .quoted .mudaf,
    .label .mudafCase, .quoted .mudafIlayh, .label .mudafIlayhCase]

def connectorItems (matchedArabic : Bool) : List Item :=
  [.keyword (if matchedArabic then "رابطٌ".toList else "connector".toList), .quoted .surface, .label .role]

def clauseItems (matchedArabic : Bool) : List Item :=
  (if matchedArabic then [.keyword "جملةٌ".toList, .keyword "فعلُها".toList]
    else [.keyword "clause".toList, .keyword "fil".toList]) ++ [.quoted .verb]

def clauseIsmItems (matchedArabic : Bool) : List Item :=
  [.keyword (if matchedArabic then "اسمٌ".toList else "ism".toList), .quoted .surface, .label .marker]

theorem verbalPattern_eq : verbalPattern = .seqs (spaced verbalItems ++
    [.opt (.seqs (spaces1 :: spaced mafulItems)), spaces, .eos]) := rfl

theorem arabicVerbalPattern_eq : arabicVerbalPattern = .seqs (spaced arabicVerbalItems ++ [spaces, .eos]) := rfl

theorem adjunctPattern_eq (matchedArabic : Bool) : (if matchedArabic then arabicJarrIdafaPattern
    else jarrIdafaPattern) = .seqs (spaced (adjunctItems matchedArabic) ++ [spaces, .eos]) := by
  cases matchedArabic <;> rfl

theorem connectorPattern_eq (matchedArabic : Bool) : (if matchedArabic then arabicConnectorPattern
    else connectorPattern) = .seqs (spaced (connectorItems matchedArabic) ++ [spaces, .eos]) := by
  cases matchedArabic <;> rfl

theorem clausePattern_eq (matchedArabic : Bool) : (if matchedArabic then arabicClausePattern
    else clausePattern) = .seqs (spaced (clauseItems matchedArabic) ++ [.group .rest line, .eos]) := by
  cases matchedArabic <;> rfl

theorem clauseIsmPattern_eq (matchedArabic : Bool) : (if matchedArabic then arabicClauseIsmPattern
    else clauseIsmPattern) = .seqs (spaced (clauseIsmItems matchedArabic) ++ [.group .rest line, .eos]) := by
  cases matchedArabic <;> rfl

/-! ## The tokens of a match -/

section Match

variable {s s' : Text} {cs cs' : Regex.Captures Group}

theorem consumes_spaces (h : spaces.Consumes s cs s' cs') :
    cs' = cs ∧ ∃ t, (∀ c ∈ t, isWhiteSpace c = true) ∧ s = t ++ s' := h

theorem consumes_quoted {g : Group} (h : (quoted g).Consumes s cs s' cs') :
    ∃ t, '"' ∉ t ∧ s = '"' :: (t ++ '"' :: s') ∧ cs' = (g, t) :: cs := by
  obtain ⟨_, _, hopen, _, _, ⟨t, _, htext, rfl, rfl⟩, _, _, hclose, rfl, rfl⟩ := h
  obtain ⟨rfl, rfl⟩ := Regex.consumes_literal hopen
  obtain ⟨rfl, rfl⟩ := Regex.consumes_literal hclose
  obtain ⟨u, -, hu, hcancel, rfl⟩ := Regex.consumes_many1 htext
  cases List.append_cancel_right hcancel
  refine ⟨t, fun hmem => ?_, rfl, rfl⟩
  have := hu _ hmem
  revert this; decide

theorem consumes_label {g : Group} (h : (Regex.group g word).Consumes s cs s' cs') :
    ∃ t, t ≠ [] ∧ (∀ c ∈ t, isWhiteSpace c = false) ∧ s = t ++ s' ∧ cs' = (g, t) :: cs := by
  obtain ⟨t, _, hword, rfl, rfl⟩ := h
  obtain ⟨u, hne, hu, htext, rfl⟩ := Regex.consumes_many1 hword
  cases List.append_cancel_right htext
  exact ⟨t, hne, fun c hc => by simpa using hu c hc, rfl, rfl⟩

/-- Only the captures of the items' own groups change. -/
theorem value_item {i : Item} (h : i.pattern.Consumes s cs s' cs') {g : Group} (hg : i.group ≠ some g) :
    cs'.value g = cs.value g ∧ cs'.success g = cs.success g := by
  cases i with
  | keyword t =>
    obtain ⟨-, rfl⟩ := Regex.consumes_literal h
    exact ⟨rfl, rfl⟩
  | quoted g' =>
    have hne : g' ≠ g := fun he => hg (by rw [he]; rfl)
    obtain ⟨t, -, -, rfl⟩ := consumes_quoted h
    exact ⟨Regex.value_cons_of_ne hne t, by rw [Regex.success_cons, decide_eq_false hne, Bool.false_or]⟩
  | label g' =>
    have hne : g' ≠ g := fun he => hg (by rw [he]; rfl)
    obtain ⟨t, -, -, -, rfl⟩ := consumes_label h
    exact ⟨Regex.value_cons_of_ne hne t, by rw [Regex.success_cons, decide_eq_false hne, Bool.false_or]⟩

theorem success_item {i : Item} (h : i.pattern.Consumes s cs s' cs') {g : Group} (hg : i.group = some g) :
    cs'.success g = true := by
  cases i with
  | keyword t => cases hg
  | quoted g' =>
    cases hg
    obtain ⟨t, -, -, rfl⟩ := consumes_quoted h
    rw [Regex.success_cons, decide_eq_true rfl, Bool.true_or]
  | label g' =>
    cases hg
    obtain ⟨t, -, -, -, rfl⟩ := consumes_label h
    rw [Regex.success_cons, decide_eq_true rfl, Bool.true_or]

theorem value_spaced : ∀ {is : List Item} {s s' : Text} {cs cs' : Regex.Captures Group},
    (Regex.seqs (spaced is)).Consumes s cs s' cs' → ∀ {g : Group}, g ∉ is.filterMap Item.group →
      cs'.value g = cs.value g ∧ cs'.success g = cs.success g
  | [], _, _, _, _, ⟨_, rfl⟩, _, _ => ⟨rfl, rfl⟩
  | [i], _, _, _, _, ⟨_, _, hi, rfl, rfl⟩, g, hg => value_item hi (fun he => hg (by simp [he]))
  | i :: j :: is, _, _, _, _, ⟨_, _, hi, _, _, hsp, h⟩, g, hg => by
    obtain ⟨t, -, -, -, rfl⟩ := Regex.consumes_many1 hsp
    have hi' := value_item hi (g := g) (fun he => hg (by simp [he]))
    have hg' : g ∉ (j :: is).filterMap Item.group := by
      intro hmem
      refine hg (List.mem_filterMap.2 ?_)
      obtain ⟨k, hk, hkg⟩ := List.mem_filterMap.1 hmem
      exact ⟨k, List.mem_cons_of_mem _ hk, hkg⟩
    have h' := value_spaced h hg'
    exact ⟨h'.1.trans hi'.1, h'.2.trans hi'.2⟩

theorem success_spaced : ∀ {is : List Item} {s s' : Text} {cs cs' : Regex.Captures Group},
    (Regex.seqs (spaced is)).Consumes s cs s' cs' → ∀ {g : Group}, g ∈ is.filterMap Item.group → cs'.success g = true
  | [], _, _, _, _, _, _, hg => by cases hg
  | [i], _, _, _, _, ⟨_, _, hi, rfl, rfl⟩, g, hg => by
    refine success_item hi ?_
    obtain ⟨k, hk, hkg⟩ := List.mem_filterMap.1 hg
    rwa [List.mem_singleton.1 hk] at hkg
  | i :: j :: is, _, _, _, _, ⟨_, _, hi, _, _, hsp, h⟩, g, hg => by
    obtain ⟨t, -, -, -, rfl⟩ := Regex.consumes_many1 hsp
    by_cases hlater : g ∈ (j :: is).filterMap Item.group
    · exact success_spaced h hlater
    · rw [(value_spaced h hlater).2]
      obtain ⟨k, hk, hkg⟩ := List.mem_filterMap.1 hg
      rcases List.mem_cons.1 hk with rfl | hk
      · exact success_item hi hkg
      · exact absurd (List.mem_filterMap.2 ⟨k, hk, hkg⟩) hlater

/-- What is asked of an item: keywords are plain, and labels hold no quotation mark. -/
def Item.Fits (cs : Regex.Captures Group) : Item → Prop
  | .keyword t => Plain t
  | .quoted _ => True
  | .label g => '"' ∉ cs.value g

theorem fits_keyword {t : Text} (h : Plain t) : Item.Fits cs (.keyword t) := h

/-- A bare token ends before white space or at the end; a quoted one anywhere. -/
def Item.EndsAt (s : Text) : Item → Prop
  | .quoted _ => True
  | _ => AtBreak s

theorem Item.endsAt_of_atBreak (h : AtBreak s) (i : Item) : i.EndsAt s := by
  cases i with
  | quoted g => trivial
  | keyword t => exact h
  | label g => exact h

theorem tokenize_item {i : Item} (h : i.pattern.Consumes s cs s' cs') (hi : i.Fits cs') (hend : i.EndsAt s') :
    tokenizeFrom s .between = (i.token cs' :: ·) <$> tokenizeFrom s' .between := by
  cases i with
  | keyword t =>
    obtain ⟨rfl, rfl⟩ := Regex.consumes_literal h
    exact tokenize_bare hi hend
  | quoted g =>
    obtain ⟨t, ht, rfl, rfl⟩ := consumes_quoted h
    rw [Item.token, Regex.value_cons_self]
    exact tokenize_quoted s' t [] ht
  | label g =>
    obtain ⟨t, hne, hnosp, rfl, rfl⟩ := consumes_label h
    rw [Item.Fits, Regex.value_cons_self] at hi
    rw [Item.token, Regex.value_cons_self]
    exact tokenize_bare ⟨hne, hi, hnosp⟩ hend

/-- The last item of a run ends where the run ends. -/
def endsAt (s : Text) (is : List Item) : Prop := ∀ i ∈ is.getLast?, i.EndsAt s

/-- **The tokens of a run of items** are the items with the values of their groups. -/
theorem tokenize_spaced : ∀ {is : List Item} {s s' : Text} {cs cs' : Regex.Captures Group},
    (Regex.seqs (spaced is)).Consumes s cs s' cs' → (is.filterMap Item.group).Nodup → (∀ i ∈ is, i.Fits cs') →
      endsAt s' is → tokenizeFrom s .between = (is.map (Item.token cs') ++ ·) <$> tokenizeFrom s' .between
  | [], s, _, _, _, ⟨rfl, _⟩, _, _, _ => by
    cases tokenizeFrom s .between <;> rfl
  | [i], _, _, _, _, ⟨_, _, hi, rfl, rfl⟩, _, hfits, hend =>
    tokenize_item hi (hfits i (List.mem_singleton_self i)) (hend i rfl)
  | i :: j :: is, s, s', cs, cs', ⟨s₁, _, hi, s₂, cs₁, hsp, h⟩, hnodup, hfits, hend => by
    obtain ⟨t, hne, ht, rfl, rfl⟩ := Regex.consumes_many1 hsp
    have hnodup' : ((j :: is).filterMap Item.group).Nodup := by
      rw [List.filterMap_cons] at hnodup
      split at hnodup
      · exact hnodup
      · exact (List.nodup_cons.1 hnodup).2
    -- the groups of the later items are others, so what this item captured stands at the end
    have hkeep : ∀ g, i.group = some g → cs'.value g = cs₁.value g := by
      intro g hg
      rw [List.filterMap_cons, hg] at hnodup
      exact (value_spaced h (List.nodup_cons.1 hnodup).1).1
    have htoken : i.token cs' = i.token cs₁ ∧ (i.Fits cs' → i.Fits cs₁) := by
      cases i with
      | keyword t => exact ⟨rfl, id⟩
      | quoted g => exact ⟨by rw [Item.token, Item.token, hkeep g rfl], id⟩
      | label g => exact ⟨by rw [Item.token, Item.token, hkeep g rfl], by rw [Item.Fits, Item.Fits, hkeep g rfl]; exact id⟩
    have hbreak : AtBreak (t ++ s₂) := by
      obtain ⟨c, t, rfl⟩ := List.exists_cons_of_ne_nil hne
      intro d hd
      cases hd
      exact ht _ List.mem_cons_self
    have hitem := tokenize_item hi (htoken.2 (hfits i List.mem_cons_self)) (i.endsAt_of_atBreak hbreak)
    have hrest := tokenize_spaced h hnodup' (fun k hk => hfits k (List.mem_cons_of_mem _ hk))
      (fun k hk => hend k (by rw [List.getLast?_cons_cons]; exact hk))
    rw [hitem, tokenize_spaces _ ht, hrest, ← htoken.1]
    cases tokenizeFrom s' .between <;> rfl

theorem tokenize_eq_nil {t : Text} (ht : ∀ c ∈ t, isWhiteSpace c = true) : tokenizeFrom t .between = .ok [] := by
  have h := tokenize_spaces [] ht
  rw [List.append_nil] at h
  rw [h]; rfl

theorem isWhiteSpace_of_end {t : Text} (ht : t = [] ∨ t = ['\n']) : ∀ c ∈ t, isWhiteSpace c = true := by
  rcases ht with rfl | rfl <;> decide

theorem atBreak_of_spaces {t s : Text} (ht : ∀ c ∈ t, isWhiteSpace c = true) (hs : AtBreak s) : AtBreak (t ++ s) := by
  cases t with
  | nil => exact hs
  | cons c t =>
    intro d hd
    cases hd
    exact ht _ List.mem_cons_self

theorem consumes_end (h : (Regex.seqs [spaces, .eos]).Consumes s cs s' cs') :
    cs' = cs ∧ ∀ c ∈ s, isWhiteSpace c = true := by
  obtain ⟨_, _, hsp, _, _, ⟨rfl, rfl, heos⟩, -, rfl⟩ := h
  obtain ⟨rfl, t, ht, rfl⟩ := consumes_spaces hsp
  refine ⟨rfl, fun c hc => ?_⟩
  rcases List.mem_append.1 hc with hc | hc
  · exact ht c hc
  · exact isWhiteSpace_of_end heos c hc

/-- A line that ends with white space after its items. -/
theorem tokenize_line {is : List Item} {line : Text}
    (h : (Regex.seqs (spaced is ++ [spaces, .eos])).matchStart line = some cs)
    (hnodup : (is.filterMap Item.group).Nodup) (hfits : ∀ i ∈ is, i.Fits cs) :
    tokenize line = .ok (is.map (Item.token cs)) := by
  obtain ⟨s', hcons⟩ := Regex.matchStart_consumes h
  obtain ⟨s₁, cs₁, hitems, hend⟩ := Regex.consumes_seqs_append.1 hcons
  obtain ⟨rfl, hspaces⟩ := consumes_end hend
  have hbreak : AtBreak s₁ := fun c hc => hspaces c (List.mem_of_mem_head? hc)
  have htokens := tokenize_spaced hitems hnodup hfits (fun i _ => i.endsAt_of_atBreak hbreak)
  rw [tokenize, htokens, tokenize_eq_nil hspaces]
  exact congrArg Except.ok (List.append_nil _)

/-- The technical verbal sentence, whose patient is optional. -/
theorem tokenize_verbal {line : Text} (h : verbalPattern.matchStart line = some cs)
    (hfail : '"' ∉ cs.value .failCase) (hmaful : cs.success .maful = true → '"' ∉ cs.value .mafulCase) :
    tokenize line = .ok ((verbalItems ++ if cs.success .maful then mafulItems else []).map (Item.token cs)) := by
  rw [verbalPattern_eq] at h
  obtain ⟨s', hcons⟩ := Regex.matchStart_consumes h
  obtain ⟨s₁, cs₁, hverbal, s₂, cs₂, hopt, hend⟩ := Regex.consumes_seqs_append.1 hcons
  obtain ⟨rfl, hspaces⟩ := consumes_end hend
  have hbreak : ∀ is, endsAt s₂ is := by
    intro is i _
    exact i.endsAt_of_atBreak fun c hc => hspaces c (List.mem_of_mem_head? hc)
  have hverbalFits : ∀ i ∈ verbalItems, i.Fits cs := by
    simp only [verbalItems, List.forall_mem_cons]
    exact ⟨fits_keyword (by decide), trivial, fits_keyword (by decide), trivial, hfail, nofun⟩
  rcases hopt with ⟨s₃, cs₃, hsp, hitems⟩ | ⟨rfl, rfl⟩
  · have hsuccess : cs.success .maful = true := success_spaced hitems (by decide)
    have hmafulFits : ∀ i ∈ mafulItems, i.Fits cs := by
      simp only [mafulItems, List.forall_mem_cons]
      exact ⟨fits_keyword (by decide), trivial, hmaful hsuccess, nofun⟩
    have hall : (Regex.seqs (spaced verbalItems ++ (spaces1 :: spaced mafulItems))).Consumes line [] s₂ cs :=
      Regex.consumes_seqs_append.2 ⟨s₁, cs₁, hverbal, s₃, cs₃, hsp, hitems⟩
    have htokens := @tokenize_spaced (verbalItems ++ mafulItems) _ _ _ _ hall (by decide)
      (fun i hi => (List.mem_append.1 hi).elim (hverbalFits i) (hmafulFits i)) (hbreak _)
    rw [tokenize, htokens, tokenize_eq_nil hspaces, if_pos hsuccess]
    exact congrArg Except.ok (List.append_nil _)
  · have hsuccess : ¬ cs.success .maful = true := by
      rw [(value_spaced hverbal (by decide)).2]; exact Bool.false_ne_true
    have htokens := tokenize_spaced hverbal (by decide) hverbalFits (hbreak _)
    rw [tokenize, htokens, tokenize_eq_nil hspaces, if_neg hsuccess, List.append_nil]
    exact congrArg Except.ok (List.append_nil _)

/-- A line whose items are followed by more text. -/
theorem tokenize_before_rest {is : List Item} {s₁ : Text} {cs₁ : Regex.Captures Group}
    (hitems : (Regex.seqs (spaced is)).Consumes s [] s₁ cs₁)
    (htail : (Regex.seqs [.group .rest line, .eos]).Consumes s₁ cs₁ s' cs) (hnodup : (is.filterMap Item.group).Nodup)
    (hrest : Group.rest ∉ is.filterMap Item.group) (hfits : ∀ i ∈ is, i.Fits cs) (hend : endsAt s₁ is) :
    tokenize s = (is.map (Item.token cs) ++ ·) <$> tokenize (cs.value .rest) := by
  obtain ⟨_, _, ⟨t, cs₂, ⟨rfl, u, -, hu⟩, rfl, rfl⟩, _, _, ⟨rfl, rfl, heos⟩, rfl, rfl⟩ := htail
  cases List.append_cancel_right hu
  have hother : ∀ i ∈ is, Item.token ((.rest, t) :: cs₂) i = Item.token cs₂ i ∧
      (i.Fits ((.rest, t) :: cs₂) → i.Fits cs₂) := by
    intro i hi
    have hkeep : ∀ g, i.group = some g → Regex.Captures.value ((.rest, t) :: cs₂) g = cs₂.value g := by
      intro g hg
      refine Regex.value_cons_of_ne (fun he => hrest ?_) t
      exact List.mem_filterMap.2 ⟨i, hi, by rw [hg, he]⟩
    cases i with
    | keyword t => exact ⟨rfl, id⟩
    | quoted g => exact ⟨by rw [Item.token, Item.token, hkeep g rfl], id⟩
    | label g => exact ⟨by rw [Item.token, Item.token, hkeep g rfl], by rw [Item.Fits, Item.Fits, hkeep g rfl]; exact id⟩
  have htokens := tokenize_spaced hitems hnodup (fun i hi => (hother i hi).2 (hfits i hi)) hend
  rw [tokenize, htokens, Regex.value_cons_self, tokenize, tokenize_append_spaces (isWhiteSpace_of_end heos),
    List.map_congr_left (fun i hi => (hother i hi).1)]

/-- The rest of a line runs to its end, so it holds no line feed but a final one. -/
theorem isSome_rest {g : Group} {s : Text} {cs : Regex.Captures Group} :
    ((Regex.seqs [.group g line, .eos]).run s cs (fun _ cs => some cs)).isSome = true ↔
      ∃ t e, s = t ++ e ∧ '\n' ∉ t ∧ (e = [] ∨ e = ['\n']) := by
  constructor
  · intro h
    obtain ⟨x, hx⟩ := Option.isSome_iff_exists.1 h
    obtain ⟨_, _, ⟨_, _, ⟨t, _, ⟨-, u, hu, hs⟩, -, -⟩, _, _, ⟨-, -, heos⟩, -, -⟩, -⟩ := Regex.run_consumes _ hx
    refine ⟨u, _, hs, fun hmem => ?_, heos⟩
    have := hu _ hmem
    revert this; decide
  · rintro ⟨t, e, rfl, ht, he⟩
    refine Regex.isSome_runMany (fun c hc => ?_) ?_
    · have hne : c ≠ '\n' := fun he => ht (he ▸ hc)
      simpa using hne
    · show (if e = [] ∨ e = ['\n'] then _ else none : Option _).isSome = true
      rw [if_pos he]; rfl

/-- **A label before the rest of a line is a whole word**: it is read greedily, and a longer label leaves a rest that
still ends the line. -/
theorem run_label {g g' : Group} {x : Regex.Captures Group}
    (h : (Regex.seqs [.group g word, .group g' line, .eos]).run s cs (fun _ cs => some cs) = some x) :
    ∃ s₁ cs₁ s₂, (Regex.group g word).Consumes s cs s₁ cs₁ ∧ AtBreak s₁ ∧
      (Regex.seqs [.group g' line, .eos]).Consumes s₁ cs₁ s₂ x := by
  cases s with
  | nil => cases h
  | cons c s =>
    simp only [Regex.seqs, word, Regex.many1, Regex.run] at h
    split at h
    · rename_i hc
      obtain ⟨t, s₁, rfl, ht, hk, hmax⟩ := Regex.runMany_spec h
      have hlen : ((c :: (t ++ s₁)).take ((c :: (t ++ s₁)).length - s₁.length)) = c :: t := by
        have : (c :: (t ++ s₁)).length - s₁.length = (c :: t).length := by simp; omega
        rw [this, ← List.cons_append, List.take_left]
      rw [hlen] at hk
      have hk : (Regex.seqs [.group g' line, .eos]).run s₁ ((g, c :: t) :: cs) (fun _ cs => some cs) = some x := hk
      obtain ⟨s₂, _, hrest, hx⟩ := Regex.run_consumes _ hk
      cases hx
      refine ⟨s₁, (g, c :: t) :: cs, s₂, ⟨c :: t, cs, ⟨_, _, ⟨rfl, c, hc, rfl⟩, rfl, t, ht, rfl⟩, rfl, rfl⟩, ?_, hrest⟩
      intro d hd
      by_contra hwhite
      obtain ⟨s₁, rfl⟩ : ∃ s, s₁ = d :: s := by
        cases s₁ with
        | nil => cases hd
        | cons e s => cases hd; exact ⟨s, rfl⟩
      have hd : isWhiteSpace d = false := Bool.eq_false_iff.2 hwhite
      have hnone := hmax [d] s₁ rfl (List.cons_ne_nil _ _) (by simpa using hd)
      obtain ⟨u, e, hu, hnl, he⟩ := isSome_rest.1 (Option.isSome_iff_exists.2 ⟨x, hk⟩)
      cases u with
      | nil =>
        rw [List.nil_append] at hu
        subst hu
        rw [isWhiteSpace_of_end he d List.mem_cons_self] at hd
        cases hd
      | cons d' u =>
        cases hu
        have hsome : ∀ cs' : Regex.Captures Group,
            ((Regex.seqs [.group g' line, .eos]).run (u ++ e) cs' (fun _ cs => some cs)).isSome = true := fun cs' =>
          isSome_rest.2 ⟨u, e, rfl, fun hmem => hnl (List.mem_cons_of_mem _ hmem), he⟩
        cases (hsome _).symm.trans (congrArg Option.isSome hnone)
    · cases h

theorem tokenize_clauseVerb {matchedArabic : Bool} {line : Text}
    (h : (if matchedArabic then arabicClausePattern else clausePattern).matchStart line = some cs) :
    tokenize line = ((clauseItems matchedArabic).map (Item.token cs) ++ ·) <$> tokenize (cs.value .rest) := by
  rw [clausePattern_eq] at h
  obtain ⟨s', hcons⟩ := Regex.matchStart_consumes h
  obtain ⟨s₁, cs₁, hitems, htail⟩ := Regex.consumes_seqs_append.1 hcons
  refine tokenize_before_rest hitems htail ?_ ?_ ?_ ?_
  · cases matchedArabic <;> decide
  · cases matchedArabic <;> decide
  · cases matchedArabic <;> simp only [clauseItems, if_true, Bool.false_eq_true, if_false, List.cons_append,
      List.nil_append, List.forall_mem_cons]
    · exact ⟨fits_keyword (by decide), fits_keyword (by decide), trivial, nofun⟩
    · exact ⟨fits_keyword (by decide), fits_keyword (by decide), trivial, nofun⟩
  · intro i hi
    cases matchedArabic <;> cases hi <;> trivial

theorem tokenize_clauseIsm {matchedArabic : Bool} {line : Text}
    (h : (if matchedArabic then arabicClauseIsmPattern else clauseIsmPattern).matchStart line = some cs)
    (hmarker : '"' ∉ cs.value .marker) :
    tokenize line = ((clauseIsmItems matchedArabic).map (Item.token cs) ++ ·) <$> tokenize (cs.value .rest) := by
  have hsplit : (if matchedArabic then arabicClauseIsmPattern else clauseIsmPattern) =
      .seqs ([(Item.keyword (if matchedArabic then "اسمٌ".toList else "ism".toList)).pattern, spaces1,
        quoted .surface, spaces1] ++ [.group .marker word, .group .rest SurfaceParser.line, .eos]) := by
    cases matchedArabic <;> rfl
  rw [hsplit, Regex.matchStart, Regex.run_seqs_append] at h
  obtain ⟨s₀, cs₀, ⟨_, _, hkw, _, _, hsp, _, _, hq, _, _, hsp', rfl, rfl⟩, h⟩ := Regex.run_consumes _ h
  obtain ⟨s₁, cs₁, s₂, hlabel, hbreak, htail⟩ := run_label h
  have hitems : (Regex.seqs (spaced (clauseIsmItems matchedArabic))).Consumes line [] s₁ cs₁ :=
    ⟨_, _, hkw, _, _, hsp, _, _, hq, _, _, hsp', _, _, hlabel, rfl, rfl⟩
  refine tokenize_before_rest hitems htail ?_ ?_ ?_ ?_
  · cases matchedArabic <;> decide
  · cases matchedArabic <;> decide
  · simp only [clauseIsmItems, List.forall_mem_cons]
    exact ⟨fits_keyword (by cases matchedArabic <;> decide), trivial, hmarker, nofun⟩
  · intro i hi
    cases hi
    exact hbreak

end Match

/-! ## Labels -/

def caseKeys : List Text :=
  ["raf".toList, "رفع".toList, "مرفوع".toList, "nasb".toList, "نصب".toList, "منصوب".toList, "jarr".toList, "jar".toList,
    "جر".toList, "مجرور".toList, "jazm".toList, "جزم".toList, "مجزوم".toList, "none".toList]

def roleKeys : List Text :=
  ["sequence".toList, "ترتيب".toList, "cause".toList, "causal".toList, "سبب".toList, "condition".toList,
    "conditional".toList, "شرط".toList, "explanation".toList, "explanatory".toList, "تفسير".toList, "contrast".toList,
    "استدراك".toList, "coordination".toList, "عطف".toList, "immediate".toList, "تعقيب".toList]

theorem mem_caseKeys {value : Text} {c : AdgCase} (h : parseCase value = .ok c) : normalize value ∈ caseKeys := by
  simp only [parseCase, throwParse] at h
  have hsub : ∀ l : List Text, normalize value ∈ l → l ⊆ caseKeys → normalize value ∈ caseKeys := fun _ hm hl => hl hm
  split at h
  · rename_i hm; exact hsub _ hm (by decide)
  split at h
  · rename_i hm; exact hsub _ hm (by decide)
  split at h
  · rename_i hm; exact hsub _ hm (by decide)
  split at h
  · rename_i hm; exact hsub _ hm (by decide)
  split at h
  · rename_i hnone
    rw [hnone]; decide
  · cases h

theorem mem_roleKeys {value : Text} {role : HarfRole} (h : parseRole value = .ok role) : normalize value ∈ roleKeys := by
  simp only [parseRole, throwParse] at h
  have hsub : ∀ l : List Text, normalize value ∈ l → l ⊆ roleKeys → normalize value ∈ roleKeys := fun _ hm hl => hl hm
  split at h
  · rename_i hm; exact hsub _ hm (by decide)
  split at h
  · rename_i hm; exact hsub _ hm (by decide)
  split at h
  · rename_i hm; exact hsub _ hm (by decide)
  split at h
  · rename_i hm; exact hsub _ hm (by decide)
  split at h
  · rename_i hm; exact hsub _ hm (by decide)
  split at h
  · rename_i hm; exact hsub _ hm (by decide)
  split at h
  · rename_i hm; exact hsub _ hm (by decide)
  · cases h

/-- Every role read from a label has a canonical spelling. -/
theorem canonicalRoleLabel_isSome {label : Text} {role : HarfRole} (h : parseRole label = .ok role) :
    (canonicalRoleLabel role).isSome = true := by
  simp only [parseRole, throwParse] at h
  split at h
  · cases h; rfl
  split at h
  · cases h; rfl
  split at h
  · cases h; rfl
  split at h
  · cases h; rfl
  split at h
  · cases h; rfl
  split at h
  · cases h; rfl
  split at h
  · cases h; rfl
  · cases h

/-- A character that normalising neither trims nor drops stands in the normalised text. -/
theorem mem_normalize {value : Text} {c : Char} (hc : c ∈ value) (hspace : isWhiteSpace c = false)
    (hlower : toLowerInvariant [c] = [c]) (hkeep : (c != '_' && c != '-' && !isTashkeel c) = true) :
    c ∈ normalize value := by
  have htrim : c ∈ trim value := mem_trim hc hspace
  refine List.mem_filter.2 ⟨List.mem_map.2 ⟨c, htrim, ?_⟩, hkeep⟩
  exact List.singleton_inj.1 hlower

theorem no_quote_of_normalize {value : Text} {keys : List Text} (hkeys : ∀ k ∈ keys, '"' ∉ k)
    (h : normalize value ∈ keys) : '"' ∉ value := fun hmem =>
  hkeys _ h (mem_normalize hmem (by decide) (by decide) (by decide))

theorem no_quote_of_parseCase {value : Text} {c : AdgCase} (h : parseCase value = .ok c) : '"' ∉ value :=
  no_quote_of_normalize (by decide) (mem_caseKeys h)

theorem no_quote_of_parseRole {value : Text} {role : HarfRole} (h : parseRole value = .ok role) : '"' ∉ value :=
  no_quote_of_normalize (by decide) (mem_roleKeys h)

/-! ## The grammar of statements -/

/-- A case label that a statement of the surface accepts. -/
def CaseLabel (matchedArabic : Bool) (label : Text) (marker : AdgCase) : Prop :=
  parseCase label = .ok marker ∧ (matchedArabic = true → ensureCanonicalArabicCaseLabel label = .ok ())

def RoleLabel (matchedArabic : Bool) (label : Text) (role : HarfRole) : Prop :=
  parseRole label = .ok role ∧ (matchedArabic = true → ensureCanonicalArabicRoleLabel label role = .ok ())

def filOf (surface : Text) : Word := ⟨surface, .fil, .none, .none⟩

def ismOf (surface : Text) (marker : AdgCase) : Word := ⟨surface, .ism, marker, .none⟩

def harfOf (surface : Text) (role : HarfRole) : Word := ⟨surface, .harf, .none, role⟩

/-- The tokens of an accepted statement and what it says; a clause carries the captures and the case of each part. -/
inductive Reads (matchedArabic : Bool) : List FunctionToken → Statement → Prop
  | agent {cs : Regex.Captures Group} (ha : matchedArabic = false)
    (hfail : CaseLabel matchedArabic (cs.value .failCase) .raf) :
    Reads matchedArabic (verbalItems.map (Item.token cs)) (.verbal (.verbalSentence (filOf (cs.value .verb))
      (ismOf (cs.value .fail) .raf) none []))
  | patient {cs : Regex.Captures Group} (hfail : CaseLabel matchedArabic (cs.value .failCase) .raf)
    (hmaful : CaseLabel matchedArabic (cs.value .mafulCase) .nasb) :
    Reads matchedArabic ((if matchedArabic then arabicVerbalItems else verbalItems ++ mafulItems).map (Item.token cs))
      (.verbal (.verbalSentence (filOf (cs.value .verb)) (ismOf (cs.value .fail) .raf)
        (some (ismOf (cs.value .maful) .nasb)) []))
  | adjunct {cs : Regex.Captures Group} (hmudaf : CaseLabel matchedArabic (cs.value .mudafCase) .jarr)
    (hilayh : CaseLabel matchedArabic (cs.value .mudafIlayhCase) .jarr) :
    Reads matchedArabic ((adjunctItems matchedArabic).map (Item.token cs)) (.adjunct (.harfGovernance
      (harfOf (cs.value .operator) .jarrOperator)
      (.idafaPhrase (ismOf (cs.value .mudaf) .jarr) (ismOf (cs.value .mudafIlayh) .jarr))))
  | connector {cs : Regex.Captures Group} {role : HarfRole} (hrole : RoleLabel matchedArabic (cs.value .role) role) :
    Reads matchedArabic ((connectorItems matchedArabic).map (Item.token cs))
      (.connector (harfOf (cs.value .surface) role))
  | clause {cs : Regex.Captures Group} {parts : List (Regex.Captures Group × AdgCase)}
    (hparts : ∀ p ∈ parts, CaseLabel matchedArabic (p.1.value .marker) p.2) :
    Reads matchedArabic ((clauseItems matchedArabic).map (Item.token cs) ++
        parts.flatMap (fun p => (clauseIsmItems matchedArabic).map (Item.token p.1)))
      (.clause (.clause (.word (filOf (cs.value .verb)) ::
        parts.map (fun p => .word (ismOf (p.1.value .surface) p.2)))))

theorem matchEither_eq_some {technical arabic : Regex Group} {line : Text} {groups : Regex.Captures Group}
    {matchedArabic : Bool} (h : matchEither technical arabic line = some (groups, matchedArabic)) :
    (if matchedArabic then arabic else technical).matchStart line = some groups := by
  unfold matchEither at h
  split at h
  · cases h; assumption
  · obtain ⟨_, harabic, heq⟩ := Option.map_eq_some_iff.1 h
    cases heq; exact harabic

theorem ensureLabels_eq_ok {matchedArabic : Bool} {labels : List Text} {u : Unit}
    (h : ensureLabels matchedArabic labels = .ok u) :
    matchedArabic = true → ∀ l ∈ labels, ensureCanonicalArabicCaseLabel l = .ok () := by
  intro ha
  rw [ensureLabels, if_pos ha] at h
  exact forM_eq_ok.1 h

theorem ism_eq_ok {surface : Text} {marker : AdgCase} {w : Word} (h : Word.ism surface marker = .ok w) :
    w = ismOf surface marker := (Word.create_eq_ok h).1

theorem fil_eq_ok {surface : Text} {w : Word} (h : Word.fil surface .none = .ok w) : w = filOf surface :=
  (Word.create_eq_ok h).1

theorem harf_eq_ok {surface : Text} {role : HarfRole} {w : Word} (h : Word.harf surface role = .ok w) :
    w = harfOf surface role := (Word.create_eq_ok h).1

theorem reads_verbal {line : Text} {n : Node} (h : tryParseVerbal line = .ok (some n)) :
    ∃ matchedArabic tokens, tokenize line = .ok tokens ∧ Reads matchedArabic tokens (.verbal n) := by
  unfold tryParseVerbal at h
  split at h
  · cases h
  rename_i groups matchedArabic hmatch
  simp only [bind_eq_ok, map_eq_ok, Option.some.injEq] at h
  obtain ⟨_, hlabels, verb, hverb, failCase, hfailCase, fail, hfail, maful, hmaful, n', h, rfl⟩ := h
  have hlabels := ensureLabels_eq_ok hlabels
  have hmatch := matchEither_eq_some hmatch
  cases fil_eq_ok hverb
  cases ism_eq_ok hfail
  obtain ⟨rfl, -, ⟨-, hraf⟩, hnasb⟩ := newVerbalSentence_eq_ok h
  cases hraf
  have hraf : CaseLabel matchedArabic (groups.value .failCase) .raf :=
    ⟨hfailCase, fun ha => hlabels ha _ (by simp)⟩
  have hnoquote := no_quote_of_parseCase hfailCase
  split at hmaful
  · rename_i hsuccess
    simp only [map_eq_ok, bind_eq_ok] at hmaful
    obtain ⟨word, ⟨mafulCase, hmafulCase, hword⟩, rfl⟩ := hmaful
    cases ism_eq_ok hword
    obtain ⟨-, hnasb⟩ := hnasb _ rfl
    cases hnasb
    have hnasb : CaseLabel matchedArabic (groups.value .mafulCase) .nasb :=
      ⟨hmafulCase, fun ha => hlabels ha _ (by simp)⟩
    have hnoquote' := no_quote_of_parseCase hmafulCase
    refine ⟨matchedArabic, _, ?_, .patient hraf hnasb⟩
    cases matchedArabic with
    | false =>
      rw [tokenize_verbal hmatch hnoquote (fun _ => hnoquote'), if_pos hsuccess]; rfl
    | true =>
      refine tokenize_line hmatch (by decide) ?_
      simp only [if_true, arabicVerbalItems, List.forall_mem_cons]
      exact ⟨fits_keyword (by decide), fits_keyword (by decide), trivial, fits_keyword (by decide), trivial, hnoquote,
        fits_keyword (by decide), trivial, hnoquote', List.forall_mem_nil _⟩
  · rename_i hsuccess
    cases hmaful
    cases matchedArabic with
    | false =>
      refine ⟨false, _, ?_, .agent rfl hraf⟩
      rw [tokenize_verbal hmatch hnoquote (fun h => absurd h hsuccess), if_neg hsuccess, List.append_nil]
    | true =>
      -- the Arabic pattern always has a patient
      obtain ⟨s', hcons⟩ := Regex.matchStart_consumes hmatch
      rw [if_pos rfl, arabicVerbalPattern_eq] at hcons
      obtain ⟨s₁, cs₁, hitems, hend⟩ := Regex.consumes_seqs_append.1 hcons
      obtain ⟨rfl, -⟩ := consumes_end hend
      exact absurd (success_spaced hitems (by decide)) hsuccess

theorem reads_adjunct {line : Text} {n : Node} (h : tryParseAdjunct line = .ok (some n)) :
    ∃ matchedArabic tokens, tokenize line = .ok tokens ∧ Reads matchedArabic tokens (.adjunct n) := by
  unfold tryParseAdjunct at h
  split at h
  · cases h
  rename_i groups matchedArabic hmatch
  simp only [bind_eq_ok, map_eq_ok, Option.some.injEq] at h
  obtain ⟨_, hlabels, operator, hop, mudafCase, hmudafCase, mudaf, hmudaf, ilayhCase, hilayhCase, mudafIlayh, hilayh, n',
    ⟨idafa, hidafa, h⟩, rfl⟩ := h
  have hlabels := ensureLabels_eq_ok hlabels
  have hmatch := matchEither_eq_some hmatch
  rw [adjunctPattern_eq] at hmatch
  cases harf_eq_ok hop
  cases ism_eq_ok hmudaf
  cases ism_eq_ok hilayh
  obtain ⟨rfl, -⟩ := newIdafaPhrase_eq_ok hidafa
  obtain ⟨rfl, -, -, -, hmudafJarr, hilayhJarr⟩ := newHarfGovernance_eq_ok h
  cases hmudafJarr
  cases hilayhJarr
  refine ⟨matchedArabic, _, tokenize_line hmatch (by cases matchedArabic <;> decide) ?_,
    .adjunct ⟨hmudafCase, fun ha => hlabels ha _ (by simp)⟩ ⟨hilayhCase, fun ha => hlabels ha _ (by simp)⟩⟩
  have hnoquote := no_quote_of_parseCase hmudafCase
  have hnoquote' := no_quote_of_parseCase hilayhCase
  cases matchedArabic <;> simp only [adjunctItems, Bool.false_eq_true, if_true, if_false, List.cons_append,
    List.nil_append, List.forall_mem_cons]
  · exact ⟨fits_keyword (by decide), fits_keyword (by decide), trivial, fits_keyword (by decide), trivial, hnoquote,
      trivial, hnoquote', List.forall_mem_nil _⟩
  · exact ⟨fits_keyword (by decide), fits_keyword (by decide), trivial, fits_keyword (by decide), trivial, hnoquote,
      trivial, hnoquote', List.forall_mem_nil _⟩

theorem reads_connector {line : Text} {w : Word} (h : tryParseConnector line = .ok (some w)) :
    ∃ matchedArabic tokens, tokenize line = .ok tokens ∧ Reads matchedArabic tokens (.connector w) := by
  unfold tryParseConnector at h
  split at h
  · cases h
  rename_i groups matchedArabic hmatch
  simp only [bind_eq_ok, map_eq_ok, Option.some.injEq] at h
  obtain ⟨role, hrole, _, hlabel, w', hw, rfl⟩ := h
  have hmatch := matchEither_eq_some hmatch
  rw [connectorPattern_eq] at hmatch
  cases harf_eq_ok hw
  refine ⟨matchedArabic, _, tokenize_line hmatch (by cases matchedArabic <;> decide) ?_,
    .connector ⟨hrole, fun ha => by rw [if_pos ha] at hlabel; exact hlabel⟩⟩
  simp only [connectorItems, List.forall_mem_cons]
  exact ⟨fits_keyword (by cases matchedArabic <;> decide), trivial, no_quote_of_parseRole hrole, List.forall_mem_nil _⟩

/-- The loop of a clause reads a part at a time, to the end of the line. -/
theorem reads_clauseParts {matchedArabic : Bool} : ∀ (fuel : Nat) (rest : Text) (nodes nodes' : List Node),
    rest.length ≤ fuel → parseClauseParts matchedArabic fuel rest nodes = .ok nodes' →
    ∃ parts : List (Regex.Captures Group × AdgCase),
      (∀ p ∈ parts, CaseLabel matchedArabic (p.1.value .marker) p.2) ∧
      tokenize rest = .ok (parts.flatMap (fun p => (clauseIsmItems matchedArabic).map (Item.token p.1))) ∧
      nodes' = nodes ++ parts.map (fun p => .word (ismOf (p.1.value .surface) p.2))
  | 0, rest, nodes, _, hlen, h => by
    cases h
    rw [List.length_eq_zero_iff.1 (Nat.le_zero.1 hlen)]
    exact ⟨[], nofun, rfl, (List.append_nil _).symm⟩
  | fuel + 1, rest, nodes, nodes', hlen, h => by
    simp only [parseClauseParts] at h
    split at h
    · rename_i hnil
      subst hnil
      cases h
      exact ⟨[], nofun, rfl, (List.append_nil _).symm⟩
    split at h
    · simp only [bind_eq_ok] at h
      obtain ⟨_, -, h⟩ := h
      cases h
    · rename_i groups hmatch
      simp only [bind_eq_ok] at h
      obtain ⟨_, hlabel, marker, hmarker, ism, hism, h⟩ := h
      have hlabel := ensureLabels_eq_ok hlabel
      cases ism_eq_ok hism
      have hlt : (groups.value .rest).length < rest.length := by
        cases matchedArabic <;> exact Regex.value_length_lt (by decide) hmatch
      have hle := length_trim_le (groups.value .rest)
      obtain ⟨parts, hparts, htokens, rfl⟩ := reads_clauseParts fuel _ _ nodes' (by omega) h
      refine ⟨(groups, marker) :: parts, List.forall_mem_cons.2 ⟨⟨hmarker, fun ha => hlabel ha _ (by simp)⟩, hparts⟩, ?_,
        by rw [List.append_assoc]; rfl⟩
      rw [tokenize, tokenize_trim] at htokens
      rw [tokenize_clauseIsm hmatch (no_quote_of_parseCase hmarker), tokenize, htokens]
      rfl

theorem reads_clause {line : Text} {n : Node} (h : tryParseClause line = .ok (some n)) :
    ∃ matchedArabic tokens, tokenize line = .ok tokens ∧ Reads matchedArabic tokens (.clause n) := by
  unfold tryParseClause at h
  split at h
  · cases h
  rename_i groups matchedArabic hmatch
  simp only [bind_eq_ok, map_eq_ok, Option.some.injEq] at h
  obtain ⟨verb, hverb, nodes, hnodes, n', h, rfl⟩ := h
  have hmatch := matchEither_eq_some hmatch
  cases fil_eq_ok hverb
  obtain ⟨parts, hparts, htokens, rfl⟩ := reads_clauseParts _ _ _ _ (Nat.le_refl _) hnodes
  obtain ⟨rfl, -⟩ := newClause_eq_ok h
  refine ⟨matchedArabic, _, ?_, .clause hparts⟩
  rw [tokenize, tokenize_trim] at htokens
  rw [tokenize_clauseVerb hmatch, tokenize, htokens]
  rfl

/-- **An accepted line reads as the grammar says.** -/
theorem reads_statement {line : Text} {st : Statement} (h : parseStatement line = .ok st) :
    ∃ matchedArabic tokens, tokenize line = .ok tokens ∧ Reads matchedArabic tokens st := by
  cases parsedBy_of_parseStatement h with
  | verbal hline => exact reads_verbal hline
  | adjunct hline => exact reads_adjunct hline
  | connector hline => exact reads_connector hline
  | clause hline => exact reads_clause hline

end SurfaceParser
end Adg
