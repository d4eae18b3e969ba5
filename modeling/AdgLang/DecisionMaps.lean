import AdgLang.AdjudicationBinding
import AdgLang.Agreement
/-!
# DecisionMaps — the decisions of a document by their keys

`decisionMap` and `countNovelPrimaryDecisions` of `consensus.js`.  A unit of decision is a field of a sentence or of a
token.  Its key is the text of its identifiers and the name of the field, from which, read from the end, the identifiers
come back as texts (`key_eq_iff`), so that of a covered document the map is the list of its units exactly when no two
sentences have identifiers of one text (`decisionMap_iff`).
-/
namespace Adg
namespace Consensus

open Js
open Protocol (textOf sameValueZero sentencesOf tokensOf isNullish Bound Parallel ApartBy tokenNumber)

/-! ## The map -/

def setUniqueDecisionValue (values : List (Str × Str)) (key value : Str) : Except Str (List (Str × Str)) :=
  if values.any (fun entry => decide (entry.1 = key)) then
    .error (str "Decision unit '" ++ key ++ str "' is duplicated.")
  else .ok (values ++ [(key, value)])

/-- A field of a sentence or of a token, under the identifiers of it. -/
def setField (ids : Str) (holder : Value) (values : List (Str × Str)) (field : String) : Except Str (List (Str × Str)) := do
  setUniqueDecisionValue values (ids ++ unit ':' :: str field) (← canonicalValue (holder.property field))

def decisionToken (sentence : Value) (values : List (Str × Str)) (token : Value) : Except Str (List (Str × Str)) := do
  Protocol.tokenFields.foldlM (setField (← tokenKey (sentence, token)) token) values

def decisionSentence (values : List (Str × Str)) (sentence : Value) : Except Str (List (Str × Str)) := do
  let values ← Protocol.sentenceFields.foldlM (setField (← textOf (sentence.property "sentenceId")) sentence) values
  (tokensOf sentence).foldlM (decisionToken sentence) values

/-- `decisionMap`, of an annotation whose sentences and tokens are arrays; the entries in the order of insertion. -/
def decisionMap ( annotation : Value) : Except Str (List (Str × Str)) :=
  (sentencesOf annotation).foldlM decisionSentence []

def valueAt (values : List (Str × Str)) (key : Str) : Option Str :=
  (values.find? (fun entry => decide (entry.1 = key))).map Prod.snd

/-- The body of the loop of `countNovelPrimaryDecisions`. -/
def countNovel (a b : List (Str × Str)) (count : Nat) (entry : Str × Str) : Except Str Nat :=
  match valueAt a entry.1, valueAt b entry.1 with
  | some left, some right => .ok (if entry.2 ≠ left ∧ entry.2 ≠ right then count + 1 else count)
  | _, _ => .error (str "Final decision unit '" ++ entry.1 ++ str "' is not bound to A and B.")

def countNovelPrimaryDecisions (annotationA annotationB finalDecision : Value) : Except Str Nat := do
  let a ← decisionMap annotationA
  let b ← decisionMap annotationB
  let final ← decisionMap finalDecision
  let count ← final.foldlM (countNovel a b) 0
  if final.length ≠ a.length || final.length ≠ b.length then
    .error (str "Final decision coverage differs from A or B.")
  else .ok count

/-! ## Units -/

/-- A field of a sentence, or of one of its tokens. -/
structure DecisionUnit where
  sentence : Value
  token : Option Value
  field : String

namespace DecisionUnit

/-- What the field is of: the token or the sentence. -/
def holder (u : DecisionUnit) : Value := u.token.getD u.sentence

def value (u : DecisionUnit) : Value := u.holder.property u.field

/-- The text by which the values of units are compared. -/
def label (u : DecisionUnit) : Str := labelOf u.value

def ids (u : DecisionUnit) : Str :=
  match u.token with
  | none => keyText (u.sentence.property "sentenceId")
  | some token => unitKey (u.sentence, token)

def key (u : DecisionUnit) : Str := u.ids ++ unit ':' :: str u.field

/-- The same field of the sentence, or of the token, with the same identifiers. -/
def same (u v : DecisionUnit) : Bool :=
  sameValueZero (u.sentence.property "sentenceId") (v.sentence.property "sentenceId") && decide (u.field = v.field) &&
    match u.token, v.token with
    | none, none => true
    | some token, some other => sameValueZero (token.property "tokenId") (other.property "tokenId")
    | _, _ => false

theorem same_symm {u v : DecisionUnit} (h : u.same v = true) : v.same u = true := by
  obtain ⟨sentence, token, field⟩ := u
  obtain ⟨sentence', token', field'⟩ := v
  rw [same, Bool.and_eq_true, Bool.and_eq_true, decide_eq_true_eq] at h ⊢
  refine ⟨⟨Protocol.sameValueZero_symm h.1.1, h.1.2.symm⟩, ?_⟩
  cases token <;> cases token' <;> first | exact h.2 | exact Protocol.sameValueZero_symm h.2

theorem same_trans {u v w : DecisionUnit} (h : u.same v = true) (h' : v.same w = true) : u.same w = true := by
  obtain ⟨sentence, token, field⟩ := u
  obtain ⟨sentence', token', field'⟩ := v
  obtain ⟨sentence'', token'', field''⟩ := w
  rw [same, Bool.and_eq_true, Bool.and_eq_true, decide_eq_true_eq] at h h' ⊢
  refine ⟨⟨Protocol.sameValueZero_trans h.1.1 h'.1.1, h.1.2.trans h'.1.2⟩, ?_⟩
  obtain ⟨-, h⟩ := h
  obtain ⟨-, h'⟩ := h'
  cases token <;> cases token' <;> cases token'' <;>
    first
    | rfl
    | exact absurd h Bool.false_ne_true
    | exact absurd h' Bool.false_ne_true
    | exact Protocol.sameValueZero_trans h h'

end DecisionUnit

def tokenDecisions (sentence token : Value) : List DecisionUnit :=
  Protocol.tokenFields.map (fun field => ⟨sentence, some token, field⟩)

def sentenceDecisions (sentence : Value) : List DecisionUnit :=
  Protocol.sentenceFields.map (fun field => ⟨sentence, none, field⟩) ++
    (tokensOf sentence).flatMap (tokenDecisions sentence)

/-- The units of decision of a document, in its order. -/
def decisionUnits (document : Value) : List DecisionUnit := (sentencesOf document).flatMap sentenceDecisions

def entriesOf (units : List DecisionUnit) : List (Str × Str) := units.map (fun u => (u.key, u.label))

/-! ## The loops append the entries -/

/-- A step that appends entries under new keys, and fails where they are not new. -/
def Appends (step : List (Str × Str) → Except Str (List (Str × Str))) (entries : List (Str × Str)) : Prop :=
  ∀ ⦃values values' : List (Str × Str)⦄, (values.map Prod.fst).Nodup →
    (step values = .ok values' ↔ values' = values ++ entries ∧ (values'.map Prod.fst).Nodup)

theorem Appends.append {step next : List (Str × Str) → Except Str (List (Str × Str))} {entries others : List (Str × Str)}
    (h : Appends step entries) (h' : Appends next others) :
    Appends (fun values => step values >>= next) (entries ++ others) := by
  intro values values' hvalues
  dsimp only
  rw [bind_eq_ok, ← List.append_assoc]
  constructor
  · rintro ⟨middle, hmiddle, hrest⟩
    obtain ⟨rfl, hnodup⟩ := (h hvalues).1 hmiddle
    exact (h' hnodup).1 hrest
  · rintro ⟨hsame, hnodup⟩
    have hmiddle : ((values ++ entries).map Prod.fst).Nodup := by
      rw [hsame] at hnodup
      exact hnodup.sublist ((List.sublist_append_left _ _).map Prod.fst)
    exact ⟨_, (h hvalues).2 ⟨rfl, hmiddle⟩, (h' hmiddle).2 ⟨hsame, hnodup⟩⟩

theorem appends_foldlM {α : Type} {step : List (Str × Str) → α → Except Str (List (Str × Str))}
    {entries : α → List (Str × Str)} {l : List α} (h : ∀ a ∈ l, Appends (step · a) (entries a)) :
    Appends (fun values => l.foldlM step values) (l.flatMap entries) := by
  induction l with
  | nil =>
    intro values values' hvalues
    dsimp only
    rw [List.foldlM_nil, List.flatMap_nil, List.append_nil]
    exact ⟨fun h => by cases h; exact ⟨rfl, hvalues⟩, fun h => congrArg Except.ok h.1.symm⟩
  | cons a l ih =>
    obtain ⟨ha, hl⟩ := List.forall_mem_cons.1 h
    simp only [List.foldlM_cons, List.flatMap_cons]
    exact ha.append (ih hl)

theorem appends_setUnique (key value : Str) : Appends (setUniqueDecisionValue · key value) [(key, value)] := by
  intro values values' hvalues
  have hany : values.any (fun entry => decide (entry.1 = key)) = true ↔ key ∈ values.map Prod.fst := by
    rw [List.any_eq_true, List.mem_map]
    simp only [decide_eq_true_eq]
  dsimp only
  rw [setUniqueDecisionValue]
  split
  · rename_i hold
    refine ⟨nofun, ?_⟩
    rintro ⟨rfl, hnodup⟩
    rw [List.map_append] at hnodup
    exact absurd rfl ((List.nodup_append.1 hnodup).2.2 _ (hany.1 hold) _ List.mem_cons_self)
  · rename_i hnew
    rw [hany] at hnew
    rw [Except.ok.injEq]
    constructor
    · rintro rfl
      exact ⟨rfl, by rw [List.map_append]; exact nodup_snoc hvalues hnew⟩
    · exact fun h => h.1.symm

/-! ## Keys -/

/-- The parts before and after the last colon. -/
theorem split_last {x x' y y' : Str} (hy : unit ':' ∉ y) (hy' : unit ':' ∉ y') (h : x ++ unit ':' :: y = x' ++ unit ':' :: y') :
    x = x' ∧ y = y' := by
  have htake : ∀ {x y : Str}, unit ':' ∉ y →
      ((x ++ unit ':' :: y).reverse.takeWhile (fun u => decide (u ≠ unit ':'))).reverse = y := fun {x y} hy => by
    rw [List.reverse_append, List.reverse_cons, List.append_assoc, List.takeWhile_append_of_pos]
    · simp
    · exact fun u hu => decide_eq_true (fun he => hy (he ▸ List.mem_reverse.1 hu))
  have hsame : y = y' := by rw [← htake hy, h, htake hy']
  subst hsame
  exact ⟨List.append_cancel_right h, rfl⟩

theorem not_mem_field {field : String} (h : field ∈ Protocol.sentenceFields ++ Protocol.tokenFields) :
    unit ':' ∉ str field := by
  revert h field
  decide

theorem field_eq {field other : String} (h : field ∈ Protocol.sentenceFields ++ Protocol.tokenFields)
    (h' : other ∈ Protocol.sentenceFields ++ Protocol.tokenFields) (hsame : str field = str other) : field = other := by
  have hall : ∀ field ∈ Protocol.sentenceFields ++ Protocol.tokenFields,
      ∀ other ∈ Protocol.sentenceFields ++ Protocol.tokenFields, str field = str other → field = other := by decide
  exact hall field h other h' hsame

theorem keyText_tokenNumber (i : Nat) : ∃ d, tokenNumber i = .number (.finite d) ∧
    keyText (tokenNumber i) = (Number.finite d).toText := by
  obtain ⟨d, hd⟩ := Protocol.ofNat_succ i
  exact ⟨d, by rw [tokenNumber, hd], by rw [tokenNumber, hd]; rfl⟩

theorem not_mem_tokenNumber (i : Nat) : unit ':' ∉ keyText (tokenNumber i) := by
  obtain ⟨d, -, htext⟩ := keyText_tokenNumber i
  rw [htext]
  intro hmem
  have hatom := isAtomUnit_toText d _ hmem
  revert hatom
  decide

theorem keyText_tokenNumber_injective {i j : Nat} (h : keyText (tokenNumber i) = keyText (tokenNumber j)) :
    tokenNumber i = tokenNumber j := by
  obtain ⟨d, hi, htext⟩ := keyText_tokenNumber i
  obtain ⟨d', hj, htext'⟩ := keyText_tokenNumber j
  rw [htext, htext'] at h
  have hread := readNumber_toText d
  rw [h, readNumber_toText d'] at hread
  rw [hi, hj, Number.finite.inj (Option.some.inj hread)]

/-- **Keys of tokens that are numbered tell the tokens apart**, and the texts of the sentences. -/
theorem unitKey_eq {s t s' t' : Value} {i j : Nat} (ht : t.property "tokenId" = tokenNumber i)
    (ht' : t'.property "tokenId" = tokenNumber j) (h : unitKey (s, t) = unitKey (s', t')) :
    keyText (s.property "sentenceId") = keyText (s'.property "sentenceId") ∧ t.property "tokenId" = t'.property "tokenId" := by
  simp only [unitKey, ht, ht'] at h ⊢
  obtain ⟨hsentence, htoken⟩ := split_last (not_mem_tokenNumber i) (not_mem_tokenNumber j) h
  exact ⟨hsentence, keyText_tokenNumber_injective htoken⟩

theorem mem_decisionUnits {document : Value} {u : DecisionUnit} : u ∈ decisionUnits document ↔
    u.sentence ∈ sentencesOf document ∧ (u.token = none ∧ u.field ∈ Protocol.sentenceFields ∨
      ∃ token ∈ tokensOf u.sentence, u.token = some token ∧ u.field ∈ Protocol.tokenFields) := by
  rw [decisionUnits, List.mem_flatMap]
  constructor
  · rintro ⟨sentence, hsentence, hu⟩
    obtain hu | hu := List.mem_append.1 hu
    · obtain ⟨field, hfield, rfl⟩ := List.mem_map.1 hu
      exact ⟨hsentence, .inl ⟨rfl, hfield⟩⟩
    · obtain ⟨token, htoken, hu⟩ := List.mem_flatMap.1 hu
      obtain ⟨field, hfield, rfl⟩ := List.mem_map.1 hu
      exact ⟨hsentence, .inr ⟨token, htoken, rfl, hfield⟩⟩
  · obtain ⟨sentence, token, field⟩ := u
    rintro ⟨hsentence, ⟨rfl, hfield⟩ | ⟨token, htoken, rfl, hfield⟩⟩
    · exact ⟨sentence, hsentence, List.mem_append_left _ (List.mem_map_of_mem hfield)⟩
    · exact ⟨sentence, hsentence,
        List.mem_append_right _ (List.mem_flatMap.2 ⟨token, htoken, List.mem_map_of_mem hfield⟩)⟩

theorem field_of_mem {document : Value} {u : DecisionUnit} (h : u ∈ decisionUnits document) :
    u.field ∈ Protocol.sentenceFields ++ Protocol.tokenFields := by
  obtain ⟨-, ⟨-, hfield⟩ | ⟨-, -, -, hfield⟩⟩ := mem_decisionUnits.1 h
  · exact List.mem_append_left _ hfield
  · exact List.mem_append_right _ hfield

/-- No field is one of sentences and one of tokens. -/
theorem not_both {field : String} (h : field ∈ Protocol.sentenceFields) : field ∉ Protocol.tokenFields := by
  revert h field
  decide

theorem sentence_of_mem {sentence : Value} {u : DecisionUnit} (h : u ∈ sentenceDecisions sentence) :
    u.sentence = sentence := by
  obtain hu | hu := List.mem_append.1 h
  · obtain ⟨field, -, rfl⟩ := List.mem_map.1 hu
    rfl
  · obtain ⟨token, -, hu⟩ := List.mem_flatMap.1 hu
    obtain ⟨field, -, rfl⟩ := List.mem_map.1 hu
    rfl

variable {packet document other : Value}

/-- **Units of one key are the same unit**, where the identifiers of sentences of one text are the same. -/
theorem same_of_key (hdocument : Bound packet document) (hother : Bound packet other) {u v : DecisionUnit}
    (hu : u ∈ decisionUnits document) (hv : v ∈ decisionUnits other) (h : u.key = v.key)
    (hids : keyText (u.sentence.property "sentenceId") = keyText (v.sentence.property "sentenceId") →
      sameValueZero (u.sentence.property "sentenceId") (v.sentence.property "sentenceId") = true) : u.same v = true := by
  obtain ⟨hkey, hname⟩ := split_last (not_mem_field (field_of_mem hu)) (not_mem_field (field_of_mem hv)) h
  have hfield := field_eq (field_of_mem hu) (field_of_mem hv) hname
  obtain ⟨sentence, token, field⟩ := u
  obtain ⟨sentence', token', field'⟩ := v
  obtain rfl : field = field' := hfield
  obtain ⟨hs, ⟨rfl, hf⟩ | ⟨t, ht, rfl, hf⟩⟩ := mem_decisionUnits.1 hu <;>
    obtain ⟨hs', ⟨rfl, hf'⟩ | ⟨t', ht', rfl, hf'⟩⟩ := mem_decisionUnits.1 hv
  · simpa [DecisionUnit.same] using hids hkey
  · exact absurd hf' (not_both hf)
  · exact absurd hf (not_both hf')
  · obtain ⟨i, hi⟩ := hdocument.tokenNumber_of_mem hs ht
    obtain ⟨j, hj⟩ := hother.tokenNumber_of_mem hs' ht'
    obtain ⟨hsentence, hnumber⟩ := unitKey_eq hi hj hkey
    simpa [DecisionUnit.same, hids hsentence, ← hnumber, hi] using Protocol.sameValueZero_tokenNumber i

/-- The same units have one key. -/
theorem key_of_same {u v : DecisionUnit} (h : u.same v = true) : u.key = v.key := by
  obtain ⟨sentence, token, field⟩ := u
  obtain ⟨sentence', token', field'⟩ := v
  rw [DecisionUnit.same, Bool.and_eq_true, Bool.and_eq_true, decide_eq_true_eq] at h
  obtain ⟨⟨hsentence, rfl⟩, htoken⟩ := h
  have hids := keyText_of_sameValueZero hsentence
  cases token <;> cases token'
  · simp only [DecisionUnit.key, DecisionUnit.ids, hids]
  · cases htoken
  · cases htoken
  · simp only [DecisionUnit.key, DecisionUnit.ids, unitKey, hids, keyText_of_sameValueZero htoken]

/-- Of a bound document no unit is listed twice. -/
theorem units_apart (h : Bound packet document) : (decisionUnits document).Pairwise (fun u v => u.same v = false) := by
  have hfields : ∀ fields ∈ [Protocol.sentenceFields, Protocol.tokenFields], fields.Nodup := by decide
  rw [decisionUnits, List.pairwise_flatMap]
  refine ⟨fun sentence hsentence => ?_, h.apart.imp (fun hne u hu v hv => ?_)⟩
  · rw [sentenceDecisions, List.pairwise_append, List.pairwise_map, List.pairwise_flatMap]
    refine ⟨(hfields _ (by simp)).imp (fun hne => by simp [DecisionUnit.same, hne]),
      ⟨fun token htoken => ?_, (h.apartTokens hsentence).imp (fun hne u hu v hv => ?_)⟩, fun u hu v hv => ?_⟩
    · rw [tokenDecisions, List.pairwise_map]
      exact (hfields _ (by simp)).imp (fun hne => by simp [DecisionUnit.same, hne])
    · obtain ⟨field, -, rfl⟩ := List.mem_map.1 hu
      obtain ⟨field', -, rfl⟩ := List.mem_map.1 hv
      simp [DecisionUnit.same, hne]
    · obtain ⟨field, -, rfl⟩ := List.mem_map.1 hu
      obtain ⟨token, -, hv⟩ := List.mem_flatMap.1 hv
      obtain ⟨field', -, rfl⟩ := List.mem_map.1 hv
      simp [DecisionUnit.same]
  · rw [DecisionUnit.same, sentence_of_mem hu, sentence_of_mem hv, hne, Bool.false_and, Bool.false_and]

/-! ## The map of a bound document -/

/-- No two sentences have identifiers of one text. -/
def DistinctTexts (document : Value) : Prop :=
  ((sentencesOf document).map (fun sentence => keyText (sentence.property "sentenceId"))).Nodup

theorem distinctTexts_iff (h : Bound packet document) : DistinctTexts document ↔ DistinctTexts packet :=
  (h.matched.perm_map (fun _ _ hcovers => keyText_of_sameValueZero hcovers.same)).nodup_iff.symm

/-- What `sameValueZero` tells apart is a value without parts. -/
theorem sameValueZero_self {a b : Value} (h : sameValueZero a b = true) : sameValueZero b b = true :=
  Protocol.sameValueZero_trans (Protocol.sameValueZero_symm h) h

theorem exists_same (h : Bound packet document) {sentence : Value} (hsentence : sentence ∈ sentencesOf document) :
    ∃ id, sameValueZero id (sentence.property "sentenceId") = true := by
  obtain ⟨source, -, hcovers⟩ := h.matched.exists_left hsentence
  exact ⟨_, hcovers.same⟩

/-- Sentences whose identifiers have distinct texts have one identifier where these are the same. -/
theorem sameId_of_text (h : Bound packet document) (hdistinct : DistinctTexts document) {sentence sentence' : Value}
    (hs : sentence ∈ sentencesOf document) (hs' : sentence' ∈ sentencesOf document)
    (htext : keyText (sentence.property "sentenceId") = keyText (sentence'.property "sentenceId")) :
    sameValueZero (sentence.property "sentenceId") (sentence'.property "sentenceId") = true := by
  obtain rfl := List.inj_on_of_nodup_map hdistinct hs hs' htext
  obtain ⟨id, hid⟩ := exists_same h hs
  exact sameValueZero_self hid

/-- **The keys of a bound document are distinct exactly when the identifiers of its sentences are, as texts.** -/
theorem keys_nodup_iff (h : Bound packet document) :
    ((decisionUnits document).map DecisionUnit.key).Nodup ↔ DistinctTexts document := by
  rw [List.Nodup, List.pairwise_map]
  constructor
  · intro hkeys
    rw [decisionUnits, List.pairwise_flatMap] at hkeys
    rw [DistinctTexts, List.Nodup, List.pairwise_map]
    refine hkeys.2.imp (fun {s s'} hne htext => ?_)
    have hmem : ∀ s : Value, (⟨s, none, "structurallyAcceptable"⟩ : DecisionUnit) ∈ sentenceDecisions s := fun s =>
      List.mem_append_left _ (List.mem_map_of_mem (List.mem_cons_self))
    refine hne _ (hmem s) _ (hmem s') ?_
    simp only [DecisionUnit.key, DecisionUnit.ids, htext]
  · intro hdistinct
    refine (units_apart h).imp_of_mem (fun {u v} hu hv hdiffer hkey => ?_)
    rw [same_of_key h h hu hv hkey (sameId_of_text h hdistinct (mem_decisionUnits.1 hu).1 (mem_decisionUnits.1 hv).1)]
      at hdiffer
    cases hdiffer

theorem textOf_id (h : Bound packet document) {sentence : Value} (hsentence : sentence ∈ sentencesOf document) :
    textOf (sentence.property "sentenceId") = .ok (keyText (sentence.property "sentenceId")) := by
  obtain ⟨id, hid⟩ := exists_same h hsentence
  rw [textOf_ok, keyText]
  cases hvalue : sentence.property "sentenceId" with
  | undefined | null | bool _ | number _ | string _ => rfl
  | bigint _ | bytes _ | array _ | object _ =>
    rw [hvalue] at hid
    cases id <;> cases hid

theorem tokenKey_eq' (h : Bound packet document) {sentence token : Value} (hsentence : sentence ∈ sentencesOf document)
    (htoken : token ∈ tokensOf sentence) : tokenKey (sentence, token) = .ok (unitKey (sentence, token)) := by
  obtain ⟨i, hi⟩ := h.tokenNumber_of_mem hsentence htoken
  obtain ⟨d, hd, -⟩ := keyText_tokenNumber i
  rw [tokenKey, textOf_id h hsentence, hi, hd]
  simp only [unitKey, hi, hd]
  rfl

theorem appends_field {holder : Value} (hjson : holder.Json) (ids : Str) (field : String) :
    Appends (setField ids holder · field) [(ids ++ unit ':' :: str field, labelOf (holder.property field))] := by
  simp only [setField, canonicalValue_json hjson]
  exact appends_setUnique _ _

theorem appends_fields {holder : Value} (hjson : holder.Json) (ids : Str) (fields : List String) :
    Appends (fun values => fields.foldlM (setField ids holder) values)
      (fields.map (fun field => (ids ++ unit ':' :: str field, labelOf (holder.property field)))) := by
  rw [List.map_eq_flatMap]
  exact appends_foldlM (fun field _ => appends_field hjson ids field)

theorem appends_sentence (h : Bound packet document) (hjson : document.Json) {sentence : Value}
    (hsentence : sentence ∈ sentencesOf document) :
    Appends (decisionSentence · sentence) (entriesOf (sentenceDecisions sentence)) := by
  have hholder := mem_json hjson hsentence
  have htokens : Appends (fun values => (tokensOf sentence).foldlM (decisionToken sentence) values)
      ((tokensOf sentence).flatMap (fun token => entriesOf (tokenDecisions sentence token))) := by
    refine appends_foldlM (fun token htoken => ?_)
    simp only [decisionToken, tokenKey_eq' h hsentence htoken]
    rw [entriesOf, tokenDecisions, List.map_map]
    exact appends_fields (mem_json hholder htoken) _ _
  simp only [decisionSentence, textOf_id h hsentence]
  rw [entriesOf, sentenceDecisions, List.map_append, List.map_map, List.map_flatMap]
  exact (appends_fields hholder _ _).append htokens

/-- **The map of a bound document is the list of its units**, where the identifiers of its sentences have distinct texts,
and there is none where they have not. -/
theorem decisionMap_iff (h : Bound packet document) (hjson : document.Json) {values : List (Str × Str)} :
    decisionMap document = .ok values ↔ values = entriesOf (decisionUnits document) ∧ DistinctTexts document := by
  have happends : Appends (fun values => (sentencesOf document).foldlM decisionSentence values)
      ((sentencesOf document).flatMap (fun sentence => entriesOf (sentenceDecisions sentence))) :=
    appends_foldlM (fun sentence hsentence => appends_sentence h hjson hsentence)
  have hentries : (sentencesOf document).flatMap (fun sentence => entriesOf (sentenceDecisions sentence)) =
      entriesOf (decisionUnits document) := by
    rw [entriesOf, decisionUnits, List.map_flatMap]
    rfl
  rw [hentries] at happends
  have hempty : (([] : List (Str × Str)).map Prod.fst).Nodup := List.nodup_nil
  rw [decisionMap, happends hempty, List.nil_append, ← keys_nodup_iff h]
  constructor
  · rintro ⟨rfl, hnodup⟩
    refine ⟨rfl, ?_⟩
    rwa [entriesOf, List.map_map] at hnodup
  · rintro ⟨rfl, hnodup⟩
    refine ⟨rfl, ?_⟩
    rwa [entriesOf, List.map_map]

/-! ## Novel decisions -/

/-- The label is not that of the unit in a document. -/
def differsFrom (document : Value) (u : DecisionUnit) : Bool :=
  (decisionUnits document).all (fun v => !u.same v || decide (v.label ≠ u.label))

/-- The label is neither annotation's. -/
def novel (annotationA annotationB : Value) (u : DecisionUnit) : Bool :=
  differsFrom annotationA u && differsFrom annotationB u

/-- Units of sentences that are parallel. -/
theorem matched_units {sentence sentence' : Value} (h : Parallel sentence sentence') :
    Matched (fun u v => DecisionUnit.same u v = true) (sentenceDecisions sentence) (sentenceDecisions sentence') := by
  have hfields : ∀ (token token' : Option Value) (fields : List String),
      (∀ field, DecisionUnit.same ⟨sentence, token, field⟩ ⟨sentence', token', field⟩ = true) →
      List.Forall₂ (fun u v => DecisionUnit.same u v = true) (fields.map (fun field => ⟨sentence, token, field⟩))
        (fields.map (fun field => ⟨sentence', token', field⟩)) := fun token token' fields hsame => by
    rw [List.forall₂_map_left_iff, List.forall₂_map_right_iff]
    exact List.forall₂_same.2 (fun field _ => hsame field)
  refine Matched.append ⟨_, hfields none none _ (fun field => by simp [DecisionUnit.same, h.same]), .refl _⟩ ?_
  refine h.tokens.flatMap (fun token token' htoken => ⟨_, hfields (some token) (some token') _ (fun field => ?_), .refl _⟩)
  simp [DecisionUnit.same, h.same, htoken]

theorem units_matched (hdocument : Bound packet document) (hother : Bound packet other) :
    Matched (fun u v => DecisionUnit.same u v = true) (decisionUnits document) (decisionUnits other) :=
  (hdocument.parallel hother).flatMap (fun _ _ h => matched_units h)

theorem valueAt_eq {values : List (Str × Str)} (hnodup : (values.map Prod.fst).Nodup) {key value : Str}
    (h : (key, value) ∈ values) : valueAt values key = some value := by
  induction values with
  | nil => cases h
  | cons entry values ih =>
    rw [List.map_cons, List.nodup_cons] at hnodup
    rw [valueAt, List.find?_cons]
    obtain rfl | h := List.mem_cons.1 h
    · simp
    · have hne : entry.1 ≠ key := fun he => hnodup.1 (he ▸ List.mem_map_of_mem (f := Prod.fst) h)
      rw [decide_eq_false hne]
      exact ih hnodup.2 h

theorem entries_nodup (h : Bound packet document) (hdistinct : DistinctTexts document) :
    ((entriesOf (decisionUnits document)).map Prod.fst).Nodup := by
  rw [entriesOf, List.map_map]
  exact (keys_nodup_iff h).2 hdistinct

/-- **The value under the key of a unit** is the label of the same unit. -/
theorem valueAt_unit (h : Bound packet document) (hdistinct : DistinctTexts document) {u v : DecisionUnit}
    (hv : v ∈ decisionUnits document) (hsame : u.same v = true) :
    valueAt (entriesOf (decisionUnits document)) u.key = some v.label :=
  valueAt_eq (entries_nodup h hdistinct) (by rw [key_of_same hsame]; exact List.mem_map_of_mem hv)

theorem differsFrom_iff (h : Bound packet document) (hdistinct : DistinctTexts document) {u v : DecisionUnit}
    (hv : v ∈ decisionUnits document) (hsame : u.same v = true) : differsFrom document u = true ↔ u.label ≠ v.label := by
  rw [differsFrom, List.all_eq_true]
  constructor
  · intro hall
    have hne := hall v hv
    rw [hsame, Bool.not_true, Bool.false_or, decide_eq_true_eq] at hne
    exact hne.symm
  · intro hne w hw
    cases hw' : u.same w with
    | false => rfl
    | true =>
      have hlabel := (valueAt_unit h hdistinct hv hsame).symm.trans (valueAt_unit h hdistinct hw hw')
      rw [← Option.some.inj hlabel, Bool.not_true, Bool.false_or, decide_eq_true_eq]
      exact hne.symm

variable {annotationA annotationB finalDecision : Value}

theorem countNovel_units (hA : Bound packet annotationA) (hB : Bound packet annotationB)
    (hfinal : Bound packet finalDecision) (hdistinctA : DistinctTexts annotationA) (hdistinctB : DistinctTexts annotationB)
    {units : List DecisionUnit} (hunits : ∀ u ∈ units, u ∈ decisionUnits finalDecision) (count : Nat) :
    (entriesOf units).foldlM (countNovel (entriesOf (decisionUnits annotationA)) (entriesOf (decisionUnits annotationB)))
      count = .ok (count + units.countP (novel annotationA annotationB)) := by
  induction units generalizing count with
  | nil => rfl
  | cons u units ih =>
    obtain ⟨hu, hunits⟩ := List.forall_mem_cons.1 hunits
    obtain ⟨a, ha, hua⟩ := (units_matched hfinal hA).exists_right hu
    obtain ⟨b, hb, hub⟩ := (units_matched hfinal hB).exists_right hu
    have hnovel : novel annotationA annotationB u = decide (u.label ≠ a.label ∧ u.label ≠ b.label) := by
      rw [novel, Bool.eq_iff_iff, Bool.and_eq_true, differsFrom_iff hA hdistinctA ha hua,
        differsFrom_iff hB hdistinctB hb hub, decide_eq_true_eq]
    have hentries : entriesOf (u :: units) = (u.key, u.label) :: entriesOf units := rfl
    rw [hentries, List.foldlM_cons, countNovel, valueAt_unit hA hdistinctA ha hua,
      valueAt_unit hB hdistinctB hb hub]
    refine (ih hunits _).trans ?_
    rw [List.countP_cons, hnovel]
    dsimp only
    by_cases hboth : u.label ≠ a.label ∧ u.label ≠ b.label
    · rw [if_pos hboth, if_pos (decide_eq_true hboth), Nat.add_right_comm, Nat.add_assoc]
    · rw [if_neg hboth, if_neg (fun h => hboth (of_decide_eq_true h)), Nat.add_zero]

/-- **Novel decisions are counted exactly where the identifiers of the sentences have distinct texts**, and are the units
that neither annotation has decided so. -/
theorem countNovelPrimaryDecisions_iff (hA : Bound packet annotationA) (hB : Bound packet annotationB)
    (hfinal : Bound packet finalDecision) (hjsonA : annotationA.Json) (hjsonB : annotationB.Json)
    (hjson : finalDecision.Json) {count : Nat} :
    countNovelPrimaryDecisions annotationA annotationB finalDecision = .ok count ↔
      DistinctTexts packet ∧ count = (decisionUnits finalDecision).countP (novel annotationA annotationB) := by
  rw [countNovelPrimaryDecisions]
  simp only [bind_eq_ok, decisionMap_iff hA hjsonA, decisionMap_iff hB hjsonB, decisionMap_iff hfinal hjson,
    distinctTexts_iff hA, distinctTexts_iff hB, distinctTexts_iff hfinal]
  have hlengthA := (units_matched hfinal hA).length_eq
  have hlengthB := (units_matched hfinal hB).length_eq
  have hfold := fun hdistinct => countNovel_units hA hB hfinal ((distinctTexts_iff hA).2 hdistinct)
    ((distinctTexts_iff hB).2 hdistinct) (fun u hu => hu) 0
  constructor
  · rintro ⟨a, ⟨rfl, hdistinct⟩, b, ⟨rfl, -⟩, final, ⟨rfl, -⟩, n, hn, h⟩
    rw [hfold hdistinct, Nat.zero_add, Except.ok.injEq] at hn
    split at h
    · cases h
    · cases h
      exact ⟨hdistinct, hn.symm⟩
  · rintro ⟨hdistinct, rfl⟩
    refine ⟨_, ⟨rfl, hdistinct⟩, _, ⟨rfl, hdistinct⟩, _, ⟨rfl, hdistinct⟩, _, hfold hdistinct, ?_⟩
    simp [entriesOf, hlengthA, ← hlengthB]

end Consensus
end Adg
