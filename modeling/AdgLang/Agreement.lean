import AdgLang.AnnotationCoverage
import AdgLang.Joined
import AdgLang.Kappa
import AdgLang.PublicText
/-!
# Agreement — the independent agreement of two annotations

`computeIndependentAgreement` of `consensus.js`, over the rationals.  A dimension compares one field of the sentences or of
the tokens: the values of both annotations, as canonical texts, are paired by the identifiers of their units.  Under equal
coverage such a loop joins the two annotations (`joined_of_joinPairs`, `joinPairs_of_joined`), so that neither the order of units
nor that of the annotations matters, and what a kappa is follows from its pairs (`Kappa`).
-/
namespace Adg
namespace Consensus

open Js
open Protocol (textOf sameValueZero sentencesOf tokensOf itemsOf isNullish isIntegerNumber typeError)

/-! ## Coverage -/

/-- The inner loop of `annotationCoverage`, with the keys there are. -/
def coverTokens (sentenceId : Value) : List Str → List Value → Except Str (List Str)
  | keys, [] => .ok keys
  | keys, token :: rest => do
    let tokenId := token.property "tokenId"
    let tokenKey := str "token:" ++ (← textOf sentenceId) ++ unit ':' :: (← textOf tokenId)
    if !isIntegerNumber tokenId || keys.contains tokenKey then
      .error (str "Independent token identifiers must be unique.")
    else coverTokens sentenceId (keys ++ [tokenKey]) rest

/-- The outer loop. -/
def coverSentences : List Str → List Value → Except Str (List Str)
  | keys, [] => .ok keys
  | keys, sentence :: rest => do
    let sentenceId := sentence.property "sentenceId"
    let sentenceKey := str "sentence:" ++ (← textOf sentenceId)
    if !sentenceId.truthy || keys.contains sentenceKey then
      .error (str "Independent sentence identifiers must be unique.")
    else
      match sentence.property "tokens" with
      | .array tokens => do
        let keys ← coverTokens sentenceId (keys ++ [sentenceKey]) tokens
        coverSentences keys rest
      | _ => .error (str "Independent annotation tokens are missing.")

def annotationCoverage ( annotation : Value) : Except Str (List Str) :=
  match annotation.property "sentences" with
  | .array sentences => coverSentences [] sentences
  | _ => .error (str "Independent annotation sentences are missing.")

def assertComparableCoverage (annotationA annotationB : Value) : Except Str Unit := do
  let left ← annotationCoverage annotationA
  let right ← annotationCoverage annotationB
  if left.length ≠ right.length || left.any (fun key => !right.contains key) then
    .error (str "Independent annotation coverage differs.")
  else .ok ()

/-! ## Pairs -/

def canonicalValue (value : Value) : Except Str Str :=
  if isNullish value then .ok (str "null")
  else if value.all (fun w => !w.isBigInt) then .ok value.text
  else .error typeError

/-- The two values of one unit. -/
def pairOf (field : String) (unit other : Value) : Except Str (Str × Str) := do
  return (← canonicalValue (unit.property field), ← canonicalValue (other.property field))

/-- The body of the loop of `sentencePairs`: the last sentence of an identifier is the one in the map. -/
def sentencePair (annotationB : Value) (field : String) (sentence : Value) : Except Str (Str × Str) :=
  match (sentencesOf annotationB).reverse.find?
      (fun other => sameValueZero (other.property "sentenceId") (sentence.property "sentenceId")) with
  | none => .error (str "Independent sentence coverage differs.")
  | some other => pairOf field sentence other

def sentencePairs (annotationA annotationB : Value) (field : String) : Except Str (List (Str × Str)) :=
  (sentencesOf annotationA).mapM (sentencePair annotationB field)

/-- The tokens of an annotation, each with its sentence. -/
def tokenUnits ( annotation : Value) : List (Value × Value) :=
  (sentencesOf annotation).flatMap (fun sentence => (tokensOf sentence).map (fun token => (sentence, token)))

def tokenKey (u : Value × Value) : Except Str Str := do
  return (← textOf (u.1.property "sentenceId")) ++ unit ':' :: (← textOf (u.2.property "tokenId"))

/-- The body of the loop of `tokenPairs`. -/
def tokenPair (right : List (Str × Value)) (field : String) (u : Value × Value) : Except Str (Str × Str) := do
  let key ← tokenKey u
  match right.reverse.find? (fun other => decide (other.1 = key)) with
  | none => .error (str "Independent token coverage differs.")
  | some other => pairOf field u.2 other.2

def tokenPairs (annotationA annotationB : Value) (field : String) : Except Str (List (Str × Str)) := do
  let right ← (tokenUnits annotationB).mapM (fun u => do return (← tokenKey u, u.2))
  (tokenUnits annotationA).mapM (tokenPair right field)

/-! ## Measures -/

structure Dimension where
  name : String
  unitCount : Nat
  disagreementCount : Nat
  rawAgreement : ℚ
  cohenKappa : Option ℚ
deriving DecidableEq

/-- `cohenKappa`, the counts of a map being those of the labels in the pairs. -/
def cohenKappa (pairs : List (Str × Str)) : Option ℚ :=
  if pairs = [] then none
  else
    let leftCount := fun label => pairs.countP (fun p => decide (p.1 = label))
    let rightCount := fun label => pairs.countP (fun p => decide (p.2 = label))
    let agreement := (pairs.filter (fun p => decide (p.1 = p.2))).length
    let observed := (agreement : ℚ) / pairs.length
    let labels := (pairs.map Prod.fst ++ pairs.map Prod.snd).dedup
    let expected := (labels.map (fun label =>
      (leftCount label : ℚ) / pairs.length * ((rightCount label : ℚ) / pairs.length))).sum
    if expected = 1 then none else some ((observed - expected) / (1 - expected))

def dimension (name : String) (pairs : List (Str × Str)) : Dimension :=
  let unitCount := pairs.length
  let disagreementCount := (pairs.filter (fun p => !decide (p.1 = p.2))).length
  { name := name
    unitCount := unitCount
    disagreementCount := disagreementCount
    rawAgreement := if unitCount ≠ 0 then ((unitCount - disagreementCount : Int) : ℚ) / unitCount else 1
    cohenKappa := cohenKappa pairs }

structure AgreementMetrics where
  unitCount : Nat
  exactAgreement : Bool
  macroRawAgreement : ℚ
  macroDefinedKappa : Option ℚ
  dimensions : List Dimension
deriving DecidableEq

def average (values : List ℚ) : ℚ := if values.isEmpty then 0 else values.sum / values.length

def metricsOf (dimensions : List Dimension) : AgreementMetrics :=
  let definedKappas := dimensions.filterMap Dimension.cohenKappa
  { unitCount := (dimensions.map Dimension.unitCount).sum
    exactAgreement := dimensions.all (fun d => decide (d.disagreementCount = 0))
    macroRawAgreement := average (dimensions.map Dimension.rawAgreement)
    macroDefinedKappa := if definedKappas.isEmpty then none else some (average definedKappas)
    dimensions := dimensions }

def sentenceFields : List (String × String) :=
  [("sentence.structurallyAcceptable", "structurallyAcceptable"), ("sentence.completePredicate", "completePredicate")]

def tokenFields : List (String × String) :=
  [("token.universalPartOfSpeech", "universalPartOfSpeech"), ("token.headTokenId", "headTokenId"),
    ("token.dependencyRelation", "dependencyRelation"), ("token.irabHeadTokenId", "irabHeadTokenId"),
    ("token.irabCategory", "irabCategory"), ("token.irabNotApplicable", "irabNotApplicable")]

def computeIndependentAgreement (annotationA annotationB : Value) : Except Str AgreementMetrics := do
  assertComparableCoverage annotationA annotationB
  let sentences ← sentenceFields.mapM (fun (name, field) => do
    return dimension name (← sentencePairs annotationA annotationB field))
  let tokens ← tokenFields.mapM (fun (name, field) => do
    return dimension name (← tokenPairs annotationA annotationB field))
  return metricsOf (sentences ++ tokens)

/-! ## Dimensions do not depend on order or side -/

theorem cohenKappa_eq (pairs : List (Str × Str)) : cohenKappa pairs = Kappa.kappa pairs := by
  have hexpected : ((pairs.map Prod.fst ++ pairs.map Prod.snd).dedup.map (fun label =>
      (pairs.countP (fun p => decide (p.1 = label)) : ℚ) / pairs.length *
        ((pairs.countP (fun p => decide (p.2 = label)) : ℚ) / pairs.length))).sum = Kappa.expected pairs := by
    rw [← List.sum_toFinset _ (List.nodup_dedup _), Kappa.expected, Kappa.labels]
    refine Finset.sum_congr ?_ (fun label _ => ?_)
    · ext label
      simp
    · rw [Kappa.share_map, Kappa.share_map]
  unfold cohenKappa Kappa.kappa
  simp only [hexpected]
  rfl

theorem disagreements_eq (pairs : List (Str × Str)) :
    (pairs.filter (fun p => !decide (p.1 = p.2))).length + (Kappa.agreeing pairs).length = pairs.length := by
  have h := @List.length_eq_length_filter_add _ pairs (fun p => decide (p.1 = p.2))
  rw [Kappa.agreeing]
  omega

theorem dimension_perm (name : String) {pairs pairs' : List (Str × Str)} (h : pairs.Perm pairs') :
    dimension name pairs = dimension name pairs' := by
  simp only [dimension, h.length_eq, (h.filter _).length_eq, cohenKappa_eq, Kappa.kappa_perm h]

theorem dimension_swap (name : String) (pairs : List (Str × Str)) :
    dimension name (pairs.map Prod.swap) = dimension name pairs := by
  have hfilter : ((pairs.map Prod.swap).filter (fun p => !decide (p.1 = p.2))).length =
      (pairs.filter (fun p => !decide (p.1 = p.2))).length := by
    rw [List.filter_map, List.length_map]
    exact congrArg List.length (List.filter_congr (fun p _ => by simp [eq_comm]))
  simp only [dimension, List.length_map, hfilter, cohenKappa_eq, Kappa.kappa_swap]

/-! ## What coverage says -/

def keyText (v : Value) : Str := v.toText.getD []

def sentenceKey (sentence : Value) : Str := str "sentence:" ++ keyText (sentence.property "sentenceId")

/-- The key of a token in `tokenPairs`. -/
def unitKey (u : Value × Value) : Str :=
  keyText (u.1.property "sentenceId") ++ unit ':' :: keyText (u.2.property "tokenId")

def sentenceKeys (sentence : Value) : List Str :=
  sentenceKey sentence :: (tokensOf sentence).map (fun token => str "token:" ++ unitKey (sentence, token))

def keysOf (document : Value) : List Str := (sentencesOf document).flatMap sentenceKeys

/-- A sentence that `annotationCoverage` passes. -/
structure Coverable (sentence : Value) : Prop where
  id : (sentence.property "sentenceId").truthy = true
  text : textOf (sentence.property "sentenceId") = .ok (keyText (sentence.property "sentenceId"))
  tokens : ∃ tokens, sentence.property "tokens" = .array tokens
  ids : ∀ token ∈ tokensOf sentence, isIntegerNumber (token.property "tokenId") = true

/-- An annotation whose units have keys of their own. -/
structure Covered (document : Value) : Prop where
  sentences : ∃ sentences, document.property "sentences" = .array sentences
  coverable : ∀ sentence ∈ sentencesOf document, Coverable sentence
  nodup : (keysOf document).Nodup

theorem textOf_ok {v : Value} {t : Str} : textOf v = .ok t ↔ v.toText = some t := by
  unfold textOf
  cases v.toText <;> simp

theorem textOf_integer {v : Value} (h : isIntegerNumber v = true) : textOf v = .ok (keyText v) := by
  cases v with
  | number n => rfl
  | undefined | null | bool _ | bigint _ | string _ | bytes _ | array _ | object _ => cases h

theorem nodup_snoc {keys : List Str} {key : Str} (h : keys.Nodup) (hnew : key ∉ keys) : (keys ++ [key]).Nodup := by
  refine List.nodup_append.2 ⟨h, List.nodup_singleton _, fun a ha b hb he => hnew ?_⟩
  rwa [he, List.mem_singleton.1 hb] at ha

theorem coverTokens_iff {sentence : Value} (htext : textOf (sentence.property "sentenceId") =
    .ok (keyText (sentence.property "sentenceId"))) : ∀ {tokens : List Value} {keys keys' : List Str}, keys.Nodup →
    (coverTokens (sentence.property "sentenceId") keys tokens = .ok keys' ↔
      keys' = keys ++ tokens.map (fun token => str "token:" ++ unitKey (sentence, token)) ∧
      (∀ token ∈ tokens, isIntegerNumber (token.property "tokenId") = true) ∧ keys'.Nodup)
  | [], keys, keys', hkeys => by
    rw [coverTokens, Except.ok.injEq, List.map_nil, List.append_nil]
    exact ⟨fun h => ⟨h.symm, nofun, h ▸ hkeys⟩, fun h => h.1.symm⟩
  | token :: rest, keys, keys', hkeys => by
    have hkey : ∀ t, textOf (token.property "tokenId") = .ok t →
        isIntegerNumber (token.property "tokenId") = true →
        str "token:" ++ keyText (sentence.property "sentenceId") ++ unit ':' :: t =
          str "token:" ++ unitKey (sentence, token) := fun t ht hinteger => by
      rw [textOf_integer hinteger] at ht
      rw [← Except.ok.inj ht, List.append_assoc]
      rfl
    rw [coverTokens, htext]
    simp only [bind_eq_ok, Except.ok.injEq, exists_eq_left']
    rw [List.map_cons, List.forall_mem_cons]
    constructor
    · rintro ⟨t, ht, h⟩
      split at h
      · cases h
      rename_i hnew
      rw [Bool.or_eq_true, not_or, Bool.not_eq_true, Bool.not_eq_false', List.contains_iff_mem] at hnew
      obtain ⟨hinteger, hnew⟩ := hnew
      rw [hkey t ht hinteger] at h hnew
      obtain ⟨hsame, hintegers, hnodup'⟩ := (coverTokens_iff htext (nodup_snoc hkeys hnew)).1 h
      exact ⟨by rw [hsame, List.append_assoc]; rfl, ⟨hinteger, hintegers⟩, hnodup'⟩
    · rintro ⟨hsame, ⟨hinteger, hintegers⟩, hnodup⟩
      have hsplit : (keys ++ [str "token:" ++ unitKey (sentence, token)]).Nodup := by
        refine hnodup.sublist ?_
        rw [hsame]
        exact List.Sublist.append_left (List.singleton_sublist.2 List.mem_cons_self) keys
      have hnew : str "token:" ++ unitKey (sentence, token) ∉ keys := fun hmem =>
        (List.nodup_append.1 hsplit).2.2 _ hmem _ List.mem_cons_self rfl
      refine ⟨_, textOf_integer hinteger, ?_⟩
      rw [hkey _ (textOf_integer hinteger) hinteger, if_neg (by simp [hinteger, hnew]), coverTokens_iff htext hsplit]
      exact ⟨by rw [hsame, List.append_assoc]; rfl, hintegers, hnodup⟩

theorem coverSentences_iff : ∀ {sentences : List Value} {keys keys' : List Str}, keys.Nodup →
    (coverSentences keys sentences = .ok keys' ↔ (∀ sentence ∈ sentences, Coverable sentence) ∧
      keys' = keys ++ sentences.flatMap sentenceKeys ∧ keys'.Nodup)
  | [], keys, keys', hkeys => by
    rw [coverSentences, Except.ok.injEq, List.flatMap_nil, List.append_nil]
    exact ⟨fun h => ⟨nofun, h.symm, h ▸ hkeys⟩, fun h => h.2.1.symm⟩
  | sentence :: rest, keys, keys', hkeys => by
    rw [coverSentences, List.flatMap_cons, List.forall_mem_cons, sentenceKeys]
    simp only [bind_eq_ok]
    constructor
    · rintro ⟨t, ht, h⟩
      have htext : t = keyText (sentence.property "sentenceId") := by rw [keyText, textOf_ok.1 ht]; rfl
      rw [htext] at ht h
      split at h
      · cases h
      rename_i hnew
      rw [Bool.or_eq_true, not_or, Bool.not_eq_true, Bool.not_eq_false', List.contains_iff_mem] at hnew
      split at h
      · rename_i tokens htokens
        have htokensOf : tokensOf sentence = tokens := by rw [tokensOf, htokens, itemsOf]
        obtain ⟨middle, hmiddle, h⟩ := bind_eq_ok.1 h
        obtain ⟨hsame, hids, hnodup⟩ := (coverTokens_iff ht (nodup_snoc hkeys hnew.2)).1 hmiddle
        obtain ⟨hcoverable, hlast, hnodup'⟩ := (coverSentences_iff hnodup).1 h
        refine ⟨⟨⟨hnew.1, ht, ⟨tokens, htokens⟩, htokensOf ▸ hids⟩, hcoverable⟩, ?_, hnodup'⟩
        rw [hlast, hsame, htokensOf, List.append_assoc, List.append_assoc]
        rfl
      · cases h
    · rintro ⟨⟨⟨htruthy, ht, ⟨tokens, htokens⟩, hids⟩, hcoverable⟩, hsame, hnodup⟩
      have htokensOf : tokensOf sentence = tokens := by rw [tokensOf, htokens, itemsOf]
      rw [htokensOf] at hids hsame
      rw [← List.append_assoc, List.append_cons] at hsame
      have hmiddle := hnodup.sublist (hsame ▸ List.sublist_append_left _ _)
      have hfirst := hmiddle.sublist (List.sublist_append_left _ _)
      have hnew : sentenceKey sentence ∉ keys := fun hmem =>
        (List.nodup_append.1 hfirst).2.2 _ hmem _ List.mem_cons_self rfl
      refine ⟨_, ht, ?_⟩
      rw [if_neg (by simpa [htruthy, sentenceKey] using hnew), htokens]
      refine bind_eq_ok.2 ⟨_, (coverTokens_iff ht hfirst).2 ⟨rfl, hids, hmiddle⟩, ?_⟩
      exact (coverSentences_iff hmiddle).2 ⟨hcoverable, hsame, hnodup⟩

theorem annotationCoverage_iff {document : Value} {keys : List Str} :
    annotationCoverage document = .ok keys ↔ Covered document ∧ keys = keysOf document := by
  rw [annotationCoverage]
  constructor
  · intro h
    split at h
    · rename_i sentences hsentences
      have hof : sentencesOf document = sentences := by rw [sentencesOf, hsentences, itemsOf]
      obtain ⟨hcoverable, hsame, hnodup⟩ := (coverSentences_iff List.nodup_nil).1 h
      have hkeys : keys = keysOf document := by rw [hsame, keysOf, hof, List.nil_append]
      exact ⟨⟨⟨sentences, hsentences⟩, hof ▸ hcoverable, hkeys ▸ hnodup⟩, hkeys⟩
    · cases h
  · rintro ⟨⟨⟨sentences, hsentences⟩, hcoverable, hnodup⟩, rfl⟩
    have hof : sentencesOf document = sentences := by rw [sentencesOf, hsentences, itemsOf]
    rw [hsentences]
    refine (coverSentences_iff List.nodup_nil).2 ⟨hof ▸ hcoverable, ?_, hnodup⟩
    rw [keysOf, hof, List.nil_append]

/-- Annotations of the same units. -/
structure Comparable (annotationA annotationB : Value) : Prop where
  left : Covered annotationA
  right : Covered annotationB
  keys : (keysOf annotationA).Perm (keysOf annotationB)

theorem assertComparableCoverage_iff {annotationA annotationB : Value} :
    assertComparableCoverage annotationA annotationB = .ok () ↔ Comparable annotationA annotationB := by
  rw [assertComparableCoverage]
  simp only [bind_eq_ok, annotationCoverage_iff]
  constructor
  · rintro ⟨left, ⟨hleft, rfl⟩, right, ⟨hright, rfl⟩, h⟩
    split at h
    · cases h
    rename_i hsame
    simp only [ne_eq, decide_not, Bool.or_eq_true, Bool.not_eq_true', decide_eq_false_iff_not, List.any_eq_true,
      List.contains_eq_mem, not_or, not_not, not_exists, not_and] at hsame
    exact ⟨hleft, hright, (hleft.nodup.subperm hsame.2).perm_of_length_le hsame.1.ge⟩
  · rintro ⟨hleft, hright, hkeys⟩
    refine ⟨_, ⟨hleft, rfl⟩, _, ⟨hright, rfl⟩, if_neg ?_⟩
    simpa [hkeys.length_eq] using fun key hkey => hkeys.subset hkey

theorem Comparable.symm {annotationA annotationB : Value} (h : Comparable annotationA annotationB) :
    Comparable annotationB annotationA := ⟨h.right, h.left, h.keys.symm⟩

/-! ## Pairs as joins -/

/-- The canonical texts of two values. -/
def valuesPair (value other : Value) : Except Str (Str × Str) := do
  return (← canonicalValue value, ← canonicalValue other)

theorem valuesPair_swap {value other : Value} {p : Str × Str} (h : valuesPair value other = .ok p) :
    valuesPair other value = .ok p.swap := by
  obtain ⟨left, hleft, h⟩ := bind_eq_ok.1 h
  obtain ⟨right, hright, h⟩ := bind_eq_ok.1 h
  cases h
  exact bind_eq_ok.2 ⟨right, hright, bind_eq_ok.2 ⟨left, hleft, rfl⟩⟩

section Join

variable {κ : Type} (same : κ → κ → Bool) (missing : Str)

/-- The loop of `sentencePairs` and of `tokenPairs`, on the keys and values of units. -/
def joinPairs (left right : List (κ × Value)) : Except Str (List (Str × Str)) :=
  left.mapM (fun u =>
    match right.reverse.find? (fun other => same other.1 u.1) with
    | none => .error missing
    | some other => valuesPair u.2 other.2)

/-- No key is the same as those of two units. -/
def Apart (units : List (κ × Value)) : Prop :=
  units.Pairwise (fun u u' => ∀ key, same u.1 key = true → ¬ same u'.1 key = true)

/-- Two units with the same key, and the pair of their values. -/
def SameUnit (u v : κ × Value) (p : Str × Str) : Prop := same v.1 u.1 = true ∧ valuesPair u.2 v.2 = .ok p

variable {same : κ → κ → Bool} {missing : Str} {left right : List (κ × Value)} {pairs : List (Str × Str)}

theorem joined_of_joinPairs (hsymm : ∀ a b, same a b = true → same b a = true) (hlength : left.length = right.length)
    (hapart : Apart same left) (h : joinPairs same missing left right = .ok pairs) :
    JoinedBy (SameUnit same) left right pairs := by
  refine joined_of_mapM h hlength (fun u _ p hp => ?_) ?_
  · split at hp
    · cases hp
    · rename_i v hfound
      exact ⟨v, List.mem_reverse.1 (List.mem_of_find?_eq_some hfound), by simpa using List.find?_some hfound, hp⟩
  · exact hapart.imp (fun hne v _ p p' hv hv' => hne v.1 (hsymm _ _ hv.1) (hsymm _ _ hv'.1))

theorem joinPairs_of_joined (hapart : Apart same right) (h : JoinedBy (SameUnit same) left right pairs) :
    ∃ qs, joinPairs same missing left right = .ok qs ∧ qs.Perm pairs := by
  refine h.exists_mapM (fun u _ v hv p hp => ?_)
  have hfound : right.reverse.find? (fun other => same other.1 u.1) = some v := by
    have hexists : (right.reverse.find? (fun other => same other.1 u.1)).isSome = true :=
      List.find?_isSome.2 ⟨v, List.mem_reverse.2 hv, hp.1⟩
    obtain ⟨v', hv'⟩ := Option.isSome_iff_exists.1 hexists
    have hmem := List.mem_reverse.1 (List.mem_of_find?_eq_some hv')
    by_cases hne : v' = v
    · rw [← hne, hv']
    · have hsymm : Std.Symm (fun u u' : κ × Value => ∀ key, same u.1 key = true → ¬ same u'.1 key = true) :=
        ⟨fun _ _ h key hkey hkey' => h key hkey' hkey⟩
      exact absurd hp.1 (hapart.forall hmem hv hne u.1 (by simpa using List.find?_some hv'))
  rw [hfound]
  exact hp.2

theorem Apart.perm {units units' : List (κ × Value)} (h : Apart same units) (hperm : units.Perm units') :
    Apart same units' :=
  (hperm.pairwise_iff (fun h key hkey hkey' => h key hkey' hkey)).1 h

/-- **The other annotation first**: the same pairs, turned round. -/
theorem joinPairs_swap (hsymm : ∀ a b, same a b = true → same b a = true) (hlength : left.length = right.length)
    (hapart : Apart same left) (h : joinPairs same missing left right = .ok pairs) :
    ∃ qs, joinPairs same missing right left = .ok qs ∧ qs.Perm (pairs.map Prod.swap) :=
  joinPairs_of_joined hapart ((joined_of_joinPairs hsymm hlength hapart h).swap
    (fun _ _ _ hp => ⟨hsymm _ _ hp.1, valuesPair_swap hp.2⟩))

/-- **Units in another order**: the same pairs. -/
theorem joinPairs_perm {left' right' : List (κ × Value)} (hsymm : ∀ a b, same a b = true → same b a = true)
    (hlength : left.length = right.length) (hapart : Apart same left) (hright : Apart same right)
    (hleft : left.Perm left') (hperm : right.Perm right') (h : joinPairs same missing left right = .ok pairs) :
    ∃ qs, joinPairs same missing left' right' = .ok qs ∧ qs.Perm pairs :=
  joinPairs_of_joined (hright.perm hperm) ((joined_of_joinPairs hsymm hlength hapart h).perm hleft hperm (.refl _))

end Join

/-! ## Entries -/

def sentenceEntries (document : Value) (field : String) : List (Value × Value) :=
  (sentencesOf document).map (fun sentence => (sentence.property "sentenceId", sentence.property field))

def tokenEntries (document : Value) (field : String) : List (Str × Value) :=
  (tokenUnits document).map (fun u => (unitKey u, u.2.property field))

theorem sentencePairs_eq (annotationA annotationB : Value) (field : String) : sentencePairs annotationA annotationB field =
    joinPairs sameValueZero (str "Independent sentence coverage differs.") (sentenceEntries annotationA field)
      (sentenceEntries annotationB field) := by
  rw [joinPairs, sentenceEntries, sentenceEntries, List.mapM_map, sentencePairs]
  congr 1
  funext sentence
  rw [sentencePair, Function.comp_apply, ← List.map_reverse, List.find?_map]
  simp only [Function.comp_def]
  cases (sentencesOf annotationB).reverse.find?
    (fun other => sameValueZero (other.property "sentenceId") (sentence.property "sentenceId")) <;> rfl

theorem tokenKey_eq {document : Value} (h : Covered document) {u : Value × Value} (hu : u ∈ tokenUnits document) :
    tokenKey u = .ok (unitKey u) := by
  obtain ⟨sentence, hsentence, hmem⟩ := List.mem_flatMap.1 hu
  obtain ⟨token, htoken, rfl⟩ := List.mem_map.1 hmem
  have hcoverable := h.coverable sentence hsentence
  rw [tokenKey, hcoverable.text, textOf_integer (hcoverable.ids token htoken)]
  rfl

theorem tokenPairs_eq {annotationA annotationB : Value} (hA : Covered annotationA) (hB : Covered annotationB)
    (field : String) : tokenPairs annotationA annotationB field =
      joinPairs (fun a b => decide (a = b)) (str "Independent token coverage differs.") (tokenEntries annotationA field)
        (tokenEntries annotationB field) := by
  have hright : (tokenUnits annotationB).mapM (fun u => do return (← tokenKey u, u.2)) =
      .ok ((tokenUnits annotationB).map (fun u => (unitKey u, u.2))) := by
    refine mapM_ok_of_forall₂ ?_
    rw [List.forall₂_map_right_iff]
    refine List.forall₂_same.2 (fun u hu => ?_)
    rw [tokenKey_eq hB hu]
    rfl
  rw [tokenPairs, hright, joinPairs, tokenEntries, tokenEntries]
  rw [List.mapM_map]
  refine mapM_congr (fun u hu => ?_)
  simp only [tokenPair, tokenKey_eq hA hu, Function.comp_def, ← List.map_reverse, bind, Except.bind, List.find?_map]
  cases (tokenUnits annotationB).reverse.find? (fun other => decide (unitKey other = unitKey u)) <;> rfl

/-! ## Keys of comparable annotations -/

theorem keysOf_perm (document : Value) : (keysOf document).Perm ((sentencesOf document).map sentenceKey ++
    ((tokenUnits document).map unitKey).map (str "token:" ++ ·)) := by
  have htokens : ((tokenUnits document).map unitKey).map (str "token:" ++ ·) = (sentencesOf document).flatMap
      (fun sentence => (tokensOf sentence).map (fun token => str "token:" ++ unitKey (sentence, token))) := by
    rw [tokenUnits, List.map_flatMap, List.map_flatMap]
    simp only [List.map_map, Function.comp_def]
  rw [htokens]
  exact (List.map_append_flatMap_perm _ _ _).symm

/-- The keys of sentences, and those of tokens. -/
theorem keysOf_filter (document : Value) (first : UInt16) : ((keysOf document).filter (·.head? == some first)).Perm
    (((sentencesOf document).map sentenceKey).filter (·.head? == some first) ++
      (((tokenUnits document).map unitKey).map (str "token:" ++ ·)).filter (·.head? == some first)) := by
  rw [← List.filter_append]
  exact (keysOf_perm document).filter _

theorem sentenceKeys_perm {annotationA annotationB : Value} (h : (keysOf annotationA).Perm (keysOf annotationB)) :
    ((sentencesOf annotationA).map sentenceKey).Perm ((sentencesOf annotationB).map sentenceKey) := by
  have hfilter : ∀ document, ((keysOf document).filter (·.head? == some (unit 's'))).Perm
      ((sentencesOf document).map sentenceKey) := fun document => by
    refine (keysOf_filter document (unit 's')).trans (.of_eq ?_)
    rw [List.filter_eq_self.2, List.filter_eq_nil_iff.2, List.append_nil]
    · intro key hkey
      obtain ⟨text, -, rfl⟩ := List.mem_map.1 hkey
      exact (by decide : ¬ (some (unit 't') == some (unit 's')) = true)
    · intro key hkey
      obtain ⟨sentence, -, rfl⟩ := List.mem_map.1 hkey
      rfl
  exact (hfilter annotationA).symm.trans ((h.filter _).trans (hfilter annotationB))

theorem unitKeys_perm {annotationA annotationB : Value} (h : (keysOf annotationA).Perm (keysOf annotationB)) :
    ((tokenUnits annotationA).map unitKey).Perm ((tokenUnits annotationB).map unitKey) := by
  have hfilter : ∀ document, ((keysOf document).filter (·.head? == some (unit 't'))).Perm
      (((tokenUnits document).map unitKey).map (str "token:" ++ ·)) := fun document => by
    refine (keysOf_filter document (unit 't')).trans (.of_eq ?_)
    rw [List.filter_eq_nil_iff.2, List.filter_eq_self.2, List.nil_append]
    · intro key hkey
      obtain ⟨text, -, rfl⟩ := List.mem_map.1 hkey
      rfl
    · intro key hkey
      obtain ⟨sentence, -, rfl⟩ := List.mem_map.1 hkey
      exact (by decide : ¬ (some (unit 's') == some (unit 't')) = true)
  exact (List.map_perm_map_iff (List.append_right_injective _)).1
    ((hfilter annotationA).symm.trans ((h.filter _).trans (hfilter annotationB)))

theorem Covered.sentenceKeys {document : Value} (h : Covered document) :
    ((sentencesOf document).map sentenceKey).Nodup :=
  (((keysOf_perm document).nodup_iff.1 h.nodup).sublist (List.sublist_append_left _ _))

theorem Covered.unitKeys {document : Value} (h : Covered document) : ((tokenUnits document).map unitKey).Nodup :=
  (((keysOf_perm document).nodup_iff.1 h.nodup).sublist (List.sublist_append_right _ _)).of_map

/-- The same identifiers have the same text. -/
theorem keyText_of_sameValueZero {a b : Value} (h : sameValueZero a b = true) : keyText a = keyText b := by
  cases a <;> cases b <;> simp_all [sameValueZero]
  rcases h with (rfl | ⟨rfl, rfl⟩) | ⟨rfl, rfl⟩ <;> rfl

theorem Covered.apartSentences {document : Value} (h : Covered document) (field : String) :
    Apart sameValueZero (sentenceEntries document field) := by
  rw [Apart, sentenceEntries, List.pairwise_map]
  refine (List.pairwise_map.1 h.sentenceKeys).imp (fun {s s'} hne key hs hs' => hne ?_)
  rw [sentenceKey, sentenceKey, keyText_of_sameValueZero hs, keyText_of_sameValueZero hs']

theorem Covered.apartTokens {document : Value} (h : Covered document) (field : String) :
    Apart (fun a b : Str => decide (a = b)) (tokenEntries document field) := by
  rw [Apart, tokenEntries, List.pairwise_map]
  refine (List.pairwise_map.1 h.unitKeys).imp (fun {u u'} hne key hu hu' => hne ?_)
  exact (of_decide_eq_true hu).trans (of_decide_eq_true hu').symm

theorem Comparable.sentences_length {annotationA annotationB : Value} (h : Comparable annotationA annotationB)
    (field : String) : (sentenceEntries annotationA field).length = (sentenceEntries annotationB field).length := by
  simpa [sentenceEntries] using (sentenceKeys_perm h.keys).length_eq

theorem Comparable.tokens_length {annotationA annotationB : Value} (h : Comparable annotationA annotationB)
    (field : String) : (tokenEntries annotationA field).length = (tokenEntries annotationB field).length := by
  simpa [tokenEntries] using (unitKeys_perm h.keys).length_eq

/-! ## The other annotation first -/

theorem sentencePairs_swap {annotationA annotationB : Value} {field : String} {pairs : List (Str × Str)}
    (hcomparable : Comparable annotationA annotationB) (h : sentencePairs annotationA annotationB field = .ok pairs) :
    ∃ qs, sentencePairs annotationB annotationA field = .ok qs ∧ qs.Perm (pairs.map Prod.swap) := by
  rw [sentencePairs_eq] at h ⊢
  exact joinPairs_swap (fun _ _ => Protocol.sameValueZero_symm) (hcomparable.sentences_length field)
    (hcomparable.left.apartSentences field) h

theorem tokenPairs_swap {annotationA annotationB : Value} {field : String} {pairs : List (Str × Str)}
    (hcomparable : Comparable annotationA annotationB) (h : tokenPairs annotationA annotationB field = .ok pairs) :
    ∃ qs, tokenPairs annotationB annotationA field = .ok qs ∧ qs.Perm (pairs.map Prod.swap) := by
  rw [tokenPairs_eq hcomparable.left hcomparable.right] at h
  rw [tokenPairs_eq hcomparable.right hcomparable.left]
  exact joinPairs_swap (fun a b hab => decide_eq_true (of_decide_eq_true hab).symm) (hcomparable.tokens_length field)
    (hcomparable.left.apartTokens field) h

/-! ## Units in another order -/

/-- A sentence with its tokens in another order. -/
structure SameUnits (sentence other : Value) : Prop where
  properties : ∀ key, str key ≠ str "tokens" → sentence.property key = other.property key
  tokens : ∃ tokens tokens', sentence.property "tokens" = .array tokens ∧ other.property "tokens" = .array tokens' ∧
    tokens.Perm tokens'

/-- An annotation with its sentences, and the tokens of each, in another order. -/
def Reordered (document other : Value) : Prop :=
  ∃ sentences sentences', document.property "sentences" = .array sentences ∧
    other.property "sentences" = .array sentences' ∧ Matched SameUnits sentences sentences'

theorem SameUnits.tokensOf_perm {sentence other : Value} (h : SameUnits sentence other) :
    (tokensOf sentence).Perm (tokensOf other) := by
  obtain ⟨tokens, tokens', htokens, htokens', hperm⟩ := h.tokens
  rwa [tokensOf, tokensOf, htokens, htokens', itemsOf, itemsOf]

theorem SameUnits.symm {sentence other : Value} (h : SameUnits sentence other) : SameUnits other sentence := by
  obtain ⟨tokens, tokens', htokens, htokens', hperm⟩ := h.tokens
  exact ⟨fun key hkey => (h.properties key hkey).symm, tokens', tokens, htokens', htokens, hperm.symm⟩

theorem SameUnits.id {sentence other : Value} (h : SameUnits sentence other) :
    sentence.property "sentenceId" = other.property "sentenceId" := h.properties _ (by decide)

theorem Reordered.matched {document other : Value} (h : Reordered document other) :
    Matched SameUnits (sentencesOf document) (sentencesOf other) := by
  obtain ⟨sentences, sentences', hsentences, hsentences', hmatched⟩ := h
  rwa [sentencesOf, sentencesOf, hsentences, hsentences', itemsOf, itemsOf]

theorem Reordered.symm {document other : Value} (h : Reordered document other) : Reordered other document := by
  obtain ⟨sentences, sentences', hsentences, hsentences', hmatched⟩ := h
  exact ⟨sentences', sentences, hsentences', hsentences, hmatched.flip.mono (fun _ _ _ _ h => h.symm)⟩

theorem SameUnits.unitKey_eq {sentence other : Value} (h : SameUnits sentence other) (token : Value) :
    unitKey (sentence, token) = unitKey (other, token) := by
  simp only [unitKey, h.id]

theorem SameUnits.sentenceKeys_perm {sentence other : Value} (h : SameUnits sentence other) :
    (sentenceKeys sentence).Perm (sentenceKeys other) := by
  rw [sentenceKeys, sentenceKeys, sentenceKey, sentenceKey, h.id]
  simp only [h.unitKey_eq]
  exact (h.tokensOf_perm.map _).cons _

theorem Reordered.keysOf_perm {document other : Value} (h : Reordered document other) :
    (keysOf document).Perm (keysOf other) := h.matched.perm_flatMap (fun _ _ hsame => hsame.sentenceKeys_perm)

theorem Coverable.reordered {sentence other : Value} (h : Coverable sentence) (hsame : SameUnits sentence other) :
    Coverable other := by
  obtain ⟨-, tokens', -, htokens', -⟩ := hsame.tokens
  exact ⟨hsame.id ▸ h.id, hsame.id ▸ h.text, ⟨tokens', htokens'⟩,
    fun token htoken => h.ids token (hsame.tokensOf_perm.symm.subset htoken)⟩

theorem Covered.reordered {document other : Value} (h : Covered document) (hsame : Reordered document other) :
    Covered other := by
  refine ⟨?_, fun s' hs' => ?_, hsame.keysOf_perm.nodup_iff.1 h.nodup⟩
  · obtain ⟨-, sentences', -, hsentences', -⟩ := hsame
    exact ⟨sentences', hsentences'⟩
  · obtain ⟨s, hs, hunits⟩ := hsame.matched.exists_left hs'
    exact (h.coverable s hs).reordered hunits

theorem Comparable.reordered {annotationA annotationB otherA otherB : Value} (h : Comparable annotationA annotationB)
    (hA : Reordered annotationA otherA) (hB : Reordered annotationB otherB) : Comparable otherA otherB :=
  ⟨h.left.reordered hA, h.right.reordered hB, (hA.keysOf_perm.symm.trans h.keys).trans hB.keysOf_perm⟩

theorem Reordered.sentenceEntries_perm {document other : Value} (h : Reordered document other) {field : String}
    (hfield : str field ≠ str "tokens") : (sentenceEntries document field).Perm (sentenceEntries other field) :=
  h.matched.perm_map (fun _ _ hsame => by rw [hsame.id, hsame.properties field hfield])

theorem Reordered.tokenEntries_perm {document other : Value} (h : Reordered document other) (field : String) :
    (tokenEntries document field).Perm (tokenEntries other field) := by
  simp only [tokenEntries, tokenUnits, List.map_flatMap, List.map_map, Function.comp_def]
  refine h.matched.perm_flatMap (fun _ _ hsame => ?_)
  simp only [hsame.unitKey_eq]
  exact hsame.tokensOf_perm.map _

theorem sentencePairs_reordered {annotationA annotationB otherA otherB : Value} {field : String}
    {pairs : List (Str × Str)} (hcomparable : Comparable annotationA annotationB) (hA : Reordered annotationA otherA)
    (hB : Reordered annotationB otherB) (hfield : str field ≠ str "tokens")
    (h : sentencePairs annotationA annotationB field = .ok pairs) :
    ∃ qs, sentencePairs otherA otherB field = .ok qs ∧ qs.Perm pairs := by
  rw [sentencePairs_eq] at h ⊢
  exact joinPairs_perm (fun _ _ => Protocol.sameValueZero_symm) (hcomparable.sentences_length field)
    (hcomparable.left.apartSentences field) (hcomparable.right.apartSentences field) (hA.sentenceEntries_perm hfield)
    (hB.sentenceEntries_perm hfield) h

theorem tokenPairs_reordered {annotationA annotationB otherA otherB : Value} {field : String}
    {pairs : List (Str × Str)} (hcomparable : Comparable annotationA annotationB) (hA : Reordered annotationA otherA)
    (hB : Reordered annotationB otherB) (h : tokenPairs annotationA annotationB field = .ok pairs) :
    ∃ qs, tokenPairs otherA otherB field = .ok qs ∧ qs.Perm pairs := by
  have hother := hcomparable.reordered hA hB
  rw [tokenPairs_eq hcomparable.left hcomparable.right] at h
  rw [tokenPairs_eq hother.left hother.right]
  exact joinPairs_perm (fun a b hab => decide_eq_true (of_decide_eq_true hab).symm) (hcomparable.tokens_length field)
    (hcomparable.left.apartTokens field) (hcomparable.right.apartTokens field) (hA.tokenEntries_perm field)
    (hB.tokenEntries_perm field) h

/-! ## Metrics -/

/-- The pairs that the dimensions are of. -/
inductive PairsOf (annotationA annotationB : Value) : String → List (Str × Str) → Prop
  | sentence {name field : String} {pairs : List (Str × Str)} (hfield : (name, field) ∈ sentenceFields)
      (h : sentencePairs annotationA annotationB field = .ok pairs) : PairsOf annotationA annotationB name pairs
  | token {name field : String} {pairs : List (Str × Str)} (hfield : (name, field) ∈ tokenFields)
      (h : tokenPairs annotationA annotationB field = .ok pairs) : PairsOf annotationA annotationB name pairs

/-- Dimensions of other annotations are the same where their pairs are, up to order and side. -/
theorem mapM_dimension {f g : String → Except Str (List (Str × Str))} {fields : List (String × String)}
    {dimensions : List Dimension} (hfg : ∀ field ∈ fields.map Prod.snd, ∀ ps, f field = .ok ps →
      ∃ qs, g field = .ok qs ∧ ∀ name, dimension name qs = dimension name ps)
    (h : fields.mapM (fun (name, field) => do return dimension name (← f field)) = .ok dimensions) :
    fields.mapM (fun (name, field) => do return dimension name (← g field)) = .ok dimensions := by
  induction fields generalizing dimensions with
  | nil => exact h
  | cons field fields ih =>
    obtain ⟨hfield, hfields⟩ := List.forall_mem_cons.1 hfg
    rw [List.mapM_cons] at h ⊢
    obtain ⟨d, hd, h⟩ := bind_eq_ok.1 h
    obtain ⟨ds, hds, h⟩ := bind_eq_ok.1 h
    obtain ⟨ps, hps, hd⟩ := bind_eq_ok.1 hd
    obtain ⟨qs, hqs, hsame⟩ := hfield ps hps
    have hd' : dimension field.1 qs = d := (hsame field.1).trans (Except.ok.inj hd)
    refine bind_eq_ok.2 ⟨d, bind_eq_ok.2 ⟨qs, hqs, congrArg Except.ok hd'⟩, ?_⟩
    exact bind_eq_ok.2 ⟨ds, ih hfields hds, h⟩

/-- Metrics of other annotations are the same where the pairs of every field are, up to order and side. -/
theorem compute_same {annotationA annotationB otherA otherB : Value} {metrics : AgreementMetrics}
    (hcomparable : Comparable otherA otherB)
    (hsentences : ∀ field, str field ≠ str "tokens" → ∀ ps, sentencePairs annotationA annotationB field = .ok ps →
      ∃ qs, sentencePairs otherA otherB field = .ok qs ∧ ∀ name, dimension name qs = dimension name ps)
    (htokens : ∀ field ps, tokenPairs annotationA annotationB field = .ok ps →
      ∃ qs, tokenPairs otherA otherB field = .ok qs ∧ ∀ name, dimension name qs = dimension name ps)
    (h : computeIndependentAgreement annotationA annotationB = .ok metrics) :
    computeIndependentAgreement otherA otherB = .ok metrics := by
  obtain ⟨-, -, h⟩ := bind_eq_ok.1 h
  obtain ⟨sentences, hs, h⟩ := bind_eq_ok.1 h
  obtain ⟨tokens, ht, h⟩ := bind_eq_ok.1 h
  have hfields : ∀ field ∈ sentenceFields.map Prod.snd, str field ≠ str "tokens" := by decide
  refine bind_eq_ok.2 ⟨(), assertComparableCoverage_iff.2 hcomparable, ?_⟩
  refine bind_eq_ok.2 ⟨sentences, mapM_dimension (fun field hfield => hsentences field (hfields field hfield)) hs, ?_⟩
  exact bind_eq_ok.2 ⟨tokens, mapM_dimension (fun field _ => htokens field) ht, h⟩

theorem comparable_of_compute {annotationA annotationB : Value} {metrics : AgreementMetrics}
    (h : computeIndependentAgreement annotationA annotationB = .ok metrics) : Comparable annotationA annotationB := by
  obtain ⟨⟨⟩, hcover, -⟩ := bind_eq_ok.1 h
  exact assertComparableCoverage_iff.1 hcover

theorem dimension_of_swap {pairs qs : List (Str × Str)} (h : qs.Perm (pairs.map Prod.swap)) (name : String) :
    dimension name qs = dimension name pairs := by
  rw [dimension_perm name h, dimension_swap]

theorem compute_swap {annotationA annotationB : Value} {metrics : AgreementMetrics}
    (h : computeIndependentAgreement annotationA annotationB = .ok metrics) :
    computeIndependentAgreement annotationB annotationA = .ok metrics := by
  have hcomparable := comparable_of_compute h
  refine compute_same hcomparable.symm (fun field _ ps hps => ?_) (fun field ps hps => ?_) h
  · obtain ⟨qs, hqs, hperm⟩ := sentencePairs_swap hcomparable hps
    exact ⟨qs, hqs, dimension_of_swap hperm⟩
  · obtain ⟨qs, hqs, hperm⟩ := tokenPairs_swap hcomparable hps
    exact ⟨qs, hqs, dimension_of_swap hperm⟩

theorem compute_reordered {annotationA annotationB otherA otherB : Value} {metrics : AgreementMetrics}
    (hA : Reordered annotationA otherA) (hB : Reordered annotationB otherB)
    (h : computeIndependentAgreement annotationA annotationB = .ok metrics) :
    computeIndependentAgreement otherA otherB = .ok metrics := by
  have hcomparable := comparable_of_compute h
  refine compute_same (hcomparable.reordered hA hB) (fun field hfield ps hps => ?_) (fun field ps hps => ?_) h
  · obtain ⟨qs, hqs, hperm⟩ := sentencePairs_reordered hcomparable hA hB hfield hps
    exact ⟨qs, hqs, fun name => dimension_perm name hperm⟩
  · obtain ⟨qs, hqs, hperm⟩ := tokenPairs_reordered hcomparable hA hB hps
    exact ⟨qs, hqs, fun name => dimension_perm name hperm⟩

/-- A dimension is that of the pairs of its field. -/
theorem mem_dimensions {annotationA annotationB : Value} {metrics : AgreementMetrics}
    (h : computeIndependentAgreement annotationA annotationB = .ok metrics) :
    (∃ dimensions, metrics = metricsOf dimensions) ∧ ∀ d ∈ metrics.dimensions,
      ∃ pairs, PairsOf annotationA annotationB d.name pairs ∧ d = dimension d.name pairs := by
  obtain ⟨-, -, h⟩ := bind_eq_ok.1 h
  obtain ⟨sentences, hs, h⟩ := bind_eq_ok.1 h
  obtain ⟨tokens, ht, h⟩ := bind_eq_ok.1 h
  cases h
  refine ⟨⟨_, rfl⟩, fun d hd => ?_⟩
  obtain hd | hd := List.mem_append.1 hd
  · obtain ⟨field, hfield, hdone⟩ := Matched.exists_left ⟨_, mapM_eq_ok hs, .refl _⟩ hd
    obtain ⟨pairs, hpairs, hsame⟩ := bind_eq_ok.1 hdone
    cases hsame
    exact ⟨pairs, .sentence hfield hpairs, rfl⟩
  · obtain ⟨field, hfield, hdone⟩ := Matched.exists_left ⟨_, mapM_eq_ok ht, .refl _⟩ hd
    obtain ⟨pairs, hpairs, hsame⟩ := bind_eq_ok.1 hdone
    cases hsame
    exact ⟨pairs, .token hfield hpairs, rfl⟩

theorem dimensions_ne_nil {annotationA annotationB : Value} {dimensions : List Dimension}
    (h : computeIndependentAgreement annotationA annotationB = .ok (metricsOf dimensions)) : dimensions ≠ [] := by
  obtain ⟨-, -, h⟩ := bind_eq_ok.1 h
  obtain ⟨sentences, hs, h⟩ := bind_eq_ok.1 h
  obtain ⟨tokens, -, h⟩ := bind_eq_ok.1 h
  have hsame : sentences ++ tokens = dimensions := congrArg AgreementMetrics.dimensions (Except.ok.inj h)
  have hlength := (mapM_eq_ok hs).length_eq
  rintro rfl
  rw [(List.append_eq_nil_iff.1 hsame).1] at hlength
  cases hlength

/-! ## Bounds -/

theorem rawAgreement_bounds (name : String) (pairs : List (Str × Str)) :
    0 ≤ (dimension name pairs).rawAgreement ∧ (dimension name pairs).rawAgreement ≤ 1 := by
  have hle : (pairs.filter (fun p => !decide (p.1 = p.2))).length ≤ pairs.length := List.length_filter_le _ _
  rw [dimension]
  dsimp only
  split
  · rename_i hpos
    have hpos : (0 : ℚ) < pairs.length := by exact_mod_cast Nat.pos_of_ne_zero (by simpa using hpos)
    refine ⟨div_nonneg ?_ hpos.le, ?_⟩
    · exact_mod_cast (by omega : (0 : Int) ≤ pairs.length - (pairs.filter (fun p => !decide (p.1 = p.2))).length)
    · rw [div_le_one hpos]
      exact_mod_cast (by omega : (pairs.length : Int) - (pairs.filter (fun p => !decide (p.1 = p.2))).length ≤ pairs.length)
  · exact ⟨zero_le_one, le_refl 1⟩

theorem cohenKappa_bounds {name : String} {pairs : List (Str × Str)} {k : ℚ}
    (h : (dimension name pairs).cohenKappa = some k) :
    -1 ≤ k ∧ k ≤ 1 ∧ (k = 1 ↔ (dimension name pairs).disagreementCount = 0) := by
  obtain ⟨hlower, hupper, hone⟩ := Kappa.kappa_bounds ((cohenKappa_eq pairs).symm.trans h)
  refine ⟨hlower, hupper, hone.trans ?_⟩
  have hcounts := disagreements_eq pairs
  rw [dimension]
  dsimp only
  omega

theorem cohenKappa_eq_none {name : String} {pairs : List (Str × Str)} :
    (dimension name pairs).cohenKappa = none ↔ pairs = [] ∨ ∃ label, ∀ p ∈ pairs, p = (label, label) := by
  rw [← Kappa.kappa_eq_none_iff, ← cohenKappa_eq]
  rfl

/-- Where a kappa is undefined there is no disagreement. -/
theorem disagreementCount_of_none {name : String} {pairs : List (Str × Str)}
    (h : (dimension name pairs).cohenKappa = none) : (dimension name pairs).disagreementCount = 0 := by
  have hnone : pairs.filter (fun p => !decide (p.1 = p.2)) = [] := by
    obtain rfl | ⟨label, hall⟩ := cohenKappa_eq_none.1 h
    · rfl
    · refine List.filter_eq_nil_iff.2 (fun p hp => ?_)
      simp [hall p hp]
  rw [dimension, hnone, List.length_nil]

/-- The average of values of an interval is in it, and is its end only where all values are. -/
theorem average_bounds {l : List ℚ} (hne : l ≠ []) {a b : ℚ} (h : ∀ v ∈ l, a ≤ v ∧ v ≤ b) :
    a ≤ average l ∧ average l ≤ b ∧ (average l = b ↔ ∀ v ∈ l, v = b) := by
  have hpos := Kappa.length_pos hne
  have hlower : l.length * a ≤ l.sum := by
    rw [← nsmul_eq_mul]
    exact List.card_nsmul_le_sum l a (fun v hv => (h v hv).1)
  have hupper : l.sum ≤ l.length * b := by
    rw [← nsmul_eq_mul]
    exact List.sum_le_card_nsmul l b (fun v hv => (h v hv).2)
  have hend : l.sum = l.length * b ↔ ∀ v ∈ l, v = b := by
    clear hne hpos hlower hupper
    induction l with
    | nil => simp
    | cons v l ih =>
      obtain ⟨hv, hrest'⟩ := List.forall_mem_cons.1 h
      have hrest : l.sum ≤ l.length * b := by
        rw [← nsmul_eq_mul]
        exact List.sum_le_card_nsmul l b (fun v hv => (hrest' v hv).2)
      rw [List.sum_cons, List.length_cons, List.forall_mem_cons, ← ih hrest', Nat.cast_succ, add_mul, one_mul]
      constructor
      · intro hsum
        have hfirst : v = b := by linarith [hv.2]
        exact ⟨hfirst, by linarith⟩
      · rintro ⟨rfl, hsum⟩
        linarith
  rw [average, if_neg (by simpa using hne)]
  refine ⟨?_, ?_, ?_⟩
  · rwa [le_div_iff₀ hpos, mul_comm]
  · rwa [div_le_iff₀ hpos, mul_comm]
  · rw [div_eq_iff hpos.ne', mul_comm, hend]

/-- Metrics of dimensions that are each of some pairs. -/
theorem metricsOf_bounds {dimensions : List Dimension} (hne : dimensions ≠ [])
    (h : ∀ d ∈ dimensions, ∃ pairs, d = dimension d.name pairs) :
    0 ≤ (metricsOf dimensions).macroRawAgreement ∧ (metricsOf dimensions).macroRawAgreement ≤ 1 ∧
    ∀ k, (metricsOf dimensions).macroDefinedKappa = some k →
      -1 ≤ k ∧ k ≤ 1 ∧ (k = 1 ↔ (metricsOf dimensions).exactAgreement = true) := by
  have hraw := average_bounds (l := dimensions.map Dimension.rawAgreement) (by simpa using hne) (a := 0) (b := 1)
    (fun v hv => by
      obtain ⟨d, hd, rfl⟩ := List.mem_map.1 hv
      obtain ⟨pairs, hpairs⟩ := h d hd
      rw [hpairs]
      exact rawAgreement_bounds _ _)
  refine ⟨hraw.1, hraw.2.1, fun k hk => ?_⟩
  have hkappa : ∀ v ∈ dimensions.filterMap Dimension.cohenKappa, ∃ d ∈ dimensions, d.cohenKappa = some v ∧
      -1 ≤ v ∧ v ≤ 1 ∧ (v = 1 ↔ d.disagreementCount = 0) := fun v hv => by
    obtain ⟨d, hd, hdv⟩ := List.mem_filterMap.1 hv
    obtain ⟨pairs, hpairs⟩ := h d hd
    rw [hpairs] at hdv
    have hbounds := cohenKappa_bounds hdv
    rw [← hpairs] at hdv hbounds
    exact ⟨d, hd, hdv, hbounds⟩
  rw [metricsOf] at hk
  dsimp only at hk
  split at hk
  · cases hk
  rename_i hdefined
  obtain rfl := Option.some.inj hk
  obtain ⟨hlower, hupper, hone⟩ := average_bounds (l := dimensions.filterMap Dimension.cohenKappa)
    (by simpa using hdefined) (a := -1) (b := 1) (fun v hv => by
      obtain ⟨-, -, -, hlower, hupper, -⟩ := hkappa v hv
      exact ⟨hlower, hupper⟩)
  refine ⟨hlower, hupper, hone.trans ?_⟩
  rw [metricsOf, List.all_eq_true]
  constructor
  · intro hall d hd
    cases hk : d.cohenKappa with
    | none =>
      obtain ⟨pairs, hpairs⟩ := h d hd
      rw [hpairs] at hk ⊢
      exact decide_eq_true (disagreementCount_of_none hk)
    | some v =>
      obtain ⟨pairs, hpairs⟩ := h d hd
      have hv := hall v (List.mem_filterMap.2 ⟨d, hd, hk⟩)
      rw [hpairs] at hk ⊢
      exact decide_eq_true ((cohenKappa_bounds hk).2.2.1 hv)
  · intro hall v hv
    obtain ⟨d, hd, -, -, -, hiff⟩ := hkappa v hv
    exact hiff.2 (of_decide_eq_true (hall d hd))

/-! ## When there are metrics -/

theorem mem_json {document : Value} {key : String} (h : document.Json) {item : Value}
    (hitem : item ∈ itemsOf (document.property key)) : item.Json := by
  cases hitems : document.property key with
  | array items =>
    have hdefined : document.property key ≠ .undefined := by rw [hitems]; nofun
    have hjson := h.property_json hdefined
    rw [hitems] at hjson hitem
    exact hjson.item item hitem
  | undefined | null | bool _ | number _ | bigint _ | string _ | bytes _ | object _ =>
    rw [hitems] at hitem
    cases hitem

/-- The canonical text of a value that JSON can hold, or of none. -/
def labelOf (v : Value) : Str := if isNullish v then str "null" else v.text

theorem canonicalValue_json {holder : Value} (h : holder.Json) (field : String) :
    canonicalValue (holder.property field) = .ok (labelOf (holder.property field)) := by
  rw [canonicalValue, labelOf]
  split
  · rfl
  · rename_i hsome
    have hdefined : holder.property field ≠ .undefined := fun h => hsome (by rw [h]; rfl)
    rw [if_pos (Value.all_mono (fun w hw => by cases w <;> first | rfl | cases hw) _ (h.property_json hdefined).1)]

/-- The fields of a unit that JSON can hold have canonical texts. -/
theorem valuesPair_json {unit other : Value} (hunit : unit.Json) (hother : other.Json) (field : String) :
    ∃ p, valuesPair (unit.property field) (other.property field) = .ok p := by
  rw [valuesPair, canonicalValue_json hunit, canonicalValue_json hother]
  exact ⟨_, rfl⟩

/-- A loop whose steps all return, returns. -/
theorem exists_mapM_ok {ε α β : Type} {f : α → Except ε β} {l : List α} (h : ∀ a ∈ l, ∃ b, f a = .ok b) :
    ∃ bs, l.mapM f = .ok bs := by
  induction l with
  | nil => exact ⟨[], rfl⟩
  | cons a l ih =>
    obtain ⟨⟨b, hb⟩, hl⟩ := List.forall_mem_cons.1 h
    obtain ⟨bs, hbs⟩ := ih hl
    exact ⟨b :: bs, by rw [List.mapM_cons, hb, hbs]; rfl⟩

theorem exists_joinPairs {κ : Type} {same : κ → κ → Bool} {missing : Str} {left right : List (κ × Value)}
    (hsame : ∀ u ∈ left, ∃ v ∈ right, same v.1 u.1 = true)
    (hpair : ∀ u ∈ left, ∀ v ∈ right, ∃ p, valuesPair u.2 v.2 = .ok p) :
    ∃ pairs, joinPairs same missing left right = .ok pairs := by
  refine exists_mapM_ok (fun u hu => ?_)
  obtain ⟨v, hv, huv⟩ := hsame u hu
  have hexists : (right.reverse.find? (fun other => same other.1 u.1)).isSome = true :=
    List.find?_isSome.2 ⟨v, List.mem_reverse.2 hv, huv⟩
  obtain ⟨found, hfound⟩ := Option.isSome_iff_exists.1 hexists
  rw [hfound]
  exact hpair u hu found (List.mem_reverse.1 (List.mem_of_find?_eq_some hfound))

/-- Annotations whose units have the same identifiers, and not only the same texts of identifiers. -/
structure Aligned (annotationA annotationB : Value) : Prop where
  comparable : Comparable annotationA annotationB
  ids : ∀ sentence ∈ sentencesOf annotationA, ∃ other ∈ sentencesOf annotationB,
    sameValueZero (other.property "sentenceId") (sentence.property "sentenceId") = true

theorem exists_sentencePairs {annotationA annotationB : Value} (hA : annotationA.Json) (hB : annotationB.Json)
    (h : Aligned annotationA annotationB) (field : String) :
    ∃ pairs, sentencePairs annotationA annotationB field = .ok pairs := by
  rw [sentencePairs_eq]
  refine exists_joinPairs (fun u hu => ?_) (fun u hu v hv => ?_)
  · obtain ⟨sentence, hsentence, rfl⟩ := List.mem_map.1 hu
    obtain ⟨other, hother, hsame⟩ := h.ids sentence hsentence
    exact ⟨_, List.mem_map_of_mem hother, hsame⟩
  · obtain ⟨sentence, hsentence, rfl⟩ := List.mem_map.1 hu
    obtain ⟨other, hother, rfl⟩ := List.mem_map.1 hv
    exact valuesPair_json (mem_json hA hsentence) (mem_json hB hother) field

theorem json_token {document : Value} (h : document.Json) {u : Value × Value} (hu : u ∈ tokenUnits document) :
    u.2.Json := by
  obtain ⟨sentence, hsentence, hmem⟩ := List.mem_flatMap.1 hu
  obtain ⟨token, htoken, rfl⟩ := List.mem_map.1 hmem
  exact mem_json (mem_json h hsentence) htoken

theorem exists_tokenPairs {annotationA annotationB : Value} (hA : annotationA.Json) (hB : annotationB.Json)
    (h : Comparable annotationA annotationB) (field : String) :
    ∃ pairs, tokenPairs annotationA annotationB field = .ok pairs := by
  rw [tokenPairs_eq h.left h.right]
  refine exists_joinPairs (fun u hu => ?_) (fun u hu v hv => ?_)
  · obtain ⟨unitA, hunitA, rfl⟩ := List.mem_map.1 hu
    obtain ⟨unitB, hunitB, hkey⟩ := List.mem_map.1 ((unitKeys_perm h.keys).subset (List.mem_map_of_mem hunitA))
    exact ⟨_, List.mem_map_of_mem hunitB, decide_eq_true hkey⟩
  · obtain ⟨unitA, hunitA, rfl⟩ := List.mem_map.1 hu
    obtain ⟨unitB, hunitB, rfl⟩ := List.mem_map.1 hv
    exact valuesPair_json (json_token hA hunitA) (json_token hB hunitB) field

/-- **Documents have metrics exactly when they annotate the same units under the same identifiers.** -/
theorem exists_metrics_iff {annotationA annotationB : Value} (hA : annotationA.Json) (hB : annotationB.Json) :
    (∃ metrics, computeIndependentAgreement annotationA annotationB = .ok metrics) ↔ Aligned annotationA annotationB := by
  constructor
  · rintro ⟨metrics, h⟩
    refine ⟨comparable_of_compute h, fun sentence hsentence => ?_⟩
    obtain ⟨-, -, h⟩ := bind_eq_ok.1 h
    obtain ⟨sentences, hs, -⟩ := bind_eq_ok.1 h
    rw [sentenceFields, List.mapM_cons] at hs
    obtain ⟨d, hd, -⟩ := bind_eq_ok.1 hs
    obtain ⟨pairs, hpairs, -⟩ := bind_eq_ok.1 hd
    obtain ⟨p, -, hp⟩ := Matched.exists_right ⟨_, mapM_eq_ok hpairs, .refl _⟩ hsentence
    rw [sentencePair] at hp
    split at hp
    · cases hp
    · rename_i other hfound
      exact ⟨other, List.mem_reverse.1 (List.mem_of_find?_eq_some hfound), by simpa using List.find?_some hfound⟩
  · intro h
    obtain ⟨sentences, hs⟩ := exists_mapM_ok (l := sentenceFields) (f := fun (name, field) => do
        return dimension name (← sentencePairs annotationA annotationB field)) (fun (name, field) _ => by
      obtain ⟨pairs, hpairs⟩ := exists_sentencePairs hA hB h field
      exact ⟨_, bind_eq_ok.2 ⟨pairs, hpairs, rfl⟩⟩)
    obtain ⟨tokens, ht⟩ := exists_mapM_ok (l := tokenFields) (f := fun (name, field) => do
        return dimension name (← tokenPairs annotationA annotationB field)) (fun (name, field) _ => by
      obtain ⟨pairs, hpairs⟩ := exists_tokenPairs hA hB h.comparable field
      exact ⟨_, bind_eq_ok.2 ⟨pairs, hpairs, rfl⟩⟩)
    refine ⟨metricsOf (sentences ++ tokens), bind_eq_ok.2 ⟨(), assertComparableCoverage_iff.2 h.comparable, ?_⟩⟩
    exact bind_eq_ok.2 ⟨sentences, hs, bind_eq_ok.2 ⟨tokens, ht, rfl⟩⟩

/-! ## Fairness -/

/-- **Independent agreement is a fair measure**: it is the same from either side and for every order of units; raw
agreements are shares, kappas lie between -1 and 1 and are 1 exactly without disagreement, and one is undefined exactly
where there are no units or all have one label from both. -/
theorem computeIndependentAgreement_fair (annotationA annotationB : Value) :
    (annotationA.Json → annotationB.Json →
      ((∃ metrics, computeIndependentAgreement annotationA annotationB = .ok metrics) ↔
        Aligned annotationA annotationB)) ∧
    (∀ metrics, computeIndependentAgreement annotationA annotationB = .ok metrics ↔
      computeIndependentAgreement annotationB annotationA = .ok metrics) ∧
    (∀ otherA otherB, Reordered annotationA otherA → Reordered annotationB otherB →
      ∀ metrics, computeIndependentAgreement annotationA annotationB = .ok metrics ↔
        computeIndependentAgreement otherA otherB = .ok metrics) ∧
    ∀ metrics, computeIndependentAgreement annotationA annotationB = .ok metrics →
      (0 ≤ metrics.macroRawAgreement ∧ metrics.macroRawAgreement ≤ 1 ∧ ∀ k, metrics.macroDefinedKappa = some k →
        -1 ≤ k ∧ k ≤ 1 ∧ (k = 1 ↔ metrics.exactAgreement = true)) ∧
      ∀ d ∈ metrics.dimensions, ∃ pairs, PairsOf annotationA annotationB d.name pairs ∧ d = dimension d.name pairs ∧
        0 ≤ d.rawAgreement ∧ d.rawAgreement ≤ 1 ∧
        (∀ k, d.cohenKappa = some k → -1 ≤ k ∧ k ≤ 1 ∧ (k = 1 ↔ d.disagreementCount = 0)) ∧
        (d.cohenKappa = none ↔ pairs = [] ∨ ∃ label, ∀ p ∈ pairs, p = (label, label)) := by
  refine ⟨exists_metrics_iff, fun metrics => ⟨compute_swap, compute_swap⟩, fun otherA otherB hA hB metrics =>
    ⟨compute_reordered hA hB, compute_reordered hA.symm hB.symm⟩, fun metrics h => ?_⟩
  obtain ⟨⟨dimensions, rfl⟩, hdimensions⟩ := mem_dimensions h
  refine ⟨metricsOf_bounds (dimensions_ne_nil h) (fun d hd => ?_), fun d hd => ?_⟩
  · obtain ⟨pairs, -, hpairs⟩ := hdimensions d hd
    exact ⟨pairs, hpairs⟩
  · obtain ⟨pairs, hof, hpairs⟩ := hdimensions d hd
    refine ⟨pairs, hof, hpairs, ?_⟩
    rw [hpairs]
    exact ⟨(rawAgreement_bounds _ _).1, (rawAgreement_bounds _ _).2, fun k hk => cohenKappa_bounds hk, cohenKappa_eq_none⟩

def word (tokenId : Nat) (irabCategory : String) : Value :=
  .object [(str "tokenId", .number (Number.ofNat tokenId)), (str "irabCategory", .string (str irabCategory))]

/-- An annotation of one sentence. -/
def annotationOf (tokens : List Value) : Value :=
  .object [(str "sentences", .array [.object [(str "sentenceId", .string (str "s1")),
    (str "structurallyAcceptable", .bool true), (str "tokens", .array tokens)]])]

/-- One annotator tells two words apart and the other does not. -/
theorem computeIndependentAgreement_fair_twoWords :
    Aligned (annotationOf [word 1 "subject", word 2 "object"]) (annotationOf [word 1 "object", word 2 "object"]) ∧
    ∃ metrics, computeIndependentAgreement (annotationOf [word 2 "object", word 1 "subject"])
        (annotationOf [word 1 "object", word 2 "object"]) = .ok metrics ∧
      metrics.exactAgreement = false ∧ 0 ≤ metrics.macroRawAgreement := by
  have hfair := computeIndependentAgreement_fair (annotationOf [word 1 "subject", word 2 "object"])
    (annotationOf [word 1 "object", word 2 "object"])
  have hA : (annotationOf [word 1 "subject", word 2 "object"]).Json := ⟨by decide +kernel, by decide +kernel⟩
  have hB : (annotationOf [word 1 "object", word 2 "object"]).Json := ⟨by decide +kernel, by decide +kernel⟩
  have hsome : (computeIndependentAgreement (annotationOf [word 1 "subject", word 2 "object"])
      (annotationOf [word 1 "object", word 2 "object"])).toOption.map AgreementMetrics.exactAgreement =
      some false := by decide +kernel
  cases h : computeIndependentAgreement (annotationOf [word 1 "subject", word 2 "object"])
      (annotationOf [word 1 "object", word 2 "object"]) with
  | error e =>
    rw [h] at hsome
    cases hsome
  | ok metrics =>
    rw [h] at hsome
    have hreordered : Reordered (annotationOf [word 1 "subject", word 2 "object"])
        (annotationOf [word 2 "object", word 1 "subject"]) := by
      refine ⟨_, _, rfl, rfl, _, .cons ⟨fun key hkey => ?_, _, _, rfl, rfl, .swap _ _ _⟩ .nil, .refl _⟩
      have hother : (str "tokens" == str key) = false := beq_false_of_ne (Ne.symm hkey)
      simp only [Value.property, List.find?_cons, hother]
    have hsame : Reordered (annotationOf [word 1 "object", word 2 "object"])
        (annotationOf [word 1 "object", word 2 "object"]) :=
      ⟨_, _, rfl, rfl, _, .cons ⟨fun _ _ => rfl, _, _, rfl, rfl, .refl _⟩ .nil, .refl _⟩
    refine ⟨(hfair.1 hA hB).1 ⟨metrics, h⟩, metrics, (hfair.2.2.1 _ _ hreordered hsame metrics).1 h,
      Option.some.inj hsome, (hfair.2.2.2 metrics h).1.1⟩

end Consensus
end Adg
