import AdgLang.Matching
import AdgLang.PacketRoots
import Mathlib.Data.List.Pairwise
/-!
# AnnotationCoverage — every unit of a packet annotated once

`validateAnnotationCoverage` of `protocol.js` compares lengths, collects identifiers and looks them up.  On a packet that
`validatePacket` accepted this comes to an exact cover (`Covers`): the sentences of the submission are paired with those of
the packet, and in each pair the tokens with the tokens, whatever their order.
-/
namespace Adg
namespace Protocol

open Js

/-! ## The check -/

/-- The loop that fills `bySentence`, in the order of insertion. -/
def collectSentences (bySentence : List Value) : List Value → Except Str (List Value)
  | [] => .ok bySentence
  | sentence :: rest =>
    if !sentence.truthy ||
        bySentence.any (fun other => sameValueZero (other.property "sentenceId") (sentence.property "sentenceId")) then
      .error (str "التعليق يحتوي معرف جملة مكررًا أو غير صالح.")
    else collectSentences (bySentence ++ [sentence]) rest

/-- `new Set(values)`, in the order of insertion. -/
def setOf (values : List Value) : List Value :=
  values.foldl (fun set value => if set.any (sameValueZero value) then set else set ++ [value]) []

/-- The loop that fills `annotatedTokenIds`. -/
def collectTokens (sentenceId : Value) (sourceTokenIds annotatedTokenIds : List Value) :
    List Value → Except Str (List Value)
  | [] => .ok annotatedTokenIds
  | token :: rest =>
    let tokenId := token.property "tokenId"
    if !isIntegerNumber tokenId || annotatedTokenIds.any (sameValueZero tokenId) ||
        !sourceTokenIds.any (sameValueZero tokenId) then
      .error (withText "ترقيم وحدات التعليق في الجملة " sentenceId " غير مطابق.")
    else collectTokens sentenceId sourceTokenIds (annotatedTokenIds ++ [tokenId]) rest

def incomplete (source : Value) : Str := withText "التعليق ناقص في الجملة " (source.property "sentenceId") "."

/-- The body of the loop over the packet's sentences. -/
def coverSentence (bySentence : List Value) (source : Value) : Except Str Unit :=
  match bySentence.find? (fun other => sameValueZero (other.property "sentenceId") (source.property "sentenceId")) with
  | none => .error (incomplete source)
  | some annotated =>
    match annotated.property "tokens" with
    | .array tokens =>
      if tokens.length ≠ (tokensOf source).length then .error (incomplete source)
      else
        let sourceTokenIds := setOf ((tokensOf source).map (fun token => token.property "id"))
        match collectTokens (source.property "sentenceId") sourceTokenIds [] tokens with
        | .error message => .error message
        | .ok annotatedTokenIds =>
          if annotatedTokenIds.length ≠ sourceTokenIds.length then .error (incomplete source) else .ok ()
    | _ => .error (incomplete source)

def coverSentences (bySentence : List Value) : List Value → Except Str Unit
  | [] => .ok ()
  | source :: rest =>
    match coverSentence bySentence source with
    | .error message => .error message
    | .ok () => coverSentences bySentence rest

/-- `validateAnnotationCoverage`, on a packet whose sentences and tokens are arrays. -/
def validateAnnotationCoverage (packet submission : Value) : Except Str Unit :=
  match submission.property "sentences" with
  | .array sentences =>
    if sentences.length ≠ (sentencesOf packet).length then .error (str "التعليق لا يغطي جميع جمل الحزمة.")
    else
      match collectSentences [] sentences with
      | .error message => .error message
      | .ok bySentence => coverSentences bySentence (sentencesOf packet)
  | _ => .error (str "التعليق لا يغطي جميع جمل الحزمة.")

/-! ## Exact cover -/

def SameSentence (source annotated : Value) : Prop :=
  sameValueZero (source.property "sentenceId") (annotated.property "sentenceId") = true

def SameToken (source annotated : Value) : Prop :=
  sameValueZero (source.property "id") (annotated.property "tokenId") = true

/-- A sentence whose tokens are annotated once each, and no others. -/
structure CoversSentence (source annotated : Value) : Prop where
  same : SameSentence source annotated
  tokens : ∃ tokens, annotated.property "tokens" = .array tokens ∧ Matched SameToken (tokensOf source) tokens

/-- A submission that annotates every sentence and token of the packet once, and no others. -/
def Covers (packet submission : Value) : Prop :=
  ∃ sentences, submission.property "sentences" = .array sentences ∧
    Matched CoversSentence (sentencesOf packet) sentences

/-- The units of a packet, and those of a submission. -/
def packetUnits (packet : Value) : List (Value × Value) := (sentencesOf packet).flatMap (fun sentence =>
  (tokensOf sentence).map (fun token => (sentence.property "sentenceId", token.property "id")))

def submissionUnits (submission : Value) : List (Value × Value) := (sentencesOf submission).flatMap (fun sentence =>
  (tokensOf sentence).map (fun token => (sentence.property "sentenceId", token.property "tokenId")))

/-- **Under an exact cover the units of the submission are those of the packet, in some order.** -/
theorem Covers.units {packet submission : Value} (h : Covers packet submission) :
    Matched (fun u v => sameValueZero u.1 v.1 = true ∧ sameValueZero u.2 v.2 = true) (packetUnits packet)
      (submissionUnits submission) := by
  obtain ⟨sentences, hsentences, hmatched⟩ := h
  have hof : sentencesOf submission = sentences := by rw [sentencesOf, hsentences, itemsOf]
  rw [packetUnits, submissionUnits, hof]
  refine hmatched.flatMap (fun source annotated hcovers => ?_)
  obtain ⟨tokens, htokens, m, hm, hperm⟩ := hcovers.tokens
  have htof : tokensOf annotated = tokens := by rw [tokensOf, htokens, itemsOf]
  rw [htof]
  refine ⟨m.map (fun token => (annotated.property "sentenceId", token.property "tokenId")), ?_, hperm.map _⟩
  rw [List.forall₂_map_left_iff, List.forall₂_map_right_iff]
  exact hm.imp (fun _ _ htoken => ⟨hcovers.same, htoken⟩)

/-! ## Identifiers -/

theorem sameValueZero_symm {a b : Value} (h : sameValueZero a b = true) : sameValueZero b a = true := by
  cases a <;> cases b <;> simp_all [sameValueZero]
  tauto

theorem sameValueZero_trans {a b c : Value} (hab : sameValueZero a b = true) (hbc : sameValueZero b c = true) :
    sameValueZero a c = true := by
  cases a <;> cases b <;> cases c <;> simp_all [sameValueZero]
  rcases hab with (rfl | ⟨rfl, rfl⟩) | ⟨rfl, rfl⟩ <;> rcases hbc with (rfl | ⟨h, rfl⟩) | ⟨h, rfl⟩ <;> simp_all

theorem sameValueZero_comm_false {v w : Value}
    (h : sameValueZero (v.property "sentenceId") (w.property "sentenceId") = false) :
    sameValueZero (w.property "sentenceId") (v.property "sentenceId") = false := by
  rw [← Bool.not_eq_true] at h ⊢
  exact fun hsame => h (sameValueZero_symm hsame)

/-! ## Accepted packets -/

/-- The identifier of the token at an index. -/
def tokenNumber (index : Nat) : Value := .number (Number.ofNat (index + 1))

theorem eq_tokenNumber {v : Value} {index : Nat} (h : sameValueZero v (tokenNumber index) = true) :
    v = tokenNumber index := by
  obtain ⟨d, hd⟩ := ofNat_succ index
  rw [tokenNumber, hd] at h ⊢
  exact finite_of_sameValueZero h

theorem tokenNumber_injective {i j : Nat} (h : tokenNumber i = tokenNumber j) : i = j :=
  Nat.succ.inj (ofNat_injective (Value.number.inj h))

theorem sameValueZero_tokenNumber (index : Nat) : sameValueZero (tokenNumber index) (tokenNumber index) = true := by
  simp [tokenNumber, sameValueZero]

theorem isInteger_tokenNumber (index : Nat) : isIntegerNumber (tokenNumber index) = true := by
  rw [tokenNumber, isIntegerNumber, Number.ofNat, Number.ofDecimal, dif_neg (by omega)]
  simp [Number.isInteger]

/-- The tokens of an accepted sentence are numbered from 1. -/
theorem validateTokens_ids {sentenceId : Value} {tokens : List Value} (index : Nat)
    (h : validateTokens sentenceId index tokens = .ok ()) :
    tokens.map (fun token => token.property "id") = (List.range' index tokens.length).map tokenNumber := by
  induction tokens generalizing index with
  | nil => rfl
  | cons token rest ih =>
    rw [validateTokens] at h
    split at h
    · cases h
    split at h
    · cases h
    rename_i hid
    rw [Bool.not_eq_true, Bool.or_eq_false_iff, Bool.not_eq_false'] at hid
    rw [List.map_cons, List.length_cons, List.range'_succ, List.map_cons, ih (index + 1) h, eq_tokenNumber hid.1]

/-- What `validatePacket` says of a sentence. -/
structure CheckedSentence (sentence : Value) : Prop where
  id : (sentence.property "sentenceId").truthy = true
  ids : (tokensOf sentence).map (fun token => token.property "id") =
    (List.range (tokensOf sentence).length).map tokenNumber

theorem validateSentences_checked {sentences : List Value} (seen : List Value)
    (h : validateSentences seen sentences = .ok ()) : (∀ s ∈ sentences, CheckedSentence s) ∧
      (∀ s ∈ sentences, ∀ id ∈ seen, sameValueZero (s.property "sentenceId") id = false) ∧
      sentences.Pairwise (fun s s' => sameValueZero (s'.property "sentenceId") (s.property "sentenceId") = false) := by
  induction sentences generalizing seen with
  | nil => exact ⟨nofun, nofun, .nil⟩
  | cons sentence rest ih =>
    rw [validateSentences] at h
    split at h
    · cases h
    split at h
    · cases h
    rename_i hid
    split at h
    · rename_i token tokens htokens
      split at h
      · cases h
      rename_i hnew
      split at h
      · cases h
      · rename_i hids
        obtain ⟨hchecked, hseen, hapart⟩ := ih _ h
        rw [Bool.not_eq_true, Bool.or_eq_false_iff, Bool.not_eq_false'] at hid
        have hthis : CheckedSentence sentence := ⟨hid.1, by
          rw [tokensOf, htokens, itemsOf, List.range_eq_range']
          exact validateTokens_ids 0 hids⟩
        refine ⟨List.forall_mem_cons.2 ⟨hthis, hchecked⟩, List.forall_mem_cons.2 ⟨fun id hmem => ?_, fun s hs id hmem =>
          hseen s hs id (List.mem_cons_of_mem _ hmem)⟩, List.pairwise_cons.2 ⟨fun s hs =>
          hseen s hs _ List.mem_cons_self, hapart⟩⟩
        rw [Bool.not_eq_true, List.any_eq_false] at hnew
        exact Bool.not_eq_true _ ▸ hnew id hmem
    · cases h

/-- **The sentences of an accepted packet have identifiers of their own.** -/
theorem checked_of_validatePacket {packet : Value} (h : validatePacket packet = .ok ()) :
    (∀ s ∈ sentencesOf packet, CheckedSentence s) ∧ (sentencesOf packet).Pairwise
      (fun s s' => sameValueZero (s'.property "sentenceId") (s.property "sentenceId") = false) := by
  rw [validatePacket] at h
  split at h
  · cases h
  split at h
  · cases h
  split at h
  · cases h
  split at h
  · cases h
  split at h
  · cases h
  split at h
  · cases h
  split at h
  · rename_i sentence sentences hsentences
    obtain ⟨hchecked, -, hapart⟩ := validateSentences_checked [] h
    rw [sentencesOf, hsentences]
    exact ⟨hchecked, hapart⟩
  · cases h

/-! ## Tokens -/

theorem collectTokens_iff {sentenceId : Value} {sourceTokenIds : List Value} : ∀ {tokens done ids : List Value},
    collectTokens sentenceId sourceTokenIds done tokens = .ok ids ↔
      ids = done ++ tokens.map (fun token => token.property "tokenId") ∧
      (∀ t ∈ tokens, isIntegerNumber (t.property "tokenId") = true ∧
        sourceTokenIds.any (sameValueZero (t.property "tokenId")) = true ∧
        ∀ d ∈ done, sameValueZero (t.property "tokenId") d = false) ∧
      tokens.Pairwise (fun t t' => sameValueZero (t'.property "tokenId") (t.property "tokenId") = false)
  | [], done, ids => by
    rw [collectTokens, Except.ok.injEq, List.map_nil, List.append_nil]
    exact ⟨fun h => ⟨h.symm, nofun, .nil⟩, fun h => h.1.symm⟩
  | token :: rest, done, ids => by
    rw [collectTokens]
    split
    · rename_i hrefused
      simp only [reduceCtorEq, false_iff, List.forall_mem_cons]
      rintro ⟨-, ⟨⟨hinteger, hsource, hdone⟩, -⟩, -⟩
      have hnone : done.any (sameValueZero (token.property "tokenId")) = false := by simpa using hdone
      simp [hinteger, hsource, hnone] at hrefused
    · rename_i haccepted
      rw [Bool.not_eq_true, Bool.or_eq_false_iff, Bool.or_eq_false_iff, Bool.not_eq_false', Bool.not_eq_false'] at haccepted
      obtain ⟨⟨hinteger, hnone⟩, hsource⟩ := haccepted
      have hdone : ∀ d ∈ done, sameValueZero (token.property "tokenId") d = false := by simpa using hnone
      rw [collectTokens_iff, List.map_cons, List.append_assoc, List.singleton_append, List.pairwise_cons,
        List.forall_mem_cons]
      simp only [List.mem_append, List.mem_singleton, or_imp, forall_and, forall_eq, hinteger, hsource]
      constructor
      · rintro ⟨hids, ⟨hintegers, hsources, hdones, hlast⟩, hapart⟩
        exact ⟨hids, ⟨⟨trivial, trivial, hdone⟩, hintegers, hsources, hdones⟩, hlast, hapart⟩
      · rintro ⟨hids, ⟨-, hintegers, hsources, hdones⟩, hlast, hapart⟩
        exact ⟨hids, ⟨hintegers, hsources, hdones, hlast⟩, hapart⟩

theorem setOf_apart {values : List Value} (h : values.Pairwise (fun v w => sameValueZero w v = false)) :
    setOf values = values := by
  have hfold : ∀ (values set : List Value), (set ++ values).Pairwise (fun v w => sameValueZero w v = false) →
      values.foldl (fun set value => if set.any (sameValueZero value) then set else set ++ [value]) set = set ++ values := by
    intro values
    induction values with
    | nil => simp
    | cons value values ih =>
      intro set hset
      have hnew : set.any (sameValueZero value) = false := by
        rw [List.any_eq_false]
        intro v hv
        rw [(List.pairwise_append.1 hset).2.2 v hv value List.mem_cons_self]
        exact Bool.false_ne_true
      rw [List.foldl_cons, hnew, if_neg Bool.false_ne_true, ih _ (by simpa using hset), List.append_assoc]
      rfl
  exact hfold values [] h

theorem nodup_ids {source : Value} (h : CheckedSentence source) :
    ((tokensOf source).map (fun token => token.property "id")).Nodup := by
  rw [h.ids]
  exact List.nodup_range.map (fun _ _ => tokenNumber_injective)

theorem exists_tokenNumber {source id : Value} (h : CheckedSentence source)
    (hid : id ∈ (tokensOf source).map (fun token => token.property "id")) : ∃ i, id = tokenNumber i := by
  rw [h.ids] at hid
  obtain ⟨i, -, rfl⟩ := List.mem_map.1 hid
  exact ⟨i, rfl⟩

/-- Numbers of a list without duplicates are apart. -/
theorem apart_tokenNumbers {ids : List Value} (h : ∀ id ∈ ids, ∃ i, id = tokenNumber i) (hnodup : ids.Nodup) :
    ids.Pairwise (fun v w => sameValueZero w v = false) := by
  refine hnodup.imp_of_mem (fun {v w} hv _ hne => ?_)
  obtain ⟨i, rfl⟩ := h v hv
  rw [← Bool.not_eq_true]
  exact fun hsame => hne (eq_tokenNumber hsame).symm

theorem map_ids_eq {ts m : List Value} (h : List.Forall₂ SameToken ts m)
    (hall : ∀ t ∈ ts, ∃ i, t.property "id" = tokenNumber i) :
    m.map (fun token => token.property "tokenId") = ts.map (fun token => token.property "id") := by
  induction h with
  | nil => rfl
  | @cons t t' ts m ht _ ih =>
    obtain ⟨⟨i, hi⟩, hall⟩ := List.forall_mem_cons.1 hall
    rw [SameToken, hi] at ht
    rw [List.map_cons, List.map_cons, ih hall, hi, eq_tokenNumber (sameValueZero_symm ht)]

/-- The tokens are paired off exactly when their numbers are those of the sentence, in some order. -/
theorem matched_tokens_iff {source : Value} (h : CheckedSentence source) {tokens : List Value} :
    Matched SameToken (tokensOf source) tokens ↔
      (tokens.map (fun token => token.property "tokenId")).Perm
        ((tokensOf source).map (fun token => token.property "id")) := by
  constructor
  · rintro ⟨m, hm, hperm⟩
    have hids := map_ids_eq hm (fun t ht => exists_tokenNumber h (List.mem_map_of_mem ht))
    exact hids ▸ (hperm.map _).symm
  · intro hperm
    have hlength : tokens.length = (tokensOf source).length := by simpa using hperm.length_eq
    refine (Matched.of_cover hlength (fun t' ht' => ?_) ?_).flip
    · obtain ⟨t, ht, hid⟩ := List.mem_map.1 (hperm.subset (List.mem_map_of_mem ht'))
      obtain ⟨i, hi⟩ := exists_tokenNumber h (List.mem_map_of_mem ht)
      refine ⟨t, ht, ?_⟩
      rw [SameToken, ← hid, hi]
      exact sameValueZero_tokenNumber i
    · have hnodup := List.pairwise_map.1 (hperm.nodup_iff.2 (nodup_ids h))
      refine hnodup.imp (fun {t₁ t₂} hne t ht h₁ h₂ => hne ?_)
      obtain ⟨i, hi⟩ := exists_tokenNumber h (List.mem_map_of_mem ht)
      rw [SameToken, hi] at h₁ h₂
      rw [eq_tokenNumber (sameValueZero_symm h₁), eq_tokenNumber (sameValueZero_symm h₂)]

/-- **The tokens of a sentence are collected exactly when they are paired off with those of the packet.** -/
theorem collected_iff {source sentenceId : Value} (h : CheckedSentence source) {tokens : List Value} :
    (tokens.length = (tokensOf source).length ∧
      ∃ ids, collectTokens sentenceId ((tokensOf source).map (fun token => token.property "id")) [] tokens = .ok ids) ↔
    Matched SameToken (tokensOf source) tokens := by
  rw [matched_tokens_iff h]
  simp only [collectTokens_iff, exists_eq_left, List.not_mem_nil, false_imp_iff, implies_true, and_true]
  constructor
  · rintro ⟨hlength, hsource, hapart⟩
    have hmem : ∀ t ∈ tokens, t.property "tokenId" ∈ (tokensOf source).map (fun token => token.property "id") :=
      fun t ht => by
        obtain ⟨id, hid, hsame⟩ := List.any_eq_true.1 (hsource t ht).2
        obtain ⟨i, rfl⟩ := exists_tokenNumber h hid
        rwa [eq_tokenNumber hsame]
    have hnodup : (tokens.map (fun token => token.property "tokenId")).Nodup := by
      refine List.pairwise_map.2 (hapart.imp_of_mem (fun {t₁ t₂} ht₁ _ hdiffer he => ?_))
      obtain ⟨i, hi⟩ := exists_tokenNumber h (hmem t₁ ht₁)
      rw [← he, hi, sameValueZero_tokenNumber] at hdiffer
      cases hdiffer
    refine (hnodup.subperm (fun id hid => ?_)).perm_of_length_le (by simp [hlength])
    obtain ⟨t, ht, rfl⟩ := List.mem_map.1 hid
    exact hmem t ht
  · intro hperm
    have hnumber : ∀ id ∈ tokens.map (fun token => token.property "tokenId"), ∃ i, id = tokenNumber i := fun id hid =>
      exists_tokenNumber h (hperm.subset hid)
    refine ⟨by simpa using hperm.length_eq, fun t ht => ?_,
      List.pairwise_map.1 (apart_tokenNumbers hnumber (hperm.nodup_iff.2 (nodup_ids h)))⟩
    obtain ⟨i, hi⟩ := hnumber _ (List.mem_map_of_mem ht)
    have hmem := hperm.subset (List.mem_map_of_mem ht)
    rw [hi] at hmem ⊢
    exact ⟨isInteger_tokenNumber i, List.any_eq_true.2 ⟨_, hmem, sameValueZero_tokenNumber i⟩⟩

theorem coverSentence_iff {source : Value} (h : CheckedSentence source) {bySentence : List Value} :
    coverSentence bySentence source = .ok () ↔ ∃ annotated,
      bySentence.find? (fun other => sameValueZero (other.property "sentenceId") (source.property "sentenceId")) =
        some annotated ∧ CoversSentence source annotated := by
  have hset : setOf ((tokensOf source).map (fun token => token.property "id")) =
      (tokensOf source).map (fun token => token.property "id") :=
    setOf_apart (apart_tokenNumbers (fun id hid => exists_tokenNumber h hid) (nodup_ids h))
  rw [coverSentence]
  split
  · rename_i hnone
    simp [hnone]
  · rename_i annotated hfound
    have hfind := List.find?_some hfound
    have hsame : SameSentence source annotated := sameValueZero_symm hfind
    rw [hset]
    constructor
    · intro hok
      refine ⟨annotated, hfound, hsame, ?_⟩
      split at hok
      · rename_i tokens htokens
        split at hok
        · cases hok
        rename_i hlength
        dsimp only at hok
        split at hok
        · cases hok
        · rename_i ids hids
          exact ⟨tokens, htokens, (collected_iff h).1 ⟨not_ne_iff.1 hlength, ids, hids⟩⟩
      · cases hok
    · rintro ⟨annotated', hfound', -, tokens, htokens, hmatched⟩
      obtain rfl := Option.some.inj (hfound.symm.trans hfound')
      obtain ⟨hlength, ids, hids⟩ := (@collected_iff source (source.property "sentenceId") h tokens).2 hmatched
      have hcount : ids.length = ((tokensOf source).map (fun token => token.property "id")).length := by
        rw [(collectTokens_iff.1 hids).1]
        simp [hlength]
      simp only [htokens, hlength, hids, hcount, ne_eq, not_true_eq_false, if_false]

/-! ## Sentences -/

theorem collectSentences_iff : ∀ {sentences done bySentence : List Value},
    collectSentences done sentences = .ok bySentence ↔ bySentence = done ++ sentences ∧
      (∀ s ∈ sentences, s.truthy = true ∧
        ∀ d ∈ done, sameValueZero (d.property "sentenceId") (s.property "sentenceId") = false) ∧
      sentences.Pairwise (fun s s' => sameValueZero (s.property "sentenceId") (s'.property "sentenceId") = false)
  | [], done, bySentence => by
    rw [collectSentences, Except.ok.injEq, List.append_nil]
    exact ⟨fun h => ⟨h.symm, nofun, .nil⟩, fun h => h.1.symm⟩
  | sentence :: rest, done, bySentence => by
    rw [collectSentences]
    split
    · rename_i hrefused
      simp only [reduceCtorEq, false_iff, List.forall_mem_cons]
      rintro ⟨-, ⟨⟨htruthy, hdone⟩, -⟩, -⟩
      have hnone : done.any (fun other => sameValueZero (other.property "sentenceId") (sentence.property "sentenceId")) =
          false := by simpa using hdone
      simp [htruthy, hnone] at hrefused
    · rename_i haccepted
      rw [Bool.not_eq_true, Bool.or_eq_false_iff, Bool.not_eq_false'] at haccepted
      obtain ⟨htruthy, hnone⟩ := haccepted
      have hdone : ∀ d ∈ done, sameValueZero (d.property "sentenceId") (sentence.property "sentenceId") = false := by
        simpa using hnone
      rw [collectSentences_iff, List.append_assoc, List.singleton_append, List.pairwise_cons, List.forall_mem_cons]
      simp only [List.mem_append, List.mem_singleton, or_imp, forall_and, forall_eq, htruthy]
      constructor
      · rintro ⟨hsame, ⟨htruthies, hdones, hfirst⟩, hapart⟩
        exact ⟨hsame, ⟨⟨trivial, hdone⟩, htruthies, hdones⟩, hfirst, hapart⟩
      · rintro ⟨hsame, ⟨-, htruthies, hdones⟩, hfirst, hapart⟩
        exact ⟨hsame, ⟨htruthies, hdones, hfirst⟩, hapart⟩

theorem coverSentences_iff {bySentence : List Value} : ∀ {sources : List Value},
    coverSentences bySentence sources = .ok () ↔ ∀ source ∈ sources, coverSentence bySentence source = .ok ()
  | [] => by simp [coverSentences]
  | source :: rest => by
    rw [coverSentences, List.forall_mem_cons]
    split
    · rename_i herror
      simp [herror]
    · rename_i hok
      rw [coverSentences_iff, hok, and_iff_right rfl]

/-- Only an object has an identifier that is not falsy. -/
theorem truthy_of_property {v : Value} {key : String} (h : (v.property key).truthy = true) : v.truthy = true := by
  cases v <;> first | rfl | cases h

theorem truthy_of_sameValueZero {a b : Value} (h : sameValueZero a b = true) (ha : a.truthy = true) : b.truthy = true := by
  cases a <;> cases b <;> simp_all [sameValueZero]
  rcases h with (rfl | ⟨rfl, rfl⟩) | ⟨rfl, rfl⟩ <;> exact ha

/-- Coverage is an exact cover. -/
theorem coverage_iff {packet submission : Value} (h : validatePacket packet = .ok ()) :
    validateAnnotationCoverage packet submission = .ok () ↔ Covers packet submission := by
  obtain ⟨hchecked, hapart⟩ := checked_of_validatePacket h
  rw [validateAnnotationCoverage, Covers]
  constructor
  · intro hok
    split at hok
    · rename_i sentences hsentences
      split at hok
      · cases hok
      rename_i hlength
      split at hok
      · cases hok
      rename_i bySentence hcollected
      rw [(collectSentences_iff.1 hcollected).1, List.nil_append, coverSentences_iff] at hok
      refine ⟨sentences, hsentences, Matched.of_cover (not_ne_iff.1 hlength).symm (fun source hsource => ?_) ?_⟩
      · obtain ⟨annotated, hfound, hcovers⟩ := (coverSentence_iff (hchecked source hsource)).1 (hok source hsource)
        exact ⟨annotated, List.mem_of_find?_eq_some hfound, hcovers⟩
      · refine hapart.imp (fun {s s'} hdiffer annotated _ hs hs' => ?_)
        rw [sameValueZero_trans hs'.same (sameValueZero_symm hs.same)] at hdiffer
        cases hdiffer
    · cases hok
  · rintro ⟨sentences, hsentences, hmatched⟩
    have hdistinct : sentences.Pairwise
        (fun s s' => sameValueZero (s.property "sentenceId") (s'.property "sentenceId") = false) := by
      refine hmatched.pairwise hapart (fun source annotated source' annotated' hs hs' hdiffer => ?_) sameValueZero_comm_false
      rw [← Bool.not_eq_true] at hdiffer ⊢
      exact fun hsame => hdiffer (sameValueZero_trans (sameValueZero_trans hs'.same (sameValueZero_symm hsame))
        (sameValueZero_symm hs.same))
    have hcollected : collectSentences [] sentences = .ok sentences := by
      refine collectSentences_iff.2 ⟨rfl, fun s hs => ⟨?_, nofun⟩, hdistinct⟩
      obtain ⟨source, hsource, hcovers⟩ := hmatched.exists_left hs
      exact truthy_of_property (truthy_of_sameValueZero hcovers.same (hchecked source hsource).id)
    simp only [hsentences, hmatched.length_eq, ne_eq, not_true_eq_false, if_false, hcollected]
    rw [coverSentences_iff]
    intro source hsource
    obtain ⟨annotated, hannotated, hcovers⟩ := hmatched.exists_right hsource
    refine (coverSentence_iff (hchecked source hsource)).2 ⟨annotated, ?_, hcovers⟩
    have hexists : (sentences.find? (fun other =>
        sameValueZero (other.property "sentenceId") (source.property "sentenceId"))).isSome = true :=
      List.find?_isSome.2 ⟨annotated, hannotated, sameValueZero_symm hcovers.same⟩
    obtain ⟨found, hfound⟩ := Option.isSome_iff_exists.1 hexists
    have hsame := List.find?_some hfound
    by_cases hne : found = annotated
    · rw [hfound, hne]
    · have hsymm : Std.Symm (fun s s' : Value =>
          sameValueZero (s.property "sentenceId") (s'.property "sentenceId") = false) :=
        ⟨fun _ _ => sameValueZero_comm_false⟩
      have hdiffer := hdistinct.forall (List.mem_of_find?_eq_some hfound) hannotated hne
      rw [sameValueZero_trans hsame hcovers.same] at hdiffer
      cases hdiffer

/-- **Coverage of an accepted packet is an exact cover**: the sentences of the submission are paired with the packet's and
their tokens with the tokens, so that its units, listed with multiplicity, are the packet's in some order. -/
theorem validateAnnotationCoverage_iff (packet submission : Value) (h : validatePacket packet = .ok ()) :
    (validateAnnotationCoverage packet submission = .ok () ↔ Covers packet submission) ∧
    (Covers packet submission → Matched (fun u v => sameValueZero u.1 v.1 = true ∧ sameValueZero u.2 v.2 = true)
      (packetUnits packet) (submissionUnits submission)) :=
  ⟨coverage_iff h, Covers.units⟩

/-- An annotation of a packet of one word. -/
def oneWordAnnotation : Value :=
  .object [(str "sentences", .array [.object [(str "sentenceId", .string (str "s1")),
    (str "tokens", .array [.object [(str "tokenId", .number (Number.ofNat 1))]])]])]

theorem validateAnnotationCoverage_iff_oneWord : Covers (oneWordPacket fullAgreement []) oneWordAnnotation :=
  (validateAnnotationCoverage_iff (oneWordPacket fullAgreement []) oneWordAnnotation (by decide +kernel)).1.1
    (by decide +kernel)

end Protocol
end Adg
