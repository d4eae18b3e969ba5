import AdgLang.ContestedDecisions
/-!
# AcceptedEvidence — what becomes of artifacts that are accepted

`validateArtifactForServer` tells sentences apart by their identifiers as values, the metrics and the decisions that come
after it by the texts of the identifiers.  Of accepted artifacts there are metrics, and novel decisions are counted,
exactly where the identifiers of the packet have distinct texts (`accepted_evidence_computes_iff`).
-/
namespace Adg
namespace Consensus

open Js
open Protocol (sameValueZero sentencesOf tokensOf Bound Parallel isText validateArtifactForServer)

variable {packet document annotationA annotationB : Value}

/-! ## Coverage of bound annotations -/

theorem keys_of_parallel {sentence other : Value} (h : Parallel sentence other) :
    (sentenceKeys sentence).Perm (sentenceKeys other) := by
  have hids := keyText_of_sameValueZero h.same
  rw [sentenceKeys, sentenceKeys, sentenceKey, sentenceKey, hids]
  refine (h.tokens.perm_map (fun token token' htoken => ?_)).cons _
  simp only [unitKey, hids, keyText_of_sameValueZero htoken]

theorem coverable_of_bound (h : Bound packet document) {sentence : Value} (hsentence : sentence ∈ sentencesOf document) :
    Coverable sentence where
  id := h.truthy_id hsentence
  text := textOf_id h hsentence
  tokens := by
    obtain ⟨source, -, hcovers⟩ := h.matched.exists_left hsentence
    obtain ⟨tokens, htokens, -⟩ := hcovers.tokens
    exact ⟨tokens, htokens⟩
  ids := fun token htoken => by
    obtain ⟨i, hi⟩ := h.tokenNumber_of_mem hsentence htoken
    rw [hi]
    exact Protocol.isInteger_tokenNumber i

/-- The keys of the sentences, and those of the tokens, are distinct where the identifiers of sentences are. -/
theorem keysOf_nodup_iff (h : Bound packet document) : (keysOf document).Nodup ↔ DistinctTexts document := by
  rw [DistinctTexts, keysOf, List.nodup_iff_pairwise_ne, List.nodup_iff_pairwise_ne, List.pairwise_flatMap, List.pairwise_map]
  constructor
  · rintro ⟨-, hapart⟩
    refine hapart.imp (fun {s s'} hne htext => hne _ List.mem_cons_self _ List.mem_cons_self ?_)
    rw [sentenceKey, sentenceKey, htext]
  · intro hdistinct
    have htokenKey : ∀ {text text' : Str}, str "sentence:" ++ text ≠ str "token:" ++ text' := fun h =>
      absurd (congrArg List.head? h) (by decide : ¬ (some (unit 's') = some (unit 't')))
    refine ⟨fun sentence hsentence => ?_, hdistinct.imp_of_mem (fun {s s'} hs hs' hne key hkey key' hkey' he => ?_)⟩
    · refine List.pairwise_cons.2 ⟨fun key hkey => ?_, ?_⟩
      · obtain ⟨token, -, rfl⟩ := List.mem_map.1 hkey
        exact htokenKey
      · rw [List.pairwise_map]
        refine (h.apartTokens hsentence).imp_of_mem (fun {t t'} ht ht' hdiffer hsame => ?_)
        obtain ⟨i, hi⟩ := h.tokenNumber_of_mem hsentence ht
        obtain ⟨j, hj⟩ := h.tokenNumber_of_mem hsentence ht'
        have hnumber := (unitKey_eq hi hj (List.append_cancel_left hsame)).2
        rw [← hnumber, hi, Protocol.sameValueZero_tokenNumber] at hdiffer
        cases hdiffer
    · obtain rfl | hkey := List.mem_cons.1 hkey <;> obtain rfl | hkey' := List.mem_cons.1 hkey'
      · exact hne (List.append_cancel_left he)
      · obtain ⟨token, -, rfl⟩ := List.mem_map.1 hkey'
        exact htokenKey he
      · obtain ⟨token, -, rfl⟩ := List.mem_map.1 hkey
        exact htokenKey he.symm
      · obtain ⟨t, ht, rfl⟩ := List.mem_map.1 hkey
        obtain ⟨t', ht', rfl⟩ := List.mem_map.1 hkey'
        obtain ⟨i, hi⟩ := h.tokenNumber_of_mem hs ht
        obtain ⟨j, hj⟩ := h.tokenNumber_of_mem hs' ht'
        exact hne (unitKey_eq hi hj (List.append_cancel_left he)).1

theorem covered_iff (h : Bound packet document) : Covered document ↔ DistinctTexts packet := by
  rw [← distinctTexts_iff h, ← keysOf_nodup_iff h]
  refine ⟨Covered.nodup, fun hnodup => ⟨?_, fun sentence hsentence => coverable_of_bound h hsentence, hnodup⟩⟩
  obtain ⟨sentences, hsentences, -⟩ := h.covers
  exact ⟨sentences, hsentences⟩

/-- **Annotations of one packet are aligned where its identifiers have distinct texts.** -/
theorem aligned_iff (hA : Bound packet annotationA) (hB : Bound packet annotationB) :
    Aligned annotationA annotationB ↔ DistinctTexts packet := by
  constructor
  · exact fun h => (covered_iff hA).1 h.comparable.left
  · intro hdistinct
    refine ⟨⟨(covered_iff hA).2 hdistinct, (covered_iff hB).2 hdistinct, ?_⟩, fun sentence hsentence => ?_⟩
    · exact (hA.parallel hB).perm_flatMap (fun _ _ h => keys_of_parallel h)
    · obtain ⟨other, hother, hparallel⟩ := (hA.parallel hB).exists_right hsentence
      exact ⟨other, hother, Protocol.sameValueZero_symm hparallel.same⟩

/-! ## Accepted artifacts -/

variable {digest : List UInt8 → Str} {artifact : Value}

theorem mapError_eq_ok {ε ε' α : Type} {f : ε → ε'} {x : Except ε α} {a : α} : x.mapError f = .ok a ↔ x = .ok a := by
  cases x <;> simp [Except.mapError]

/-- An artifact of role A or B that the server accepts. -/
structure AcceptedAnnotation (digest : List UInt8 → Str) (artifact : Value) : Prop where
  json : artifact.Json
  kind : isText (artifact.property "kind") (str "independent-annotation") = true
  accepted : validateArtifactForServer digest artifact = .ok ()

/-- A package of J1 that the server accepts. -/
structure AcceptedPackage (digest : List UInt8 → Str) (artifact : Value) : Prop where
  json : artifact.Json
  kind : isText (artifact.property "kind") (str "adjudication-package") = true
  accepted : validateArtifactForServer digest artifact = .ok ()

theorem AcceptedAnnotation.bound (h : AcceptedAnnotation digest artifact) :
    Bound (artifact.property "packet") (artifact.property "annotation") := by
  obtain ⟨⟨⟩, -, hbinding⟩ := bind_eq_ok.1 (mapError_eq_ok.1 h.accepted)
  rw [if_pos h.kind] at hbinding
  exact Protocol.bound_of_validateSubmissionBinding hbinding

theorem isText_unique {v : Value} {s t : Str} (h : isText v s = true) (h' : isText v t = true) : s = t := by
  cases v with
  | string u => exact (of_decide_eq_true h).symm.trans (of_decide_eq_true h')
  | undefined | null | bool _ | number _ | bigint _ | bytes _ | array _ | object _ => cases h

theorem AcceptedPackage.adjudicated (h : AcceptedPackage digest artifact) :
    Protocol.Adjudicated (artifact.property "packet") (artifact.property "annotationA") (artifact.property "annotationB")
      (artifact.property "adjudication") := by
  obtain ⟨⟨⟩, -, hbinding⟩ := bind_eq_ok.1 (mapError_eq_ok.1 h.accepted)
  have hother : ¬ isText (artifact.property "kind") (str "independent-annotation") = true := fun hkind =>
    absurd (isText_unique h.kind hkind) (by decide)
  rw [if_neg hother, if_pos h.kind] at hbinding
  exact Protocol.adjudicated_of_validateAdjudicationBinding hbinding

/-- A covered document is one that JSON can hold, where it is part of one. -/
theorem json_of_bound (h : artifact.Json) {key : String} (hbound : Bound packet (artifact.property key)) :
    (artifact.property key).Json := by
  refine h.property_json (fun hundefined => ?_)
  obtain ⟨sentences, hsentences, -⟩ := hbound.covers
  rw [hundefined] at hsentences
  cases hsentences

/-- **Accepted evidence can be worked with exactly where the identifiers of its sentences have distinct texts**: two
annotations of one packet have metrics, and the novel decisions of a package are counted. -/
theorem accepted_evidence_computes_iff (digest : List UInt8 → Str) :
    (∀ artifactA artifactB, AcceptedAnnotation digest artifactA → AcceptedAnnotation digest artifactB →
      artifactA.property "packet" = artifactB.property "packet" →
      ((∃ metrics, computeIndependentAgreement (artifactA.property "annotation") (artifactB.property "annotation") =
          .ok metrics) ↔ DistinctTexts (artifactA.property "packet"))) ∧
    ∀ package, AcceptedPackage digest package →
      ((∃ count, countNovelPrimaryDecisions (package.property "annotationA") (package.property "annotationB")
          (package.property "adjudication") = .ok count) ↔ DistinctTexts (package.property "packet")) := by
  refine ⟨fun artifactA artifactB hA hB hpacket => ?_, fun package h => ?_⟩
  · have hboundB := hB.bound
    rw [← hpacket] at hboundB
    rw [exists_metrics_iff (json_of_bound hA.json hA.bound) (json_of_bound hB.json hboundB)]
    exact aligned_iff hA.bound hboundB
  · obtain ⟨hA, hB, hfinal, -⟩ := h.adjudicated
    simp only [countNovelPrimaryDecisions_iff hA hB hfinal (json_of_bound h.json hA) (json_of_bound h.json hB)
      (json_of_bound h.json hfinal)]
    exact ⟨fun ⟨_, hdistinct, _⟩ => hdistinct, fun hdistinct => ⟨_, hdistinct, rfl⟩⟩

def sampleArtifact (slot universalPartOfSpeech : String) : Value :=
  .object [(str "kind", .string (str "independent-annotation")), (str "packet", samplePacket),
    (str "annotation", sampleSubmission slot universalPartOfSpeech)]

def samplePackage : Value :=
  .object [(str "kind", .string (str "adjudication-package")), (str "packet", samplePacket),
    (str "annotationA", sampleSubmission "A" "NOUN"), (str "annotationB", sampleSubmission "B" "ADJ"),
    (str "adjudication", sampleDecision)]

/-- One word, two annotations of it and a decision on them. -/
theorem accepted_evidence_computes_iff_sample :
    (∃ metrics, computeIndependentAgreement (sampleSubmission "A" "NOUN") (sampleSubmission "B" "ADJ") = .ok metrics) ∧
    ∃ count, countNovelPrimaryDecisions (sampleSubmission "A" "NOUN") (sampleSubmission "B" "ADJ") sampleDecision =
      .ok count := by
  obtain ⟨hannotations, hpackages⟩ := accepted_evidence_computes_iff sampleDigest
  have hA : AcceptedAnnotation sampleDigest (sampleArtifact "A" "NOUN") :=
    ⟨⟨by decide +kernel, by decide +kernel⟩, by decide +kernel, by decide +kernel⟩
  have hB : AcceptedAnnotation sampleDigest (sampleArtifact "B" "ADJ") :=
    ⟨⟨by decide +kernel, by decide +kernel⟩, by decide +kernel, by decide +kernel⟩
  have hpackage : AcceptedPackage sampleDigest samplePackage :=
    ⟨⟨by decide +kernel, by decide +kernel⟩, by decide +kernel, by decide +kernel⟩
  exact ⟨(hannotations _ _ hA hB rfl).2 (List.nodup_singleton _), (hpackages _ hpackage).2 (List.nodup_singleton _)⟩

/-! ## The number 1 and the text "1" -/

def numberedSentence (id : Value) : Value :=
  .object [(str "sentenceId", id), (str "text", .string (str "a")),
    (str "tokens", .array [.object [(str "id", .number (Number.ofNat 1)), (str "form", .string (str "a"))]])]

/-- A packet whose sentences are identified by the number 1 and by its text. -/
def twoIdsPacket : Value :=
  .object ([(str "schema", .string Protocol.packetSchema), (str "taskVersion", .number (Number.ofNat 1))] ++
    Protocol.identityKeys.map (fun key => (str key, .string (str "x"))) ++
    [(str "metricPolicy", Protocol.fullAgreement), (str "parserPredictionsExcluded", .bool true),
      (str "sentences", .array [numberedSentence (.number (Number.ofNat 1)), numberedSentence (.string (str "1"))])])

/-- SHA-256 of this packet. -/
def twoIdsRoot : Str := str "72b5674ed1fdfc377a4cf53599ac32ad502f5a456a4c84beba8b585e243ced5d"

def identifiedSentence (id : Value) : Value :=
  .object [(str "sentenceId", id), (str "tokens", .array [.object [(str "tokenId", .number (Number.ofNat 1))]])]

def twoIdsArtifact (slot : String) : Value :=
  .object [(str "kind", .string (str "independent-annotation")), (str "packet", twoIdsPacket),
    (str "annotation", .object ([(str "schema", .string Protocol.annotationSchema),
      (str "taskVersion", .number (Number.ofNat 1)), (str "annotatorSlot", .string (str slot)),
      (str "packetMerkleRoot", .string twoIdsRoot),
      (str "sentences", .array [identifiedSentence (.number (Number.ofNat 1)), identifiedSentence (.string (str "1"))])] ++
      Protocol.identityKeys.map (fun key => (str key, .string (str "x")))))]

/-- Two accepted annotations of one packet of which there are no metrics. -/
theorem accepted_evidence_jams : ¬ ∀ artifactA artifactB, AcceptedAnnotation (fun _ => twoIdsRoot) artifactA →
    AcceptedAnnotation (fun _ => twoIdsRoot) artifactB → artifactA.property "packet" = artifactB.property "packet" →
    ∃ metrics, computeIndependentAgreement (artifactA.property "annotation") (artifactB.property "annotation") =
      .ok metrics := by
  intro h
  have hA : AcceptedAnnotation (fun _ => twoIdsRoot) (twoIdsArtifact "A") :=
    ⟨⟨by decide +kernel, by decide +kernel⟩, by decide +kernel, by decide +kernel⟩
  have hB : AcceptedAnnotation (fun _ => twoIdsRoot) (twoIdsArtifact "B") :=
    ⟨⟨by decide +kernel, by decide +kernel⟩, by decide +kernel, by decide +kernel⟩
  obtain ⟨metrics, hmetrics⟩ := h _ _ hA hB rfl
  have hthrown : (computeIndependentAgreement ((twoIdsArtifact "A").property "annotation")
      ((twoIdsArtifact "B").property "annotation")).toOption.isSome = false := by decide +kernel
  rw [hmetrics] at hthrown
  cases hthrown

end Consensus
end Adg
