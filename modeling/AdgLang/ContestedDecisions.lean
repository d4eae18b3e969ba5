import AdgLang.DecisionMaps
/-!
# ContestedDecisions — what a decision has to justify

`validateAdjudicationResolutions` compares the values of sentences as they are and the tokens by one text of all their
fields, `countNovelPrimaryDecisions` compares labels field by field.  Values that are equal in the one sense have one label
(`label_of_strictEquals`, `label_of_tokenDecisionKey`), so that whatever is contested by labels was in need of a
resolution.
-/
namespace Adg
namespace Consensus

open Js
open Protocol (sameValueZero sentencesOf tokensOf isNullish Bound Adjudicated strictEquals decisionNeedsResolution
  resolutionNote documented tokenDecisionKey fieldValues refuseIf lastWith lastWith_eq)

/-- A sentence or token with a note that is not blank. -/
def Justified (holder : Value) : Prop := ∃ note, resolutionNote holder = .ok note ∧ note ≠ []

/-! ## Equal values have one label -/

theorem label_of_sameValueZero {v w : Value} (h : sameValueZero v w = true) : labelOf v = labelOf w := by
  cases v <;> cases w <;> simp_all [sameValueZero]
  rcases h with (rfl | ⟨rfl, rfl⟩) | ⟨rfl, rfl⟩ <;> rfl

theorem sameValueZero_of_strictEquals {v w : Value} (h : strictEquals v w = true) : sameValueZero v w = true := by
  unfold strictEquals at h
  split at h
  · cases h
  · exact h

theorem label_of_strictEquals {v w : Value} (h : strictEquals v w = true) : labelOf v = labelOf w :=
  label_of_sameValueZero (sameValueZero_of_strictEquals h)

/-- An item as an array is written with it. -/
def orNull (v : Value) : Value := if isNullish v then .null else v

theorem text_orNull (v : Value) : (orNull v).text = labelOf v := by
  rw [orNull, labelOf]
  split <;> rfl

theorem text_item (v : Value) : v.text = (orNull v).text := by cases v <;> rfl

theorem itemTexts_orNull : ∀ items : List Value, Value.itemTexts items = Value.itemTexts (items.map orNull)
  | [] => rfl
  | v :: items => by rw [List.map_cons, Value.itemTexts, Value.itemTexts, ← text_item, itemTexts_orNull items]

theorem json_orNull {holder : Value} (h : holder.Json) (field : String) : (orNull (holder.property field)).Json := by
  rw [orNull]
  split
  · exact Value.json_leaf rfl rfl
  · rename_i hsome
    exact h.property_json (fun he => hsome (by rw [he]; rfl))

/-- **Tokens with one decision key have the same labels.** -/
theorem label_of_tokenDecisionKey {token other : Value} (hjson : token.Json) (hjson' : other.Json) {key : Str}
    (h : tokenDecisionKey token = .ok key) (h' : tokenDecisionKey other = .ok key) {field : String}
    (hfield : field ∈ Protocol.tokenFields) : labelOf (token.property field) = labelOf (other.property field) := by
  have htext : ∀ {token : Value}, tokenDecisionKey token = .ok key →
      key = (Value.array ((fieldValues token Protocol.tokenFields).map orNull)).text := fun {token} h => by
    rw [tokenDecisionKey] at h
    split at h
    · rw [← Except.ok.inj h, Value.text, itemTexts_orNull]
      rfl
    · cases h
  have hitems : ∀ {token : Value}, token.Json → (Value.array ((fieldValues token Protocol.tokenFields).map orNull)).Json :=
    fun {token} hjson => by
      refine Value.json_array (fun v hv => ?_)
      obtain ⟨w, hw, rfl⟩ := List.mem_map.1 hv
      obtain ⟨field, -, rfl⟩ := List.mem_map.1 hw
      exact json_orNull hjson field
  have hreread := (Value.text_eq_iff (hitems hjson) (hitems hjson')).1 ((htext h).symm.trans (htext h'))
  rw [Value.reread, Value.reread, Value.rereadItems_eq, Value.rereadItems_eq, Value.array.injEq, fieldValues, fieldValues,
    List.map_map, List.map_map, List.map_map, List.map_map] at hreread
  have hsame := congrArg Value.text (List.map_inj_left.1 hreread field hfield)
  simp only [Function.comp_apply, Value.text_reread, text_orNull] at hsame
  exact hsame

/-! ## Resolutions -/

variable {packet annotationA annotationB decision : Value}

theorem justified_of_documented {needed : Bool} {holder : Value} {message : Str}
    (h : documented needed holder message = .ok ()) (hneeded : needed = true) : Justified holder := by
  rw [documented, if_pos hneeded] at h
  obtain ⟨note, hnote, h⟩ := bind_eq_ok.1 h
  refine ⟨note, hnote, fun hblank => ?_⟩
  rw [refuseIf, if_pos (decide_eq_true hblank)] at h
  cases h

/-- Where no resolution is needed, all three values are the same. -/
theorem strictEquals_of_not_needed {a b final : Value} (h : decisionNeedsResolution a b final = false) :
    strictEquals a b = true ∧ strictEquals final a = true := by
  rw [decisionNeedsResolution, Bool.or_eq_false_iff, Bool.not_eq_false'] at h
  obtain ⟨hsame, hfinal⟩ := h
  rw [hsame, Bool.true_and, Bool.not_eq_false'] at hfinal
  exact ⟨hsame, hfinal⟩

/-- The sentences of a decision are resolved, and their tokens. -/
theorem resolved_sentence (h : Adjudicated packet annotationA annotationB decision)
    {sentence a b : Value} (hsentence : sentence ∈ sentencesOf decision) (ha : a ∈ sentencesOf annotationA)
    (hb : b ∈ sentencesOf annotationB)
    (hsameA : sameValueZero (a.property "sentenceId") (sentence.property "sentenceId") = true)
    (hsameB : sameValueZero (b.property "sentenceId") (sentence.property "sentenceId") = true) :
    (∀ field ∈ Protocol.sentenceFields,
      decisionNeedsResolution (a.property field) (b.property field) (sentence.property field) = true →
        Justified sentence) ∧
    ∀ token ∈ tokensOf sentence, Protocol.resolveToken sentence (tokensOf a) (tokensOf b) token = .ok () := by
  have hresolved := each_of_forM h.resolved sentence hsentence
  rw [Protocol.resolveSentence, lastWith_eq h.first.apart ha hsameA, lastWith_eq h.second.apart hb hsameB] at hresolved
  obtain ⟨⟨⟩, hdocumented, htokens⟩ := bind_eq_ok.1 hresolved
  refine ⟨fun field hfield hneeded => ?_, each_of_forM htokens⟩
  exact justified_of_documented hdocumented (List.any_eq_true.2 ⟨field, hfield, hneeded⟩)

/-- A token whose decision key is contested has a note. -/
theorem justified_token (h : Adjudicated packet annotationA annotationB decision) {sentence a b token tokenA tokenB : Value}
    (hresolved : Protocol.resolveToken sentence (tokensOf a) (tokensOf b) token = .ok ())
    (ha : a ∈ sentencesOf annotationA) (hb : b ∈ sentencesOf annotationB) (htokenA : tokenA ∈ tokensOf a)
    (htokenB : tokenB ∈ tokensOf b)
    (hsameA : sameValueZero (tokenA.property "tokenId") (token.property "tokenId") = true)
    (hsameB : sameValueZero (tokenB.property "tokenId") (token.property "tokenId") = true) :
    Justified token ∨ ∃ key, tokenDecisionKey tokenA = .ok key ∧ tokenDecisionKey tokenB = .ok key ∧
      tokenDecisionKey token = .ok key := by
  rw [Protocol.resolveToken, lastWith_eq (h.first.apartTokens ha) htokenA hsameA,
    lastWith_eq (h.second.apartTokens hb) htokenB hsameB] at hresolved
  obtain ⟨keyA, hkeyA, hresolved⟩ := bind_eq_ok.1 hresolved
  obtain ⟨keyB, hkeyB, hresolved⟩ := bind_eq_ok.1 hresolved
  obtain ⟨key, hkey, hresolved⟩ := bind_eq_ok.1 hresolved
  cases hneeded : decisionNeedsResolution (.string keyA) (.string keyB) (.string key) with
  | true => exact .inl (justified_of_documented hresolved hneeded)
  | false =>
    obtain ⟨hsame, hfinal⟩ := strictEquals_of_not_needed hneeded
    have hB : keyA = keyB := of_decide_eq_true (sameValueZero_of_strictEquals hsame)
    have hfinal' : key = keyA := of_decide_eq_true (sameValueZero_of_strictEquals hfinal)
    subst hB hfinal'
    exact .inr ⟨key, hkeyA, hkeyB, hkey⟩

/-- Units that differ: in their labels, or those of sentences in their values. -/
def Differ (u v : DecisionUnit) : Prop := u.label ≠ v.label ∨ u.token = none ∧ strictEquals u.value v.value = false

theorem not_novel {u a : DecisionUnit} (ha : a ∈ decisionUnits annotationA) (hsame : u.same a = true)
    (h : u.label = a.label) : novel annotationA annotationB u = false := by
  rw [← Bool.not_eq_true]
  intro hnovel
  have hdiffers := List.all_eq_true.1 (Bool.and_eq_true_iff.1 hnovel).1 a ha
  rw [hsame, Bool.not_true, Bool.false_or, decide_eq_true_eq] at hdiffers
  exact hdiffers h.symm

/-- **What is contested is justified.** -/
theorem justified_of_contested (h : Adjudicated packet annotationA annotationB decision) (hjsonA : annotationA.Json)
    (hjsonB : annotationB.Json) (hjson : decision.Json) {u a b : DecisionUnit} (hu : u ∈ decisionUnits decision)
    (ha : a ∈ decisionUnits annotationA) (hb : b ∈ decisionUnits annotationB) (hsameA : u.same a = true)
    (hsameB : u.same b = true) (hcontested : Differ a b ∨ novel annotationA annotationB u = true) :
    Justified u.holder := by
  have hsymm := @Protocol.sameValueZero_symm
  obtain ⟨sentence, token, field⟩ := u
  obtain ⟨sentenceA, tokenA, fieldA⟩ := a
  obtain ⟨sentenceB, tokenB, fieldB⟩ := b
  have hidsA := hsameA
  have hidsB := hsameB
  rw [DecisionUnit.same, Bool.and_eq_true, Bool.and_eq_true, decide_eq_true_eq] at hidsA hidsB
  obtain ⟨⟨hidA, rfl⟩, hmatchA⟩ := hidsA
  obtain ⟨⟨hidB, rfl⟩, hmatchB⟩ := hidsB
  obtain ⟨hs, hkind⟩ := mem_decisionUnits.1 hu
  obtain ⟨hsA, hkindA⟩ := mem_decisionUnits.1 ha
  obtain ⟨hsB, hkindB⟩ := mem_decisionUnits.1 hb
  obtain ⟨hfields, htokens⟩ := resolved_sentence h hs hsA hsB (hsymm hidA) (hsymm hidB)
  obtain ⟨rfl, hfield⟩ | ⟨t, ht, rfl, hfield⟩ := hkind
  · cases tokenA with
    | some _ => cases hmatchA
    | none =>
    cases tokenB with
    | some _ => cases hmatchB
    | none =>
    cases hneeded : decisionNeedsResolution (sentenceA.property field) (sentenceB.property field)
        (sentence.property field) with
    | true => exact hfields field hfield hneeded
    | false =>
      obtain ⟨hsame, hfinal⟩ := strictEquals_of_not_needed hneeded
      obtain (hlabel | ⟨-, hvalue⟩) | hnovel := hcontested
      · exact absurd (label_of_strictEquals hsame) hlabel
      · exact absurd (hsame.symm.trans hvalue) Bool.noConfusion
      · rw [not_novel ha hsameA (label_of_strictEquals hfinal)] at hnovel
        cases hnovel
  · cases tokenA with
    | none => cases hmatchA
    | some tA =>
    cases tokenB with
    | none => cases hmatchB
    | some tB =>
    obtain ⟨hnone, -⟩ | ⟨_, htA, ⟨⟩, -⟩ := hkindA
    · cases hnone
    obtain ⟨hnone, -⟩ | ⟨_, htB, ⟨⟩, -⟩ := hkindB
    · cases hnone
    obtain hjustified | ⟨key, hkeyA, hkeyB, hkey⟩ :=
      justified_token h (htokens t ht) hsA hsB htA htB (hsymm hmatchA) (hsymm hmatchB)
    · exact hjustified
    · have hjsonT := mem_json (mem_json hjson hs) ht
      have hjsonTA := mem_json (mem_json hjsonA hsA) htA
      have hjsonTB := mem_json (mem_json hjsonB hsB) htB
      obtain (hlabel | ⟨hnone, -⟩) | hnovel := hcontested
      · exact absurd (label_of_tokenDecisionKey hjsonTA hjsonTB hkeyA hkeyB hfield) hlabel
      · cases hnone
      · rw [not_novel ha hsameA (label_of_tokenDecisionKey hjsonT hjsonTA hkey hkeyA hfield)] at hnovel
        cases hnovel

/-- **Every contested decision is justified**: each unit of an accepted decision has its units in both annotations, and
where these differ, or where its label is neither's, there is a note that is not blank; the novel decisions that are
counted are these units, and where the annotations agree on everything and none is counted the decision is theirs. -/
theorem contested_decisions_justified (digest : List UInt8 → Str) (packet annotationA annotationB decision : Value)
    (hjsonA : annotationA.Json) (hjsonB : annotationB.Json) (hjson : decision.Json)
    (h : Protocol.validateAdjudicationBinding digest packet annotationA annotationB decision = .ok ()) :
    (∀ u ∈ decisionUnits decision,
      (∃ a ∈ decisionUnits annotationA, u.same a = true) ∧ (∃ b ∈ decisionUnits annotationB, u.same b = true) ∧
      ∀ a ∈ decisionUnits annotationA, ∀ b ∈ decisionUnits annotationB, u.same a = true → u.same b = true →
        Differ a b ∨ novel annotationA annotationB u = true → Justified u.holder) ∧
    ∀ count, countNovelPrimaryDecisions annotationA annotationB decision = .ok count →
      count = (decisionUnits decision).countP (novel annotationA annotationB) ∧
      (count = 0 →
        (∀ a ∈ decisionUnits annotationA, ∀ b ∈ decisionUnits annotationB, a.same b = true → a.label = b.label) →
        ∀ u ∈ decisionUnits decision, ∀ a ∈ decisionUnits annotationA, ∀ b ∈ decisionUnits annotationB,
          u.same a = true → u.same b = true → u.label = a.label ∧ u.label = b.label) := by
  have hadjudicated := Protocol.adjudicated_of_validateAdjudicationBinding h
  refine ⟨fun u hu => ⟨?_, ?_, fun a ha b hb hsameA hsameB hcontested => ?_⟩, fun count hcount => ?_⟩
  · exact (units_matched hadjudicated.final hadjudicated.first).exists_right hu
  · exact (units_matched hadjudicated.final hadjudicated.second).exists_right hu
  · exact justified_of_contested hadjudicated hjsonA hjsonB hjson hu ha hb hsameA hsameB hcontested
  · obtain ⟨hdistinct, hnovel⟩ := (countNovelPrimaryDecisions_iff hadjudicated.first hadjudicated.second
      hadjudicated.final hjsonA hjsonB hjson).1 hcount
    refine ⟨hnovel, fun hzero hagree u hu a ha b hb hsameA hsameB => ?_⟩
    have hlabels : a.label = b.label := hagree a ha b hb (DecisionUnit.same_trans (DecisionUnit.same_symm hsameA) hsameB)
    have hnot := List.countP_eq_zero.1 (hnovel.symm.trans hzero) u hu
    rw [novel, Bool.and_eq_true,
      differsFrom_iff hadjudicated.first ((distinctTexts_iff hadjudicated.first).2 hdistinct) ha hsameA,
      differsFrom_iff hadjudicated.second ((distinctTexts_iff hadjudicated.second).2 hdistinct) hb hsameB, hlabels,
      and_self_iff, not_ne_iff] at hnot
    exact ⟨hnot.trans hlabels.symm, hnot⟩

/-! A package of one word to which the annotators gave two parts of speech. -/

def samplePacket : Value := Protocol.oneWordPacket Protocol.fullAgreement []

def sampleRoot : Str := str "605e90572f0473bd8110b89ce5ccbd373cd442436687de5dc50bddbe7c8310a7"

def sampleRootA : Str := str "751e057906f4c16e0ffb1b3d9303ede569f5251141cbe6214d4d9f05af8e66a1"

def sampleRootB : Str := str "7291c244fb961c9c1f84e1a570022bd7d370c790e9abdd10b42a60835330beec"

/-- SHA-256 of the packet and of its two annotations, which it tells apart by their lengths. -/
def sampleDigest (bytes : List UInt8) : Str :=
  if bytes.length = 232 then sampleRoot else if bytes.length = 236 then sampleRootA else sampleRootB

def sampleWord (universalPartOfSpeech : String) (fields : List (Str × Value)) : Value :=
  .object ([(str "tokenId", .number (Number.ofNat 1)),
    (str "universalPartOfSpeech", .string (str universalPartOfSpeech))] ++ fields)

def sampleSentence (word : Value) : Value :=
  .object [(str "sentenceId", .string (str "s1")), (str "structurallyAcceptable", .bool true),
    (str "tokens", .array [word])]

/-- A document of the packet with one word in it. -/
def sampleDocument (fields : List (Str × Value)) (word : Value) : Value :=
  .object ([(str "taskVersion", .number (Number.ofNat 1)), (str "packetMerkleRoot", .string sampleRoot),
    (str "sentences", .array [sampleSentence word])] ++ Protocol.identityKeys.map (fun key => (str key, .string (str "x"))) ++ fields)

def sampleSubmission (slot universalPartOfSpeech : String) : Value :=
  sampleDocument [(str "schema", .string Protocol.annotationSchema), (str "annotatorSlot", .string (str slot))]
    (sampleWord universalPartOfSpeech [])

def resolvedWord : Value := sampleWord "NOUN" [(str "resolutionNote", .string (str "a name"))]

def sampleDecision : Value :=
  sampleDocument [(str "schema", .string Protocol.adjudicationSchema), (str "adjudicatorSlot", .string (str "J1")),
    (str "annotationASlot", .string (str "A")), (str "annotationBSlot", .string (str "B")),
    (str "annotationAMerkleRoot", .string sampleRootA), (str "annotationBMerkleRoot", .string sampleRootB)] resolvedWord

theorem sample_accepted : Protocol.validateAdjudicationBinding sampleDigest samplePacket (sampleSubmission "A" "NOUN")
    (sampleSubmission "B" "ADJ") sampleDecision = .ok () := by
  decide +kernel

/-- The part of speech of the word. -/
def sampleUnit (word : Value) : DecisionUnit := ⟨sampleSentence word, some word, "universalPartOfSpeech"⟩

theorem mem_sampleUnit {document word : Value} (hsentences : sentencesOf document = [sampleSentence word]) :
    sampleUnit word ∈ decisionUnits document := by
  refine mem_decisionUnits.2 ⟨?_, .inr ⟨word, ?_, rfl, List.mem_cons_self⟩⟩
  · rw [hsentences]
    exact List.mem_cons_self
  · exact List.mem_cons_self

theorem contested_decisions_justified_sample : Justified resolvedWord := by
  have h := (contested_decisions_justified sampleDigest samplePacket (sampleSubmission "A" "NOUN")
    (sampleSubmission "B" "ADJ") sampleDecision ⟨by decide +kernel, by decide +kernel⟩
    ⟨by decide +kernel, by decide +kernel⟩ ⟨by decide +kernel, by decide +kernel⟩ sample_accepted).1
    (sampleUnit resolvedWord) (mem_sampleUnit rfl)
  exact h.2.2 (sampleUnit (sampleWord "NOUN" [])) (mem_sampleUnit rfl) (sampleUnit (sampleWord "ADJ" []))
    (mem_sampleUnit rfl) (by decide +kernel) (by decide +kernel) (.inl (.inl (by decide +kernel)))

end Consensus
end Adg
