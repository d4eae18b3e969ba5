import AdgLang.AnnotationCoverage
import AdgLang.Fallible
import AdgLang.IssueReports
/-!
# AdjudicationBinding — what the server checks of an artifact

`validateSubmissionBinding`, `validateAdjudicationBinding` and `validateRatificationBinding` of `protocol.js`, and
`validateArtifactForServer` over them.  A digest is the hexadecimal SHA-256 of some bytes.  Of an accepted package the
annotations and the decision cover the packet (`Bound`), and every decision on which it was not clear what to decide has
a note that says why (`Justified`).
-/
namespace Adg
namespace Protocol

open Js
open Issues (trim)

/-- `===`; two arrays or objects of a document are never one. -/
def strictEquals (v w : Value) : Bool :=
  match v with
  | .number .nan => false
  | _ => sameValueZero v w

/-- `if (refused) throw new Error(message)`. -/
def refuseIf (refused : Bool) (message : Str) : Except Str Unit := if refused then .error message else .ok ()

/-! ## Roots -/

def annotationSchema : Str := str "adg-msa-annotation-submission-v3"

def adjudicationSchema : Str := str "adg-msa-adjudication-decision-v3"

def ratificationSchema : Str := str "adg-msa-ratification-decision-v1"

def sentenceFields : List String := ["structurallyAcceptable", "completePredicate"]

def tokenFields : List String :=
  ["universalPartOfSpeech", "headTokenId", "dependencyRelation", "irabHeadTokenId", "irabCategory",
    "irabNotApplicable"]

/-- The values of a list of fields. -/
def fieldValues (unit : Value) (fields : List String) : List Value := fields.map (fun field => unit.property field)

/-- The values that `addAnnotations` adds of covered sentences. -/
def annotationValues (sentences : List Value) (noteName : String) : List Value :=
  count sentences :: sentences.flatMap (fun sentence =>
    sentence.property "sentenceId" :: fieldValues sentence sentenceFields ++
      sentence.property noteName :: count (tokensOf sentence) :: (tokensOf sentence).flatMap (fun token =>
        token.property "tokenId" :: fieldValues token tokenFields ++ [token.property noteName]))

/-- A root that a document carries, compared with one that is computed. -/
def carriesRoot (document : Value) (key : String) (root : Except Str Str) (message : Str) : Except Str Unit := do
  refuseIf (!isText (document.property key) (← root)) message

section Binding

variable (digest : List UInt8 → Str)

/-- The digest of a `CanonicalHashBuilder` to which these values are added. -/
def rootOf (values : List Value) : Except Str Str := do
  let parts ← values.mapM part
  return digest (encodeUtf8 parts.flatten)

def computePacketMerkleRoot (packet : Value) : Except Str Str := do
  return digest (← packetPreimage packet)

def computeAnnotationMerkleRoot (packet submission : Value) : Except Str Str := do
  carriesRoot submission "packetMerkleRoot" (computePacketMerkleRoot digest packet)
    (str "التعليق لا يحمل جذر الحزمة الصحيح.")
  rootOf digest ([.string (str "adg-msa-annotation-submission-root-v3"), .string annotationSchema] ++
    fieldValues submission ["packetMerkleRoot", "taskId", "taskVersion", "packetId", "holdoutId", "protocolId",
      "guidelineVersion", "dataVersion", "protocolVersion", "annotatorSlot", "annotatorPseudonym", "isHuman",
      "isSynthetic", "independentFromImplementationTeam", "blindToParserInternals", "parserPredictionsViewed"] ++
    annotationValues (sentencesOf submission) "note")

/-! ## Submissions -/

def boundKeys : List String :=
  ["packetId", "holdoutId", "protocolId", "taskId", "taskVersion", "guidelineVersion", "dataVersion", "protocolVersion"]

/-- The fields in which a document names the packet it is about. -/
def namesPacket (packet document : Value) (keys : List String) : Bool :=
  keys.all (fun key => strictEquals (document.property key) (packet.property key))

def validateSubmissionBinding (packet submission : Value) : Except Str Unit := do
  validatePacket packet
  refuseIf (!submission.truthy || !isText (submission.property "schema") annotationSchema ||
      !namesPacket packet submission boundKeys ||
      !(["A", "B"].any fun slot => isText (submission.property "annotatorSlot") (str slot)))
    (str "أحد التعليقين غير مرتبط بالحزمة.")
  carriesRoot submission "packetMerkleRoot" (computePacketMerkleRoot digest packet)
    (str "تغيّرت الحزمة بعد إعداد التعليق؛ أعد التعليق على النسخة الحالية.")
  validateAnnotationCoverage packet submission

/-! ## Decisions -/

def decisionNeedsResolution (annotationA annotationB finalDecision : Value) : Bool :=
  !strictEquals annotationA annotationB ||
    (strictEquals annotationA annotationB && !strictEquals finalDecision annotationA)

/-- The text of the six fields of a token. -/
def tokenDecisionKey (token : Value) : Except Str Str :=
  if (Value.array (fieldValues token tokenFields)).all (fun v => !v.isBigInt) then
    .ok (Value.array (fieldValues token tokenFields)).text
  else .error typeError

/-- `String(unit.resolutionNote || "").trim()`. -/
def resolutionNote (unit : Value) : Except Str Str := do
  let note := unit.property "resolutionNote"
  return trim (← if note.truthy then textOf note else .ok [])

/-- What needs a resolution must have a note. -/
def documented (needed : Bool) (unit : Value) (message : Str) : Except Str Unit :=
  if needed then do refuseIf (decide ((← resolutionNote unit) = [])) message else .ok ()

/-- `new Map(items.map(item => [item[key], item])).get(id)`: the last item of an identifier. -/
def lastWith (key : String) (items : List Value) (id : Value) : Option Value :=
  items.reverse.find? (fun item => sameValueZero (item.property key) id)

/-- The body of the loop over the tokens of a decision; the identifiers in the messages have texts. -/
def resolveToken (sentence : Value) (aTokens bTokens : List Value) (token : Value) : Except Str Unit :=
  match lastWith "tokenId" aTokens (token.property "tokenId"), lastWith "tokenId" bTokens (token.property "tokenId") with
  | some tokenA, some tokenB => do
    let keyA ← tokenDecisionKey tokenA
    let keyB ← tokenDecisionKey tokenB
    let key ← tokenDecisionKey token
    documented (decisionNeedsResolution (.string keyA) (.string keyB) (.string key)) token
      (withText "قرار الوحدة " (token.property "tokenId") " في الجملة " ++
        withText "" (sentence.property "sentenceId") " يحتاج سبب حسم موثقًا.")
  | _, _ => .error (withText "قرار الوحدة " (token.property "tokenId") " غير مرتبط بالتعليقين.")

/-- The body of the loop over the sentences of a decision. -/
def resolveSentence (aSentences bSentences : List Value) (sentence : Value) : Except Str Unit :=
  match lastWith "sentenceId" aSentences (sentence.property "sentenceId"),
      lastWith "sentenceId" bSentences (sentence.property "sentenceId") with
  | some aSentence, some bSentence => do
    documented (sentenceFields.any (fun field =>
        decisionNeedsResolution (aSentence.property field) (bSentence.property field) (sentence.property field)))
      sentence (withText "قرار الجملة " (sentence.property "sentenceId") " يحتاج سبب حسم موثقًا.")
    (tokensOf sentence).forM (resolveToken sentence (tokensOf aSentence) (tokensOf bSentence))
  | _, _ => .error (str "قرار التحكيم لا يغطي جمل التعليقين نفسيهما.")

/-- `validateAdjudicationResolutions`, of covered annotations. -/
def validateAdjudicationResolutions (annotationA annotationB decision : Value) : Except Str Unit :=
  (sentencesOf decision).forM (resolveSentence (sentencesOf annotationA) (sentencesOf annotationB))

def notBound : Str := str "قرار التحكيم غير مرتبط بالحزمة والتعليقين نفسيهما."

def validateAdjudicationBinding (packet annotationA annotationB decision : Value) : Except Str Unit := do
  validateSubmissionBinding digest packet annotationA
  validateSubmissionBinding digest packet annotationB
  refuseIf (!decision.truthy || !isText (decision.property "schema") adjudicationSchema ||
    !namesPacket packet decision boundKeys || !isText (decision.property "adjudicatorSlot") (str "J1")) notBound
  carriesRoot decision "packetMerkleRoot" (computePacketMerkleRoot digest packet) notBound
  carriesRoot decision "annotationAMerkleRoot" (computeAnnotationMerkleRoot digest packet annotationA) notBound
  carriesRoot decision "annotationBMerkleRoot" (computeAnnotationMerkleRoot digest packet annotationB) notBound
  refuseIf (strictEquals (annotationA.property "annotatorSlot") (annotationB.property "annotatorSlot") ||
      !strictEquals (decision.property "annotationASlot") (annotationA.property "annotatorSlot") ||
      !strictEquals (decision.property "annotationBSlot") (annotationB.property "annotatorSlot"))
    (str "أدوار التعليق والتحكيم غير مستقلة أو غير متطابقة.")
  validateAnnotationCoverage packet decision
  validateAdjudicationResolutions annotationA annotationB decision

def computeAdjudicationMerkleRoot (packet annotationA annotationB decision : Value) : Except Str Str := do
  validateAdjudicationBinding digest packet annotationA annotationB decision
  rootOf digest ([.string (str "adg-msa-adjudication-decision-root-v3"), .string adjudicationSchema] ++
    fieldValues decision ["packetMerkleRoot", "annotationAMerkleRoot", "annotationBMerkleRoot", "taskId", "taskVersion",
      "packetId", "holdoutId", "protocolId", "guidelineVersion", "dataVersion", "protocolVersion", "annotationASlot",
      "annotationBSlot", "adjudicatorSlot", "adjudicatorPseudonym", "adjudicatorIsHuman", "adjudicatorIsSynthetic",
      "independentFromImplementationTeam", "blindToParserInternals", "parserPredictionsViewed"] ++
    annotationValues (sentencesOf decision) "resolutionNote")

/-! ## Ratifications -/

def ratifiedKeys : List String := ["taskId", "taskVersion", "packetId", "holdoutId", "protocolVersion"]

/-- `typeof rationale === "string"` and the bounds of its length. -/
def rationaleValid : Value → Bool
  | .string rationale => decide (20 ≤ (trim rationale).length) && decide (rationale.length ≤ 4000)
  | _ => false

def notRatifying : Str := str "قرار المراجعة الثانية غير مرتبط بالحزمة النهائية."

def validateRatificationBinding (primaryArtifact ratification : Value) : Except Str Unit := do
  refuseIf (!primaryArtifact.truthy || !isText (primaryArtifact.property "kind") (str "adjudication-package"))
    (str "حزمة التحكيم الأولية غير صالحة.")
  let packet := primaryArtifact.property "packet"
  let annotationA := primaryArtifact.property "annotationA"
  let annotationB := primaryArtifact.property "annotationB"
  let adjudication := primaryArtifact.property "adjudication"
  validateAdjudicationBinding digest packet annotationA annotationB adjudication
  let primaryRoot ← computeAdjudicationMerkleRoot digest packet annotationA annotationB adjudication
  refuseIf (!ratification.truthy || !isText (ratification.property "schema") ratificationSchema ||
    !namesPacket packet ratification ratifiedKeys) notRatifying
  carriesRoot ratification "packetMerkleRoot" (computePacketMerkleRoot digest packet) notRatifying
  refuseIf (!isText (ratification.property "primaryAdjudicationMerkleRoot") primaryRoot ||
    !isText (ratification.property "reviewerSlot") (str "J2") ||
    !(["agree", "disagree", "recuse"].any fun decision => isText (ratification.property "decision") (str decision)) ||
    !rationaleValid (ratification.property "rationale")) notRatifying

/-- `validateArtifactForServer`; the error is the message of the refusal. -/
def validateArtifactForServer (artifact : Value) : Except Str Unit :=
  let checked := do
    validatePublicArtifactText artifact
    if isText (artifact.property "kind") (str "independent-annotation") then
      validateSubmissionBinding digest (artifact.property "packet") (artifact.property "annotation")
    else if isText (artifact.property "kind") (str "adjudication-package") then
      validateAdjudicationBinding digest (artifact.property "packet") (artifact.property "annotationA")
        (artifact.property "annotationB") (artifact.property "adjudication")
    else validateRatificationBinding digest (artifact.property "primaryArtifact") (artifact.property "ratification")
  checked.mapError (str "فشل التحقق البنيوي من نتيجة التحكيم: " ++ ·)

/-! ## What is accepted -/

/-- An annotation of a packet, bound to it. -/
structure Bound (packet submission : Value) : Prop where
  valid : validatePacket packet = .ok ()
  covers : Covers packet submission

variable {digest}

theorem bound_of_validateSubmissionBinding {packet submission : Value}
    (h : validateSubmissionBinding digest packet submission = .ok ()) : Bound packet submission := by
  obtain ⟨⟨⟩, hpacket, h⟩ := bind_eq_ok.1 h
  obtain ⟨⟨⟩, -, h⟩ := bind_eq_ok.1 h
  obtain ⟨⟨⟩, -, h⟩ := bind_eq_ok.1 h
  exact ⟨hpacket, (coverage_iff hpacket).1 h⟩

/-- Of an accepted package: the annotations and the decision are of the packet, and the decision is resolved. -/
structure Adjudicated (packet annotationA annotationB decision : Value) : Prop where
  first : Bound packet annotationA
  second : Bound packet annotationB
  final : Bound packet decision
  resolved : validateAdjudicationResolutions annotationA annotationB decision = .ok ()

theorem adjudicated_of_validateAdjudicationBinding {packet annotationA annotationB decision : Value}
    (h : validateAdjudicationBinding digest packet annotationA annotationB decision = .ok ()) :
    Adjudicated packet annotationA annotationB decision := by
  obtain ⟨⟨⟩, hA, h⟩ := bind_eq_ok.1 h
  obtain ⟨⟨⟩, hB, h⟩ := bind_eq_ok.1 h
  obtain ⟨⟨⟩, -, h⟩ := bind_eq_ok.1 h
  obtain ⟨⟨⟩, -, h⟩ := bind_eq_ok.1 h
  obtain ⟨⟨⟩, -, h⟩ := bind_eq_ok.1 h
  obtain ⟨⟨⟩, -, h⟩ := bind_eq_ok.1 h
  obtain ⟨⟨⟩, -, h⟩ := bind_eq_ok.1 h
  obtain ⟨⟨⟩, hcovered, h⟩ := bind_eq_ok.1 h
  have hboundA := bound_of_validateSubmissionBinding hA
  exact ⟨hboundA, bound_of_validateSubmissionBinding hB, ⟨hboundA.valid, (coverage_iff hboundA.valid).1 hcovered⟩, h⟩

end Binding

/-! ## Units of bound annotations -/

/-- Items none of which has the identifier of another. -/
def ApartBy (key : String) (items : List Value) : Prop :=
  items.Pairwise (fun item other => sameValueZero (item.property key) (other.property key) = false)

/-- Of items that are apart the last of an identifier is the only one. -/
theorem lastWith_eq {key : String} {items : List Value} (hapart : ApartBy key items) {id item : Value}
    (hitem : item ∈ items) (hsame : sameValueZero (item.property key) id = true) : lastWith key items id = some item := by
  have hexists : (lastWith key items id).isSome = true := List.find?_isSome.2 ⟨item, List.mem_reverse.2 hitem, hsame⟩
  obtain ⟨found, hfound⟩ := Option.isSome_iff_exists.1 hexists
  have hmem := List.mem_reverse.1 (List.mem_of_find?_eq_some hfound)
  have hfind : sameValueZero (found.property key) id = true := by simpa using List.find?_some hfound
  by_cases hne : found = item
  · rw [hfound, hne]
  · have hsymm : Std.Symm (fun item other : Value => sameValueZero (item.property key) (other.property key) = false) :=
      ⟨fun _ _ h => Bool.not_eq_true _ ▸ fun hsame => (Bool.not_eq_true _ ▸ h) (sameValueZero_symm hsame)⟩
    have hdiffer := hapart.forall hmem hitem hne
    rw [sameValueZero_trans hfind (sameValueZero_symm hsame)] at hdiffer
    cases hdiffer

/-- Two sentences with one identifier, whose tokens are paired off by their numbers. -/
structure Parallel (sentence other : Value) : Prop where
  same : sameValueZero (sentence.property "sentenceId") (other.property "sentenceId") = true
  tokens : Matched (fun token token' => sameValueZero (token.property "tokenId") (token'.property "tokenId") = true)
    (tokensOf sentence) (tokensOf other)

variable {packet annotationA annotationB submission : Value}

theorem Bound.matched (h : Bound packet submission) :
    Matched CoversSentence (sentencesOf packet) (sentencesOf submission) := by
  obtain ⟨sentences, hsentences, hmatched⟩ := h.covers
  have hof : sentencesOf submission = sentences := by rw [sentencesOf, hsentences, itemsOf]
  rwa [hof]

theorem CoversSentence.matched {source annotated : Value} (h : CoversSentence source annotated) :
    Matched SameToken (tokensOf source) (tokensOf annotated) := by
  obtain ⟨tokens, htokens, hmatched⟩ := h.tokens
  have hof : tokensOf annotated = tokens := by rw [tokensOf, htokens, itemsOf]
  rwa [hof]

theorem Bound.parallel (hA : Bound packet annotationA) (hB : Bound packet annotationB) :
    Matched Parallel (sentencesOf annotationA) (sentencesOf annotationB) := by
  refine (hA.matched.flip.comp hB.matched).mono (fun sentence _ other _ hboth => ?_)
  obtain ⟨source, hsentence, hother⟩ := hboth
  refine ⟨sameValueZero_trans (sameValueZero_symm hsentence.same) hother.same, ?_⟩
  refine (hsentence.matched.flip.comp hother.matched).mono (fun token _ token' _ htokens => ?_)
  obtain ⟨sourceToken, htoken, htoken'⟩ := htokens
  exact sameValueZero_trans (sameValueZero_symm htoken) htoken'

/-- The sentences have identifiers of their own. -/
theorem Bound.apart (h : Bound packet submission) : ApartBy "sentenceId" (sentencesOf submission) := by
  have hapart := (checked_of_validatePacket h.valid).2
  refine h.matched.pairwise hapart (fun source annotated source' annotated' hs hs' hdiffer => ?_) sameValueZero_comm_false
  rw [← Bool.not_eq_true] at hdiffer ⊢
  exact fun hsame => hdiffer (sameValueZero_trans (sameValueZero_trans hs'.same (sameValueZero_symm hsame))
    (sameValueZero_symm hs.same))

theorem Bound.truthy_id (h : Bound packet submission) {sentence : Value} (hsentence : sentence ∈ sentencesOf submission) :
    (sentence.property "sentenceId").truthy = true := by
  obtain ⟨source, hsource, hcovers⟩ := h.matched.exists_left hsentence
  exact truthy_of_sameValueZero hcovers.same ((checked_of_validatePacket h.valid).1 source hsource).id

/-- The tokens of a sentence are numbered, in some order. -/
theorem Bound.tokenIds (h : Bound packet submission) {sentence : Value} (hsentence : sentence ∈ sentencesOf submission) :
    ((tokensOf sentence).map (fun token => token.property "tokenId")).Perm
      ((List.range (tokensOf sentence).length).map tokenNumber) := by
  obtain ⟨source, hsource, hcovers⟩ := h.matched.exists_left hsentence
  have hchecked := (checked_of_validatePacket h.valid).1 source hsource
  have hperm := (matched_tokens_iff hchecked).1 hcovers.matched
  rwa [hchecked.ids, hcovers.matched.length_eq] at hperm

theorem Bound.tokenNumber_of_mem (h : Bound packet submission) {sentence token : Value}
    (hsentence : sentence ∈ sentencesOf submission) (htoken : token ∈ tokensOf sentence) :
    ∃ i, token.property "tokenId" = tokenNumber i := by
  obtain ⟨i, -, hi⟩ := List.mem_map.1 ((h.tokenIds hsentence).subset (List.mem_map_of_mem htoken))
  exact ⟨i, hi.symm⟩

theorem Bound.apartTokens (h : Bound packet submission) {sentence : Value} (hsentence : sentence ∈ sentencesOf submission) :
    ApartBy "tokenId" (tokensOf sentence) := by
  have hnodup : ((tokensOf sentence).map (fun token => token.property "tokenId")).Nodup :=
    (h.tokenIds hsentence).nodup_iff.2 (List.nodup_range.map (fun _ _ => tokenNumber_injective))
  have hnumber : ∀ id ∈ (tokensOf sentence).map (fun token => token.property "tokenId"), ∃ i, id = tokenNumber i :=
    fun id hid => by
      obtain ⟨token, htoken, rfl⟩ := List.mem_map.1 hid
      exact h.tokenNumber_of_mem hsentence htoken
  refine (List.pairwise_map.1 (apart_tokenNumbers hnumber hnodup)).imp (fun hdiffer => ?_)
  rw [← Bool.not_eq_true] at hdiffer ⊢
  exact fun hsame => hdiffer (sameValueZero_symm hsame)

end Protocol
end Adg
