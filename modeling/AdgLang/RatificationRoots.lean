import AdgLang.AcceptedEvidence
/-!
# RatificationRoots — what is ratified is what was decided, and what was decided is what was annotated

J1's package carries the roots of the stored annotations, J2's document the root of the stored package.  The roots are
digests of what the documents say field by field: where the digest separates the byte strings of these documents, the
package that J2 ratifies says what J1 stored, and its two annotations say what A and B stored (`ratified_as_decided`).
-/
namespace Adg
namespace Protocol

open Js

/-! ## Strings that are digested -/

/-- What a `CanonicalHashBuilder` digests of these values. -/
def hashedBytes (values : List Value) : List UInt8 := (values.map hashed).flatMap word

theorem hashedBytes_injective {values values' : List Value} (h : hashedBytes values = hashedBytes values') :
    values.map hashed = values'.map hashed :=
  word_prefixFree.flatMap_injective h

def annotationKeys : List String :=
  ["packetMerkleRoot", "taskId", "taskVersion", "packetId", "holdoutId", "protocolId", "guidelineVersion",
    "dataVersion", "protocolVersion", "annotatorSlot", "annotatorPseudonym", "isHuman", "isSynthetic",
    "independentFromImplementationTeam", "blindToParserInternals", "parserPredictionsViewed"]

def adjudicationKeys : List String :=
  ["packetMerkleRoot", "annotationAMerkleRoot", "annotationBMerkleRoot", "taskId", "taskVersion", "packetId",
    "holdoutId", "protocolId", "guidelineVersion", "dataVersion", "protocolVersion", "annotationASlot",
    "annotationBSlot", "adjudicatorSlot", "adjudicatorPseudonym", "adjudicatorIsHuman", "adjudicatorIsSynthetic",
    "independentFromImplementationTeam", "blindToParserInternals", "parserPredictionsViewed"]

/-- The string of a document: two texts that name its kind, these fields of it, and its sentences. -/
def documentBytes (name schema : Str) (keys : List String) (noteName : String) (document : Value) : List UInt8 :=
  hashedBytes ([.string name, .string schema] ++ fieldValues document keys ++
    annotationValues (sentencesOf document) noteName)

/-- The string of `computeAnnotationMerkleRoot`. -/
def annotationBytes (submission : Value) : List UInt8 :=
  documentBytes (str "adg-msa-annotation-submission-root-v3") annotationSchema annotationKeys "note" submission

/-- The string of `computeAdjudicationMerkleRoot`. -/
def adjudicationBytes (decision : Value) : List UInt8 :=
  documentBytes (str "adg-msa-adjudication-decision-root-v3") adjudicationSchema adjudicationKeys "resolutionNote"
    decision

/-! ## One string, one text in each field -/

/-- Two units have one text in each of these fields. -/
def SameFields (keys : List String) (v w : Value) : Prop := ∀ key ∈ keys, SameText (v.property key) (w.property key)

theorem sameFields_of_hashed {keys : List String} {v w : Value}
    (h : (fieldValues v keys).map hashed = (fieldValues w keys).map hashed) : SameFields keys v w := by
  rw [fieldValues, fieldValues, List.map_map, List.map_map] at h
  exact List.map_inj_left.1 h

theorem length_fieldValues (v : Value) (keys : List String) : (fieldValues v keys).length = keys.length :=
  List.length_map ..

/-- Units of which the same fields are added. -/
theorem units_split {keys : List String} : ∀ {units units' : List Value} {x y : List (Option (List UInt8))},
    units.length = units'.length →
    (units.flatMap (fieldValues · keys)).map hashed ++ x = (units'.flatMap (fieldValues · keys)).map hashed ++ y →
    List.Forall₂ (SameFields keys) units units' ∧ x = y
  | [], [], _, _, _, h => ⟨.nil, h⟩
  | unit :: units, unit' :: units', x, y, hlength, h => by
    rw [List.flatMap_cons, List.flatMap_cons, List.map_append, List.map_append, List.append_assoc,
      List.append_assoc] at h
    obtain ⟨hunit, h⟩ := List.append_inj h (by simp [length_fieldValues])
    obtain ⟨hrest, hxy⟩ := units_split (by simpa using hlength) h
    exact ⟨.cons (sameFields_of_hashed hunit) hrest, hxy⟩

/-- The fields that are added of a sentence and of a token. -/
def annotatedSentenceKeys (noteName : String) : List String := "sentenceId" :: sentenceFields ++ [noteName]

def annotatedTokenKeys (noteName : String) : List String := "tokenId" :: tokenFields ++ [noteName]

/-- Two sentences of annotations with one text in each field, and so are their tokens. -/
structure SameAnnotated (noteName : String) (s s' : Value) : Prop where
  fields : SameFields (annotatedSentenceKeys noteName) s s'
  tokens : List.Forall₂ (SameFields (annotatedTokenKeys noteName)) (tokensOf s) (tokensOf s')

/-- What is added of a sentence. -/
def annotatedValues (noteName : String) (s : Value) : List Value :=
  fieldValues s (annotatedSentenceKeys noteName) ++
    count (tokensOf s) :: (tokensOf s).flatMap (fieldValues · (annotatedTokenKeys noteName))

theorem annotationValues_eq (sentences : List Value) (noteName : String) :
    annotationValues sentences noteName = count sentences :: sentences.flatMap (annotatedValues noteName) := by
  rw [annotationValues]
  refine congrArg _ (congrArg (List.flatMap · sentences) ?_)
  funext s
  simp [annotatedValues, annotatedSentenceKeys, annotatedTokenKeys, fieldValues]

theorem annotated_split {noteName : String} :
    ∀ {sentences sentences' : List Value} {x y : List (Option (List UInt8))},
    sentences.length = sentences'.length →
    (sentences.flatMap (annotatedValues noteName)).map hashed ++ x =
      (sentences'.flatMap (annotatedValues noteName)).map hashed ++ y →
    List.Forall₂ (SameAnnotated noteName) sentences sentences' ∧ x = y
  | [], [], _, _, _, h => ⟨.nil, h⟩
  | s :: sentences, s' :: sentences', x, y, hlength, h => by
    simp only [List.flatMap_cons, annotatedValues, List.map_append, List.map_cons, List.append_assoc,
      List.cons_append] at h
    obtain ⟨hfields, h⟩ := List.append_inj h (by simp [length_fieldValues])
    obtain ⟨hcount, h⟩ := List.cons.inj h
    obtain ⟨htokens, h⟩ := units_split (length_of_sameText hcount) h
    obtain ⟨hrest, hxy⟩ := annotated_split (by simpa using hlength) h
    exact ⟨.cons ⟨sameFields_of_hashed hfields, htokens⟩ hrest, hxy⟩

/-- Two documents with one text in each of these fields and in each field of their sentences and tokens. -/
structure SameDocument (keys : List String) (noteName : String) (v w : Value) : Prop where
  fields : SameFields keys v w
  sentences : List.Forall₂ (SameAnnotated noteName) (sentencesOf v) (sentencesOf w)

theorem sameDocument_of_bytes {name schema : Str} {keys : List String} {noteName : String} {v w : Value}
    (h : documentBytes name schema keys noteName v = documentBytes name schema keys noteName w) :
    SameDocument keys noteName v w := by
  have hvalues := hashedBytes_injective h
  rw [annotationValues_eq, annotationValues_eq] at hvalues
  simp only [List.map_append, List.map_cons, List.append_assoc] at hvalues
  have hrest := List.append_cancel_left hvalues
  obtain ⟨hfields, hrest⟩ := List.append_inj hrest (by simp [length_fieldValues])
  obtain ⟨hcount, hrest⟩ := List.cons.inj hrest
  exact ⟨sameFields_of_hashed hfields,
    (annotated_split (x := []) (y := []) (length_of_sameText hcount) (by simpa using hrest)).1⟩

/-! ## Roots that are accepted -/

section Roots

variable {digest : List UInt8 → Str}

theorem eq_string_of_isText {v : Value} {s : Str} (h : isText v s = true) : v = .string s := by
  cases v with
  | string t => rw [of_decide_eq_true h]
  | undefined | null | bool _ | number _ | bigint _ | bytes _ | array _ | object _ => cases h

theorem rootOf_ok {values : List Value} {root : Str} (h : rootOf digest values = .ok root) :
    root = digest (hashedBytes values) := by
  obtain ⟨parts, hparts, h⟩ := bind_eq_ok.1 h
  rw [hashedBytes, ← (encodeUtf8_parts hparts).1]
  exact (Except.ok.inj h).symm

theorem refuseIf_ok {refused : Bool} {message : Str} (h : refuseIf refused message = .ok ()) : refused = false := by
  cases refused with
  | false => rfl
  | true => cases h

theorem carriesRoot_ok {document : Value} {key : String} {root : Except Str Str} {message : Str}
    (h : carriesRoot document key root message = .ok ()) : ∃ r, root = .ok r ∧ document.property key = .string r := by
  obtain ⟨r, hr, h⟩ := bind_eq_ok.1 h
  exact ⟨r, hr, eq_string_of_isText (by simpa using refuseIf_ok h)⟩

/-- The document carries the root of a packet that is accepted. -/
def CarriesPacket (digest : List UInt8 → Str) (packet document : Value) : Prop :=
  ∃ bytes, packetPreimage packet = .ok bytes ∧ document.property "packetMerkleRoot" = .string (digest bytes)

theorem carriesPacket_ok {packet document : Value} {message : Str}
    (h : carriesRoot document "packetMerkleRoot" (computePacketMerkleRoot digest packet) message = .ok ()) :
    CarriesPacket digest packet document := by
  obtain ⟨root, hroot, hcarries⟩ := carriesRoot_ok h
  obtain ⟨bytes, hbytes, hroot⟩ := bind_eq_ok.1 hroot
  exact ⟨bytes, hbytes, by rw [hcarries, ← Except.ok.inj hroot]⟩

theorem annotationRoot_ok {packet submission : Value} {root : Str}
    (h : computeAnnotationMerkleRoot digest packet submission = .ok root) :
    CarriesPacket digest packet submission ∧ root = digest (annotationBytes submission) := by
  obtain ⟨⟨⟩, hpacket, h⟩ := bind_eq_ok.1 h
  exact ⟨carriesPacket_ok hpacket, rootOf_ok h⟩

/-- The roots that the decision of an accepted package carries. -/
structure Rooted (digest : List UInt8 → Str) (packet annotationA annotationB decision : Value) : Prop where
  decided : CarriesPacket digest packet decision
  first : CarriesPacket digest packet annotationA
  second : CarriesPacket digest packet annotationB
  rootA : decision.property "annotationAMerkleRoot" = .string (digest (annotationBytes annotationA))
  rootB : decision.property "annotationBMerkleRoot" = .string (digest (annotationBytes annotationB))
  slots : ¬ SameText (annotationA.property "annotatorSlot") (annotationB.property "annotatorSlot")

theorem slot_of_validateSubmissionBinding {packet submission : Value}
    (h : validateSubmissionBinding digest packet submission = .ok ()) :
    ∃ slot, submission.property "annotatorSlot" = .string slot ∧ isWellFormed slot = true := by
  obtain ⟨⟨⟩, -, h⟩ := bind_eq_ok.1 h
  obtain ⟨⟨⟩, hbound, -⟩ := bind_eq_ok.1 h
  have hslot := (Bool.or_eq_false_iff.1 (refuseIf_ok hbound)).2
  rw [Bool.not_eq_false', List.any_eq_true] at hslot
  obtain ⟨slot, hslot, htext⟩ := hslot
  refine ⟨str slot, eq_string_of_isText htext, ?_⟩
  have hall : ∀ slot ∈ ["A", "B"], isWellFormed (str slot) = true := by decide
  exact hall slot hslot

theorem rooted_of_validateAdjudicationBinding {packet annotationA annotationB decision : Value}
    (h : validateAdjudicationBinding digest packet annotationA annotationB decision = .ok ()) :
    Rooted digest packet annotationA annotationB decision := by
  obtain ⟨⟨⟩, hboundA, h⟩ := bind_eq_ok.1 h
  obtain ⟨⟨⟩, hboundB, h⟩ := bind_eq_ok.1 h
  obtain ⟨⟨⟩, -, h⟩ := bind_eq_ok.1 h
  obtain ⟨⟨⟩, hpacket, h⟩ := bind_eq_ok.1 h
  obtain ⟨⟨⟩, hA, h⟩ := bind_eq_ok.1 h
  obtain ⟨⟨⟩, hB, h⟩ := bind_eq_ok.1 h
  obtain ⟨⟨⟩, hslots, -⟩ := bind_eq_ok.1 h
  obtain ⟨rootA, hrootA, hcarriesA⟩ := carriesRoot_ok hA
  obtain ⟨rootB, hrootB, hcarriesB⟩ := carriesRoot_ok hB
  obtain ⟨hfirst, rfl⟩ := annotationRoot_ok hrootA
  obtain ⟨hsecond, rfl⟩ := annotationRoot_ok hrootB
  refine ⟨carriesPacket_ok hpacket, hfirst, hsecond, hcarriesA, hcarriesB, fun hsame => ?_⟩
  obtain ⟨slot, hslot, hwell⟩ := slot_of_validateSubmissionBinding hboundA
  obtain ⟨slot', hslot', hwell'⟩ := slot_of_validateSubmissionBinding hboundB
  have hne := (Bool.or_eq_false_iff.1 (Bool.or_eq_false_iff.1 (refuseIf_ok hslots)).1).1
  rw [hslot, hslot'] at hsame hne
  obtain rfl := eq_of_sameText_string hwell hwell' hsame
  simp [strictEquals, sameValueZero] at hne

theorem adjudicationRoot_ok {packet annotationA annotationB decision : Value} {root : Str}
    (h : computeAdjudicationMerkleRoot digest packet annotationA annotationB decision = .ok root) :
    Rooted digest packet annotationA annotationB decision ∧ root = digest (adjudicationBytes decision) := by
  obtain ⟨⟨⟩, hbinding, h⟩ := bind_eq_ok.1 h
  exact ⟨rooted_of_validateAdjudicationBinding hbinding, rootOf_ok h⟩

/-! ## Packages -/

/-- The digest tells these strings apart, and what it gives are well-formed texts. -/
structure Separates (digest : List UInt8 → Str) (strings : List (List UInt8)) : Prop where
  apart : ∀ x ∈ strings, ∀ y ∈ strings, digest x = digest y → x = y
  text : ∀ x ∈ strings, isWellFormed (digest x) = true

theorem Separates.eq {strings : List (List UInt8)} (h : Separates digest strings) {x y : List UInt8} (hx : x ∈ strings)
    (hy : y ∈ strings) (hsame : SameText (.string (digest x)) (.string (digest y))) : x = y :=
  h.apart x hx y hy (eq_of_sameText_string (h.text x hx) (h.text y hy) hsame)

theorem Separates.mono {strings strings' : List (List UInt8)} (h : Separates digest strings')
    (hsub : strings ⊆ strings') : Separates digest strings :=
  ⟨fun x hx y hy => h.apart x (hsub hx) y (hsub hy), fun x hx => h.text x (hsub hx)⟩

/-- Strings whose roots are all different are told apart. -/
theorem Separates.of_roots {strings : List (List UInt8)} {roots : List Str} (h : strings.map digest = roots)
    (hnodup : roots.Nodup) (htext : ∀ root ∈ roots, isWellFormed root = true) : Separates digest strings := by
  subst h
  exact ⟨fun _ hx _ hy heq => List.inj_on_of_nodup_map hnodup hx hy heq, fun _ hx => htext _ (List.mem_map_of_mem hx)⟩

/-- The string of `computePacketMerkleRoot`, of a packet that is accepted. -/
def packetStrings (packet : Value) : List (List UInt8) := (packetPreimage packet).toOption.toList

/-- The strings of an artifact of role A or B. -/
def annotationStrings (artifact : Value) : List (List UInt8) :=
  packetStrings (artifact.property "packet") ++ [annotationBytes (artifact.property "annotation")]

/-- The strings of a package. -/
def packageStrings (package : Value) : List (List UInt8) :=
  packetStrings (package.property "packet") ++ [annotationBytes (package.property "annotationA"),
    annotationBytes (package.property "annotationB"), adjudicationBytes (package.property "adjudication")]

theorem mem_packageStrings (package : Value) :
    annotationBytes (package.property "annotationA") ∈ packageStrings package ∧
      annotationBytes (package.property "annotationB") ∈ packageStrings package ∧
      adjudicationBytes (package.property "adjudication") ∈ packageStrings package :=
  ⟨List.mem_append_right _ List.mem_cons_self, List.mem_append_right _ (List.mem_cons_of_mem _ List.mem_cons_self),
    List.mem_append_right _ (List.mem_cons_of_mem _ (List.mem_cons_of_mem _ List.mem_cons_self))⟩

/-- An artifact of the packet of a package, with one of its annotations, has no string of its own. -/
theorem annotationStrings_subset {artifact package : Value}
    (hpacket : artifact.property "packet" = package.property "packet")
    (hmem : annotationBytes (artifact.property "annotation") ∈ packageStrings package) :
    annotationStrings artifact ⊆ packageStrings package := by
  refine List.append_subset.2 ⟨?_, List.cons_subset.2 ⟨hmem, List.nil_subset _⟩⟩
  rw [hpacket]
  exact List.subset_append_left _ _

theorem CarriesPacket.ne_undefined {packet document : Value} (h : CarriesPacket digest packet document) :
    packet ≠ .undefined := by
  rintro rfl
  obtain ⟨bytes, hbytes, -⟩ := h
  obtain ⟨properties, hpolicy⟩ := (packetPreimage_ok hbytes).1.metricPolicy
  cases hpolicy

theorem json_of_carries {artifact document : Value} (h : artifact.Json)
    (hcarries : CarriesPacket digest (artifact.property "packet") document) : (artifact.property "packet").Json :=
  h.property_json hcarries.ne_undefined

/-- Documents that carry one root are of packets that say the same. -/
theorem agree_of_carries {strings : List (List UInt8)} {packet packet' document document' : Value} (hp : packet.Json)
    (hp' : packet'.Json) (hcarries : CarriesPacket digest packet document)
    (hcarries' : CarriesPacket digest packet' document')
    (hsame : SameText (document.property "packetMerkleRoot") (document'.property "packetMerkleRoot"))
    (h : Separates digest strings) (hmem : packetStrings packet ⊆ strings) (hmem' : packetStrings packet' ⊆ strings) :
    Agree SameText SamePolicyText packet packet' := by
  obtain ⟨bytes, hbytes, hroot⟩ := hcarries
  obtain ⟨bytes', hbytes', hroot'⟩ := hcarries'
  rw [hroot, hroot'] at hsame
  have hx : bytes ∈ packetStrings packet := by rw [packetStrings, hbytes]; exact List.mem_singleton.2 rfl
  have hy : bytes' ∈ packetStrings packet' := by rw [packetStrings, hbytes']; exact List.mem_singleton.2 rfl
  obtain rfl := h.eq (hmem hx) (hmem' hy) hsame
  exact sameContent_of_packetPreimage hp hp' hbytes hbytes'

/-- Two packages with one text in each field that is digested. -/
structure SamePackage (k k' : Value) : Prop where
  packet : Agree SameText SamePolicyText (k.property "packet") (k'.property "packet")
  annotationA : SameDocument annotationKeys "note" (k.property "annotationA") (k'.property "annotationA")
  annotationB : SameDocument annotationKeys "note" (k.property "annotationB") (k'.property "annotationB")
  adjudication : SameDocument adjudicationKeys "resolutionNote" (k.property "adjudication") (k'.property "adjudication")

variable (digest) in
/-- `computeAdjudicationMerkleRoot` of the parts of a package. -/
def packageRoot (package : Value) : Except Str Str :=
  computeAdjudicationMerkleRoot digest (package.property "packet") (package.property "annotationA")
    (package.property "annotationB") (package.property "adjudication")

/-- **Packages of one root say the same.** -/
theorem samePackage_of_root {strings : List (List UInt8)} {k k' : Value} {root : Str} (hk : k.Json) (hk' : k'.Json)
    (hroot : packageRoot digest k = .ok root) (hroot' : packageRoot digest k' = .ok root) (h : Separates digest strings)
    (hmem : packageStrings k ⊆ strings) (hmem' : packageStrings k' ⊆ strings) : SamePackage k k' := by
  obtain ⟨hrooted, heq⟩ := adjudicationRoot_ok hroot
  obtain ⟨hrooted', heq'⟩ := adjudicationRoot_ok hroot'
  obtain ⟨hmemA, hmemB, hadjudication⟩ := mem_packageStrings k
  obtain ⟨hmemA', hmemB', hadjudication'⟩ := mem_packageStrings k'
  have hdecision : SameDocument adjudicationKeys "resolutionNote" (k.property "adjudication")
      (k'.property "adjudication") :=
    sameDocument_of_bytes (h.apart _ (hmem hadjudication) _ (hmem' hadjudication') (heq.symm.trans heq'))
  have hA := hdecision.fields "annotationAMerkleRoot" (by decide)
  have hB := hdecision.fields "annotationBMerkleRoot" (by decide)
  rw [hrooted.rootA, hrooted'.rootA] at hA
  rw [hrooted.rootB, hrooted'.rootB] at hB
  refine ⟨?_, ?_, ?_, hdecision⟩
  · exact agree_of_carries (json_of_carries hk hrooted.decided) (json_of_carries hk' hrooted'.decided) hrooted.decided
      hrooted'.decided (hdecision.fields _ (by decide)) h
      (fun _ hx => hmem (List.mem_append_left _ hx)) (fun _ hx => hmem' (List.mem_append_left _ hx))
  · exact sameDocument_of_bytes (h.eq (hmem hmemA) (hmem' hmemA') hA)
  · exact sameDocument_of_bytes (h.eq (hmem hmemB) (hmem' hmemB') hB)

/-! ## The documents of a round -/

variable (digest) in
/-- What `validateConsensusEligibility` checks of J1's documents: the two stored annotations have two roots, and the
roots that the decision names are among them. -/
def annotationsBound (independent : List Value) (artifact : Value) : Except Str Unit := do
  refuseIf (decide (independent.length ≠ 2)) (str "لا يمكن بدء J1 قبل تثبيت A وB في الجولة نفسها.")
  let storedRoots ← independent.mapM (fun stored =>
    computeAnnotationMerkleRoot digest (stored.property "packet") (stored.property "annotation"))
  refuseIf (decide (storedRoots.eraseDups.length ≠ 2) ||
      !(["annotationAMerkleRoot", "annotationBMerkleRoot"].all fun key =>
        storedRoots.any (isText ((artifact.property "adjudication").property key))))
    (str "حزمة J1 لا ترتبط بإرسالي A وB المثبتين لهذه الجولة.")

/-- What it checks of J2's: the root that the ratification names is the stored one. -/
def resultBound (finalMerkleRoot : Str) (artifact : Value) : Except Str Unit :=
  refuseIf (!isText ((artifact.property "ratification").property "primaryAdjudicationMerkleRoot") finalMerkleRoot)
    (str "مراجعة J2 لا ترتبط بنتيجة J1 المقترحة في الجولة الحالية.")

theorem length_of_annotationsBound {independent : List Value} {artifact : Value}
    (h : annotationsBound digest independent artifact = .ok ()) : independent.length = 2 := by
  obtain ⟨⟨⟩, hlength, -⟩ := bind_eq_ok.1 h
  simpa using refuseIf_ok hlength

theorem annotationsBound_ok {independent : List Value} {artifact : Value}
    (h : annotationsBound digest independent artifact = .ok ()) {key : String}
    (hkey : key ∈ ["annotationAMerkleRoot", "annotationBMerkleRoot"]) : ∃ stored ∈ independent, ∃ root,
      computeAnnotationMerkleRoot digest (stored.property "packet") (stored.property "annotation") = .ok root ∧
      (artifact.property "adjudication").property key = .string root := by
  obtain ⟨⟨⟩, -, h⟩ := bind_eq_ok.1 h
  obtain ⟨roots, hroots, h⟩ := bind_eq_ok.1 h
  have hall := (Bool.or_eq_false_iff.1 (refuseIf_ok h)).2
  rw [Bool.not_eq_false', List.all_eq_true] at hall
  obtain ⟨root, hroot, htext⟩ := List.any_eq_true.1 (hall key hkey)
  obtain ⟨stored, hstored, hcomputed⟩ := Matched.exists_left ⟨_, mapM_eq_ok hroots, .refl _⟩ hroot
  exact ⟨stored, hstored, root, hcomputed, eq_string_of_isText htext⟩

/-- An annotation and its packet say what a stored artifact says. -/
structure AsStored (packet annotation stored : Value) : Prop where
  annotation : SameDocument annotationKeys "note" annotation (stored.property "annotation")
  packet : Agree SameText SamePolicyText packet (stored.property "packet")

/-- An annotation whose root the decision names says what a stored one says. -/
theorem annotated_as_stored {strings : List (List UInt8)} {independent : List Value} {primary annotation : Value}
    {key : String} (hindependent : ∀ stored ∈ independent, stored.Json) (hjson : (primary.property "packet").Json)
    (hannotations : annotationsBound digest independent primary = .ok ())
    (hkey : key ∈ ["annotationAMerkleRoot", "annotationBMerkleRoot"])
    (hnamed : (primary.property "adjudication").property key = .string (digest (annotationBytes annotation)))
    (hcarries : CarriesPacket digest (primary.property "packet") annotation) (h : Separates digest strings)
    (hpacket : packetStrings (primary.property "packet") ⊆ strings) (hmem : annotationBytes annotation ∈ strings)
    (hstored : ∀ stored ∈ independent, annotationStrings stored ⊆ strings) :
    ∃ stored ∈ independent, AsStored (primary.property "packet") annotation stored := by
  obtain ⟨stored, hin, root, hroot, hroot'⟩ := annotationsBound_ok hannotations hkey
  obtain ⟨hcarries', rfl⟩ := annotationRoot_ok hroot
  have hstrings : annotationBytes (stored.property "annotation") ∈ strings :=
    hstored stored hin (List.mem_append_right _ List.mem_cons_self)
  have hsame : SameDocument annotationKeys "note" annotation (stored.property "annotation") :=
    sameDocument_of_bytes (h.eq hmem hstrings (congrArg hashed (hnamed.symm.trans hroot')))
  exact ⟨stored, hin, hsame, agree_of_carries hjson (json_of_carries (hindependent stored hin) hcarries') hcarries
    hcarries' (hsame.fields _ (by decide)) h hpacket (fun _ hx => hstored stored hin (List.mem_append_left _ hx))⟩

/-- The root of the package that an accepted ratification names. -/
theorem ratified_root {artifact : Value} (hkind : isText (artifact.property "kind") (str "ratification-package") = true)
    (haccepted : validateArtifactForServer digest artifact = .ok ()) : ∃ root,
      packageRoot digest (artifact.property "primaryArtifact") = .ok root ∧
      (artifact.property "ratification").property "primaryAdjudicationMerkleRoot" = .string root := by
  obtain ⟨⟨⟩, -, h⟩ := bind_eq_ok.1 (Consensus.mapError_eq_ok.1 haccepted)
  rw [if_neg (fun hother => absurd (Consensus.isText_unique hkind hother) (by decide)),
    if_neg (fun hother => absurd (Consensus.isText_unique hkind hother) (by decide))] at h
  obtain ⟨⟨⟩, -, h⟩ := bind_eq_ok.1 h
  obtain ⟨⟨⟩, -, h⟩ := bind_eq_ok.1 h
  obtain ⟨root, hroot, h⟩ := bind_eq_ok.1 h
  obtain ⟨⟨⟩, -, h⟩ := bind_eq_ok.1 h
  obtain ⟨⟨⟩, -, h⟩ := bind_eq_ok.1 h
  have hnamed := (Bool.or_eq_false_iff.1 (Bool.or_eq_false_iff.1 (Bool.or_eq_false_iff.1 (refuseIf_ok h)).1).1).1
  exact ⟨root, hroot, eq_string_of_isText (by simpa using hnamed)⟩

/-- **What J2 ratifies is what J1 decided, on what A and B annotated.** -/
theorem ratified_as_decided {independent : List Value} {primary secondary : Value} {finalMerkleRoot : Str}
    (hindependent : ∀ stored ∈ independent, stored.Json) (hprimary : primary.Json) (hsecondary : secondary.Json)
    (hannotations : annotationsBound digest independent primary = .ok ())
    (hfinal : packageRoot digest primary = .ok finalMerkleRoot)
    (hkind : isText (secondary.property "kind") (str "ratification-package") = true)
    (haccepted : validateArtifactForServer digest secondary = .ok ())
    (hresult : resultBound finalMerkleRoot secondary = .ok ())
    (h : Separates digest (independent.flatMap annotationStrings ++ packageStrings primary ++
      packageStrings (secondary.property "primaryArtifact"))) :
    SamePackage (secondary.property "primaryArtifact") primary ∧
      Matched (AsStored (primary.property "packet")) [primary.property "annotationA", primary.property "annotationB"]
        independent := by
  obtain ⟨hrooted, -⟩ := adjudicationRoot_ok hfinal
  obtain ⟨root, hroot, hnamed⟩ := ratified_root hkind haccepted
  obtain ⟨hrooted', -⟩ := adjudicationRoot_ok hroot
  obtain rfl : root = finalMerkleRoot := by
    have hfinalRoot := eq_string_of_isText (by simpa using refuseIf_ok hresult)
    exact Value.string.inj (hnamed.symm.trans hfinalRoot)
  obtain ⟨hmemA, hmemB, -⟩ := mem_packageStrings primary
  have hin : packageStrings primary ⊆ independent.flatMap annotationStrings ++ packageStrings primary ++
      packageStrings (secondary.property "primaryArtifact") :=
    fun _ hx => List.mem_append_left _ (List.mem_append_right _ hx)
  have hartifact : (secondary.property "primaryArtifact").Json := by
    refine hsecondary.property_json (fun hundefined => hrooted'.decided.ne_undefined ?_)
    rw [hundefined]
    rfl
  refine ⟨samePackage_of_root hartifact hprimary hroot hfinal h (List.subset_append_right _ _) hin,
    Matched.of_cover (length_of_annotationsBound hannotations).symm (fun annotation hannotation => ?_) ?_⟩
  · have hjson := json_of_carries hprimary hrooted.decided
    have hpacket := fun x (hx : x ∈ packetStrings (primary.property "packet")) => hin (List.mem_append_left _ hx)
    have hstored : ∀ stored ∈ independent, annotationStrings stored ⊆ independent.flatMap annotationStrings ++
        packageStrings primary ++ packageStrings (secondary.property "primaryArtifact") := fun stored hmem _ hx =>
      List.mem_append_left _ (List.mem_append_left _ (List.mem_flatMap.2 ⟨stored, hmem, hx⟩))
    simp only [List.mem_cons, List.not_mem_nil, or_false] at hannotation
    obtain rfl | rfl := hannotation
    · exact annotated_as_stored hindependent hjson hannotations (by decide) hrooted.rootA hrooted.first h hpacket
        (hin hmemA) hstored
    · exact annotated_as_stored hindependent hjson hannotations (by decide) hrooted.rootB hrooted.second h hpacket
        (hin hmemB) hstored
  · -- the annotations are of two slots, and a stored one has the text of one of them
    refine List.pairwise_pair.2 (fun stored _ hA hB => hrooted.slots ?_)
    exact (hA.annotation.fields _ (by decide)).trans (hB.annotation.fields _ (by decide)).symm

end Roots

/-! ## One word, annotated twice, decided and ratified -/

def sampleRootJ : Str := str "de4279efb555fb834517d97236792c2e86c793f5a6106f1b5e3f46470278d3df"

/-- SHA-256 of the packet, of its two annotations and of the decision, which it tells apart by their lengths. -/
def lengthDigest (bytes : List UInt8) : Str :=
  if bytes.length = 232 then Consensus.sampleRoot else if bytes.length = 236 then Consensus.sampleRootA
  else if bytes.length = 235 then Consensus.sampleRootB else sampleRootJ

/-- J2's document on the package. -/
def sampleRatification : Value :=
  .object [(str "kind", .string (str "ratification-package")), (str "primaryArtifact", Consensus.samplePackage),
    (str "ratification", .object ([(str "schema", .string ratificationSchema),
        (str "taskVersion", .number (Number.ofNat 1)), (str "packetMerkleRoot", .string Consensus.sampleRoot),
        (str "primaryAdjudicationMerkleRoot", .string sampleRootJ), (str "reviewerSlot", .string (str "J2")),
        (str "decision", .string (str "agree")), (str "rationale", .string (str "the word is a name here"))] ++
      identityKeys.map (fun key => (str key, .string (str "x")))))]

def sampleStored : List Value := [Consensus.sampleArtifact "A" "NOUN", Consensus.sampleArtifact "B" "ADJ"]

theorem sampleStrings_roots : (packageStrings Consensus.samplePackage).map lengthDigest =
    [Consensus.sampleRoot, Consensus.sampleRootA, Consensus.sampleRootB, sampleRootJ] := by
  decide +kernel

/-- Every string of the round is one of the package. -/
theorem sampleStrings_subset : sampleStored.flatMap annotationStrings ++ packageStrings Consensus.samplePackage ++
    packageStrings (sampleRatification.property "primaryArtifact") ⊆ packageStrings Consensus.samplePackage := by
  obtain ⟨hmemA, hmemB, -⟩ := mem_packageStrings Consensus.samplePackage
  have hstored : ∀ stored ∈ sampleStored, annotationStrings stored ⊆ packageStrings Consensus.samplePackage := by
    rw [sampleStored, List.forall_mem_cons, List.forall_mem_singleton]
    exact ⟨annotationStrings_subset rfl hmemA, annotationStrings_subset rfl hmemB⟩
  refine List.append_subset.2 ⟨List.append_subset.2 ⟨fun x hx => ?_, List.Subset.refl _⟩, List.Subset.refl _⟩
  obtain ⟨stored, hmem, hx⟩ := List.mem_flatMap.1 hx
  exact hstored stored hmem hx

theorem ratified_as_decided_sample :
    SamePackage (sampleRatification.property "primaryArtifact") Consensus.samplePackage ∧
      Matched (AsStored Consensus.samplePacket)
        [Consensus.sampleSubmission "A" "NOUN", Consensus.sampleSubmission "B" "ADJ"] sampleStored := by
  have hstored : ∀ stored ∈ sampleStored, stored.Json := by
    rw [sampleStored, List.forall_mem_cons, List.forall_mem_singleton]
    exact ⟨⟨by decide +kernel, by decide +kernel⟩, ⟨by decide +kernel, by decide +kernel⟩⟩
  have hseparates := (Separates.of_roots sampleStrings_roots (by decide) (by decide)).mono sampleStrings_subset
  have hfinal : packageRoot lengthDigest Consensus.samplePackage = .ok sampleRootJ := by decide +kernel
  exact ratified_as_decided hstored
    ⟨by decide +kernel, by decide +kernel⟩ ⟨by decide +kernel, by decide +kernel⟩ (by decide +kernel) hfinal
    (by decide +kernel) (by decide +kernel) (by decide +kernel) hseparates

end Protocol
end Adg
