import AdgLang.CanonicalJson
/-!
# PacketRoots — what the root of a packet binds

`validatePacket` and `computePacketMerkleRoot` of `protocol.js`.  The root is the hash of a concatenation of parts, each
the text of a value behind the length of its bytes, with counts as the only structure.  A part is a word of a prefix
code (`part_prefixFree`), so that the bytes give the parts back, and the counts among them give the sentences, tokens
and instructions back (`sameContent_of_packetPreimage`).
-/
namespace Adg
namespace Protocol

open Js

/-! ## Validation -/

def packetSchema : Str := str "adg-msa-adjudication-packet-v3"

def forbiddenEvidenceKeys : List Str :=
  ["analysis", "candidateAware", "dependencyGraph", "evaluation", "morphology", "parse", "parserOutput",
    "parserPredictions", "predictions", "strictTag"].map str

/-- A forbidden key stands in an object anywhere in the value. -/
def containsForbiddenEvidence (value : Value) : Bool :=
  !value.all (fun v => match v with
    | .object properties => properties.all (fun p => !forbiddenEvidenceKeys.contains p.1)
    | _ => true)

def isAlphanumeric (u : UInt16) : Bool :=
  let n := u.toNat
  (48 ≤ n && n ≤ 57) || (65 ≤ n && n ≤ 90) || (97 ≤ n && n ≤ 122)

/-- `/^[A-Za-z0-9][A-Za-z0-9._:-]{0,159}$/` on a string. -/
def identifier : Value → Bool
  | .string (u :: rest) =>
    isAlphanumeric u && decide (rest.length ≤ 159) &&
      rest.all (fun v => isAlphanumeric v || (str "._:-").contains v)
  | _ => false

def isNumberBelow (v : Value) (n : Number) : Bool :=
  match v with
  | .number m => m.lt n
  | _ => false

def isNumberAbove (v : Value) (n : Number) : Bool :=
  match v with
  | .number m => n.lt m
  | _ => false

def isNumber : Value → Bool
  | .number _ => true
  | _ => false

def isIntegerNumber : Value → Bool
  | .number n => n.isInteger
  | _ => false

def isArray : Value → Bool
  | .array _ => true
  | _ => false

/-- `value === text`. -/
def isText (v : Value) (s : Str) : Bool :=
  match v with
  | .string t => decide (t = s)
  | _ => false

def identityKeys : List String :=
  ["taskId", "packetId", "holdoutId", "protocolId", "guidelineVersion", "dataVersion", "protocolVersion"]

def identityComplete (packet : Value) : Bool :=
  identityKeys.all (fun key => identifier (packet.property key)) && isIntegerNumber (packet.property "taskVersion") &&
    !isNumberBelow (packet.property "taskVersion") (Number.ofNat 1)

def metricPolicyValid (policy : Value) : Bool :=
  let raw := policy.property "minimumRawAgreement"
  let kappa := policy.property "minimumDefinedKappa"
  let one := Number.ofNat 1
  policy.truthy && isText (policy.property "schema") (str "adg-iaa-policy-v1") && isArray (policy.property "metrics") &&
    isNumber raw && isNumber kappa && !isNumberBelow raw (.zero false) && !isNumberAbove raw one &&
    !isNumberBelow kappa (Number.ofDecimal true 1 0) && !isNumberAbove kappa one

/-- `Set.prototype.has` finds the value; two arrays or objects of a document are never one. -/
def sameValueZero : Value → Value → Bool
  | .undefined, .undefined => true
  | .null, .null => true
  | .bool a, .bool b => decide (a = b)
  | .number a, .number b => decide (a = b) || (decide (a = .zero true) && decide (b = .zero false)) ||
      (decide (a = .zero false) && decide (b = .zero true))
  | .string a, .string b => decide (a = b)
  | _, _ => false

def isNullish : Value → Bool
  | .undefined | .null => true
  | _ => false

def typeError : Str := str "TypeError"

/-- A message with a value in it. -/
def withText (before : String) (value : Value) (after : String) : Str :=
  match value.toText with
  | some t => str before ++ t ++ str after
  | none => typeError

def validateTokens (sentenceId : Value) (index : Nat) : List Value → Except Str Unit
  | [] => .ok ()
  | token :: rest =>
    if isNullish token then .error typeError
    else if !sameValueZero (token.property "id") (.number (Number.ofNat (index + 1))) ||
        !(token.property "form").truthy then
      .error (withText "ترقيم وحدات الجملة " sentenceId " غير صالح.")
    else validateTokens sentenceId (index + 1) rest

def validateSentences (sentenceIds : List Value) : List Value → Except Str Unit
  | [] => .ok ()
  | sentence :: rest =>
    let sentenceId := sentence.property "sentenceId"
    if isNullish sentence then .error typeError
    else if !sentenceId.truthy || !(sentence.property "text").truthy then
      .error (str "إحدى الجمل ناقصة النص أو الوحدات.")
    else
      match sentence.property "tokens" with
      | .array (token :: tokens) =>
        if sentenceIds.any (sameValueZero sentenceId) then
          .error (withText "معرف الجملة " sentenceId " مكرر.")
        else
          match validateTokens sentenceId 0 (token :: tokens) with
          | .error message => .error message
          | .ok () => validateSentences (sentenceId :: sentenceIds) rest
      | _ => .error (str "إحدى الجمل ناقصة النص أو الوحدات.")

def validatePacket (packet : Value) : Except Str Unit :=
  if !packet.truthy || !isText (packet.property "schema") packetSchema then .error (str "مخطط حزمة النص غير مدعوم.")
  else if !identityComplete packet then .error (str "هوية المهمة أو إصداراتها غير مكتملة.")
  else if !metricPolicyValid (packet.property "metricPolicy") then
    .error (str "سياسة قياس الاتفاق للمهمة غير صالحة.")
  else if !(packet.property "parserPredictionsExcluded").truthy then
    .error (str "الحزمة تكشف توقعات البارسر؛ رُفضت حمايةً للتعمية.")
  else if (packet.property "derivedFromExcludedCorpus").truthy then
    .error (str "المادة مشتقة من PADT أو PUD؛ رُفضت.")
  else if containsForbiddenEvidence packet then .error (str "الحزمة تحتوي حقول تحليل أو توقعات محظورة.")
  else
    match packet.property "sentences" with
    | .array (sentence :: sentences) => validateSentences [] (sentence :: sentences)
    | _ => .error (str "الحزمة لا تحتوي جملًا.")

/-! ## The pre-image of the root -/

/-- `CanonicalHashBuilder.add`: the text of a value behind the number of its bytes. -/
def part (value : Value) : Except Str Str :=
  match value with
  | .undefined => .ok (str "-1:")
  | .null => .ok (str "-1:")
  | v =>
    match v.toText with
    | some t => .ok (natStr (encodeUtf8 t).length ++ unit ':' :: t)
    | none => .error typeError

def itemsOf : Value → List Value
  | .array items => items
  | _ => []

def count (items : List Value) : Value := .number (Number.ofNat items.length)

def tokenValues (token : Value) : List Value := [token.property "id", token.property "form"]

def tokensOf (sentence : Value) : List Value := itemsOf (sentence.property "tokens")

def sentenceValues (sentence : Value) : List Value :=
  sentence.property "sentenceId" :: sentence.property "text" :: count (tokensOf sentence) ::
    (tokensOf sentence).flatMap tokenValues

def sentencesOf (packet : Value) : List Value := itemsOf (packet.property "sentences")

def flagKeys : List String :=
  ["releaseCandidateId", "pilotOnly", "developerVisible", "parserPredictionsExcluded", "derivedFromExcludedCorpus",
    "holdoutManifestSha256"]

/-- The values before the sentences, in the order in which they are added. -/
def headerValues (packet : Value) : List Value :=
  [.string (str "adg-msa-adjudication-packet-root-v3"), .string packetSchema, packet.property "taskId",
    packet.property "taskVersion", packet.property "packetId", packet.property "holdoutId",
    packet.property "protocolId", packet.property "guidelineVersion", packet.property "dataVersion",
    packet.property "protocolVersion", .string (canonicalJson (packet.property "metricPolicy"))] ++
    flagKeys.map (fun key => packet.property key)

/-- `packet.instructions ?? []`; what is no array has no `forEach`. -/
def instructionsOf (packet : Value) : Except Str (List Value) :=
  match packet.property "instructions" with
  | .undefined => .ok []
  | .null => .ok []
  | .array items => .ok items
  | _ => .error typeError

/-- The values that are added, in their order. -/
def hashedValues (packet : Value) (instructions : List Value) : List Value :=
  headerValues packet ++ count (sentencesOf packet) ::
    ((sentencesOf packet).flatMap sentenceValues ++ count instructions :: instructions)

/-- The bytes that `computePacketMerkleRoot` hashes. -/
def packetPreimage (packet : Value) : Except Str (List UInt8) := do
  validatePacket packet
  let instructions ← instructionsOf packet
  let parts ← (hashedValues packet instructions).mapM part
  return encodeUtf8 parts.flatten

/-! ## The bytes give the parts back -/

/-- What is hashed of a value: nothing, or the bytes of its text.  (With a value that has no text there is no root.) -/
def hashed (v : Value) : Option (List UInt8) :=
  if isNullish v then none else some (encodeUtf8 (v.toText.getD []))

def digitBytes (n : Nat) : List UInt8 := (natStr n).map (fun u => UInt8.ofNat u.toNat)

/-- The bytes of a part. -/
def word : Option (List UInt8) → List UInt8
  | none => [45, 49, 58]
  | some b => digitBytes b.length ++ 58 :: b

theorem digitBytes_spec (n : Nat) : ∀ b ∈ digitBytes n, 48 ≤ b.toNat ∧ b.toNat ≤ 57 := by
  intro b hb
  obtain ⟨u, hu, rfl⟩ := List.mem_map.1 hb
  have hdigit := isDigit_natStr n u hu
  rw [isDigit, Bool.and_eq_true, decide_eq_true_eq, decide_eq_true_eq] at hdigit
  rw [byte_toNat (by omega)]
  exact hdigit

theorem digitBytes_injective {m n : Nat} (h : digitBytes m = digitBytes n) : m = n := by
  have hback : ∀ n, (digitBytes n).map (fun b => UInt16.ofNat b.toNat) = natStr n := fun n => by
    rw [digitBytes, List.map_map]
    refine (List.map_congr_left (fun u hu => ?_)).trans (List.map_id _)
    have hdigit := isDigit_natStr n u hu
    rw [isDigit, Bool.and_eq_true, decide_eq_true_eq, decide_eq_true_eq] at hdigit
    exact unit_eq (byte_toNat (by omega))
  exact natStr_injective (by rw [← hback m, h, hback n])

/-- The digits before the first colon. -/
theorem takeWhile_word {ds rest : List UInt8} (h : ∀ b ∈ ds, b ≠ 58) :
    (ds ++ 58 :: rest).takeWhile (fun b => decide (b ≠ 58)) = ds := by
  rw [List.takeWhile_append_of_pos (fun b hb => decide_eq_true (h b hb))]
  simp

theorem word_prefixFree : PrefixFree word where
  nonempty := fun a => by cases a <;> simp [word]
  split := by
    have hne : ∀ n, ∀ b ∈ digitBytes n, b ≠ 58 := fun n b hb heq => by
      have := digitBytes_spec n b hb
      rw [heq] at this
      exact absurd this.2 (by decide)
    have hnone : ∀ rest, (word none ++ rest).takeWhile (fun b => decide (b ≠ 58)) = [45, 49] :=
      fun rest => takeWhile_word (show ∀ b ∈ [45, 49], b ≠ (58 : UInt8) by decide +kernel)
    have hsome : ∀ b rest, (word (some b) ++ rest).takeWhile (fun b => decide (b ≠ 58)) = digitBytes b.length :=
      fun b rest => by
        rw [word, List.append_assoc, List.cons_append]
        exact takeWhile_word (hne _)
    have hminus : ∀ n, digitBytes n ≠ [45, 49] := fun n heq => by
      have := digitBytes_spec n 45 (by rw [heq]; simp)
      exact absurd this.1 (by decide)
    intro a b x y h
    have hwhile := congrArg (List.takeWhile (fun b => decide (b ≠ 58))) h
    cases a with
    | none =>
      cases b with
      | none => rfl
      | some b =>
        rw [hnone, hsome] at hwhile
        exact absurd hwhile.symm (hminus _)
    | some a =>
      cases b with
      | none =>
        rw [hnone, hsome] at hwhile
        exact absurd hwhile (hminus _)
      | some b =>
        rw [hsome, hsome] at hwhile
        have hlength := digitBytes_injective hwhile
        rw [word, word, hlength, List.append_assoc, List.append_assoc, List.cons_append, List.cons_append] at h
        have htail := (List.cons.inj (List.append_cancel_left h)).2
        rw [(List.append_inj htail hlength).1]

theorem part_spec {v : Value} {t : Str} (h : part v = .ok t) :
    encodeUtf8 t = word (hashed v) ∧ startsTrail t = false ∧ t ≠ [] := by
  have htext : ∀ s, v.toText = some s → isNullish v = false → t = natStr (encodeUtf8 s).length ++ unit ':' :: s →
      encodeUtf8 t = word (hashed v) ∧ startsTrail t = false ∧ t ≠ [] := fun s hs hv ht => by
    have hascii : ∀ u ∈ natStr (encodeUtf8 s).length ++ [unit ':'], isAscii u = true := fun u hu => by
      rcases List.mem_append.1 hu with hu | hu
      · exact isAscii_of_isAtomUnit (isAtomUnit_of_isDigit (isDigit_natStr _ u hu))
      · obtain rfl := List.mem_singleton.1 hu
        decide
    have hbytes := encodeUtf8_ascii hascii s
    rw [List.append_assoc, List.cons_append, List.nil_append, ← ht] at hbytes
    refine ⟨?_, ?_, by rw [ht]; simp⟩
    · rw [hbytes, hashed, if_neg (by rw [hv]; exact Bool.false_ne_true), hs, Option.getD_some, word, List.map_append,
        ← digitBytes, List.append_assoc]
      rfl
    · obtain ⟨u, rest, hcons⟩ := List.exists_cons_of_ne_nil (natStr_ne_nil (encodeUtf8 s).length)
      have hdigit := isDigit_natStr (encodeUtf8 s).length u (by rw [hcons]; simp)
      rw [ht, hcons]
      exact (not_surrogate_of_isAscii (isAscii_of_isAtomUnit (isAtomUnit_of_isDigit hdigit))).2
  cases v with
  | undefined | null =>
    obtain rfl : str "-1:" = t := Except.ok.inj h
    exact ⟨by decide, by decide, by decide⟩
  | bool _ | number _ | bigint _ | string _ | bytes _ => exact htext _ rfl rfl (Except.ok.inj h).symm
  | array _ | object _ =>
    rw [part] at h
    split at h
    · exact htext _ ‹_› rfl (Except.ok.inj h).symm
    · cases h
    all_goals rintro ⟨⟩

theorem encodeUtf8_parts {values : List Value} {parts : List Str} (h : values.mapM part = .ok parts) :
    encodeUtf8 parts.flatten = (values.map hashed).flatMap word ∧ startsTrail parts.flatten = false := by
  induction values generalizing parts with
  | nil =>
    obtain rfl : [] = parts := Except.ok.inj h
    exact ⟨rfl, rfl⟩
  | cons v values ih =>
    rw [List.mapM_cons] at h
    cases hv : part v with
    | error e => rw [hv] at h; cases h
    | ok t =>
      cases hrest : values.mapM part with
      | error e => rw [hv, hrest] at h; cases h
      | ok ts =>
        rw [hv, hrest] at h
        obtain rfl : t :: ts = parts := Except.ok.inj h
        obtain ⟨hbytes, htrail, hne⟩ := part_spec hv
        obtain ⟨hbytes', htrail'⟩ := ih hrest
        refine ⟨?_, ?_⟩
        · rw [List.flatten_cons, encodeUtf8_append htrail', hbytes, hbytes']
          rfl
        · obtain ⟨u, t, rfl⟩ := List.exists_cons_of_ne_nil hne
          exact htrail

/-- One text is hashed of both: of null and of an absent field none, else the bytes of `String(value)`. -/
def SameText (v w : Value) : Prop := hashed v = hashed w

/-! ## The parts give the fields back -/

/-- Two packets agree in their fields: the texts and flags by `same`, the policies by `policy`. -/
structure Agree (same policy : Value → Value → Prop) (p q : Value) : Prop where
  identity : ∀ key ∈ identityKeys, p.property key = q.property key
  taskVersion : p.property "taskVersion" = q.property "taskVersion"
  metricPolicy : policy (p.property "metricPolicy") (q.property "metricPolicy")
  flags : ∀ key ∈ flagKeys, same (p.property key) (q.property key)
  sentences : List.Forall₂ (fun s s' => same (s.property "sentenceId") (s'.property "sentenceId") ∧
    same (s.property "text") (s'.property "text") ∧
    List.Forall₂ (fun t t' => t.property "id" = t'.property "id" ∧ same (t.property "form") (t'.property "form"))
      (tokensOf s) (tokensOf s')) (sentencesOf p) (sentencesOf q)
  instructions : List.Forall₂ same (itemsOf (p.property "instructions")) (itemsOf (q.property "instructions"))

/-- A JSON document. -/
abbrev Document := { v : Value // v.Json }

/-! What validation says of a packet's fields. -/

structure Accepted (p : Value) : Prop where
  identity : ∀ key ∈ identityKeys, identifier (p.property key) = true
  taskVersion : ∃ d, p.property "taskVersion" = .number (.finite d)
  metricPolicy : ∃ properties, p.property "metricPolicy" = .object properties
  sentences : ∀ s ∈ sentencesOf p, ∀ t ∈ tokensOf s, ∃ d, t.property "id" = .number (.finite d)

theorem ofNat_succ (n : Nat) : ∃ d, Number.ofNat (n + 1) = .finite d := by
  rw [Number.ofNat, Number.ofDecimal, dif_neg (by omega)]
  exact ⟨_, rfl⟩

theorem finite_of_sameValueZero {v : Value} {d : Decimal} (h : sameValueZero v (.number (.finite d)) = true) :
    v = .number (.finite d) := by
  cases v with
  | number n =>
    simp only [sameValueZero, Bool.or_eq_true, Bool.and_eq_true, decide_eq_true_eq, reduceCtorEq, and_false,
      or_false] at h
    rw [h]
  | undefined | null | bool _ | bigint _ | string _ | bytes _ | array _ | object _ => cases h

theorem validateTokens_ok {sentenceId : Value} {tokens : List Value} (index : Nat)
    (h : validateTokens sentenceId index tokens = .ok ()) :
    ∀ t ∈ tokens, ∃ d, t.property "id" = .number (.finite d) := by
  induction tokens generalizing index with
  | nil => nofun
  | cons token rest ih =>
    rw [validateTokens] at h
    split at h
    · cases h
    split at h
    · cases h
    rename_i hid
    rw [Bool.not_eq_true, Bool.or_eq_false_iff, Bool.not_eq_false'] at hid
    obtain ⟨d, hd⟩ := ofNat_succ index
    rw [hd] at hid
    simp only [List.mem_cons, forall_eq_or_imp]
    exact ⟨⟨d, finite_of_sameValueZero hid.1⟩, ih (index + 1) h⟩

theorem validateSentences_ok {sentences : List Value} (seen : List Value)
    (h : validateSentences seen sentences = .ok ()) :
    ∀ s ∈ sentences, ∀ t ∈ tokensOf s, ∃ d, t.property "id" = .number (.finite d) := by
  induction sentences generalizing seen with
  | nil => nofun
  | cons sentence rest ih =>
    rw [validateSentences] at h
    split at h
    · cases h
    split at h
    · cases h
    split at h
    · rename_i token tokens htokens
      split at h
      · cases h
      split at h
      · cases h
      · simp only [List.mem_cons, forall_eq_or_imp]
        refine ⟨?_, ih _ h⟩
        rw [tokensOf, htokens]
        exact validateTokens_ok 0 ‹_›
    · cases h

theorem taskVersion_finite {v : Value} (hinteger : isIntegerNumber v = true)
    (hone : isNumberBelow v (Number.ofNat 1) = false) : ∃ d, v = .number (.finite d) := by
  cases v with
  | number n =>
    cases n with
    | nan | infinite _ => cases hinteger
    | zero negative =>
      have hbelow : isNumberBelow (.number (.zero negative)) (Number.ofNat 1) = true := by
        cases negative <;> decide
      rw [hbelow] at hone
      cases hone
    | finite d => exact ⟨d, rfl⟩
  | undefined | null | bool _ | bigint _ | string _ | bytes _ | array _ | object _ => cases hinteger

theorem object_of_isText {v : Value} {key : String} {s : Str} (h : isText (v.property key) s = true) :
    ∃ properties, v = .object properties := by
  cases v with
  | object properties => exact ⟨properties, rfl⟩
  | undefined | null | bool _ | number _ | bigint _ | string _ | bytes _ | array _ => cases h

theorem accepted_of_validatePacket {p : Value} (h : validatePacket p = .ok ()) : Accepted p := by
  rw [validatePacket] at h
  split at h
  · cases h
  split at h
  · cases h
  rename_i hidentity
  split at h
  · cases h
  rename_i hpolicy
  split at h
  · cases h
  split at h
  · cases h
  split at h
  · cases h
  rw [Bool.not_eq_true, Bool.not_eq_false'] at hidentity hpolicy
  rw [identityComplete, Bool.and_eq_true, Bool.and_eq_true, List.all_eq_true, Bool.not_eq_true'] at hidentity
  simp only [metricPolicyValid, Bool.and_eq_true] at hpolicy
  refine ⟨hidentity.1.1, taskVersion_finite hidentity.1.2 hidentity.2, object_of_isText hpolicy.1.1.1.1.1.1.1.2, ?_⟩
  rw [sentencesOf]
  split at h
  · rename_i sentence sentences hsentences
    rw [hsentences]
    exact validateSentences_ok [] h
  · cases h

/-! What one text says of two values of one type. -/

theorem eq_of_sameText_string {s t : Str} (hs : isWellFormed s = true) (ht : isWellFormed t = true)
    (h : SameText (.string s) (.string t)) : s = t := encodeUtf8_injective hs ht (Option.some.inj h)

theorem eq_of_sameText_identifier {v w : Value} (hv : identifier v = true) (hw : identifier w = true)
    (h : SameText v w) : v = w := by
  have halphanumeric : ∀ u, isAlphanumeric u = true → isAscii u = true := fun u hu => by
    simp only [isAlphanumeric, Bool.or_eq_true, Bool.and_eq_true, decide_eq_true_eq] at hu
    exact decide_eq_true (by omega)
  have hpunctuation : ∀ u ∈ str "._:-", isAscii u = true := forall_mem_of_all (by decide)
  have hstring : ∀ v : Value, identifier v = true → ∃ s, v = .string s ∧ isWellFormed s = true := fun v hv => by
    cases v with
    | string s =>
      refine ⟨s, rfl, isWellFormed_ascii (fun u hu => ?_)⟩
      cases s with
      | nil => cases hu
      | cons first rest =>
        rw [identifier, Bool.and_eq_true, Bool.and_eq_true, List.all_eq_true] at hv
        rcases List.mem_cons.1 hu with rfl | hu
        · exact halphanumeric u hv.1.1
        · rcases Bool.or_eq_true_iff.1 (hv.2 u hu) with h | h
          · exact halphanumeric u h
          · exact hpunctuation u (List.elem_iff.1 h)
    | undefined | null | bool _ | number _ | bigint _ | bytes _ | array _ | object _ => cases hv
  obtain ⟨s, rfl, hs⟩ := hstring v hv
  obtain ⟨t, rfl, ht⟩ := hstring w hw
  rw [eq_of_sameText_string hs ht h]

/-- A number that its text gives back. -/
def Readable (n : Number) : Prop := readNumber n.toText = some n ∧ isWellFormed n.toText = true

theorem readable_finite (d : Decimal) : Readable (.finite d) :=
  ⟨readNumber_toText d, isWellFormed_ascii (fun u hu => isAscii_of_isAtomUnit (isAtomUnit_toText d u hu))⟩

theorem eq_of_sameText_number {m n : Number} (hm : Readable m) (hn : Readable n)
    (h : SameText (.number m) (.number n)) : m = n := by
  have htext : m.toText = n.toText := encodeUtf8_injective hm.2 hn.2 (Option.some.inj h)
  have hread := hm.1
  rw [htext, hn.1] at hread
  exact (Option.some.inj hread).symm

theorem readable_ofNat (n : Nat) : Readable (Number.ofNat n) := by
  cases n with
  | zero => exact ⟨readNumber_zero false, by decide⟩
  | succ n =>
    obtain ⟨d, hd⟩ := ofNat_succ n
    rw [hd]
    exact readable_finite d

theorem ofNat_injective {m n : Nat} (h : Number.ofNat m = Number.ofNat n) : m = n := by
  rw [Number.ofNat, Number.ofNat, Number.ofDecimal, Number.ofDecimal] at h
  split at h
  · split at h
    · omega
    · cases h
  · split at h
    · cases h
    · simp only [Number.finite.injEq, Decimal.mk.injEq, true_and, Int.zero_add, Int.natCast_inj] at h
      have hm := Number.dropZeros_value m m
      rw [h.1, h.2, Number.dropZeros_value n n] at hm
      exact hm.symm

/-- The count of a list is read back. -/
theorem length_of_sameText {items items' : List Value} (h : SameText (count items) (count items')) :
    items.length = items'.length :=
  ofNat_injective (eq_of_sameText_number (readable_ofNat _) (readable_ofNat _) h)

theorem eq_of_sameText_bool {a b : Bool} (h : SameText (.bool a) (.bool b)) : a = b := by
  have hbytes := Option.some.inj h
  revert hbytes
  cases a <;> cases b <;> decide

/-! The counts give the structure back. -/

/-- The tokens of both sentences, the numbers of both being finite. -/
theorem tokens_split : ∀ {tokens tokens' : List Value} {x y : List (Option (List UInt8))},
    (∀ t ∈ tokens, ∃ d, t.property "id" = .number (.finite d)) →
    (∀ t ∈ tokens', ∃ d, t.property "id" = .number (.finite d)) → tokens.length = tokens'.length →
    (tokens.flatMap tokenValues).map hashed ++ x = (tokens'.flatMap tokenValues).map hashed ++ y →
    List.Forall₂ (fun t t' => t.property "id" = t'.property "id" ∧ SameText (t.property "form") (t'.property "form"))
      tokens tokens' ∧ x = y
  | [], [], _, _, _, _, _, h => ⟨.nil, h⟩
  | token :: tokens, token' :: tokens', x, y, hids, hids', hlength, h => by
    simp only [List.flatMap_cons, tokenValues, List.map_cons, List.cons_append, List.nil_append, List.cons.injEq] at h
    obtain ⟨hid, hform, h⟩ := h
    obtain ⟨d, hd⟩ := hids token (by simp)
    obtain ⟨e, he⟩ := hids' token' (by simp)
    have hsame : token.property "id" = token'.property "id" := by
      rw [hd, he] at hid ⊢
      rw [eq_of_sameText_number (readable_finite d) (readable_finite e) hid]
    obtain ⟨hrest, hxy⟩ := tokens_split (fun t ht => hids t (by simp [ht])) (fun t ht => hids' t (by simp [ht]))
      (by simpa using hlength) h
    exact ⟨.cons ⟨hsame, hform⟩ hrest, hxy⟩

theorem sentences_split : ∀ {sentences sentences' : List Value} {x y : List (Option (List UInt8))},
    (∀ s ∈ sentences, ∀ t ∈ tokensOf s, ∃ d, t.property "id" = .number (.finite d)) →
    (∀ s ∈ sentences', ∀ t ∈ tokensOf s, ∃ d, t.property "id" = .number (.finite d)) →
    sentences.length = sentences'.length →
    (sentences.flatMap sentenceValues).map hashed ++ x = (sentences'.flatMap sentenceValues).map hashed ++ y →
    List.Forall₂ (fun s s' => SameText (s.property "sentenceId") (s'.property "sentenceId") ∧
      SameText (s.property "text") (s'.property "text") ∧
      List.Forall₂ (fun t t' => t.property "id" = t'.property "id" ∧
        SameText (t.property "form") (t'.property "form")) (tokensOf s) (tokensOf s')) sentences sentences' ∧ x = y
  | [], [], _, _, _, _, _, h => ⟨.nil, h⟩
  | sentence :: sentences, sentence' :: sentences', x, y, hids, hids', hlength, h => by
    simp only [List.flatMap_cons, sentenceValues, List.map_append, List.map_cons, List.append_assoc,
      List.cons_append, List.cons.injEq] at h
    obtain ⟨hid, htext, hcount, h⟩ := h
    obtain ⟨htokens, h⟩ := tokens_split (hids sentence (by simp)) (hids' sentence' (by simp))
      (length_of_sameText hcount) h
    obtain ⟨hrest, hxy⟩ := sentences_split (fun s hs => hids s (by simp [hs])) (fun s hs => hids' s (by simp [hs]))
      (by simpa using hlength) h
    exact ⟨.cons ⟨hid, htext, htokens⟩ hrest, hxy⟩

theorem forall₂_sameText : ∀ {values values' : List Value}, values.map hashed = values'.map hashed →
    List.Forall₂ SameText values values'
  | [], [], _ => .nil
  | v :: values, w :: values', h => by
    rw [List.map_cons, List.map_cons, List.cons.injEq] at h
    exact .cons h.1 (forall₂_sameText h.2)

/-! ## What a root binds -/

/-- The policies are written as one canonical text, so that they are equal up to the order of keys, as far as JSON keeps
their numbers. -/
def SamePolicyText (v w : Value) : Prop := UpToOrder v.reread w.reread

theorem packetPreimage_ok {p : Value} {bytes : List UInt8} (h : packetPreimage p = .ok bytes) :
    Accepted p ∧ bytes = ((hashedValues p (itemsOf (p.property "instructions"))).map hashed).flatMap word := by
  rw [packetPreimage] at h
  cases hvalid : validatePacket p with
  | error e => rw [hvalid] at h; cases h
  | ok u =>
    cases hinstructions : instructionsOf p with
    | error e => rw [hvalid, hinstructions] at h; cases h
    | ok instructions =>
      cases hparts : (hashedValues p instructions).mapM part with
      | error e => rw [hvalid, hinstructions] at h; simp only [bind, Except.bind, hparts] at h; cases h
      | ok parts =>
        rw [hvalid, hinstructions] at h
        simp only [bind, Except.bind, hparts] at h
        have hitems : itemsOf (p.property "instructions") = instructions := by
          rw [instructionsOf] at hinstructions
          split at hinstructions <;> cases hinstructions <;> rename_i hproperty <;> rw [hproperty] <;> rfl
        rw [hitems, ← (encodeUtf8_parts hparts).1]
        exact ⟨accepted_of_validatePacket hvalid, (Except.ok.inj h).symm⟩

/-- **Packets of which one text is hashed have one text in each of their fields.** -/
theorem sameContent_of_packetPreimage {p q : Value} (hp : p.Json) (hq : q.Json) {bytes : List UInt8}
    (h : packetPreimage p = .ok bytes) (h' : packetPreimage q = .ok bytes) : Agree SameText SamePolicyText p q := by
  obtain ⟨hpok, hpbytes⟩ := packetPreimage_ok h
  obtain ⟨hqok, hqbytes⟩ := packetPreimage_ok h'
  have hvalues := word_prefixFree.flatMap_injective (hpbytes.symm.trans hqbytes)
  simp only [hashedValues, List.map_append, List.map_cons] at hvalues
  obtain ⟨hheader, hrest⟩ := List.append_inj hvalues rfl
  obtain ⟨hcount, hrest⟩ := List.cons.inj hrest
  obtain ⟨hsentences, hrest⟩ := sentences_split hpok.sentences hqok.sentences
    (length_of_sameText hcount) hrest
  obtain ⟨-, hinstructions⟩ := List.cons.inj hrest
  simp only [headerValues, flagKeys, List.map_cons, List.map_nil, List.cons_append, List.nil_append, List.cons.injEq,
    and_true, true_and] at hheader
  obtain ⟨htask, hversion, hpacket, hholdout, hprotocol, hguideline, hdata, hprotocolVersion, hpolicy, hflags⟩ := hheader
  obtain ⟨d, hd⟩ := hpok.taskVersion
  obtain ⟨e, he⟩ := hqok.taskVersion
  refine ⟨?_, ?_, ?_, ?_, ?_, ?_⟩
  · have hp := hpok.identity
    have hq := hqok.identity
    simp only [identityKeys, List.mem_cons, List.not_mem_nil, or_false, forall_eq_or_imp, forall_eq] at hp hq ⊢
    exact ⟨eq_of_sameText_identifier hp.1 hq.1 htask, eq_of_sameText_identifier hp.2.1 hq.2.1 hpacket,
      eq_of_sameText_identifier hp.2.2.1 hq.2.2.1 hholdout, eq_of_sameText_identifier hp.2.2.2.1 hq.2.2.2.1 hprotocol,
      eq_of_sameText_identifier hp.2.2.2.2.1 hq.2.2.2.2.1 hguideline,
      eq_of_sameText_identifier hp.2.2.2.2.2.1 hq.2.2.2.2.2.1 hdata,
      eq_of_sameText_identifier hp.2.2.2.2.2.2 hq.2.2.2.2.2.2 hprotocolVersion⟩
  · rw [hd, he] at hversion ⊢
    rw [eq_of_sameText_number (readable_finite d) (readable_finite e) hversion]
  · have hjson : ∀ {v : Value}, v.Json → Accepted v → (v.property "metricPolicy").Json := fun hv hok => by
      obtain ⟨properties, hproperties⟩ := hok.metricPolicy
      exact hv.property_json (by rw [hproperties]; nofun)
    have hwf : ∀ {v : Value}, v.Json → isWellFormed (canonicalJson v) = true :=
      fun hv => isWellFormed_text _ (sortObject_json _ hv)
    exact upToOrder_of_canonicalJson (hjson hp hpok) (hjson hq hqok)
      (eq_of_sameText_string (hwf (hjson hp hpok)) (hwf (hjson hq hqok)) hpolicy)
  · simp only [flagKeys, List.mem_cons, List.not_mem_nil, or_false, forall_eq_or_imp, forall_eq]
    exact hflags
  · exact hsentences
  · exact forall₂_sameText hinstructions

/-! ## Packets whose fields have the types of the packet schema -/

/-- A string of characters. -/
def isTextField : Value → Bool
  | .string s => isWellFormed s
  | _ => false

def isFlagField : Value → Bool
  | .bool _ => true
  | _ => false

/-- The fields have the types of the packet schema: texts, flags and, where a field may be missing, null or nothing. -/
structure HasSchemaTypes (p : Value) : Prop where
  flags : ∀ key ∈ flagKeys, isNullish (p.property key) = true ∨
    (if key = "releaseCandidateId" ∨ key = "holdoutManifestSha256" then isTextField (p.property key)
      else isFlagField (p.property key)) = true
  metricPolicy : (p.property "metricPolicy").all Value.isKept = true
  sentences : ∀ s ∈ sentencesOf p, isTextField (s.property "sentenceId") = true ∧ isTextField (s.property "text") = true ∧
    ∀ t ∈ tokensOf s, isTextField (t.property "form") = true
  instructions : ∀ v ∈ itemsOf (p.property "instructions"), isTextField v = true

/-- Equal as JSON values, a missing field being null. -/
def SameValue (v w : Value) : Prop := v = w ∨ (isNullish v = true ∧ isNullish w = true)

theorem sameValue_of_texts {v w : Value} (hv : isTextField v = true) (hw : isTextField w = true) (h : SameText v w) :
    SameValue v w := by
  cases v with
  | string s =>
    cases w with
    | string t => exact Or.inl (by rw [eq_of_sameText_string hv hw h])
    | undefined | null | bool _ | number _ | bigint _ | bytes _ | array _ | object _ => cases hw
  | undefined | null | bool _ | number _ | bigint _ | bytes _ | array _ | object _ => cases hv

theorem sameValue_of_flags {v w : Value} (hv : isFlagField v = true) (hw : isFlagField w = true) (h : SameText v w) :
    SameValue v w := by
  cases v with
  | bool a =>
    cases w with
    | bool b => exact Or.inl (by rw [eq_of_sameText_bool h])
    | undefined | null | number _ | bigint _ | string _ | bytes _ | array _ | object _ => cases hw
  | undefined | null | number _ | bigint _ | string _ | bytes _ | array _ | object _ => cases hv

/-- Of nothing and of something different texts are hashed. -/
theorem isNullish_of_sameText {v w : Value} (h : SameText v w) : isNullish v = isNullish w := by
  rw [SameText, hashed, hashed] at h
  split at h <;> split at h
  · rw [‹isNullish v = true›, ‹isNullish w = true›]
  · cases h
  · cases h
  · rw [Bool.not_eq_true] at *
    rw [‹isNullish v = false›, ‹isNullish w = false›]

theorem sameValue_of_optional {field : Value → Bool}
    (hfield : ∀ {v w : Value}, field v = true → field w = true → SameText v w → SameValue v w) {v w : Value}
    (hv : isNullish v = true ∨ field v = true) (hw : isNullish w = true ∨ field w = true) (h : SameText v w) :
    SameValue v w := by
  have hnull := isNullish_of_sameText h
  by_cases hvn : isNullish v = true
  · exact Or.inr ⟨hvn, hnull ▸ hvn⟩
  · exact hfield (hv.resolve_left hvn) (hw.resolve_left (hnull ▸ hvn)) h

theorem forall₂_imp {α : Type} {R S : α → α → Prop} {l l' : List α} (h : List.Forall₂ R l l') :
    (∀ a ∈ l, ∀ b ∈ l', R a b → S a b) → List.Forall₂ S l l' := by
  induction h with
  | nil => exact fun _ => .nil
  | cons hab _ ih =>
    exact fun himp => .cons (himp _ (by simp) _ (by simp) hab)
      (ih (fun a ha b hb => himp a (by simp [ha]) b (by simp [hb])))

/-- **Packets of the schema's types that agree in their texts agree in their values.** -/
theorem Agree.values {p q : Value} (h : Agree SameText SamePolicyText p q) (hp : HasSchemaTypes p)
    (hq : HasSchemaTypes q) : Agree SameValue UpToOrder p q where
  identity := h.identity
  taskVersion := h.taskVersion
  metricPolicy := by
    have hsame := h.metricPolicy
    rwa [SamePolicyText, (Value.reread_eq_iff _).2 hp.metricPolicy, (Value.reread_eq_iff _).2 hq.metricPolicy] at hsame
  flags := fun key hkey => by
    have hpkey := hp.flags key hkey
    have hqkey := hq.flags key hkey
    split at hpkey
    · rw [if_pos ‹_›] at hqkey
      exact sameValue_of_optional sameValue_of_texts hpkey hqkey (h.flags key hkey)
    · rw [if_neg ‹_›] at hqkey
      exact sameValue_of_optional sameValue_of_flags hpkey hqkey (h.flags key hkey)
  sentences := forall₂_imp h.sentences (fun s hs s' hs' hsame => by
    obtain ⟨hid, htext, htokens⟩ := hp.sentences s hs
    obtain ⟨hid', htext', htokens'⟩ := hq.sentences s' hs'
    exact ⟨sameValue_of_texts hid hid' hsame.1, sameValue_of_texts htext htext' hsame.2.1,
      forall₂_imp hsame.2.2 (fun t ht t' ht' h =>
        ⟨h.1, sameValue_of_texts (htokens t ht) (htokens' t' ht') h.2⟩)⟩)
  instructions := forall₂_imp h.instructions (fun v hv w hw =>
    sameValue_of_texts (hp.instructions v hv) (hq.instructions w hw))

/-- **A root binds the texts of a packet**, and its values where they have the types of the schema. -/
theorem packetRoot_binds (p q : Document) (bytes : List UInt8) (hp : packetPreimage p.1 = .ok bytes)
    (hq : packetPreimage q.1 = .ok bytes) :
    Agree SameText SamePolicyText p.1 q.1 ∧
      (HasSchemaTypes p.1 → HasSchemaTypes q.1 → Agree SameValue UpToOrder p.1 q.1) := by
  have h := sameContent_of_packetPreimage p.2 q.2 hp hq
  exact ⟨h, fun hpt hqt => h.values hpt hqt⟩

/-! A packet of one word, with a metric policy and further fields. -/

def oneWord : Value :=
  .object [(str "sentenceId", .string (str "s1")), (str "text", .string (str "a")),
    (str "tokens", .array [.object [(str "id", .number (Number.ofNat 1)), (str "form", .string (str "a"))]])]

def fullAgreement : Value :=
  .object [(str "schema", .string (str "adg-iaa-policy-v1")), (str "metrics", .array []),
    (str "minimumRawAgreement", .number (Number.ofNat 1)), (str "minimumDefinedKappa", .number (Number.ofNat 1))]

def oneWordPacket (metricPolicy : Value) (fields : List (Str × Value)) : Value :=
  .object ([(str "schema", .string packetSchema), (str "taskVersion", .number (Number.ofNat 1))] ++
    identityKeys.map (fun key => (str key, .string (str "x"))) ++
    [(str "metricPolicy", metricPolicy), (str "parserPredictionsExcluded", .bool true),
      (str "sentences", .array [oneWord])] ++ fields)

/-- The candidate of a packet may be null or left out. -/
theorem packetRoot_binds_oneWord :
    Agree SameValue UpToOrder (oneWordPacket fullAgreement []) (oneWordPacket fullAgreement [(str "releaseCandidateId", .null)]) := by
  have hsome : (packetPreimage (oneWordPacket fullAgreement [])).toOption.isSome = true := by decide +kernel
  have hsame : packetPreimage (oneWordPacket fullAgreement [(str "releaseCandidateId", .null)]) = packetPreimage (oneWordPacket fullAgreement []) := by
    decide +kernel
  cases hbytes : packetPreimage (oneWordPacket fullAgreement []) with
  | error e =>
    rw [hbytes] at hsome
    cases hsome
  | ok bytes =>
    have h := packetRoot_binds ⟨oneWordPacket fullAgreement [], ⟨by decide +kernel, by decide +kernel⟩⟩
      ⟨oneWordPacket fullAgreement [(str "releaseCandidateId", .null)], ⟨by decide +kernel, by decide +kernel⟩⟩ bytes hbytes
      (hsame.trans hbytes)
    exact h.2 ⟨by decide +kernel, by decide +kernel, by decide +kernel, by decide +kernel⟩
      ⟨by decide +kernel, by decide +kernel, by decide +kernel, by decide +kernel⟩

/-- A flag and the text of the flag have one root. -/
theorem packetRoot_flagText :
    ¬ ∀ (p q : Document) (bytes : List UInt8), packetPreimage p.1 = .ok bytes → packetPreimage q.1 = .ok bytes →
      Agree SameValue UpToOrder p.1 q.1 := by
  intro h
  have hsome : (packetPreimage (oneWordPacket fullAgreement [(str "pilotOnly", .bool true)])).toOption.isSome = true := by
    decide +kernel
  have hsame : packetPreimage (oneWordPacket fullAgreement [(str "pilotOnly", .string (str "true"))]) =
      packetPreimage (oneWordPacket fullAgreement [(str "pilotOnly", .bool true)]) := by decide +kernel
  cases hbytes : packetPreimage (oneWordPacket fullAgreement [(str "pilotOnly", .bool true)]) with
  | error e =>
    rw [hbytes] at hsome
    cases hsome
  | ok bytes =>
    have hagree := h ⟨oneWordPacket fullAgreement [(str "pilotOnly", .bool true)], ⟨by decide +kernel, by decide +kernel⟩⟩
      ⟨oneWordPacket fullAgreement [(str "pilotOnly", .string (str "true"))], ⟨by decide +kernel, by decide +kernel⟩⟩ bytes hbytes
      (hsame.trans hbytes)
    have hp : (oneWordPacket fullAgreement [(str "pilotOnly", .bool true)]).property "pilotOnly" = .bool true := rfl
    have hq : (oneWordPacket fullAgreement [(str "pilotOnly", .string (str "true"))]).property "pilotOnly" = .string (str "true") :=
      rfl
    have hflag := hagree.flags "pilotOnly" (by decide)
    rw [hp, hq] at hflag
    rcases hflag with hflag | ⟨hflag, -⟩ <;> cases hflag

end Protocol
end Adg
