import AdgLang.IssueReports
import AdgLang.Markdown
import Mathlib.Data.List.Infix
/-!
# EvidenceCard — comments on the evidence and the card that shows them

`validateCommentEnvelope` of the importer and the comment branch of `renderEvidenceMarkdown`.  What the validator accepts
is a `Comment`; its card is a list of lines, some of them made of the comment's texts, joined by line feeds.  What
Unicode calls a decimal digit and what `Date.parse` reads are parameters.
-/
namespace Adg
namespace Cards

open Js Protocol Issues

/-- `\p{Nd}`, and whether `Date.parse` reads a text. -/
structure Runtime where
  isDecimalDigit : Nat → Bool
  parsesDate : Str → Bool

/-- What an assertion throws: the message it was given, or none. -/
abbrev Checked := Except (Option Str)

def assertOk (condition : Bool) (message : Option Str) : Checked Unit :=
  if condition then .ok () else .error message

/-- `assert.match`. -/
def assertMatch (value : Value) (pattern : Pattern) (message : Option Str) : Checked Str :=
  match value with
  | .string s => if pattern.test s then .ok s else .error message
  | _ => .error message

/-! ## Patterns -/

def uuid : Pattern := uuidPattern (isOneOf "12345678")

def isLowerHex (u : UInt16) : Bool := isDigit u || (97 ≤ u.toNat && u.toNat ≤ 102)

def commentPseudonymPattern : Pattern := .whole (.seqs [.literal (str "adg-"), .times 12 (.set isLowerHex)])

def sha256Pattern : Pattern := .whole (.times 64 (.set isLowerHex))

def packetIdPattern : Pattern :=
  .whole (.seqs [.set isAlphanumeric, .between 0 127 (.set (fun u => isAlphanumeric u || isOneOf "._-" u))])

def consensusIdPattern : Pattern :=
  .whole (.seqs [.set isAlphanumeric, .between 0 199 (.set (fun u => isAlphanumeric u || isOneOf "._:-" u))])

def digits (n : Nat) : Pattern := .times n (.set isDigit)

def isoUtcPattern : Pattern :=
  .whole (.seqs [digits 4, .literal (str "-"), digits 2, .literal (str "-"), digits 2, .literal (str "T"), digits 2,
    .literal (str ":"), digits 2, .literal (str ":"), digits 2, .opt (.seqs [.literal (str "."), digits 3]),
    .literal (str "Z")])

def isLetter (u : UInt16) : Bool := (65 ≤ u.toNat && u.toNat ≤ 90) || (97 ≤ u.toNat && u.toNat ≤ 122)

/-- `/\b[A-Z0-9._%+-]+@[A-Z0-9.-]+\.[A-Z]{2,}\b/i`. -/
def commentEmailPattern : Pattern :=
  .seqs [.boundary isWord, .plus (.set (fun u => isAlphanumeric u || isOneOf "._%+-" u)), .literal (str "@"),
    .plus (.set (fun u => isAlphanumeric u || isOneOf ".-" u)), .literal (str "."), .atLeast 2 (.set isLetter),
    .boundary isWord]

/-- `/<[/!A-Za-z][^>]*>/`. -/
def commentHtmlPattern : Pattern :=
  .seqs [.literal (str "<"), .set (fun u => isLetter u || isOneOf "/!" u), .star (.set (fun u => u != unit '>')),
    .literal (str ">")]

/-- `/!\[[^\]]*]\([^)]*\)/`. -/
def commentImagePattern : Pattern :=
  .seqs [.literal (str "!["), .star (.set (fun u => u != unit ']')), .literal (str "]("),
    .star (.set (fun u => u != unit ')')), .literal (str ")")]

/-- The pattern of a word without regard to case, no unit above 127 being folded. -/
def asciiAnyCase (s : String) : Pattern :=
  Pattern.seqs ((str s).map (fun c => .set (fun u => u == c || (isLetter u && u + 32 == c))))

/-- `/\b(?:javascript|data)\s*:/i`. -/
def dangerousUrlPattern : Pattern :=
  .seqs [.boundary isWord, .alt (asciiAnyCase "javascript") (asciiAnyCase "data"), .star (.set isSpace),
    .literal (str ":")]

/-- The code points of a text; a surrogate without its other half is one of its own. -/
def codePoints : Str → List Nat
  | [] => []
  | u :: v :: rest =>
    if isLead u && isTrail v then (0x10000 + (u.toNat - 0xD800) * 0x400 + (v.toNat - 0xDC00)) :: codePoints rest
    else u.toNat :: codePoints (v :: rest)
  | [u] => [u.toNat]

/-- `/(?:\+?\p{Nd}[\p{Nd}\s().-]{5,}\p{Nd})/u`: a digit, and in the run behind it one that five units precede. -/
def phoneLike (rt : Runtime) (body : Str) : Bool :=
  let within := fun c => rt.isDecimalDigit c || (decide (c < 0x10000) &&
    (isSpace (UInt16.ofNat c) || isOneOf "().-" (UInt16.ofNat c)))
  (codePoints body).tails.any (fun t => match t with
    | [] => false
    | c :: rest => rt.isDecimalDigit c && ((rest.takeWhile within).drop 5).any rt.isDecimalDigit)

/-! ## What a comment may say -/

def forbiddenPublicKeys : List Str :=
  ["accountuserid", "affiliation", "authoritysource", "consent", "displayname", "email", "facebook", "fullname",
    "identity", "instagram", "linkedin", "objectid", "otherplatform", "otherusername", "participantid",
    "participantidentity", "phone", "privateidentity", "profile", "provider", "socialaccounts", "snapchat", "telegram",
    "threads", "tiktok", "whatsapp", "x", "youtube", "bluesky"].map str

def isForbiddenPublicKey (key : Str) : Bool :=
  let normalized := (key.filter isAlphanumeric).map (fun u => if 65 ≤ u.toNat ∧ u.toNat ≤ 90 then u + 32 else u)
  forbiddenPublicKeys.contains normalized || decide (str "identity" <:+: normalized) ||
    decide (str "provider" <:+: normalized)

mutual

def containsForbiddenPublicKeys : Value → Bool
  | .array items => itemsContainForbidden items
  | .object properties => propertiesContainForbidden properties
  | .undefined | .null | .bool _ | .number _ | .bigint _ | .string _ | .bytes _ => false

def itemsContainForbidden : List Value → Bool
  | [] => false
  | child :: items => containsForbiddenPublicKeys child || itemsContainForbidden items

def propertiesContainForbidden : List (Str × Value) → Bool
  | [] => false
  | (key, child) :: properties =>
    isForbiddenPublicKey key || containsForbiddenPublicKeys child || propertiesContainForbidden properties

end

def containsUnsafeCommentBody (rt : Runtime) (body : Str) : Bool :=
  commentEmailPattern.test body || phoneLike rt body || commentHtmlPattern.test body || commentImagePattern.test body ||
    dangerousUrlPattern.test body || controlPattern.test body

/-- The members of `COMMENT_CATEGORIES`. -/
inductive Category
  | agreement | disagreement | question | clarification | evidence | finalResult | consensusProposal | escalation
  | appeal | recusal
deriving DecidableEq

def Category.text : Category → Str
  | .agreement => str "agreement"
  | .disagreement => str "disagreement"
  | .question => str "question"
  | .clarification => str "clarification"
  | .evidence => str "evidence"
  | .finalResult => str "final-result"
  | .consensusProposal => str "consensus-proposal"
  | .escalation => str "escalation"
  | .appeal => str "appeal"
  | .recusal => str "recusal"

def commentCategories : List Category :=
  [.agreement, .disagreement, .question, .clarification, .evidence, .finalResult, .consensusProposal, .escalation,
    .appeal, .recusal]

/-- The location of a comment: the object as it came, and what is read of it. -/
structure Location where
  value : Value
  sentenceId : Option Str
  tokenId : Option Number

structure Mention where
  receiptId : Str
  pseudonym : Str

structure ResultReference where
  receiptId : Str
  artifactSha256 : Str
  kind : Str
  pseudonym : Str
  isFinal : Bool

/-- A comment envelope that was accepted. -/
structure Comment where
  commentId : Str
  participantPseudonym : Str
  receivedAtUtc : Str
  packetId : Str
  sourceReceiptId : Str
  targetReceiptId : Option Str
  targetArtifactSha256 : Option Str
  parentCommentId : Option Str
  category : Category
  body : Str
  location : Location
  mentions : List Mention
  resultReferences : List ResultReference
  claimBoundaries : List Str

def commentSchema : Str := str "adg-msa-github-comment-v1"

def artifactTypes : List Str := ["independent-annotation", "adjudication-package", "ratification-package"].map str

/-- A pattern that a field has to match unless it is null. -/
def assertNullable (value : Value) (pattern : Pattern) (message : Str) : Checked (Option Str) :=
  match value with
  | .null => .ok none
  | value => (assertMatch value pattern (some message)).map some

def assertNullableUuid (value : Value) (fieldName : String) : Checked (Option Str) :=
  assertNullable value uuid (str fieldName ++ str " must be a UUID or null.")

def assertNullableSha256 (value : Value) (fieldName : String) : Checked (Option Str) :=
  assertNullable value sha256Pattern (str fieldName ++ str " must be a SHA-256 or null.")

/-- A pattern that a field has to match unless it is missing. -/
def assertOptional (value : Value) (pattern : Pattern) : Checked Unit :=
  match value with
  | .undefined => .ok ()
  | value => (assertMatch value pattern none).map (fun _ => ())

/-- `value && typeof value === "object" && !Array.isArray(value)`. -/
def assertObject (value : Value) : Checked Unit := assertOk (plainObject value) none

def assertArray (value : Value) (message : Str) : Checked (List Value) :=
  match value with
  | .array items => .ok items
  | _ => .error (some message)

def isIsoUtcTimestamp (rt : Runtime) (s : Str) : Bool := isoUtcPattern.test s && rt.parsesDate s

def readTimestamp (rt : Runtime) (value : Value) : Checked Str :=
  match value with
  | .string s => if isIsoUtcTimestamp rt s then .ok s else .error (some (str "Comment timestamp is invalid."))
  | _ => .error (some (str "Comment timestamp is invalid."))

def readCategory (value : Value) : Checked Category :=
  match value with
  | .string s => match commentCategories.find? (fun c => c.text == s) with
    | some c => .ok c
    | none => .error (some (str "Comment category is not supported."))
  | _ => .error (some (str "Comment category is not supported."))

def readBody (rt : Runtime) (value : Value) : Checked Str :=
  match value with
  | .string body => do
    assertOk (decide (20 ≤ body.length) && decide (body.length ≤ 4000)) (some (str "Comment body length is out of range."))
    assertOk (!containsUnsafeCommentBody rt body) (some (str "Comment body contains disallowed public content."))
    return body
  | _ => .error none

def readSentenceId (value : Value) : Checked (Option Str) :=
  match value with
  | .null => .ok none
  | .string s => do
    assertOk (decide (0 < s.length) && decide (s.length ≤ 160)) none
    assertOk (!controlPattern.test s) (some (str "location.sentenceId contains control characters."))
    return some s
  | _ => .error none

def readTokenId (value : Value) : Checked (Option Number) :=
  match value with
  | .null => .ok none
  | .number n => if Number.isSafeInteger n && Number.lt (.zero false) n then .ok (some n) else .error none
  | _ => .error none

def assertValidLocation (location : Value) : Checked Location := do
  assertObject location
  let sentenceId ← readSentenceId (location.property "sentenceId")
  let tokenId ← readTokenId (location.property "tokenId")
  return ⟨location, sentenceId, tokenId⟩

def readMention (mention : Value) : Checked Mention := do
  assertObject mention
  let receiptId ← assertMatch (mention.property "receiptId") uuid none
  let pseudonym ← assertMatch (mention.property "pseudonym") commentPseudonymPattern none
  return ⟨receiptId, pseudonym⟩

def assertValidMentions (mentions : Value) : Checked (List Mention) := do
  let items ← assertArray mentions (str "mentions must be an array.")
  assertOk (decide (items.length ≤ 20)) (some (str "mentions exceed the allowed maximum."))
  items.mapM readMention

def readKind (value : Value) : Checked Str :=
  match value with
  | .string s =>
    if artifactTypes.contains s then .ok s else .error (some (str "result reference kind is not supported."))
  | _ => .error (some (str "result reference kind is not supported."))

def readIsFinal (value : Value) : Checked Bool :=
  match value with
  | .bool b => .ok b
  | _ => .error none

def readResultReference (reference : Value) : Checked ResultReference := do
  assertObject reference
  let receiptId ← assertMatch (reference.property "receiptId") uuid none
  let artifactSha256 ← assertMatch (reference.property "artifactSha256") sha256Pattern none
  let kind ← readKind (reference.property "kind")
  let pseudonym ← assertMatch (reference.property "pseudonym") commentPseudonymPattern none
  let isFinal ← readIsFinal (reference.property "isFinal")
  return ⟨receiptId, artifactSha256, kind, pseudonym, isFinal⟩

def assertValidResultReferences (resultReferences : Value) : Checked (List ResultReference) := do
  let items ← assertArray resultReferences (str "resultReferences must be an array.")
  assertOk (decide (items.length ≤ 20)) (some (str "resultReferences exceed the allowed maximum."))
  items.mapM readResultReference

def readClaim (claim : Value) : Checked Str :=
  match claim with
  | .string s => do
    assertOk (decide (0 < (trim s).length) && decide ((trim s).length ≤ 500))
      (some (str "A claim boundary is empty or too long."))
    assertOk (!controlPattern.test s) (some (str "A claim boundary contains control characters."))
    return s
  | _ => .error none

def assertValidClaimBoundaries (claimBoundaries : Value) : Checked (List Str) := do
  let items ← assertArray claimBoundaries (str "claimBoundaries must be an array.")
  assertOk (decide (0 < items.length) && decide (items.length ≤ 40)) (some (str "claimBoundaries length is invalid."))
  items.mapM readClaim

/-- The attestation is an object with two properties, both of them `true`. -/
def isCommentAttestation (attestation : Value) : Bool :=
  match attestation with
  | .object properties => properties.length == 2 &&
    isTrue (attestation.property "authoredAfterIndependentSubmission") &&
    isTrue (attestation.property "publicTechnicalDiscussion")
  | _ => false

def validateCommentEnvelope (rt : Runtime) (envelope : Value) : Checked Comment := do
  assertOk (match envelope.property "schema" with | .string s => s == commentSchema | _ => false) none
  let commentId ← assertMatch (envelope.property "commentId") uuid none
  let participantPseudonym ← assertMatch (envelope.property "participantPseudonym") commentPseudonymPattern none
  let receivedAtUtc ← readTimestamp rt (envelope.property "receivedAtUtc")
  let packetId ← assertMatch (envelope.property "packetId") packetIdPattern none
  assertOptional (envelope.property "taskVersionId") consensusIdPattern
  assertOptional (envelope.property "roundId") consensusIdPattern
  let sourceReceiptId ← assertMatch (envelope.property "sourceReceiptId") uuid none
  assertOk (!containsForbiddenPublicKeys envelope)
    (some (str "PII or hidden identity/provider field found in comment."))
  let targetReceiptId ← assertNullableUuid (envelope.property "targetReceiptId") "targetReceiptId"
  let targetArtifactSha256 ← assertNullableSha256 (envelope.property "targetArtifactSha256") "targetArtifactSha256"
  let parentCommentId ← assertNullableUuid (envelope.property "parentCommentId") "parentCommentId"
  let category ← readCategory (envelope.property "category")
  let body ← readBody rt (envelope.property "body")
  let location ← assertValidLocation (envelope.property "location")
  let mentions ← assertValidMentions (envelope.property "mentions")
  let resultReferences ← assertValidResultReferences (envelope.property "resultReferences")
  assertOk (isCommentAttestation (envelope.property "attestation")) (some (str "Comment attestation is incomplete."))
  let claimBoundaries ← assertValidClaimBoundaries (envelope.property "claimBoundaries")
  return ⟨commentId, participantPseudonym, receivedAtUtc, packetId, sourceReceiptId, targetReceiptId,
    targetArtifactSha256, parentCommentId, category, body, location, mentions, resultReferences, claimBoundaries⟩

/-! ## Escaping -/

/-- `replace` of every unit `u` by a text. -/
def replaceUnit (u : UInt16) (text s : Str) : Str := s.flatMap (fun v => if v = u then text else [v])

def zeroWidthSpace : UInt16 := 0x200B

def escapePublicText (value : Str) : Str :=
  replaceUnit (unit '@') [unit '@', zeroWidthSpace] (replaceUnit (unit '>') (str "&gt;")
    (replaceUnit (unit '<') (str "&lt;") (replaceUnit (unit '&') (str "&amp;") value)))

def dash : Str := str "—"

def displayValue (value : Str) : Str := if value = [] then dash else escapePublicText value

/-- `replace(/\r?\n/g, "<br>")`. -/
def breakLines : Str → Str
  | [] => []
  | u :: rest =>
    if u = Markdown.lineFeed then str "<br>" ++ breakLines rest
    else if u = Markdown.carriageReturn ∧ rest.head? = some Markdown.lineFeed then breakLines rest
    else u :: breakLines rest

attribute [grind =] breakLines

def escapeTableCell (value : Str) : Str := breakLines (replaceUnit (unit '|') (str "&#124;") (displayValue value))

def backtick : UInt16 := unit '\x60'

/-- The replacement of three backticks, wherever they follow one another. -/
def breakFences : Str → Str
  | a :: b :: c :: rest =>
    if a = backtick ∧ b = backtick ∧ c = backtick then [backtick, backtick, zeroWidthSpace, backtick] ++ breakFences rest
    else a :: breakFences (b :: c :: rest)
  | s => s

def sanitizeCommentBody (body : Str) : Str := breakFences (escapePublicText body)

/-! ## `JSON.stringify` with an indentation of two spaces -/

mutual

/-- A value, of which nothing is undefined or a BigInt, behind the indentation of its line. -/
def indentedText (indent : Str) : Value → Str
  | .array [] => str "[]"
  | .array (v :: items) => unit '[' :: (commas (indentedItems (indent ++ str "  ") (v :: items)) ++
      Markdown.lineFeed :: (indent ++ [unit ']']))
  | .object [] => str "\x7b\x7d"
  | .object (p :: properties) => unit '\x7b' :: (commas (indentedProperties (indent ++ str "  ") (p :: properties)) ++
      Markdown.lineFeed :: (indent ++ [unit '\x7d']))
  | .undefined => str "null"
  | .null => str "null"
  | .bool b => if b then str "true" else str "false"
  | .number n => if n.isFinite then n.toText else str "null"
  | .bigint i => intStr i
  | .string s => quote s
  | .bytes b => bytesText b

def indentedItems (indent : Str) : List Value → List Str
  | [] => []
  | v :: items => (Markdown.lineFeed :: (indent ++ indentedText indent v)) :: indentedItems indent items

def indentedProperties (indent : Str) : List (Str × Value) → List Str
  | [] => []
  | (key, v) :: properties => (Markdown.lineFeed :: (indent ++ (quote key ++ unit ':' :: unit ' ' ::
      indentedText indent v))) :: indentedProperties indent properties

end

/-! ## Rendering -/

structure CategoryDescriptor where
  label : Str
  title : Str
  reviewBoundary : Str

def disagreementBoundary (hasFinalReference : Bool) : Str :=
  if hasFinalReference then
    str "A bound final-result artifact is referenced, but maintainers " ++
      str "must still verify repository-approved consensus before " ++
      str "treating any disagreement, escalation, or appeal as an established error."
  else
    str "This record does not establish an error by itself. " ++
      str "Disagreement, escalation, and appeal remain review-state discussion " ++
      str "unless a separately bound approved consensus/final-result record is referenced."

def describeCommentCategory (e : Comment) : CategoryDescriptor :=
  let hasFinalReference := e.resultReferences.any ResultReference.isFinal
  match e.category with
  | .agreement => ⟨str "discussion:agreement", str "Agreement / اتفاق",
      str "Records alignment on a public technical point; " ++ str "it is not a merge decision or approval by itself."⟩
  | .disagreement => ⟨str "discussion:disagreement", str "Disagreement / اعتراض علمي",
      disagreementBoundary hasFinalReference⟩
  | .question => ⟨str "discussion:question", str "Question / سؤال",
      str "Requests clarification only; " ++ str "it does not assert a defect or repository conclusion."⟩
  | .clarification => ⟨str "discussion:clarification", str "Clarification / إيضاح",
      str "Supplies public clarification only; it does not by itself " ++
        str "settle the underlying technical or scientific claim."⟩
  | .evidence => ⟨str "discussion:evidence", str "Evidence / شاهد",
      str "Points to public evidence for review; repository conclusions " ++
        str "still depend on bound artifacts and maintainer assessment."⟩
  | .finalResult => ⟨str "discussion:final-result", str "Final result / نتيجة نهائية",
      str "Claims a final-result discussion state, but repository conclusions " ++
        str "still depend on the bound final artifact and maintainer approval."⟩
  | .consensusProposal => ⟨str "discussion:consensus-proposal", str "Consensus proposal / مقترح توافق",
      str "Proposes a consensus path for review; it does not become " ++
        str "repository-approved consensus unless maintainers " ++
        str "separately bind and approve the referenced result."⟩
  | .escalation => ⟨str "discussion:escalation", str "Escalation / تصعيد للمراجعة",
      disagreementBoundary hasFinalReference⟩
  | .appeal => ⟨str "discussion:appeal", str "Appeal / التماس مراجعة", disagreementBoundary hasFinalReference⟩
  | .recusal => ⟨str "discussion:recusal", str "Recusal / تنحٍّ",
      str "Records a conflict-of-interest recusal. It changes eligibility only " ++
        str "after the bound task-state protocol accepts the recusal."⟩

def formatLocation (location : Location) : Str :=
  let sentence := match location.sentenceId with
    | some sentenceId => str "sentence:" ++ sentenceId
    | none => str "sentence:—"
  let token := match location.tokenId with
    | some tokenId => str "token:" ++ tokenId.toText
    | none => str "token:—"
  sentence ++ str ", " ++ token

/-- A text between backticks. -/
def inlineCode (text : Str) : Str := backtick :: (text ++ [backtick])

/-- `inboxReceiptLink`, with the output path as `resolve` leaves it, where there is one. -/
def inboxReceiptLink (receiptId : Str) (normalizedOutput : Option Str) : Str :=
  let relativeDisplay := str "human-evidence/inbox/" ++ receiptId ++ str ".json"
  match normalizedOutput with
  | none => inlineCode (escapePublicText relativeDisplay)
  | some normalizedOutput =>
    let linkHref :=
      if str "/human-evidence/comments/" <:+: normalizedOutput then str "../inbox/" ++ receiptId ++ str ".json"
      else if str "/human-evidence/inbox/" <:+: normalizedOutput then str "./" ++ receiptId ++ str ".json"
      else relativeDisplay
    str "[" ++ escapePublicText relativeDisplay ++ str "](" ++ escapePublicText linkHref ++ str ")"

def tableRow (field value : Str) : Str := str "| " ++ field ++ str " | " ++ value ++ str " |"

def listItem (text : Str) : Str := str "- " ++ text

def nullable (value : Option Str) : Value := value.elim .null .string

def machineBinding (e : Comment) : Value :=
  record [("schema", .string commentSchema), ("commentId", .string e.commentId), ("packetId", .string e.packetId),
    ("sourceReceiptId", .string e.sourceReceiptId), ("targetReceiptId", nullable e.targetReceiptId),
    ("targetArtifactSha256", nullable e.targetArtifactSha256), ("parentCommentId", nullable e.parentCommentId),
    ("category", .string e.category.text), ("location", e.location.value),
    ("mentions", .number (Number.ofNat e.mentions.length)),
    ("resultReferences", .number (Number.ofNat e.resultReferences.length))]

/-- The lines above the table. -/
def headerLines : List Str :=
  [str "# تعليق علمي بعد الإرسال / " ++ str "Post-submission scientific comment", [], str "> [!WARNING]",
    str "> هذه المادة مستوردة تقنيًا فقط، " ++ str "وتبقى غير موثوقة حتى تراجعها الصيانة " ++
      str "العلمية والأمنية وسلامة الادعاء.",
    str "> This imported record is untrusted until maintainers " ++ str "review provenance, integrity, and claim boundaries.",
    []]

/-- The table, up to the row of the location. -/
def metadataLines (e : Comment) (output : Option Str) : List Str :=
  let descriptor := describeCommentCategory e
  [str "## بيانات تقنية / Technical metadata", [], str "| الحقل / Field | القيمة / Value |", str "| --- | --- |",
    tableRow (str "النوع / Type") (escapeTableCell (str "comment")),
    tableRow (str "المعرّف / Identifier") (inlineCode (escapePublicText e.commentId)),
    tableRow (str "الحزمة / Packet") (inlineCode (escapePublicText e.packetId)),
    tableRow (str "الفئة / Category") (escapeTableCell (descriptor.title ++ str " (" ++ descriptor.label ++ str ")")),
    tableRow (str "صاحب التعليق / Author pseudonym") (inlineCode (escapePublicText e.participantPseudonym)),
    tableRow (str "وقت الاستلام / Received at") (inlineCode (escapePublicText e.receivedAtUtc)),
    tableRow (str "إيصال المصدر / Source receipt") (inboxReceiptLink e.sourceReceiptId output),
    tableRow (str "الإيصال المستهدف / Target receipt")
      (e.targetReceiptId.elim dash (fun id => inboxReceiptLink id output)),
    tableRow (str "بصمة الهدف / Target SHA-256")
      (e.targetArtifactSha256.elim dash (fun hash => inlineCode (escapePublicText hash))),
    tableRow (str "التعليق الأب / Parent comment")
      (e.parentCommentId.elim dash (fun id => inlineCode (escapePublicText id)))]

def locationRow (e : Comment) : Str :=
  tableRow (str "الموضع / Location") (escapeTableCell (formatLocation e.location))

/-- The lines between the table and the body. -/
def labelLines (e : Comment) : List Str :=
  let descriptor := describeCommentCategory e
  [[], str "## تصنيف GitHub / GitHub-native label", [],
    listItem (str "label: " ++ inlineCode (escapePublicText descriptor.label)),
    listItem (str "meaning: " ++ escapePublicText descriptor.title),
    listItem (str "review boundary: " ++ escapePublicText descriptor.reviewBoundary), [],
    str "## نص التعليق المنقّح / " ++ str "Sanitized comment body", []]

def openingFence : Str := [backtick, backtick, backtick] ++ str "text"

def closingFence : Str := [backtick, backtick, backtick]

def mentionLines (e : Comment) (output : Option Str) : List Str :=
  if e.mentions.length = 0 then
    [str "- لا توجد إشارات علنية إضافية. / " ++ str "No additional public mentions."]
  else e.mentions.map (fun mention => listItem (inlineCode (escapePublicText mention.pseudonym) ++ str " → " ++
    inboxReceiptLink mention.receiptId output))

def referenceLine (output : Option Str) (reference : ResultReference) : Str :=
  listItem (inboxReceiptLink reference.receiptId output ++ str " — " ++
    inlineCode (escapePublicText reference.pseudonym) ++ str " — " ++
    inlineCode (escapePublicText reference.kind) ++ str " — final: " ++
    inlineCode (if reference.isFinal then str "true" else str "false") ++ str " — sha256 " ++
    inlineCode (escapePublicText reference.artifactSha256))

def referenceLines (e : Comment) (output : Option Str) : List Str :=
  if e.resultReferences.length = 0 then
    [str "- لا توجد مراجع نتائج مصرح بها. / " ++ str "No declared result references."]
  else e.resultReferences.map (referenceLine output)

/-- The lines between the body and the machine binding. -/
def boundaryLines (e : Comment) (output : Option Str) : List Str :=
  [[], str "## حدود الادعاء / Claim boundaries", []] ++
    e.claimBoundaries.map (fun claim => listItem (escapePublicText claim)) ++
    [[], str "## الإشارات / Mentions", []] ++ mentionLines e output ++
    [[], str "## مراجع النتائج / Result references", []] ++ referenceLines e output ++
    [[], str "## الربط الآلي / Machine binding", []]

/-- The texts that stand before the body. -/
def linesBefore (e : Comment) (output : Option Str) : List Str :=
  metadataLines e output ++ [locationRow e] ++ labelLines e

def jsonFence : Str := [backtick, backtick, backtick] ++ str "json"

def jsonBlock (e : Comment) : Str := indentedText [] (machineBinding e)

/-- `renderComment`. -/
def renderComment (e : Comment) (output : Option Str) : List Str :=
  linesBefore e output ++ [openingFence, sanitizeCommentBody e.body, closingFence] ++ boundaryLines e output ++
    [jsonFence, jsonBlock e, closingFence, []]

/-- `trimEnd`. -/
def trimEnd (s : Str) : Str := (s.reverse.dropWhile isSpace).reverse

/-- `renderEvidenceMarkdown` of a comment. -/
def renderEvidenceMarkdown (e : Comment) (output : Option Str) : Str :=
  trimEnd (joinLines (headerLines ++ renderComment e output)) ++ [Markdown.lineFeed]

end Cards
end Adg
