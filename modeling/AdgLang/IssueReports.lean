import AdgLang.PublicText
import AdgLang.JsDate
/-!
# IssueReports — what an issue report may say

`issue-reporting.js`: the input of a report and its context, the texts brought into one form, the payload that is stored
and published, and the issue it is rendered as.  `validatePortalIssuePublicPayload` reads a payload as an input again, so
each form is one that the form of a text is itself (`singleLine_singleLine`, `multiline_multiline`).
-/
namespace Adg
namespace Issues

open Js Protocol

/-! ## Values -/

/-- An object with these properties. -/
def record (fields : List (String × Value)) : Value := .object (fields.map (fun f => (str f.1, f.2)))

def plainObject : Value → Bool
  | .object _ | .bytes _ => true
  | _ => false

def hasUnknownKeys (value : Value) (allowed : List String) : Bool :=
  match value with
  | .object properties => properties.any (fun p => !(allowed.map str).contains p.1)
  | _ => false

/-- `value === true`. -/
def isTrue : Value → Bool
  | .bool b => b
  | _ => false

/-- `typeof value === "boolean"`. -/
def isBoolean : Value → Bool
  | .bool _ => true
  | _ => false

/-- `value ?? null`. -/
def orNull (value : Value) : Value := if isNullish value then .null else value

/-- `String(value || "")`. -/
def textOrEmpty (value : Value) : Except Str Str := if value.truthy then textOf value else .ok []

def isHexDigit (u : UInt16) : Bool := (hexValue u).isSome

def isVariant (u : UInt16) : Bool := isOneOf "89abAB" u

/-- The sets of a UUID whose version is one of these. -/
def uuidSets (version : UInt16 → Bool) : List (UInt16 → Bool) :=
  let hex := fun n => List.replicate n isHexDigit
  let dash := [fun u => u == unit '-']
  hex 8 ++ dash ++ hex 4 ++ dash ++ [version] ++ hex 3 ++ dash ++ [isVariant] ++ hex 3 ++ dash ++ hex 12

def uuidPattern (version : UInt16 → Bool) : Pattern := .whole (.row (uuidSets version))

/-- `isUuid`, with the versions from 1 to 5. -/
def isUuid : Value → Bool
  | .string s => (uuidPattern (isOneOf "12345")).test s
  | _ => false

/-! ## Constants -/

def portalIssueReportSchema : Str := str "adg-portal-issue-report-v1"

def portalIssueCategories : List (Str × Str) :=
  [("access", "الدخول أو مفتاح المرور"), ("task-inbox", "قائمة المهام أو فتح المهمة"),
    ("autosave", "الحفظ التلقائي أو استعادة المسودة"), ("adjudication", "واجهة التحليل أو الحقول اللغوية"),
    ("submission", "مراجعة النتيجة أو الإرسال"), ("display", "العرض أو التوافق مع الجهاز"),
    ("other", "خلل آخر")].map (fun c => (str c.1, str c.2))

/-- `PORTAL_ISSUE_CATEGORIES[category]`. -/
def categoryLabel (category : Value) : Except Str (Option Str) := do
  let key ← textOf category
  return (portalIssueCategories.find? (fun c => c.1 == key)).map Prod.snd

def reportInputKeys : List String :=
  ["schema", "reportId", "category", "summary", "details", "reproductionSteps", "privacyConfirmed", "context"]

def reportContextKeys : List String := ["portalVersion", "step", "taskVersionId", "taskLane", "operationalMode"]

def reportPublicPayloadKeys : List String :=
  ["schema", "reportId", "category", "categoryLabelAr", "summary", "details", "reproductionSteps", "context",
    "createdAtUtc"]

/-- `/\b(?:gh[pousr]_[A-Za-z0-9_]{20,}|sk-[A-Za-z0-9_-]{20,}|Bearer\s+[…]{12,})\b/u`, with the units of a token. -/
def credentialPattern : Pattern :=
  .seqs [.boundary isWord,
    .alt (.seqs [.literal (str "gh"), .set (isOneOf "pousr"), .literal (str "_"), .atLeast 20 (.set isWord)])
      (.alt (.seqs [.literal (str "sk-"), .atLeast 20 (.set (fun u => isWord u || isOneOf "-" u))])
        (.seqs [.literal (str "Bearer"), .plus (.set isSpace),
          .atLeast 12 (.set (fun u => isAlphanumeric u || isOneOf "._/~+-" u))])),
    .boundary isWord]

/-- `/(?:https?:\/\/|www\.)/iu`. -/
def urlPattern : Pattern :=
  .alt (.seqs [anyCase "http", .opt (anyCase "s"), .literal (str "://")]) (.seqs [anyCase "www", .literal (str ".")])

def isIdentifierUnit (u : UInt16) : Bool := isAlphanumeric u || isOneOf "._:-" u

/-- `/^[A-Za-z0-9][A-Za-z0-9._:-]{2,200}$/u`. -/
def identifierPattern : Pattern := .whole (.seq (.set isAlphanumeric) (.between 2 200 (.set isIdentifierUnit)))

def versionPart : Pattern := .between 1 3 (.set isDigit)

/-- `/^\d{1,3}\.\d{1,3}\.\d{1,3}$/u`. -/
def versionPattern : Pattern :=
  .whole (.seqs [versionPart, .literal (str "."), versionPart, .literal (str "."), versionPart])

/-! ## Texts -/

/-- `trim`. -/
def trim (s : Str) : Str := ((s.dropWhile isSpace).reverse.dropWhile isSpace).reverse

def isBlank (u : UInt16) : Bool := u == unit ' ' || u == unit '\t'

/-- `replace(/[ \t]+/gu, " ")`; `afterBlank` says that the unit before was one of the run. -/
def collapseBlanks (afterBlank : Bool) : Str → Str
  | [] => []
  | u :: rest =>
    if isBlank u then if afterBlank then collapseBlanks true rest else unit ' ' :: collapseBlanks true rest
    else u :: collapseBlanks false rest

attribute [grind =] collapseBlanks

/-- `replace(/\r\n?/gu, "\n")`; `afterReturn` says that the unit before was a carriage return. -/
def lineFeeds (afterReturn : Bool) : Str → Str
  | [] => []
  | u :: rest =>
    if u = unit '\r' then unit '\n' :: lineFeeds true rest
    else if u = unit '\n' ∧ afterReturn = true then lineFeeds false rest
    else u :: lineFeeds false rest

def lengthMessage (label : String) (minimum maximum : Nat) : Str :=
  str label ++ str " يجب أن يكون بين " ++ natStr minimum ++ str " و" ++ natStr maximum ++ str " حرفًا."

def singleLine (value : Value) (minimum maximum : Nat) (label : String) : Except Str Str := do
  let text ← textOrEmpty value
  let normalized := collapseBlanks false (trim text)
  if normalized.length < minimum ∨ maximum < normalized.length ∨ normalized.any (isOneOf "\r\n") = true then
    .error (lengthMessage label minimum maximum)
  else .ok normalized

def multiline (value : Value) (minimum maximum : Nat) (label : String) : Except Str Str := do
  let text ← textOrEmpty value
  let normalized := trim (lineFeeds false text)
  if normalized.length < minimum ∨ maximum < normalized.length then .error (lengthMessage label minimum maximum)
  else .ok normalized

def optionalMultiline (value : Value) (maximum : Nat) (label : String) : Except Str (Option Str) :=
  if isNullish value then .ok none
  else do
    let text ← textOf value
    if trim text = [] then .ok none
    else
      let normalized ← multiline value 1 maximum label
      .ok (some normalized)

/-- `null` where there is no text. -/
def optionalText : Option Str → Value
  | none => .null
  | some s => .string s

def linksMessage : Str := str "لا تُدرج روابط أو مفاتيح أو رموز دخول في البلاغ العام."

def contentMessage : Str := str "احذف بيانات التواصل أو الشيفرة النشطة أو المحتوى غير الآمن من البلاغ."

/-- `values.filter(Boolean).join("\n")`. -/
def joined (summary details : Str) (steps : Option Str) : Str :=
  [unit '\n'].intercalate ((summary :: details :: steps.toList).filter (fun s => !s.isEmpty))

def validateReportText (summary details : Str) (steps : Option Str) : Except Str Unit :=
  let text := joined summary details steps
  if urlPattern.test text || credentialPattern.test text then .error linksMessage
  else
    match validatePublicArtifactText (record [("note", .string summary), ("rationale", .string details),
      ("resolutionNote", optionalText steps)]) with
    | .error _ => .error contentMessage
    | .ok () => .ok ()

/-! ## Reports -/

def contextMessage : Str := str "السياق التقني للبلاغ غير صالح."

def taskMessage : Str := str "معرف المهمة في البلاغ غير صالح."

/-- `[null, "standard", "operational-test"].includes(value)`. -/
def isLane (value : Value) : Bool :=
  match value with
  | .null => true
  | .string s => decide (s = str "standard") || decide (s = str "operational-test")
  | _ => false

def isStep : Value → Bool
  | .number n => n.isSafeInteger && !n.lt (.ofNat 1) && !(Number.ofNat 5).lt n
  | _ => false

def validatePortalIssueContext (value : Value) : Except Str Value := do
  if (!plainObject value || hasUnknownKeys value reportContextKeys) = true then throw contextMessage
  let version ← textOrEmpty (value.property "portalVersion")
  if (!versionPattern.test version || !isStep (value.property "step") ||
      !isLane (orNull (value.property "taskLane")) || !isBoolean (value.property "operationalMode")) = true then
    throw contextMessage
  let taskVersionId := orNull (value.property "taskVersionId")
  if (!isNullish taskVersionId) = true then
    let text ← textOf taskVersionId
    if (!identifierPattern.test text) = true then throw taskMessage
  return record [("portalVersion", value.property "portalVersion"), ("step", value.property "step"),
    ("taskVersionId", taskVersionId), ("taskLane", orNull (value.property "taskLane")),
    ("operationalMode", value.property "operationalMode")]

/-- What `validatePortalIssueReportInput` returns. -/
structure ReportInput where
  reportId : Value
  category : Value
  summary : Str
  details : Str
  reproductionSteps : Option Str
  context : Value

def incompleteMessage : Str := str "بيانات البلاغ غير مكتملة أو تحتوي حقولًا غير مسموحة."

def categoryMessage : Str := str "تصنيف البلاغ غير صالح."

def validatePortalIssueReportInput (value : Value) : Except Str ReportInput := do
  if (!plainObject value || !isText (value.property "schema") portalIssueReportSchema ||
      !isUuid (value.property "reportId") || !isTrue (value.property "privacyConfirmed") ||
      hasUnknownKeys value reportInputKeys) = true then
    throw incompleteMessage
  let label ← categoryLabel (value.property "category")
  if label.isNone = true then throw categoryMessage
  let summary ← singleLine (value.property "summary") 10 160 "ملخص البلاغ"
  let details ← multiline (value.property "details") 20 4000 "وصف الخلل"
  let reproductionSteps ← optionalMultiline (value.property "reproductionSteps") 2000 "خطوات إعادة الخلل"
  validateReportText summary details reproductionSteps
  let context ← validatePortalIssueContext (value.property "context")
  return ⟨value.property "reportId", value.property "category", summary, details, reproductionSteps, context⟩

/-- `Date.parse` is finite. -/
def isDate (value : Value) : Bool :=
  match value.toText with
  | some t => (parseDate t).isSome
  | none => false

def payloadMessage : Str := str "تعذر إنشاء حمولة البلاغ الآمنة."

def buildPortalIssuePublicPayload (input : ReportInput) (createdAtUtc : Value) : Except Str Value := do
  if (!isDate createdAtUtc) = true then throw payloadMessage
  let label ← categoryLabel input.category
  return record [("schema", .string portalIssueReportSchema), ("reportId", input.reportId),
    ("category", input.category), ("categoryLabelAr", (label.map .string).getD .undefined),
    ("summary", .string input.summary), ("details", .string input.details),
    ("reproductionSteps", optionalText input.reproductionSteps), ("context", input.context),
    ("createdAtUtc", createdAtUtc)]

def invalidPayloadMessage : Str := str "حمولة بلاغ المنصة غير صالحة."

def validatePortalIssuePublicPayload (value : Value) : Except Str Value := do
  if (!plainObject value || !isText (value.property "schema") portalIssueReportSchema ||
      !isUuid (value.property "reportId") || hasUnknownKeys value reportPublicPayloadKeys) = true then
    throw invalidPayloadMessage
  let label ← categoryLabel (value.property "category")
  if (!(label.any (isText (value.property "categoryLabelAr"))) || !isDate (value.property "createdAtUtc")) = true then
    throw invalidPayloadMessage
  let input ← validatePortalIssueReportInput (record [("schema", .string portalIssueReportSchema),
    ("reportId", value.property "reportId"), ("category", value.property "category"),
    ("summary", value.property "summary"), ("details", value.property "details"),
    ("reproductionSteps", value.property "reproductionSteps"), ("privacyConfirmed", .bool true),
    ("context", value.property "context")])
  buildPortalIssuePublicPayload input (value.property "createdAtUtc")

/-! ## Issues -/

def portalIssueReportMarker (reportId : Value) : Except Str Str :=
  match reportId with
  | .string s => if isUuid reportId then .ok (str "adg-portal-report-id:" ++ s) else .error (str "معرف البلاغ غير صالح.")
  | _ => .error (str "معرف البلاغ غير صالح.")

def escapeMarkdown (value : Str) : Str :=
  (value.flatMap (fun u => if u = unit '\\' then str "\\\\" else [u])).flatMap
    (fun u => if isOneOf "`*_[]<>#@|" u then [unit '\\', u] else [u])

def escapeInlineCode (value : Value) : Except Str Str := do
  let text ← textOf value
  return text.filter (fun u => u != 0x60)

def portalIssueTitle (payload : Value) : Except Str Str := do
  let value ← validatePortalIssuePublicPayload payload
  let summary ← textOf (value.property "summary")
  return ((str "[بوابة التحكيم] " ++ summary).map (fun u => if u = unit '@' then 0xFF20 else u)).take 220

/-- `lines.join("\n")`. -/
def joinLines (lines : List Str) : Str := [unit '\n'].intercalate lines

/-- The section of the steps, where there are any. -/
def stepsLines (steps : Value) : Except Str (List Str) :=
  if steps.truthy then do
    let text ← textOf steps
    return [[], str "### خطوات إعادة الخلل", [], escapeMarkdown text]
  else .ok []

/-- The line of the task, where there is one. -/
def taskLines (taskVersionId : Value) : Except Str (List Str) :=
  if taskVersionId.truthy then do
    let text ← escapeInlineCode taskVersionId
    return [str "- معرّف إصدار المهمة العام: `" ++ text ++ str "`"]
  else .ok []

def renderPortalIssueMarkdown (payload : Value) : Except Str Str := do
  let value ← validatePortalIssuePublicPayload payload
  let context := value.property "context"
  let marker ← portalIssueReportMarker (value.property "reportId")
  let label ← textOf (value.property "categoryLabelAr")
  let summary ← textOf (value.property "summary")
  let details ← textOf (value.property "details")
  let steps ← stepsLines (value.property "reproductionSteps")
  let version ← escapeInlineCode (context.property "portalVersion")
  let step ← textOf (context.property "step")
  let lane ← escapeInlineCode (if (context.property "taskLane").truthy then context.property "taskLane"
    else .string (str "غير محدد"))
  let task ← taskLines (context.property "taskVersionId")
  let reportId ← textOf (value.property "reportId")
  let createdAtUtc ← textOf (value.property "createdAtUtc")
  return joinLines ([str "<!-- " ++ marker ++ str " -->", [], str "## بلاغ من منصّة تحكيم اللغة العربية", [],
      str ("> أُرسل هذا البلاغ آليًا من القناة المجهّلة في المنصّة. " ++
        "لا يتضمن اسم المحكّم أو بريده أو حساباته أو مسودته أو قراراته اللغوية."), [],
      str "**التصنيف:** " ++ escapeMarkdown label, [], str "### الملخص", [], escapeMarkdown summary, [],
      str "### وصف الخلل", [], escapeMarkdown details] ++ steps ++
    [[], str "### سياق تقني آمن", [], str "- إصدار المنصّة: `" ++ version ++ str "`",
      str "- الخطوة: `" ++ step ++ str "`", str "- مسار المهمة: `" ++ lane ++ str "`",
      str "- وضع الاختبار التشغيلي: `" ++
        str (if (context.property "operationalMode").truthy then "نعم" else "لا") ++ str "`"] ++ task ++
    [[], str "---", str "معرّف البلاغ: `" ++ reportId ++ str "`",
      str "وقت الاستلام: `" ++ createdAtUtc ++ str "`"]) ++ [unit '\n']

end Issues
end Adg
