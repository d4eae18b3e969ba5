import AdgLang.IssueForms
import AdgLang.Machine
import AdgLang.Table
import Mathlib.Data.List.Sort
/-!
# IssueIntake — the portal's table of issue reports

The requests of `index.js` about issue reports: `createPortalIssueReport` stores one, `claimPortalIssueReports` hands
stored ones to a publisher, and `receivePortalIssueReportReceipt` links one to the issue that was made of it.  A request
is one step of the portal; the hash functions and the reader of addresses are the platform's.
-/
namespace Adg
namespace Issues

open Js Protocol

/-! ## Environment -/

/-- What `new URL` makes of a text. -/
structure UrlParts where
  protocol : Str
  hostname : Str
  port : Str
  username : Str
  password : Str
  search : Str
  hash : Str
  pathname : Str
deriving DecidableEq

def isLowerHexDigit (u : UInt16) : Bool := isOneOf "0123456789abcdef" u

/-- `/^[a-f0-9]{64}$/`. -/
def digestPattern : Pattern := .whole (.row (List.replicate 64 isLowerHexDigit))

/-- A digest of 32 bytes in lower case. -/
abbrev HexDigest := { s : Str // digestPattern.test s = true }

structure Environment where
  repository : Str
  sha256Hex : Str → HexDigest
  /-- With the key that portal and publisher share. -/
  hmacSha256 : Str → HexDigest
  parseUrl : Str → Option UrlParts

/-- `isUuid` of `index.js`, with version 4 alone. -/
def isUuid4 : Value → Bool
  | .string s => (uuidPattern (isOneOf "4")).test s
  | _ => false

inductive RequestError
  | publicError (message : Str) (status : Nat)
  | database
deriving DecidableEq

def publicError (message : String) (status : Nat) : RequestError := .publicError (str message) status

/-! ## Tables -/

inductive ReportStatus
  | pending
  | claimed
  | published
deriving DecidableEq

/-- A row of `portal_issue_reports`. -/
structure ReportRow where
  id : Str
  userId : Str
  category : Str
  summary : Str
  payloadJson : Str
  contentSha256 : Str
  status : ReportStatus
  claimNonce : Option Str
  claimExpiresAt : Option Nat
  attempts : Nat
  githubIssueNumber : Option Number
  githubIssueUrl : Option Str
  createdAt : Nat
  updatedAt : Nat
  publishedAt : Option Nat
deriving DecidableEq

/-- A row of `portal_issue_report_claims`. -/
structure ClaimRow where
  nonce : Str
  requestedAt : Nat
  claimedAt : Nat
deriving DecidableEq

structure Tables where
  reports : List ReportRow
  reportsKeyed : Table.Keyed ReportRow.id reports
  claims : List ClaimRow

def Tables.report (s : Tables) (id : Str) : Option ReportRow := Table.lookup ReportRow.id id s.reports

/-- The rows after an update that leaves the ids alone. -/
def Tables.updateReports (s : Tables) (p : ReportRow → Bool) (f : ReportRow → ReportRow) (hf : ∀ r, (f r).id = r.id) :
    Tables where
  reports := Table.update p f s.reports
  reportsKeyed := s.reportsKeyed.update hf
  claims := s.claims

/-! ## Intake -/

def hourMs : Nat := 60 * 60 * 1000

def portalIssueReportRateHour : Nat := 5

def portalIssueReportRateDay : Nat := 20

/-- The reports of an account that are not older. -/
def Tables.countSince (s : Tables) (userId : Str) (now age : Nat) : Nat :=
  s.reports.countP (fun r => decide (r.userId = userId) && decide (now ≤ r.createdAt + age))

/-- The account has not sent too many reports within the hour and the day. -/
def Tables.isWithinRates (s : Tables) (userId : Str) (now : Nat) : Bool :=
  decide (s.countSince userId now hourMs < portalIssueReportRateHour) &&
    decide (s.countSince userId now (24 * hourMs) < portalIssueReportRateDay)

/-- The length of a text in the database: its code points. -/
def sqlLength (s : Str) : Nat := (scalars s).length

/-- The conditions that the table puts on its columns. -/
def ReportRow.meetsChecks (r : ReportRow) : Bool :=
  decide (sqlLength r.id = 36) && (portalIssueCategories.map Prod.fst).contains r.category &&
    decide (10 ≤ sqlLength r.summary) && decide (sqlLength r.summary ≤ 160) && decide (2 ≤ sqlLength r.payloadJson) &&
    decide (sqlLength r.payloadJson ≤ 12000)

/-- `value === text`, of a value that may be no text. -/
def sameText (value other : Value) : Bool :=
  match value with
  | .string s => isText other s
  | _ => false

def isNull : Value → Bool
  | .null => true
  | _ => false

def portalIssueInputMatchesPayload (input : ReportInput) (payloadJson : Str) : Bool :=
  match parse payloadJson with
  | none => false
  | some payload =>
    sameText input.reportId (payload.property "reportId") && sameText input.category (payload.property "category") &&
      isText (payload.property "summary") input.summary && isText (payload.property "details") input.details &&
      (match input.reproductionSteps with
        | none => isNull (payload.property "reproductionSteps")
        | some steps => isText (payload.property "reproductionSteps") steps) &&
      decide ((payload.property "context").text = input.context.text)

/-- A text that is bound to a statement. -/
def boundText : Value → Except RequestError Str
  | .string s => .ok s
  | _ => .error .database

def asRequestError {α : Type} (status : Nat) : Except Str α → Except RequestError α
  | .ok a => .ok a
  | .error message => .error (.publicError message status)

def newReport (env : Environment) (userId id category : Str) (input : ReportInput) (payloadJson : Str) (now : Nat) :
    ReportRow where
  id := id
  userId := userId
  category := category
  summary := input.summary
  payloadJson := payloadJson
  contentSha256 := (env.sha256Hex payloadJson).1
  status := .pending
  claimNonce := none
  claimExpiresAt := none
  attempts := 0
  githubIssueNumber := none
  githubIssueUrl := none
  createdAt := now
  updatedAt := now
  publishedAt := none

/-- The insertion of a report whose id is new, where the account has not sent too many. -/
def Tables.insertReport (s : Tables) (row : ReportRow) (now : Nat) : Except RequestError Tables :=
  if s.isWithinRates row.userId now = true then
    if hnew : ∀ r ∈ s.reports, r.id ≠ row.id then
      if row.meetsChecks = true then .ok { s with reports := s.reports ++ [row], reportsKeyed := s.reportsKeyed.append hnew }
      else .error .database
    else .error .database
  else .error (publicError "بلغت الحد المؤقت للبلاغات. انتظر قبل إرسال بلاغ آخر." 429)

/-- What a report is answered: whether it was there before, and its id. -/
structure Answer where
  duplicate : Bool
  reportId : Str
deriving DecidableEq

def createPortalIssueReport (env : Environment) (s : Tables) (userId : Str) (body : Value) (now : Nat) :
    Except RequestError (Answer × Tables) := do
  let input ← asRequestError 400 (validatePortalIssueReportInput body)
  let id ← boundText input.reportId
  match s.report id with
  | some existing =>
    if existing.userId ≠ userId ∨ portalIssueInputMatchesPayload input existing.payloadJson = false then
      .error (publicError "معرف البلاغ مستخدم لطلب مختلف." 409)
    else .ok (⟨true, id⟩, s)
  | none =>
    let payload ← asRequestError 500 (buildPortalIssuePublicPayload input (.string (toISOString now)))
    let category ← boundText input.category
    let s' ← s.insertReport (newReport env userId id category input payload.text now) now
    .ok (⟨false, id⟩, s')

/-! ## Signed requests -/

/-- `const { hmacSha256: signature, ...envelope } = signed || {}`. -/
def signatureOf (signed : Value) : Value := signed.property "hmacSha256"

def envelopeOf (signed : Value) : Value :=
  match signed with
  | .object properties => .object (properties.filter (fun p => p.1 != str "hmacSha256"))
  | _ => .object []

/-- `pattern.test(value || "")`, false where the value has no text. -/
def testsDigest (value : Value) : Bool :=
  match textOrEmpty value with
  | .ok t => digestPattern.test t
  | .error _ => false

def verifyHmacSha256 (env : Environment) (text : Str) (signature : Value) : Except RequestError Bool :=
  match signature with
  | .string s => .ok (decide (s = (env.hmacSha256 text).1))
  | _ => .error .database

/-- `Number.isSafeInteger(value) && value >= 1`. -/
def isPositive : Value → Bool
  | .number n => n.isSafeInteger && !n.lt (.ofNat 1)
  | _ => false

def claimWindowMs : Nat := 10 * 60 * 1000

/-- `Math.abs(a - b) <= width`. -/
def isWithin (width a b : Nat) : Bool := decide (a ≤ b + width) && decide (b ≤ a + width)

/-- `Date.parse`, where it is finite. -/
def dateOf (value : Value) : Option Nat := value.toText.bind parseDate

/-! ## Claims -/

def portalIssueReportClaimSchema : Str := str "adg-portal-issue-report-claim-v1"

def portalIssueReportClaimMaxItems : Nat := 20

def portalIssueReportClaimHoldMs : Nat := 60 * 60 * 1000

def validatePortalIssueReportClaimEnvelope (env : Environment) (envelope signature : Value) (now : Nat) :
    Except RequestError Unit :=
  if isText (envelope.property "schema") portalIssueReportClaimSchema && isUuid4 (envelope.property "nonce") &&
      isText (envelope.property "repository") env.repository && isPositive (envelope.property "maxItems") &&
      !isNumberAbove (envelope.property "maxItems") (.ofNat portalIssueReportClaimMaxItems) && testsDigest signature &&
      (dateOf (envelope.property "requestedAtUtc")).any (isWithin claimWindowMs now) then .ok ()
  else .error (publicError "صيغة طلب سحب البلاغات غير صالحة." 400)

/-- A report that may be handed out. -/
def ReportRow.isCandidate (now : Nat) (r : ReportRow) : Bool :=
  decide (r.status = .pending) || (decide (r.status = .claimed) && r.claimExpiresAt.any (fun t => decide (t ≤ now)))

def oldestReports (limit : Nat) (rows : List ReportRow) : List ReportRow :=
  (rows.insertionSort (fun a b => a.createdAt ≤ b.createdAt)).take limit

def ReportRow.claim (nonce : Str) (now : Nat) (r : ReportRow) : ReportRow :=
  { r with status := .claimed, claimNonce := some nonce, claimExpiresAt := some (now + portalIssueReportClaimHoldMs),
           attempts := r.attempts + 1, updatedAt := now }

/-- The updates of a claim, one for each candidate. -/
def Tables.claimReports (s : Tables) (nonce : Str) (now : Nat) (ids : List Str) : Tables :=
  s.updateReports (fun r => ids.contains r.id && r.isCandidate now) (.claim nonce now) (fun _ => rfl)

/-- What a publisher is handed of a report. -/
structure ClaimItem where
  reportId : Str
  contentSha256 : Str
  payloadJson : Str
deriving DecidableEq

def ReportRow.item (r : ReportRow) : ClaimItem := ⟨r.id, r.contentSha256, r.payloadJson⟩

/-- How many reports an envelope asks for. -/
def itemLimit (envelope : Value) : Nat :=
  match envelope.property "maxItems" with
  | .number n => min portalIssueReportClaimMaxItems (max 1 (natOf n.toText))
  | _ => portalIssueReportClaimMaxItems

/-- The body of a claim with a new nonce. -/
def Tables.claimNew (s : Tables) (nonce : Str) (requestedAt now limit : Nat) : Tables :=
  let candidates := oldestReports limit (s.reports.filter (·.isCandidate now))
  let claimed := s.claimReports nonce now (candidates.map ReportRow.id)
  { claimed with claims := Table.delete (fun c => decide (c.claimedAt + 30 * 24 * hourMs < now) && decide (c.nonce ≠ nonce))
                   (s.claims ++ [⟨nonce, requestedAt, now⟩]) }

/-- The rows that a nonce holds. -/
def Tables.claimedBy (s : Tables) (nonce : Str) : List ReportRow :=
  oldestReports portalIssueReportClaimMaxItems
    (s.reports.filter (fun r => decide (r.status = .claimed) && decide (r.claimNonce = some nonce)))

def claimPortalIssueReports (env : Environment) (s : Tables) (request : Str) (now : Nat) :
    Except RequestError (List ClaimItem × Tables) := do
  let some signed := parse request | .error (publicError "بيانات الطلب غير صالحة." 400)
  let envelope := envelopeOf signed
  validatePortalIssueReportClaimEnvelope env envelope (signatureOf signed) now
  let verified ← verifyHmacSha256 env envelope.text (signatureOf signed)
  if verified = false then .error (publicError "توقيع طلب سحب البلاغات غير صحيح." 401)
  else
    let nonce ← boundText (envelope.property "nonce")
    let s' := if s.claims.any (fun c => decide (c.nonce = nonce)) then s
      else s.claimNew nonce ((dateOf (envelope.property "requestedAtUtc")).getD 0) now (itemLimit envelope)
    .ok ((s'.claimedBy nonce).map ReportRow.item, s')

/-! ## Receipts -/

def portalIssueReportReceiptSchema : Str := str "adg-portal-issue-report-receipt-v1"

/-- The path of an issue: `/${repository}/issues/${issueNumber}`. -/
def issuePath (repository : Str) (issueNumber : Value) : Str :=
  unit '/' :: (repository ++ str "/issues/" ++ (issueNumber.toText.getD []))

def validPortalIssueUrl (env : Environment) (value issueNumber : Value) : Bool :=
  match value.toText.bind env.parseUrl with
  | none => false
  | some parsed => decide (parsed = ⟨str "https:", str "github.com", [], [], [], [], [], issuePath env.repository issueNumber⟩)

def validatePortalIssueReportReceiptEnvelope (env : Environment) (envelope signature : Value) (now : Nat) :
    Except RequestError Unit :=
  if isText (envelope.property "schema") portalIssueReportReceiptSchema &&
      isText (envelope.property "repository") env.repository && isUuid4 (envelope.property "nonce") &&
      isUuid4 (envelope.property "claimNonce") && isUuid4 (envelope.property "reportId") &&
      testsDigest (envelope.property "contentSha256") && isPositive (envelope.property "issueNumber") &&
      validPortalIssueUrl env (envelope.property "issueUrl") (envelope.property "issueNumber") &&
      (dateOf (envelope.property "acceptedAtUtc")).any (isWithin claimWindowMs now) && testsDigest signature then .ok ()
  else .error (publicError "صيغة إيصال بلاغ المنصة غير صالحة." 400)

def ReportRow.publish (number : Number) (url : Str) (publishedAt : Nat) (r : ReportRow) : ReportRow :=
  { r with status := .published, githubIssueNumber := some number, githubIssueUrl := some url,
           publishedAt := some publishedAt, updatedAt := publishedAt, claimExpiresAt := none }

/-- The row is linked to this issue. -/
def ReportRow.isLinkedTo (r : ReportRow) (number url : Value) : Bool :=
  match number, url with
  | .number n, .string u => decide (r.githubIssueNumber = some n) && decide (r.githubIssueUrl = some u)
  | _, _ => false

def Tables.publishReport (s : Tables) (id contentSha256 claimNonce : Str) (number : Number) (url : Str)
    (publishedAt : Nat) : Tables :=
  s.updateReports (fun r => decide (r.id = id) && decide (r.contentSha256 = contentSha256) &&
    decide (r.status = .claimed) && decide (r.claimNonce = some claimNonce)) (.publish number url publishedAt) (fun _ => rfl)

/-- A receipt whose envelope and signature are right. -/
def Tables.acceptReceipt (s : Tables) (envelope : Value) : Except RequestError Tables := do
  let reportId ← boundText (envelope.property "reportId")
  match s.report reportId with
  | none => .error (publicError "البلاغ المرتبط بالإيصال غير موجود." 404)
  | some stored =>
    if isText (envelope.property "contentSha256") stored.contentSha256 = false then
      .error (publicError "البلاغ المرتبط بالإيصال غير موجود." 404)
    else if stored.claimNonce.any (isText (envelope.property "claimNonce")) = false then
      .error (publicError "إيصال البلاغ لا يطابق دورة السحب الحالية." 409)
    else if stored.status = .published then
      if stored.isLinkedTo (envelope.property "issueNumber") (envelope.property "issueUrl") = false then
        .error (publicError "سبق ربط البلاغ بمسألة أخرى." 409)
      else .ok s
    else if stored.status ≠ .claimed then .error (publicError "لم يُسحب البلاغ للنشر بعد." 409)
    else
      match envelope.property "issueNumber", envelope.property "issueUrl", envelope.property "claimNonce" with
      | .number number, .string url, .string claimNonce =>
        .ok (s.publishReport reportId stored.contentSha256 claimNonce number url
          ((dateOf (envelope.property "acceptedAtUtc")).getD 0))
      | _, _, _ => .error .database

def receivePortalIssueReportReceipt (env : Environment) (s : Tables) (request : Str) (now : Nat) :
    Except RequestError Tables := do
  let some signed := parse request | .error (publicError "بيانات الطلب غير صالحة." 400)
  let envelope := envelopeOf signed
  validatePortalIssueReportReceiptEnvelope env envelope (signatureOf signed) now
  let verified ← verifyHmacSha256 env envelope.text (signatureOf signed)
  if verified = false then .error (publicError "توقيع إيصال البلاغ غير صحيح." 401)
  else s.acceptReceipt envelope

end Issues
end Adg
