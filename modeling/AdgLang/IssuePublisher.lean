import AdgLang.IssueIntake
/-!
# IssuePublisher — what the publisher makes of a report

The functions of `publish-portal-issue-reports.mjs`: an item of a claim is read and checked, an issue that has its marker
is looked for, page by page, and a receipt is signed for the issue it ends up with.
-/
namespace Adg
namespace Issues

open Js Protocol

/-- What `randomUUID` returns. -/
abbrev Uuid4 := { s : Str // isUuid4 (.string s) = true }

/-- An object with its signature. -/
def signEnvelope (env : Environment) (fields : List (String × Value)) : Value :=
  record (fields ++ [("hmacSha256", .string (env.hmacSha256 (record fields).text).1)])

/-! ## Claims -/

def defaultMaxItems : Nat := 20

def claimFields (env : Environment) (claimNonce : Uuid4) (requestedAt : Nat) : List (String × Value) :=
  [("schema", .string portalIssueReportClaimSchema), ("repository", .string env.repository),
    ("nonce", .string claimNonce.1), ("requestedAtUtc", .string (toISOString requestedAt)),
    ("maxItems", .number (.ofNat defaultMaxItems))]

def claimRequest (env : Environment) (claimNonce : Uuid4) (requestedAt : Nat) : Str :=
  (signEnvelope env (claimFields env claimNonce requestedAt)).text

/-- The payload of an item, where the item is whole. -/
def readItem (env : Environment) (item : ClaimItem) : Except Str Value :=
  match parse item.payloadJson with
  | none => .error (str "SyntaxError")
  | some value => do
    let payload ← validatePortalIssuePublicPayload value
    if isText (payload.property "reportId") item.reportId = false ∨
        item.contentSha256 ≠ (env.sha256Hex item.payloadJson).1 then
      .error (str "Portal issue-report payload integrity failed.")
    else .ok payload

/-! ## Issues -/

/-- An issue as the service lists it. -/
structure Issue where
  number : Number
  htmlUrl : Str
  body : Option Str
  isPullRequest : Bool

def validCreatedIssueUrl (env : Environment) (value : Str) (issueNumber : Number) : Bool :=
  match env.parseUrl value with
  | none => false
  | some parsed => decide (parsed.protocol = str "https:") && decide (parsed.hostname = str "github.com") &&
      decide (parsed.pathname = issuePath env.repository (.number issueNumber)) && decide (parsed.search = []) &&
      decide (parsed.hash = [])

def Issue.isValid (env : Environment) (issue : Issue) : Bool :=
  isPositive (.number issue.number) && validCreatedIssueUrl env issue.htmlUrl issue.number

/-- `includes`. -/
def includes (s marker : Str) : Bool := s.tails.any (fun t => marker.isPrefixOf t)

def Issue.hasMarker (marker : Str) (issue : Issue) : Bool :=
  issue.body.any (fun body => includes body marker) && !issue.isPullRequest

/-- The issues of a page of the listing, from the newest on. -/
def pageOf (page : Nat) (listing : List Issue) : List Issue := (listing.drop (100 * (page - 1))).take 100

/-- What a page of the listing leads to. -/
inductive Search
  | found (issue : Issue)
  | next
  | absent
  | invalid

/-- `findExistingIssue`, at one of its ten pages. -/
def findExistingIssue (env : Environment) (marker : Str) (page : Nat) (listing : List Issue) : Search :=
  match (pageOf page listing).find? (Issue.hasMarker marker) with
  | some found => if found.isValid env then .found found else .invalid
  | none => if (pageOf page listing).length < 100 ∨ 10 ≤ page then .absent else .next

/-- The title and the body of the issue that is created for a payload. -/
def issueText (payload : Value) : Except Str (Str × Str) := do
  let title ← portalIssueTitle payload
  let body ← renderPortalIssueMarkdown payload
  return (title, body)

/-! ## Receipts -/

def receiptFields (env : Environment) (claimNonce nonce : Uuid4) (acceptedAt : Nat) (payload : Value) (item : ClaimItem)
    (issue : Issue) : List (String × Value) :=
  [("schema", .string portalIssueReportReceiptSchema), ("repository", .string env.repository), ("nonce", .string nonce.1),
    ("claimNonce", .string claimNonce.1), ("reportId", payload.property "reportId"),
    ("contentSha256", .string item.contentSha256), ("issueNumber", .number issue.number),
    ("issueUrl", .string issue.htmlUrl), ("acceptedAtUtc", .string (toISOString acceptedAt))]

/-- The request that reports an issue for an item. -/
def receiptRequest (env : Environment) (claimNonce nonce : Uuid4) (acceptedAt : Nat) (item : ClaimItem) (issue : Issue) :
    Except Str Str := do
  let payload ← readItem env item
  return (signEnvelope env (receiptFields env claimNonce nonce acceptedAt payload item issue)).text

/-! ## What the portal reads of a signed request -/

theorem filter_key {α : Type} {properties : List (Str × α)} {key : Str} (h : ∀ p ∈ properties, p.1 ≠ key) (value : α) :
    (properties ++ [(key, value)]).filter (fun p => p.1 != key) = properties := by
  rw [List.filter_append, List.filter_eq_self.2 (fun p hp => by rw [bne_iff_ne]; exact h p hp),
    List.filter_cons_of_neg (by simp), List.filter_nil, List.append_nil]

/-- **A signed request gives its signature and its envelope back.** -/
theorem read_signEnvelope (env : Environment) {fields : List (String × Value)} (keys : List String)
    (hfields : fields.map Prod.fst = keys) (hkeys : DistinctKeys (keys ++ ["hmacSha256"]))
    (hordered : orderedKeys ((keys ++ ["hmacSha256"]).map str) = true) (hjson : ∀ f ∈ fields, f.2.Json)
    (hkept : ∀ f ∈ fields, f.2.reread = f.2) :
    parse (signEnvelope env fields).text = some (signEnvelope env fields) ∧
      signatureOf (signEnvelope env fields) = .string (env.hmacSha256 (record fields).text).1 ∧
      envelopeOf (signEnvelope env fields) = record fields := by
  generalize hsigned : signEnvelope env fields = signed
  have hall : (fields ++ [("hmacSha256", Value.string (env.hmacSha256 (record fields).text).1)]).map Prod.fst =
      keys ++ ["hmacSha256"] := by
    rw [List.map_append, hfields]
    rfl
  have hsignedJson : signed.Json := by
    rw [← hsigned]
    refine json_record (keys ++ ["hmacSha256"]) hall hordered (fun f hf => ?_)
    rcases List.mem_append.1 hf with hf | hf
    · exact hjson f hf
    · rw [List.mem_singleton.1 hf]
      exact ⟨rfl, rfl⟩
  have hsignedKept : signed.reread = signed := by
    rw [← hsigned, signEnvelope, reread_record]
    congr 1
    have hid : ∀ f ∈ fields ++ [("hmacSha256", Value.string (env.hmacSha256 (record fields).text).1)],
        (f.1, f.2.reread) = id f := fun f hf => by
      rcases List.mem_append.1 hf with hf | hf
      · rw [hkept f hf]
        rfl
      · rw [List.mem_singleton.1 hf]
        rfl
    rw [List.map_congr_left hid, List.map_id]
  refine ⟨?_, ?_, ?_⟩
  · rw [parse_text hsignedJson, hsignedKept]
  · rw [← hsigned]
    exact property_record (keys ++ ["hmacSha256"]) hall hkeys (by simp)
  · have hne : ∀ p ∈ fields.map (fun f => (str f.1, f.2)), p.1 ≠ str "hmacSha256" := by
      intro p hp heq
      have hmem : p.1 ∈ keys.map str := by
        rw [← hfields, ← record_keys]
        exact List.mem_map_of_mem hp
      rw [DistinctKeys, List.map_append, List.nodup_append] at hkeys
      exact hkeys.2.2 _ hmem (str "hmacSha256") (by simp) heq
    rw [← hsigned, signEnvelope, record, envelopeOf, List.map_append]
    exact congrArg Value.object (filter_key hne _)

end Issues
end Adg
