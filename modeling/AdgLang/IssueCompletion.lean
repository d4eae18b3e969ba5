import AdgLang.Fallible
import AdgLang.IssuePublisher
/-!
# IssueCompletion — which reports can be finished

A run of the portal is any sequence of its requests about reports.  Every stored row comes from an accepted body
(`sound`), its payload is read back as it was written, and the receipt for it is accepted: all but for two kinds of
report, whose bodies `Completes` leaves out (`report_finishes_iff`).
-/
namespace Adg
namespace Issues

open Js Protocol

/-! ## The portal -/

inductive Request
  | create (userId : Str) (body : Document) (now : Nat)
  | claim (request : Str) (now : Nat)
  | receipt (request : Str) (now : Nat)

/-- A refused request leaves the tables as they are; a time is one that a date can have. -/
def step (env : Environment) (s : Tables) : Request → Option Tables
  | .create userId body now =>
    if now ≤ maxTime then
      some (match createPortalIssueReport env s userId body.1 now with
        | .ok (_, s') => s'
        | .error _ => s)
    else none
  | .claim request now =>
    some (match claimPortalIssueReports env s request now with
      | .ok (_, s') => s'
      | .error _ => s)
  | .receipt request now =>
    some (match receivePortalIssueReportReceipt env s request now with
      | .ok s' => s'
      | .error _ => s)

def portal (env : Environment) : Machine Tables Request := ⟨step env⟩

def noReports : Tables := ⟨[], List.nodup_nil, []⟩

/-- The row was stored for this body. -/
def ReportRow.IsOf (env : Environment) (r : ReportRow) (body : Document) : Prop :=
  ∃ input time payload, validatePortalIssueReportInput body.1 = .ok input ∧ input.reportId = .string r.id ∧
    (∃ s, input.category = .string s) ∧ time ≤ maxTime ∧
    buildPortalIssuePublicPayload input (.string (toISOString time)) = .ok payload ∧ r.payloadJson = payload.text ∧
    r.contentSha256 = (env.sha256Hex payload.text).1

/-- What holds of every row: it was stored for a body, and a claim on it has a UUID of version 4. -/
structure ReportRow.Sound (env : Environment) (r : ReportRow) : Prop where
  body : ∃ body : Document, r.IsOf env body
  claim : ∀ nonce, r.claimNonce = some nonce → isUuid4 (.string nonce) = true

theorem insertReport_spec {s s' : Tables} {row : ReportRow} {now : Nat} (h : s.insertReport row now = .ok s') :
    s'.reports = s.reports ++ [row] ∧ (∀ r ∈ s.reports, r.id ≠ row.id) ∧ row.meetsChecks = true := by
  unfold Tables.insertReport at h
  split at h
  · split at h
    · rename_i hnew
      split at h
      · rename_i hchecks
        have h := Except.ok.inj h
        rw [← h]
        exact ⟨rfl, hnew, hchecks⟩
      · cases h
    · cases h
  · cases h

theorem boundText_ok {v : Value} {s : Str} (h : boundText v = .ok s) : v = .string s := by
  cases v <;> first | cases h; rfl | cases h

theorem asRequestError_ok {α : Type} {status : Nat} {x : Except Str α} {a : α} (h : asRequestError status x = .ok a) :
    x = .ok a := by
  cases x with
  | error e => cases h
  | ok b =>
    obtain rfl := Except.ok.inj h
    rfl

/-- What an accepted report leaves: the row that was there and matches it, or a new one. -/
theorem create_spec {env : Environment} {s s' : Tables} {userId : Str} {body : Value} {now : Nat} {answer : Answer}
    (h : createPortalIssueReport env s userId body now = .ok (answer, s')) : ∃ input,
      validatePortalIssueReportInput body = .ok input ∧ input.reportId = .string answer.reportId ∧
      ((s' = s ∧ ∃ r, s.report answer.reportId = some r ∧ portalIssueInputMatchesPayload input r.payloadJson = true) ∨
        ∃ payload category, buildPortalIssuePublicPayload input (.string (toISOString now)) = .ok payload ∧
          input.category = .string category ∧
          s.insertReport (newReport env userId answer.reportId category input payload.text now) now = .ok s') := by
  rw [createPortalIssueReport, bind_eq_ok] at h
  obtain ⟨input, hinput, h⟩ := h
  rw [bind_eq_ok] at h
  obtain ⟨id, hid, h⟩ := h
  have hinput := asRequestError_ok hinput
  have hid := boundText_ok hid
  refine ⟨input, hinput, ?_⟩
  cases hexisting : s.report id with
  | some existing =>
    rw [hexisting] at h
    dsimp only at h
    split at h
    · cases h
    · rename_i hmatch
      obtain ⟨rfl, rfl⟩ := Prod.mk.inj (Except.ok.inj h)
      rw [not_or, Bool.not_eq_false] at hmatch
      exact ⟨hid, Or.inl ⟨rfl, existing, hexisting, hmatch.2⟩⟩
  | none =>
    rw [hexisting] at h
    dsimp only at h
    rw [bind_eq_ok] at h
    obtain ⟨payload, hpayload, h⟩ := h
    rw [bind_eq_ok] at h
    obtain ⟨category, hcategory, h⟩ := h
    rw [bind_eq_ok] at h
    obtain ⟨s₁, hinsert, h⟩ := h
    obtain ⟨rfl, rfl⟩ := Prod.mk.inj (Except.ok.inj h)
    exact ⟨hid, Or.inr ⟨payload, category, asRequestError_ok hpayload, boundText_ok hcategory, hinsert⟩⟩

/-- A new row is of the body it was stored for. -/
theorem newReport_isOf {env : Environment} {userId id category : Str} {body : Document} {input : ReportInput}
    {now : Nat} {payload : Value} (hinput : validatePortalIssueReportInput body.1 = .ok input)
    (hid : input.reportId = .string id) (hcategory : input.category = .string category) (hnow : now ≤ maxTime)
    (hpayload : buildPortalIssuePublicPayload input (.string (toISOString now)) = .ok payload) :
    (newReport env userId id category input payload.text now).IsOf env body :=
  ⟨input, now, payload, hinput, hid, ⟨category, hcategory⟩, hnow, hpayload, rfl, rfl⟩

/-- What every update of the portal leaves alone. -/
def ReportRow.SameReport (r r' : ReportRow) : Prop :=
  r'.id = r.id ∧ r'.payloadJson = r.payloadJson ∧ r'.contentSha256 = r.contentSha256

theorem ReportRow.IsOf.same {env : Environment} {r r' : ReportRow} {body : Document} (h : r.IsOf env body)
    (hsame : r.SameReport r') : r'.IsOf env body := by
  obtain ⟨input, time, payload, hinput, hid, hcategory, htime, hpayload, hjson, hsha⟩ := h
  exact ⟨input, time, payload, hinput, by rw [hsame.1]; exact hid, hcategory, htime, hpayload,
    by rw [hsame.2.1]; exact hjson, by rw [hsame.2.2]; exact hsha⟩

theorem sound_update {env : Environment} {s : Tables} {p : ReportRow → Bool} {f : ReportRow → ReportRow}
    (hf : ∀ r, (f r).id = r.id) (h : ∀ r ∈ s.reports, r.Sound env) (hsame : ∀ r : ReportRow, r.SameReport (f r))
    (hclaim : ∀ r nonce, (f r).claimNonce = some nonce → r.claimNonce = some nonce ∨ isUuid4 (.string nonce) = true) :
    ∀ r ∈ (s.updateReports p f hf).reports, r.Sound env := by
  intro r hr
  obtain ⟨x, hx, rfl⟩ := Table.mem_update.1 hr
  have hxsound := h x hx
  split
  · obtain ⟨body, hbody⟩ := hxsound.body
    refine ⟨⟨body, hbody.same (hsame x)⟩, fun nonce hnonce => ?_⟩
    rcases hclaim x nonce hnonce with hold | hnew
    · exact hxsound.claim nonce hold
    · exact hnew
  · exact hxsound

/-- What a claim that is answered leaves. -/
theorem claim_spec {env : Environment} {s s' : Tables} {request : Str} {now : Nat} {items : List ClaimItem}
    (h : claimPortalIssueReports env s request now = .ok (items, s')) : ∃ nonce, isUuid4 (.string nonce) = true ∧
      items = (s'.claimedBy nonce).map ReportRow.item ∧
      (s' = s ∨ ∃ requestedAt limit, s' = s.claimNew nonce requestedAt now limit) := by
  unfold claimPortalIssueReports at h
  split at h
  · simp only [bind, Except.bind] at h
    split at h
    · cases h
    rename_i hvalid
    split at h
    · cases h
    split at h
    · cases h
    split at h
    · cases h
    rename_i nonce hnonce
    unfold validatePortalIssueReportClaimEnvelope at hvalid
    split at hvalid
    · rename_i hchecks
      simp only [Bool.and_eq_true] at hchecks
      rw [boundText_ok hnonce] at hchecks
      refine ⟨nonce, hchecks.1.1.1.1.1.2, ?_⟩
      obtain ⟨hitems, hs'⟩ := Prod.mk.inj (Except.ok.inj h)
      rw [← hs']
      refine ⟨hitems.symm, ?_⟩
      split
      · exact Or.inl rfl
      · exact Or.inr ⟨_, _, rfl⟩
    · cases hvalid
  · cases h

/-- What an accepted receipt leaves. -/
theorem receipt_spec {env : Environment} {s s' : Tables} {request : Str} {now : Nat}
    (h : receivePortalIssueReportReceipt env s request now = .ok s') : s' = s ∨
      ∃ id contentSha256 claimNonce number url publishedAt,
        s' = s.publishReport id contentSha256 claimNonce number url publishedAt := by
  unfold receivePortalIssueReportReceipt at h
  split at h
  · simp only [bind, Except.bind] at h
    split at h
    · cases h
    split at h
    · cases h
    split at h
    · cases h
    unfold Tables.acceptReceipt at h
    simp only [bind, Except.bind] at h
    split at h
    · cases h
    split at h
    · cases h
    split at h
    · cases h
    split at h
    · cases h
    split at h
    · split at h
      · cases h
      · exact Or.inl (Except.ok.inj h).symm
    split at h
    · cases h
    split at h
    · exact Or.inr ⟨_, _, _, _, _, _, (Except.ok.inj h).symm⟩
    · cases h
  · cases h

theorem sound_step {env : Environment} {s s' : Tables} {a : Request} (h : ∀ r ∈ s.reports, r.Sound env)
    (hs : step env s a = some s') : ∀ r ∈ s'.reports, r.Sound env := by
  cases a with
  | create userId body now =>
    rw [step] at hs
    split at hs
    · rename_i hnow
      obtain rfl := Option.some.inj hs
      split
      · rename_i answer s₁ hcreate
        obtain ⟨input, hinput, hid, ⟨rfl, -⟩ | ⟨payload, category, hpayload, hcategory, hinsert⟩⟩ := create_spec hcreate
        · exact h
        · obtain ⟨hreports, -, -⟩ := insertReport_spec hinsert
          rw [hreports]
          intro r hr
          rcases List.mem_append.1 hr with hr | hr
          · exact h r hr
          · rw [List.mem_singleton.1 hr]
            exact ⟨⟨body, newReport_isOf hinput hid hcategory hnow hpayload⟩, nofun⟩
      · exact h
    · cases hs
  | claim request now =>
    obtain rfl := Option.some.inj hs
    split
    · rename_i items s₁ hclaim
      obtain ⟨nonce, hnonce, -, rfl | ⟨requestedAt, limit, rfl⟩⟩ := claim_spec hclaim
      · exact h
      · refine sound_update (f := .claim nonce now) (fun _ => rfl) h (fun r => ⟨rfl, rfl, rfl⟩) (fun r n hn => Or.inr ?_)
        obtain rfl := Option.some.inj hn
        exact hnonce
    · exact h
  | receipt request now =>
    obtain rfl := Option.some.inj hs
    split
    · rename_i s₁ hreceipt
      obtain rfl | ⟨id, sha, nonce, number, url, at_, rfl⟩ := receipt_spec hreceipt
      · exact h
      · exact sound_update (f := .publish number url at_) (fun _ => rfl) h (fun r => ⟨rfl, rfl, rfl⟩) (fun r n hn => Or.inl hn)
    · exact h

theorem sound {env : Environment} {s : Tables} (h : (portal env).Reaches noReports s) : ∀ r ∈ s.reports, r.Sound env :=
  h.invariant (I := fun s => ∀ r ∈ s.reports, r.Sound env) nofun (fun _ _ _ hx _ hs => sound_step hx hs)

/-! ## Completion -/

/-- The two kinds of report that cannot be finished are left out: an id that is no UUID of version 4, and a task that is
an array around a number which JSON cannot hold. -/
def Completes (body : Value) : Prop :=
  isUuid4 (body.property "reportId") = true ∧
    wrapsNonFinite ((body.property "context").property "taskVersionId") = false

instance (body : Value) : Decidable (Completes body) := by
  unfold Completes
  infer_instance

/-- The stored payload is accepted and comes back as it is. -/
def AcceptedUnchanged (payloadJson : Str) : Prop :=
  ∃ payload, parse payloadJson = some payload ∧ validatePortalIssuePublicPayload payload = .ok payload

/-- What the publisher reads of a stored row. -/
theorem read_row {env : Environment} {r : ReportRow} {body : Document} (h : r.IsOf env body) : ∃ payload,
    parse r.payloadJson = some payload ∧ payload.property "reportId" = .string r.id ∧
      validatePortalIssuePublicPayload payload =
        if wrapsNonFinite ((body.1.property "context").property "taskVersionId") then .error taskMessage
        else .ok payload := by
  obtain ⟨input, time, payload, hinput, hid, hcategory, htime, hpayload, hjson, -⟩ := h
  obtain ⟨hpayloadJson, hagain⟩ := payload_reread body.2 hinput hcategory htime hpayload
  refine ⟨payload.reread, by rw [hjson, parse_text hpayloadJson], ?_, hagain⟩
  obtain ⟨label, hlabel⟩ := (accepted_of_validate hinput).label
  rw [← (accepted_of_validate hinput).fields.2] at hlabel
  rw [build_eq (isDate_toISOString htime) hlabel] at hpayload
  obtain rfl := Except.ok.inj hpayload
  rw [payloadRecord, reread_record, hid]
  exact property_record reportPublicPayloadKeys rfl (by decide) (by simp [Value.reread])

theorem acceptedUnchanged_iff {env : Environment} {r : ReportRow} {body : Document} (h : r.IsOf env body) :
    AcceptedUnchanged r.payloadJson ↔
      wrapsNonFinite ((body.1.property "context").property "taskVersionId") = false := by
  obtain ⟨payload, hparse, -, hvalid⟩ := read_row h
  constructor
  · rintro ⟨p, hp, hok⟩
    rw [hparse] at hp
    obtain rfl := Option.some.inj hp
    rw [hvalid] at hok
    split at hok
    · cases hok
    · rename_i hwraps
      rwa [Bool.not_eq_true] at hwraps
  · intro hwraps
    rw [hwraps] at hvalid
    exact ⟨payload, hparse, hvalid⟩

theorem readItem_row {env : Environment} {r : ReportRow} {body : Document} (h : r.IsOf env body) :
    ∃ payload, payload.property "reportId" = .string r.id ∧ readItem env r.item =
      if wrapsNonFinite ((body.1.property "context").property "taskVersionId") then .error taskMessage
      else .ok payload := by
  obtain ⟨payload, hparse, hid, hvalid⟩ := read_row h
  refine ⟨payload, hid, ?_⟩
  obtain ⟨input, time, payload₀, -, -, -, -, -, hjson, hsha⟩ := h
  have hcontent : r.item.contentSha256 = (env.sha256Hex r.item.payloadJson).1 := by
    rw [ReportRow.item, hsha, hjson]
  have hwhole : ¬ (isText (payload.property "reportId") r.item.reportId = false ∨
      r.item.contentSha256 ≠ (env.sha256Hex r.item.payloadJson).1) := by
    rw [hid, not_or, not_not]
    exact ⟨by simp [isText, ReportRow.item], hcontent⟩
  rw [readItem, show r.item.payloadJson = r.payloadJson from rfl, hparse]
  dsimp only
  rw [hvalid]
  split
  · rfl
  · show (if _ then _ else _) = _
    exact if_neg hwhole

/-- An issue of the repository, as the service reports it. -/
structure IsIssueOf (env : Environment) (issue : Issue) : Prop where
  number : isPositive (.number issue.number) = true
  url : env.parseUrl issue.htmlUrl = some ⟨str "https:", str "github.com", [], [], [], [], [],
    issuePath env.repository (.number issue.number)⟩

def receiptKeys : List String :=
  ["schema", "repository", "nonce", "claimNonce", "reportId", "contentSha256", "issueNumber", "issueUrl", "acceptedAtUtc"]

theorem reread_of_isPositive {v : Value} (h : isPositive v = true) : v.reread = v ∧ v.Json := by
  cases v with
  | number n =>
    cases n with
    | nan | infinite _ => cases h
    | zero negative =>
      have hnone : isPositive (.number (.zero negative)) = false := by cases negative <;> decide
      rw [hnone] at h
      cases h
    | finite d => exact ⟨rfl, rfl, rfl⟩
  | undefined | null | bool _ | bigint _ | string _ | bytes _ | array _ | object _ => cases h

/-- The receipt of a publisher gives its signature and its fields back. -/
theorem read_receipt (env : Environment) (claimNonce nonce : Uuid4) (acceptedAt : Nat) {payload : Value} {item : ClaimItem}
    {issue : Issue} (hid : payload.property "reportId" = .string item.reportId)
    (hnumber : isPositive (.number issue.number) = true) :
    let fields := receiptFields env claimNonce nonce acceptedAt payload item issue
    parse (signEnvelope env fields).text = some (signEnvelope env fields) ∧
      signatureOf (signEnvelope env fields) = .string (env.hmacSha256 (record fields).text).1 ∧
      envelopeOf (signEnvelope env fields) = record fields := by
  obtain ⟨hkept, hnumberJson⟩ := reread_of_isPositive hnumber
  have hfields : ∀ f ∈ receiptFields env claimNonce nonce acceptedAt payload item issue, f.2.Json ∧ f.2.reread = f.2 := by
    intro f hf
    simp only [receiptFields, hid, List.mem_cons, List.not_mem_nil, or_false] at hf
    rcases hf with rfl | rfl | rfl | rfl | rfl | rfl | rfl | rfl | rfl
    all_goals first
      | exact ⟨⟨rfl, rfl⟩, rfl⟩
      | exact ⟨hnumberJson, hkept⟩
  exact read_signEnvelope env receiptKeys rfl (by decide) (by decide) (fun f hf => (hfields f hf).1)
    (fun f hf => (hfields f hf).2)

/-- **What the portal reads of the receipt of a publisher.** -/
theorem receive_receiptRequest {env : Environment} (claimNonce nonce : Uuid4) {acceptedAt now : Nat} {payload : Value}
    {item : ClaimItem} {issue : Issue} (hid : payload.property "reportId" = .string item.reportId)
    (hsha : digestPattern.test item.contentSha256 = true) (hissue : IsIssueOf env issue) (haccepted : acceptedAt ≤ maxTime)
    (hnow : isWithin claimWindowMs now acceptedAt = true) (s : Tables) :
    receivePortalIssueReportReceipt env s
        (signEnvelope env (receiptFields env claimNonce nonce acceptedAt payload item issue)).text now =
      if isUuid4 (.string item.reportId) then
        s.acceptReceipt (record (receiptFields env claimNonce nonce acceptedAt payload item issue))
      else .error (publicError "صيغة إيصال بلاغ المنصة غير صالحة." 400) := by
  obtain ⟨hparse, hsignature, henvelope⟩ := read_receipt env claimNonce nonce acceptedAt hid hissue.number
  have hfield : ∀ (key : String) (v : Value), (key, v) ∈ receiptFields env claimNonce nonce acceptedAt payload item issue →
      (record (receiptFields env claimNonce nonce acceptedAt payload item issue)).property key = v :=
    fun _ _ hmem => property_record receiptKeys rfl (by decide) hmem
  have hurl : validPortalIssueUrl env (.string issue.htmlUrl) (.number issue.number) = true := by
    rw [validPortalIssueUrl, Value.toText, Option.bind_some, hissue.url]
    exact decide_eq_true rfl
  have hdate : (dateOf (.string (toISOString acceptedAt))).any (isWithin claimWindowMs now) = true := by
    rw [dateOf, Value.toText, Option.bind_some, parseDate_toISOString haccepted, Option.any_some, hnow]
  have hdigest : ∀ d : Str, digestPattern.test d = true → testsDigest (.string d) = true := fun d hd => by
    rw [testsDigest, textOrEmpty_string]
    exact hd
  have hvalid : validatePortalIssueReportReceiptEnvelope env
      (record (receiptFields env claimNonce nonce acceptedAt payload item issue))
      (.string (env.hmacSha256 (record (receiptFields env claimNonce nonce acceptedAt payload item issue)).text).1) now =
      if isUuid4 (.string item.reportId) then .ok ()
      else .error (publicError "صيغة إيصال بلاغ المنصة غير صالحة." 400) := by
    rw [validatePortalIssueReportReceiptEnvelope, hfield "schema" (.string portalIssueReportReceiptSchema) (by simp [receiptFields]),
      hfield "repository" (.string env.repository) (by simp [receiptFields]),
      hfield "nonce" (.string nonce.1) (by simp [receiptFields]),
      hfield "claimNonce" (.string claimNonce.1) (by simp [receiptFields]),
      hfield "reportId" (.string item.reportId) (by simp [receiptFields, hid]),
      hfield "contentSha256" (.string item.contentSha256) (by simp [receiptFields]),
      hfield "issueNumber" (.number issue.number) (by simp [receiptFields]),
      hfield "issueUrl" (.string issue.htmlUrl) (by simp [receiptFields]),
      hfield "acceptedAtUtc" (.string (toISOString acceptedAt)) (by simp [receiptFields]), hurl, hdate, hissue.number,
      nonce.2, claimNonce.2, hdigest _ hsha, hdigest _ (env.hmacSha256 _).2]
    simp only [isText, decide_true, Bool.true_and, Bool.and_true]
  rw [receivePortalIssueReportReceipt, hparse]
  dsimp only
  rw [hsignature, henvelope, hvalid]
  have hverify : verifyHmacSha256 env (record (receiptFields env claimNonce nonce acceptedAt payload item issue)).text
      (.string (env.hmacSha256 (record (receiptFields env claimNonce nonce acceptedAt payload item issue)).text).1) =
      .ok true := by
    rw [verifyHmacSha256, decide_eq_true rfl]
  split
  · simp only [bind, Except.bind, hverify, Bool.true_eq_false, if_false]
  · rfl

/-- A receipt for a row that its nonce holds is taken. -/
theorem acceptReceipt_held (env : Environment) {s : Tables} {r : ReportRow} {claimNonce : Uuid4} (nonce : Uuid4)
    (acceptedAt : Nat) {payload : Value} (issue : Issue) (hr : s.report r.id = some r) (hstatus : r.status = .claimed)
    (hclaim : r.claimNonce = some claimNonce.1) (hid : payload.property "reportId" = .string r.id) :
    s.acceptReceipt (record (receiptFields env claimNonce nonce acceptedAt payload r.item issue)) =
      .ok (s.publishReport r.id r.contentSha256 claimNonce.1 issue.number issue.htmlUrl
        ((dateOf (.string (toISOString acceptedAt))).getD 0)) := by
  have hfield : ∀ (key : String) (v : Value), (key, v) ∈ receiptFields env claimNonce nonce acceptedAt payload r.item issue →
      (record (receiptFields env claimNonce nonce acceptedAt payload r.item issue)).property key = v :=
    fun _ _ hmem => property_record receiptKeys rfl (by decide) hmem
  have hsame : isText (.string r.contentSha256) r.contentSha256 = true := decide_eq_true rfl
  have hheld : r.claimNonce.any (isText (.string claimNonce.1)) = true := by
    rw [hclaim, Option.any_some]
    exact decide_eq_true rfl
  rw [Tables.acceptReceipt, hfield "reportId" (.string r.id) (by simp [receiptFields, hid])]
  show Except.bind (Except.ok r.id) _ = _
  dsimp only [Except.bind]
  rw [hr]
  dsimp only
  rw [hfield "contentSha256" (.string r.contentSha256) (by simp [receiptFields, ReportRow.item]),
    hfield "claimNonce" (.string claimNonce.1) (by simp [receiptFields]),
    hfield "issueNumber" (.number issue.number) (by simp [receiptFields]),
    hfield "issueUrl" (.string issue.htmlUrl) (by simp [receiptFields]),
    hfield "acceptedAtUtc" (.string (toISOString acceptedAt)) (by simp [receiptFields]), hsame, hheld, hstatus]
  rfl

/-- Of the rows, only the one that the receipt names is linked. -/
theorem report_publishReport {s : Tables} {r : ReportRow} {claimNonce : Str} (hr : s.report r.id = some r)
    (hstatus : r.status = .claimed) (hclaim : r.claimNonce = some claimNonce) (number : Number) (url : Str)
    (publishedAt : Nat) (id : Str) :
    (s.publishReport r.id r.contentSha256 claimNonce number url publishedAt).report id =
      if id = r.id then some (r.publish number url publishedAt) else s.report id := by
  have hlookup : (s.publishReport r.id r.contentSha256 claimNonce number url publishedAt).report id =
      (s.report id).map (fun x =>
        if decide (x.id = r.id) && decide (x.contentSha256 = r.contentSha256) && decide (x.status = .claimed) &&
            decide (x.claimNonce = some claimNonce) then x.publish number url publishedAt
        else x) := Table.lookup_update (fun _ => rfl)
  rw [hlookup]
  split
  · rename_i heq
    rw [heq, hr, Option.map_some, hstatus, hclaim]
    simp
  · rename_i hne
    cases hx : s.report id with
    | none => rfl
    | some x =>
      have hx : x.id = id := (Table.lookup_some hx).2
      rw [Option.map_some, hx, decide_eq_false hne]
      rfl

/-- A receipt for a row that its nonce holds links the row to the issue. -/
theorem acceptReceipt_claimed (env : Environment) {s : Tables} {r : ReportRow} {claimNonce : Uuid4} (nonce : Uuid4)
    (acceptedAt : Nat) {payload : Value} (issue : Issue) (hr : s.report r.id = some r) (hstatus : r.status = .claimed)
    (hclaim : r.claimNonce = some claimNonce.1) (hid : payload.property "reportId" = .string r.id) :
    ∃ s', s.acceptReceipt (record (receiptFields env claimNonce nonce acceptedAt payload r.item issue)) = .ok s' ∧
      s'.report r.id = some (r.publish issue.number issue.htmlUrl ((dateOf (.string (toISOString acceptedAt))).getD 0)) := by
  refine ⟨_, acceptReceipt_held env nonce acceptedAt issue hr hstatus hclaim hid, ?_⟩
  rw [report_publishReport hr hstatus hclaim, if_pos rfl]

/-- A body that is answered from a stored row completes as the body of that row does. -/
theorem completes_of_matches {env : Environment} {r : ReportRow} {body body₀ : Document} (h : r.IsOf env body₀)
    {input : ReportInput} (hinput : validatePortalIssueReportInput body.1 = .ok input)
    (hid : input.reportId = .string r.id) (hmatch : portalIssueInputMatchesPayload input r.payloadJson = true) :
    Completes body₀.1 ↔ Completes body.1 := by
  obtain ⟨input₀, time, payload, hinput₀, hid₀, hcategory, htime, hpayload, hjson, -⟩ := h
  have haccepted := accepted_of_validate hinput
  have haccepted₀ := accepted_of_validate hinput₀
  obtain ⟨hcontextJson, hagain⟩ := context_reread (haccepted.context_json body.2) haccepted.context
  obtain ⟨hcontextJson₀, hagain₀⟩ := context_reread (haccepted₀.context_json body₀.2) haccepted₀.context
  have hstored : payload.reread.property "context" = input₀.context.reread := by
    obtain ⟨label, hlabel⟩ := haccepted₀.label
    rw [← haccepted₀.fields.2] at hlabel
    rw [build_eq (isDate_toISOString htime) hlabel] at hpayload
    obtain rfl := Except.ok.inj hpayload
    rw [payloadRecord, reread_record]
    exact property_record reportPublicPayloadKeys rfl (by decide) (by simp)
  have hcontext : input₀.context.reread = input.context.reread := by
    rw [portalIssueInputMatchesPayload, hjson, parse_text (payload_reread body₀.2 hinput₀ hcategory htime hpayload).1] at hmatch
    simp only [Bool.and_eq_true, decide_eq_true_eq] at hmatch
    have htext := hmatch.2
    rw [hstored, Value.text_reread] at htext
    exact (Value.text_eq_iff hcontextJson₀ hcontextJson).1 htext
  have hwraps : wrapsNonFinite ((body₀.1.property "context").property "taskVersionId") =
      wrapsNonFinite ((body.1.property "context").property "taskVersionId") := by
    rw [hcontext, hagain] at hagain₀
    cases hw : wrapsNonFinite ((body.1.property "context").property "taskVersionId") <;>
      cases hw₀ : wrapsNonFinite ((body₀.1.property "context").property "taskVersionId") <;>
      rw [hw, hw₀] at hagain₀ <;> first | rfl | cases hagain₀
  rw [Completes, Completes, hwraps, ← haccepted.fields.1, ← haccepted₀.fields.1, hid, hid₀]

/-- The row that answers for an accepted body was stored for a body that completes just as well. -/
theorem exists_row_of_create {env : Environment} {s s' : Tables} (hs : (portal env).Reaches noReports s) {userId : Str}
    {body : Document} {now : Nat} (hnow : now ≤ maxTime) {answer : Answer}
    (h : createPortalIssueReport env s userId body.1 now = .ok (answer, s')) :
    ∃ r body₀, s'.report answer.reportId = some r ∧ r.IsOf env body₀ ∧ (Completes body₀.1 ↔ Completes body.1) := by
  obtain ⟨input, hinput, hid, ⟨rfl, r, hr, hmatch⟩ | ⟨payload, category, hpayload, hcategory, hinsert⟩⟩ := create_spec h
  · obtain ⟨hmem, hkey⟩ := Table.lookup_some hr
    obtain ⟨body₀, hbody⟩ := (sound hs r hmem).body
    exact ⟨r, body₀, hr, hbody, completes_of_matches hbody hinput (by rw [hkey]; exact hid) hmatch⟩
  · obtain ⟨hreports, hnew, -⟩ := insertReport_spec hinsert
    refine ⟨newReport env userId answer.reportId category input payload.text now, body, ?_,
      newReport_isOf hinput hid hcategory hnow hpayload, Iff.rfl⟩
    have hnone : Table.lookup ReportRow.id answer.reportId s.reports = none := Table.lookup_none_iff.2 hnew
    rw [Tables.report, hreports, Table.lookup_append, hnone, Option.none_or]
    exact if_pos rfl

/-! ## Later states -/

theorem lookup_updateReports {s : Tables} {p : ReportRow → Bool} {f : ReportRow → ReportRow} (hf : ∀ r, (f r).id = r.id)
    (id : Str) : (s.updateReports p f hf).report id = (s.report id).map (fun r => if p r then f r else r) :=
  Table.lookup_update hf

/-- The reports of a state, in a later one. -/
def Tables.Later (s s' : Tables) : Prop :=
  ∀ id r, s.report id = some r → ∃ r', s'.report id = some r' ∧ r.SameReport r'

theorem later_refl (s : Tables) : s.Later s := fun _ r h => ⟨r, h, rfl, rfl, rfl⟩

theorem later_update {s : Tables} {p : ReportRow → Bool} {f : ReportRow → ReportRow} (hf : ∀ r, (f r).id = r.id)
    (hsame : ∀ r : ReportRow, r.SameReport (f r)) : s.Later (s.updateReports p f hf) := by
  intro id r hr
  refine ⟨if p r then f r else r, by rw [lookup_updateReports, hr]; rfl, ?_⟩
  split
  · exact hsame r
  · exact ⟨rfl, rfl, rfl⟩

theorem later_step {env : Environment} {s s' : Tables} {a : Request} (hs : step env s a = some s') : s.Later s' := by
  cases a with
  | create userId body now =>
    rw [step] at hs
    split at hs
    · obtain rfl := Option.some.inj hs
      split
      · rename_i answer s₁ hcreate
        obtain ⟨input, -, -, ⟨rfl, -⟩ | ⟨payload, category, -, -, hinsert⟩⟩ := create_spec hcreate
        · exact later_refl _
        · obtain ⟨hreports, -, -⟩ := insertReport_spec hinsert
          intro id r hr
          refine ⟨r, ?_, rfl, rfl, rfl⟩
          rw [Tables.report, hreports, Table.lookup_append, show Table.lookup ReportRow.id id s.reports = some r from hr]
          rfl
      · exact later_refl s
    · cases hs
  | claim request now =>
    obtain rfl := Option.some.inj hs
    split
    · rename_i items s₁ hclaim
      obtain ⟨nonce, -, -, rfl | ⟨requestedAt, limit, rfl⟩⟩ := claim_spec hclaim
      · exact later_refl _
      · exact later_update (f := .claim nonce now) (fun _ => rfl) (fun _ => ⟨rfl, rfl, rfl⟩)
    · exact later_refl s
  | receipt request now =>
    obtain rfl := Option.some.inj hs
    split
    · rename_i s₁ hreceipt
      obtain rfl | ⟨id, sha, nonce, number, url, at_, rfl⟩ := receipt_spec hreceipt
      · exact later_refl _
      · exact later_update (f := .publish number url at_) (fun _ => rfl) (fun _ => ⟨rfl, rfl, rfl⟩)
    · exact later_refl s

theorem later {env : Environment} {s s' : Tables} (h : (portal env).Reaches s s') : s.Later s' :=
  h.relates (R := Tables.Later) (later_refl s) (fun x a y hx _ hs id r hr => by
    obtain ⟨r', hr', hsame⟩ := hx id r hr
    obtain ⟨r'', hr'', hsame'⟩ := later_step hs id r' hr'
    exact ⟨r'', hr'', hsame'.1.trans hsame.1, hsame'.2.1.trans hsame.2.1, hsame'.2.2.trans hsame.2.2⟩)

/-! ## The claim -/

/-- The payload of the row is accepted as it is stored, and the receipt for the issue links the row to it. -/
def Finishes (env : Environment) (s : Tables) (r : ReportRow) (claimNonce nonce : Uuid4) (acceptedAt now : Nat)
    (issue : Issue) : Prop :=
  AcceptedUnchanged r.payloadJson ∧ ∃ request s', receiptRequest env claimNonce nonce acceptedAt r.item issue = .ok request ∧
    receivePortalIssueReportReceipt env s request now = .ok s' ∧ ∃ r', s'.report r.id = some r' ∧
      r'.status = .published ∧ r'.githubIssueNumber = some issue.number ∧ r'.githubIssueUrl = some issue.htmlUrl

theorem finishes_iff {env : Environment} {s : Tables} {r : ReportRow} {body : Document} (hbody : r.IsOf env body)
    (hr : s.report r.id = some r) {claimNonce nonce : Uuid4} (hstatus : r.status = .claimed)
    (hclaim : r.claimNonce = some claimNonce.1) {issue : Issue} (hissue : IsIssueOf env issue) {acceptedAt now : Nat}
    (haccepted : acceptedAt ≤ maxTime) (hnow : isWithin claimWindowMs now acceptedAt = true) :
    Finishes env s r claimNonce nonce acceptedAt now issue ↔ Completes body.1 := by
  obtain ⟨payload, hid, hread⟩ := readItem_row hbody
  have hunchanged := acceptedUnchanged_iff hbody
  have hreportId : body.1.property "reportId" = .string r.id := by
    obtain ⟨input, -, -, hinput, hinputId, -⟩ := hbody
    rw [← (accepted_of_validate hinput).fields.1]
    exact hinputId
  have hsha : digestPattern.test r.item.contentSha256 = true := by
    obtain ⟨input, time, p, -, -, -, -, -, -, hsha⟩ := hbody
    rw [ReportRow.item, hsha]
    exact (env.sha256Hex _).2
  rw [Finishes, Completes, hunchanged, and_comm, hreportId]
  refine and_congr_left (fun hwraps => ?_)
  rw [hwraps] at hread
  have hrequest : receiptRequest env claimNonce nonce acceptedAt r.item issue =
      .ok (signEnvelope env (receiptFields env claimNonce nonce acceptedAt payload r.item issue)).text := by
    rw [receiptRequest, hread]
    rfl
  have hitem : payload.property "reportId" = .string r.item.reportId := hid
  have hreceive := receive_receiptRequest claimNonce nonce hitem hsha hissue haccepted hnow s
  constructor
  · rintro ⟨request, s', hreq, hrec, -⟩
    rw [hrequest] at hreq
    obtain rfl := Except.ok.inj hreq
    rw [hreceive] at hrec
    split at hrec
    · rename_i huuid
      exact huuid
    · cases hrec
  · intro huuid
    obtain ⟨s', hs', hr'⟩ := acceptReceipt_claimed env nonce acceptedAt issue hr hstatus hclaim hid
    refine ⟨_, s', hrequest, ?_, _, hr', rfl, rfl, rfl⟩
    rw [hreceive, show isUuid4 (.string r.item.reportId) = true from huuid]
    exact hs'

/-- **Exactly the reports that complete can be finished**, whatever was requested before and after they were accepted. -/
theorem report_finishes_iff (env : Environment) {s s' s₁ : Tables} (hs : (portal env).Reaches noReports s) {userId : Str}
    {body : Document} {now : Nat} (hnow : now ≤ maxTime) {answer : Answer}
    (h : createPortalIssueReport env s userId body.1 now = .ok (answer, s')) (hlater : (portal env).Reaches s' s₁)
    {r : ReportRow} (hr : s₁.report answer.reportId = some r) {claimNonce nonce : Uuid4} (hstatus : r.status = .claimed)
    (hclaim : r.claimNonce = some claimNonce.1) {issue : Issue} (hissue : IsIssueOf env issue) {acceptedAt receivedAt : Nat}
    (haccepted : acceptedAt ≤ maxTime) (hwindow : isWithin claimWindowMs receivedAt acceptedAt = true) :
    Finishes env s₁ r claimNonce nonce acceptedAt receivedAt issue ↔ Completes body.1 := by
  obtain ⟨r₀, body₀, hr₀, hbody, hcompletes⟩ := exists_row_of_create hs hnow h
  obtain ⟨r', hr', hsame⟩ := later hlater _ _ hr₀
  rw [hr] at hr'
  obtain rfl := Option.some.inj hr'
  have hid : r.id = answer.reportId := (Table.lookup_some hr).2
  rw [← hcompletes]
  exact finishes_iff (hbody.same hsame) (by rw [hid]; exact hr) hstatus hclaim hissue haccepted hwindow

/-! ## Two reports -/

def digest (s : String) (h : digestPattern.test (str s) = true) : HexDigest := ⟨str s, h⟩

/-- The hash functions on the texts below, with the key `key`. -/
def sampleEnv : Environment where
  repository := str "sbay-dev/ADG-Lang"
  sha256Hex t :=
    if includes t (str "5f0c1b6e") then
      digest "7a279a53210e2de427ab449b66e651a487c0218afb5cac76188255aa4881e565" (by decide +kernel)
    else digest "7cf7e0305e727f9d08aa3e9747f122fd3e633949ebef6347920b1b32a9d3e594" (by decide +kernel)
  hmacSha256 t :=
    if includes t (str "report-claim-v1") then
      digest "67a385cfc37d4ef160f13c4c51548f52b708a630b8220d8b125428784ae776c8" (by decide +kernel)
    else if includes t (str "5f0c1b6e") then
      digest "8f4d2182abee85b7d42bf224c47d93b4386abfb3d374fb7af30bcaabf1218d82" (by decide +kernel)
    else digest "7f449e2e0f9197cab5d16e14ac0cff3da4ad2dc73061847e5fe69e4de448d0e5" (by decide +kernel)
  parseUrl t :=
    if t = str "https://github.com/sbay-dev/ADG-Lang/issues/7" then
      some ⟨str "https:", str "github.com", [], [], [], [], [], str "/sbay-dev/ADG-Lang/issues/7"⟩
    else none

def sampleContext : Value :=
  contextRecord (.string (str "15.3.6")) (.number (.ofNat 2)) .null .null (.bool false)

/-- A UUID of version 4. -/
def finishedId : String := "5f0c1b6e-8d2a-4c3b-9a1e-7b6d5c4e3f21"

/-- A UUID of version 1. -/
def unfinishedId : String := "c232ab00-9414-11ec-b3c8-9f6bdeced846"

/-- A report with this id and this description. -/
def bodyWith (reportId details : String) : Value :=
  inputRecord (.string (str reportId)) (.string (str "display")) (.string (str "Empty page"))
    (.string (str details)) .null sampleContext

theorem bodyWith_json (reportId details : String) : (bodyWith reportId details).Json := by
  have hcontext : sampleContext.Json := by
    refine json_record reportContextKeys rfl (by decide) (fun f hf => ?_)
    simp only [List.mem_cons, List.not_mem_nil, or_false] at hf
    rcases hf with rfl | rfl | rfl | rfl | rfl <;> exact ⟨rfl, rfl⟩
  refine json_record ["schema", "reportId", "category", "summary", "details", "reproductionSteps", "privacyConfirmed",
    "context"] rfl (by decide) (fun f hf => ?_)
  simp only [List.mem_cons, List.not_mem_nil, or_false] at hf
  rcases hf with rfl | rfl | rfl | rfl | rfl | rfl | rfl | rfl
  · exact ⟨rfl, rfl⟩
  · exact ⟨rfl, rfl⟩
  · exact ⟨rfl, rfl⟩
  · exact ⟨rfl, rfl⟩
  · exact ⟨rfl, rfl⟩
  · exact ⟨rfl, rfl⟩
  · exact ⟨rfl, rfl⟩
  · exact hcontext

def sampleBody (reportId : String) : Value := bodyWith reportId "The page stays empty"

def sampleReport (reportId : String) : Document := ⟨sampleBody reportId, bodyWith_json reportId _⟩

def claimNonce : Uuid4 := ⟨str "0b9e6a52-3f7c-4d18-a2c4-5e8f7d6c9b01", by decide +kernel⟩

def receiptNonce : Uuid4 := ⟨str "7d3f2c1a-9b8e-4f60-b5a7-1c2d3e4f5a6b", by decide +kernel⟩

def sampleIssue : Issue := ⟨.ofNat 7, str "https://github.com/sbay-dev/ADG-Lang/issues/7", none, false⟩

theorem sampleIssue_isIssueOf : IsIssueOf sampleEnv sampleIssue := ⟨by decide +kernel, by decide +kernel⟩

/-- The answer to the report and the tables after it. -/
def accepted (reportId : String) : Except RequestError (Answer × Tables) :=
  createPortalIssueReport sampleEnv noReports (str "user-1") (sampleReport reportId).1 1700000000000

def tablesOf : Except RequestError (Answer × Tables) → Tables
  | .ok (_, s) => s
  | .error _ => noReports

/-- The tables after a claim. -/
def claimedTables (reportId : String) : Tables :=
  (step sampleEnv (tablesOf (accepted reportId)) (.claim (claimRequest sampleEnv claimNonce 1700000060000)
    1700000060000)).getD noReports

theorem accepted_eq {reportId : String}
    (hanswer : (accepted reportId).toOption.map Prod.fst = some ⟨false, str reportId⟩) :
    accepted reportId = .ok (⟨false, str reportId⟩, tablesOf (accepted reportId)) := by
  cases hx : accepted reportId with
  | error e => rw [hx] at hanswer; cases hanswer
  | ok x =>
    rw [hx] at hanswer
    obtain ⟨answer, s⟩ := x
    rw [show answer = ⟨false, str reportId⟩ from Option.some.inj hanswer]
    rfl

theorem step_claim (env : Environment) (s : Tables) (request : Str) (now : Nat) :
    ∃ s', step env s (.claim request now) = some s' := ⟨_, rfl⟩

theorem claimedTables_reached (reportId : String) :
    (portal sampleEnv).Reaches (tablesOf (accepted reportId)) (claimedTables reportId) := by
  obtain ⟨s', hs'⟩ := step_claim sampleEnv (tablesOf (accepted reportId)) (claimRequest sampleEnv claimNonce 1700000060000)
    1700000060000
  have hclaimed : claimedTables reportId = s' := by rw [claimedTables, hs', Option.getD_some]
  rw [hclaimed]
  exact Machine.Steps.snoc (a := Request.claim (claimRequest sampleEnv claimNonce 1700000060000) 1700000060000) .refl
    trivial hs'

theorem report_finishes_sample : ∃ r, (claimedTables finishedId).report
      (str finishedId) = some r ∧
    (Finishes sampleEnv (claimedTables finishedId) r claimNonce receiptNonce 1700000065000
      1700000066000 sampleIssue ↔ Completes (sampleBody finishedId)) := by
  have hclaimed : ((claimedTables finishedId).report
      (str finishedId)).map (fun r => (r.status, r.claimNonce)) =
        some (.claimed, some claimNonce.1) := by decide +kernel
  obtain ⟨r, hr, hfields⟩ := Option.map_eq_some_iff.1 hclaimed
  obtain ⟨hstatus, hclaim⟩ := Prod.mk.inj hfields
  have hanswer := @accepted_eq finishedId (by decide +kernel)
  exact ⟨r, hr, report_finishes_iff sampleEnv .refl (by decide) hanswer (claimedTables_reached _) hr hstatus hclaim
    sampleIssue_isIssueOf (by decide) (by decide)⟩

/-- **A report whose id is a UUID of version 1 is accepted and claimed, and its receipt is refused.** -/
theorem report_not_finished : ∃ s r, accepted unfinishedId =
      .ok (⟨false, str unfinishedId⟩, s) ∧
    (portal sampleEnv).Reaches s (claimedTables unfinishedId) ∧
    (claimedTables unfinishedId).report (str unfinishedId) = some r ∧
    r.status = .claimed ∧ r.claimNonce = some claimNonce.1 ∧
    ¬ Finishes sampleEnv (claimedTables unfinishedId) r claimNonce receiptNonce 1700000065000
      1700000066000 sampleIssue := by
  have hclaimed : ((claimedTables unfinishedId).report
      (str unfinishedId)).map (fun r => (r.status, r.claimNonce)) =
        some (.claimed, some claimNonce.1) := by decide +kernel
  obtain ⟨r, hr, hfields⟩ := Option.map_eq_some_iff.1 hclaimed
  obtain ⟨hstatus, hclaim⟩ := Prod.mk.inj hfields
  have hanswer := @accepted_eq unfinishedId (by decide +kernel)
  refine ⟨_, r, hanswer, claimedTables_reached _, hr, hstatus, hclaim, ?_⟩
  obtain ⟨r₀, body₀, hr₀, hbody, hcompletes⟩ := exists_row_of_create .refl (by decide) hanswer
  obtain ⟨r', hr', hsame⟩ := later (claimedTables_reached unfinishedId) _ _ hr₀
  rw [hr] at hr'
  obtain rfl := Option.some.inj hr'
  have hid : r.id = str unfinishedId := (Table.lookup_some hr).2
  rw [finishes_iff (hbody.same hsame) (by rw [hid]; exact hr) hstatus hclaim sampleIssue_isIssueOf (by decide)
    (by decide), hcompletes]
  decide +kernel

end Issues
end Adg
