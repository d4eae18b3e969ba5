import AdgLang.IssueCompletion
import Mathlib.Data.List.Infix
/-!
# IssueRuns — runs of the publisher against the portal and the issues of the repository

One run of the publisher at a time: it claims reports, and for each it reads the item, searches the listing page by page
for an issue with the report's marker, creates one where there is none, and sends a receipt.  A run may stop at any
point, and anyone may report and open issues in between.  `opened` keeps, for every issue, the report it was created for.

As long as the search comes upon the right issue (`SearchesRight`), reports and issues correspond (`issues_correspond`).
-/
namespace Adg
namespace Issues

open Js Protocol

/-! ## States -/

/-- An issue of the repository, and the report for which the publisher created it. -/
structure Opened where
  issue : Issue
  /-- It carries the label `reviewer-report`. -/
  labelled : Bool
  createdFor : Option Str

inductive Phase
  /-- The next item is to be read. -/
  | reading
  | searching (payload : Value) (page : Nat)
  | creating (payload : Value)
  | reporting (payload : Value) (issue : Issue)

structure Run where
  claimNonce : Uuid4
  /-- The items that are left, the current one first. -/
  items : List ClaimItem
  phase : Phase

structure World where
  tables : Tables
  /-- The newest issue first. -/
  opened : List Opened
  run : Option Run

def World.start : World := ⟨noReports, [], none⟩

def World.labelled (w : World) : List Opened := w.opened.filter Opened.labelled

/-- What the service lists. -/
def World.listing (w : World) : List Issue := w.labelled.map Opened.issue

/-- The marker of the report with this id. -/
def markerOf (reportId : Str) : Str := str "adg-portal-report-id:" ++ reportId

inductive Action
  | report (userId : Str) (body : Document) (now : Nat)
  | openIssue (issue : Issue) (labelled : Bool)
  | claim (claimNonce : Uuid4) (requestedAt now : Nat)
  | read
  | search
  | create (number : Number) (htmlUrl : Str)
  | receipt (nonce : Uuid4) (acceptedAt now : Nat)
  /-- The run ends, because it is done, because it failed or because it was stopped. -/
  | stop

def World.isNew (w : World) (number : Number) : Bool := w.opened.all (fun o => decide (o.issue.number ≠ number))

/-! ## Steps -/

/-- The item is read, and its marker is known. -/
def readPhase (env : Environment) (item : ClaimItem) : Option Phase :=
  match readItem env item with
  | .ok payload =>
    match portalIssueReportMarker (payload.property "reportId") with
    | .ok _ => some (.searching payload 1)
    | .error _ => none
  | .error _ => none

def searchPhase (env : Environment) (marker : Str) (payload : Value) (page : Nat) (listing : List Issue) : Option Phase :=
  match findExistingIssue env marker page listing with
  | .found issue => some (.reporting payload issue)
  | .next => some (.searching payload (page + 1))
  | .absent => some (.creating payload)
  | .invalid => none

/-- The run goes on in its next phase, or is over where there is none. -/
def World.goOn (w : World) (claimNonce : Uuid4) (items : List ClaimItem) (phase : Option Phase) : World :=
  { w with run := phase.map (Run.mk claimNonce items) }

def World.step (env : Environment) (w : World) : Action → Option World
  | .report userId body now => (Issues.step env w.tables (.create userId body now)).map (fun s => { w with tables := s })
  | .openIssue issue labelled =>
    if w.isNew issue.number then some { w with opened := ⟨issue, labelled, none⟩ :: w.opened } else none
  | .claim claimNonce requestedAt now =>
    match w.run with
    | some _ => none
    | none =>
      match claimPortalIssueReports env w.tables (claimRequest env claimNonce requestedAt) now with
      | .ok (items, s) => some { w with tables := s, run := some ⟨claimNonce, items, .reading⟩ }
      | .error _ => some w
  | .read =>
    match w.run with
    | some ⟨claimNonce, item :: items, .reading⟩ =>
      some (w.goOn claimNonce (item :: items) (readPhase env item))
    | _ => none
  | .search =>
    match w.run with
    | some ⟨claimNonce, item :: items, .searching payload page⟩ =>
      some (w.goOn claimNonce (item :: items) (searchPhase env (markerOf item.reportId) payload page w.listing))
    | _ => none
  | .create number htmlUrl =>
    match w.run with
    | some ⟨claimNonce, item :: items, .creating payload⟩ =>
      match issueText payload with
      | .error _ => some { w with run := none }
      | .ok (_, body) =>
        let issue : Issue := ⟨number, htmlUrl, some body, false⟩
        if w.isNew number then
          some { w with
            opened := ⟨issue, true, some item.reportId⟩ :: w.opened
            run := if issue.isValid env then some ⟨claimNonce, item :: items, .reporting payload issue⟩ else none }
        else none
    | _ => none
  | .receipt nonce acceptedAt now =>
    match w.run with
    | some ⟨claimNonce, item :: items, .reporting payload issue⟩ =>
      match receivePortalIssueReportReceipt env w.tables
          (signEnvelope env (receiptFields env claimNonce nonce acceptedAt payload item issue)).text now with
      | .ok s => some { w with tables := s, run := some ⟨claimNonce, items, .reading⟩ }
      | .error _ => some { w with run := none }
    | _ => none
  | .stop => some { w with run := none }

def publishing (env : Environment) : Machine World Action := ⟨World.step env⟩

/-! ## The condition -/

/-- Where a page is searched for a report, every issue on it that has the marker of the report was created for it; and
where it is the last page, no issue that was created for the report is older. -/
def SearchesRight (w : World) : Action → Prop
  | .search =>
    match w.run with
    | some ⟨_, item :: _, .searching _ page⟩ =>
      (∀ o ∈ (w.labelled.drop (100 * (page - 1))).take 100, o.issue.hasMarker (markerOf item.reportId) = true →
        o.createdFor = some item.reportId) ∧
      (10 ≤ page → ∀ o ∈ w.labelled.drop 1000, o.createdFor ≠ some item.reportId)
    | _ => True
  | _ => True

/-! ## What is kept -/

/-- The body is the rendering of the row's payload. -/
def RenderedFrom (env : Environment) (r : ReportRow) (body : Str) : Prop :=
  ∃ payload, readItem env r.item = .ok payload ∧ renderPortalIssueMarkdown payload = .ok body

/-- The issue was created for the report of the row. -/
def CreatedFrom (env : Environment) (w : World) (r : ReportRow) (o : Opened) : Prop :=
  o ∈ w.opened ∧ o.createdFor = some r.id ∧ ∃ body, o.issue.body = some body ∧ RenderedFrom env r body

/-- The row is linked to the issue. -/
def ReportRow.LinkedTo (r : ReportRow) (o : Opened) : Prop :=
  r.githubIssueNumber = some o.issue.number ∧ r.githubIssueUrl = some o.issue.htmlUrl

/-- **Reports and issues correspond**: at most one issue was created for a report, a published report is linked to one
that was rendered from it, and no two to one. -/
structure Correspond (env : Environment) (w : World) : Prop where
  atMostOne : ∀ id, (w.opened.filter (fun o => decide (o.createdFor = some id))).length ≤ 1
  rendered : ∀ r ∈ w.tables.reports, r.status = .published → ∃ o, r.LinkedTo o ∧ CreatedFrom env w r o
  different : ∀ r ∈ w.tables.reports, ∀ r' ∈ w.tables.reports, r.status = .published → r'.status = .published →
    r.githubIssueNumber = r'.githubIssueNumber → r = r'

/-- What is known of the current item in each phase. -/
def PhaseOk (env : Environment) (w : World) : List ClaimItem → Phase → Prop
  | _, .reading => True
  | [], _ => False
  | item :: _, .searching payload page => readItem env item = .ok payload ∧ 1 ≤ page ∧
      ∀ o ∈ w.labelled.take (100 * (page - 1)), o.createdFor ≠ some item.reportId
  | item :: _, .creating payload => readItem env item = .ok payload ∧ ∀ o ∈ w.opened, o.createdFor ≠ some item.reportId
  | item :: _, .reporting payload issue => readItem env item = .ok payload ∧ issue.isValid env = true ∧
      ∃ o ∈ w.opened, o.issue = issue ∧ o.createdFor = some item.reportId

structure RunOk (env : Environment) (w : World) (run : Run) : Prop where
  items : ∀ item ∈ run.items, ∃ r ∈ w.tables.reports, r.item = item
  phase : PhaseOk env w run.items run.phase

/-- What a run keeps. -/
structure Inv (env : Environment) (w : World) : Prop where
  numbers : (w.opened.map (fun o => o.issue.number)).Nodup
  created : ∀ o ∈ w.opened, ∀ id, o.createdFor = some id → o.labelled = true ∧ o.issue.isPullRequest = false ∧
    ∃ r ∈ w.tables.reports, r.id = id ∧ ∃ body, o.issue.body = some body ∧ RenderedFrom env r body
  atMostOne : ∀ id, (w.opened.filter (fun o => decide (o.createdFor = some id))).length ≤ 1
  rendered : ∀ r ∈ w.tables.reports, r.status = .published → ∃ o, r.LinkedTo o ∧ CreatedFrom env w r o
  run : ∀ run, w.run = some run → RunOk env w run

theorem item_of_sameReport {r r' : ReportRow} (h : r.SameReport r') : r'.item = r.item := by
  rw [ReportRow.item, ReportRow.item, h.1, h.2.1, h.2.2]

theorem renderedFrom_same {env : Environment} {r r' : ReportRow} {body : Str} (h : r.SameReport r')
    (hbody : RenderedFrom env r body) : RenderedFrom env r' body := by
  obtain ⟨payload, hread, hrender⟩ := hbody
  exact ⟨payload, by rw [item_of_sameReport h]; exact hread, hrender⟩

/-- What a request leaves of the rows, when it links none. -/
structure LinksNone (s s' : Tables) : Prop where
  kept : ∀ r ∈ s.reports, ∃ r' ∈ s'.reports, r.SameReport r'
  published : ∀ r ∈ s'.reports, r.status = .published → r ∈ s.reports

theorem linksNone_refl (s : Tables) : LinksNone s s := ⟨fun r hr => ⟨r, hr, rfl, rfl, rfl⟩, fun _ hr _ => hr⟩

theorem kept_updateReports {s : Tables} {p : ReportRow → Bool} {f : ReportRow → ReportRow} (hf : ∀ r, (f r).id = r.id)
    (hsame : ∀ r : ReportRow, r.SameReport (f r)) : ∀ r ∈ s.reports, ∃ r' ∈ (s.updateReports p f hf).reports,
      r.SameReport r' := by
  intro r hr
  refine ⟨if p r then f r else r, Table.mem_update.2 ⟨r, hr, rfl⟩, ?_⟩
  split
  · exact hsame r
  · exact ⟨rfl, rfl, rfl⟩

theorem linksNone_create {env : Environment} {s s' : Tables} {userId : Str} {body : Document} {now : Nat}
    (h : Issues.step env s (.create userId body now) = some s') : LinksNone s s' := by
  rw [Issues.step] at h
  split at h
  · obtain rfl := Option.some.inj h
    split
    · rename_i answer s₁ hcreate
      obtain ⟨input, -, -, ⟨rfl, -⟩ | ⟨payload, category, -, -, hinsert⟩⟩ := create_spec hcreate
      · exact linksNone_refl _
      · obtain ⟨hreports, -, -⟩ := insertReport_spec hinsert
        refine ⟨fun r hr => ⟨r, ?_, rfl, rfl, rfl⟩, fun r hr hpublished => ?_⟩
        · rw [hreports]
          exact List.mem_append_left _ hr
        · rw [hreports] at hr
          rcases List.mem_append.1 hr with hr | hr
          · exact hr
          · rw [List.mem_singleton.1 hr] at hpublished
            cases hpublished
    · exact linksNone_refl s
  · cases h

theorem linksNone_claim {env : Environment} {s s' : Tables} {request : Str} {now : Nat} {items : List ClaimItem}
    (h : claimPortalIssueReports env s request now = .ok (items, s')) :
    LinksNone s s' ∧ ∀ item ∈ items, ∃ r ∈ s'.reports, r.item = item := by
  obtain ⟨nonce, -, rfl, hs'⟩ := claim_spec h
  refine ⟨?_, fun item hitem => ?_⟩
  · rcases hs' with rfl | ⟨requestedAt, limit, rfl⟩
    · exact linksNone_refl _
    · refine ⟨kept_updateReports (f := .claim nonce now) (fun _ => rfl) (fun _ => ⟨rfl, rfl, rfl⟩), fun r hr hpublished => ?_⟩
      obtain ⟨x, hx, rfl⟩ := Table.mem_update.1 hr
      split at hpublished
      · cases hpublished
      · rename_i hp
        rw [if_neg hp]
        exact hx
  · obtain ⟨r, hr, rfl⟩ := List.mem_map.1 hitem
    have hr := List.mem_of_mem_take hr
    exact ⟨r, (List.mem_filter.1 ((List.perm_insertionSort _ _).mem_iff.1 hr)).1, rfl⟩

/-- A request that links no report keeps the correspondence; what is known of the current run stays known. -/
theorem Inv.tables {env : Environment} {w : World} {s : Tables} (h : Inv env w) (hs : LinksNone w.tables s) :
    Inv env { w with tables := s } where
  numbers := h.numbers
  created o ho id hid := by
    obtain ⟨hlabel, hpull, r, hr, hrid, body, hbody, hrendered⟩ := h.created o ho id hid
    obtain ⟨r', hr', hsame⟩ := hs.kept r hr
    exact ⟨hlabel, hpull, r', hr', hsame.1.trans hrid, body, hbody, renderedFrom_same hsame hrendered⟩
  atMostOne := h.atMostOne
  rendered r hr hpublished := h.rendered r (hs.published r hr hpublished) hpublished
  run run hrun := by
    have hrun := h.run run hrun
    refine ⟨fun item hitem => ?_, hrun.phase⟩
    obtain ⟨r, hr, rfl⟩ := hrun.items item hitem
    obtain ⟨r', hr', hsame⟩ := hs.kept r hr
    exact ⟨r', hr', item_of_sameReport hsame⟩

/-- The phase of a run may be any that is right. -/
theorem Inv.goOn {env : Environment} {w : World} (h : Inv env w) {claimNonce : Uuid4} {items : List ClaimItem}
    {phase : Option Phase} (hitems : ∀ item ∈ items, ∃ r ∈ w.tables.reports, r.item = item)
    (hphase : ∀ p, phase = some p → PhaseOk env w items p) : Inv env (w.goOn claimNonce items phase) where
  numbers := h.numbers
  created := h.created
  atMostOne := h.atMostOne
  rendered := h.rendered
  run run hrun := by
    obtain ⟨p, hp, rfl⟩ := Option.map_eq_some_iff.1 hrun
    exact ⟨hitems, hphase p hp⟩

theorem Inv.stopped {env : Environment} {w : World} (h : Inv env w) : Inv env { w with run := none } :=
  { numbers := h.numbers, created := h.created, atMostOne := h.atMostOne, rendered := h.rendered, run := nofun }

/-! ## Markers -/

theorem includes_append (before marker after : Str) : includes (before ++ (marker ++ after)) marker = true := by
  rw [includes, List.any_eq_true]
  exact ⟨marker ++ after, (List.mem_tails _ _).2 (List.suffix_append before _),
    List.isPrefixOf_iff_prefix.2 (List.prefix_append marker after)⟩

theorem joinLines_cons (line : Str) (lines : List Str) : ∃ rest, joinLines (line :: lines) = line ++ rest := by
  cases lines with
  | nil => exact ⟨[], by simp [joinLines, List.intercalate]⟩
  | cons l ls => exact ⟨_, by rw [joinLines, List.intercalate, List.intersperse_cons_cons, List.flatten_cons]⟩

theorem reportId_of_validate {payload value : Value} (h : validatePortalIssuePublicPayload payload = .ok value) :
    value.property "reportId" = payload.property "reportId" := by
  rw [validatePortalIssuePublicPayload] at h
  split at h
  · cases h
  rw [bind_eq_ok] at h
  obtain ⟨label, -, h⟩ := h
  split at h
  · cases h
  rw [bind_eq_ok] at h
  obtain ⟨input, hinput, h⟩ := h
  rw [buildPortalIssuePublicPayload] at h
  split at h
  · cases h
  rw [bind_eq_ok] at h
  obtain ⟨label', -, h⟩ := h
  obtain rfl := Except.ok.inj h
  have hid : input.reportId = payload.property "reportId" := (accepted_of_validate hinput).fields.1.trans
    (property_record ["schema", "reportId", "category", "summary", "details", "reproductionSteps", "privacyConfirmed",
      "context"] rfl (by decide) (by simp))
  rw [← hid]
  exact property_record reportPublicPayloadKeys rfl (by decide) (by simp)

theorem reportId_of_readItem {env : Environment} {item : ClaimItem} {payload : Value} (h : readItem env item = .ok payload) :
    payload.property "reportId" = .string item.reportId := by
  rw [readItem] at h
  split at h
  · cases h
  · rw [bind_eq_ok] at h
    obtain ⟨p, -, h⟩ := h
    split at h
    · cases h
    · rename_i hwhole
      obtain rfl := Except.ok.inj h
      rw [not_or, Bool.not_eq_false] at hwhole
      have hid := hwhole.1
      cases hproperty : p.property "reportId" <;> rw [hproperty] at hid <;> first | cases hid | skip
      rw [isText, decide_eq_true_eq] at hid
      rw [hid]

/-- **A rendered body has the marker of its report.** -/
theorem marker_of_rendered {env : Environment} {r : ReportRow} {body : Str} (h : RenderedFrom env r body) :
    includes body (markerOf r.id) = true := by
  obtain ⟨payload, hread, hrender⟩ := h
  have hid := reportId_of_readItem hread
  rw [renderPortalIssueMarkdown, bind_eq_ok] at hrender
  obtain ⟨value, hvalue, hrender⟩ := hrender
  dsimp only at hrender
  rw [bind_eq_ok] at hrender
  obtain ⟨marker, hmarker, hrender⟩ := hrender
  rw [reportId_of_validate hvalue, hid, portalIssueReportMarker] at hmarker
  split at hmarker
  · obtain rfl := Except.ok.inj hmarker
    obtain ⟨label, -, hrender⟩ := bind_eq_ok.1 hrender
    obtain ⟨summary, -, hrender⟩ := bind_eq_ok.1 hrender
    obtain ⟨details, -, hrender⟩ := bind_eq_ok.1 hrender
    obtain ⟨steps, -, hrender⟩ := bind_eq_ok.1 hrender
    obtain ⟨version, -, hrender⟩ := bind_eq_ok.1 hrender
    obtain ⟨step, -, hrender⟩ := bind_eq_ok.1 hrender
    obtain ⟨lane, -, hrender⟩ := bind_eq_ok.1 hrender
    obtain ⟨task, -, hrender⟩ := bind_eq_ok.1 hrender
    obtain ⟨reportId, -, hrender⟩ := bind_eq_ok.1 hrender
    obtain ⟨createdAtUtc, -, hrender⟩ := bind_eq_ok.1 hrender
    obtain rfl := Except.ok.inj hrender
    simp only [List.cons_append]
    obtain ⟨rest, hrest⟩ := joinLines_cons (str "<!-- " ++ (str "adg-portal-report-id:" ++ r.item.reportId) ++ str " -->") _
    rw [hrest, List.append_assoc, List.append_assoc, List.append_assoc]
    exact includes_append (str "<!-- ") (markerOf r.id) _
  · cases hmarker

/-! ## Steps -/

theorem mem_take_cons {α : Type} {n : Nat} {a b : α} {l : List α} (h : b ∈ (a :: l).take n) : b = a ∨ b ∈ l.take n := by
  cases n with
  | zero => cases h
  | succ n =>
    rw [List.take_succ_cons, List.mem_cons] at h
    exact h.imp_right (fun hb => List.take_subset_take_left l (Nat.le_succ n) hb)

theorem World.labelled_cons (w : World) (o : Opened) {b : Opened} {n : Nat}
    (h : b ∈ ({ w with opened := o :: w.opened } : World).labelled.take n) : b = o ∨ b ∈ w.labelled.take n := by
  rw [World.labelled, List.filter_cons] at h
  split at h
  · exact mem_take_cons h
  · exact Or.inr h

theorem isNew_iff {w : World} {number : Number} : w.isNew number = true ↔ ∀ o ∈ w.opened, o.issue.number ≠ number := by
  simp only [World.isNew, List.all_eq_true, decide_eq_true_eq]

theorem PhaseOk.openIssue {env : Environment} {w : World} {o : Opened} (ho : o.createdFor = none) :
    ∀ {items : List ClaimItem} {phase : Phase}, PhaseOk env w items phase →
      PhaseOk env { w with opened := o :: w.opened } items phase
  | [], .reading, _ => trivial
  | _ :: _, .reading, _ => trivial
  | [], .searching _ _, h => h
  | [], .creating _, h => h
  | [], .reporting _ _, h => h
  | item :: _, .searching payload page, ⟨hread, hpage, hsearched⟩ => by
    refine ⟨hread, hpage, fun b hb => ?_⟩
    rcases w.labelled_cons o hb with rfl | hb
    · rw [ho]
      nofun
    · exact hsearched b hb
  | item :: _, .creating payload, ⟨hread, hnone⟩ => by
    refine ⟨hread, fun b hb => ?_⟩
    rcases List.mem_cons.1 hb with rfl | hb
    · rw [ho]
      nofun
    · exact hnone b hb
  | item :: _, .reporting payload issue, ⟨hread, hvalid, b, hb, hissue, hfor⟩ =>
    ⟨hread, hvalid, b, List.mem_cons_of_mem o hb, hissue, hfor⟩

theorem Inv.openIssue {env : Environment} {w : World} (h : Inv env w) {issue : Issue} {labelled : Bool}
    (hnew : w.isNew issue.number = true) : Inv env { w with opened := ⟨issue, labelled, none⟩ :: w.opened } where
  numbers := by
    rw [List.map_cons, List.nodup_cons]
    refine ⟨fun hmem => ?_, h.numbers⟩
    obtain ⟨o, ho, heq⟩ := List.mem_map.1 hmem
    exact isNew_iff.1 hnew o ho heq
  created o ho id hid := by
    rcases List.mem_cons.1 ho with rfl | ho
    · cases hid
    · exact h.created o ho id hid
  atMostOne id := by
    rw [List.filter_cons_of_neg (by simp)]
    exact h.atMostOne id
  rendered r hr hpublished := by
    obtain ⟨o, hlinked, ho, hcreated⟩ := h.rendered r hr hpublished
    exact ⟨o, hlinked, List.mem_cons_of_mem _ ho, hcreated⟩
  run run hrun := ⟨(h.run run hrun).items, (h.run run hrun).phase.openIssue rfl⟩

/-- Reading an item begins its search. -/
theorem readPhase_ok {env : Environment} {w : World} {item : ClaimItem} {items : List ClaimItem} {phase : Phase}
    (h : readPhase env item = some phase) : PhaseOk env w (item :: items) phase := by
  rw [readPhase] at h
  split at h
  · rename_i payload hread
    split at h
    · obtain rfl := Option.some.inj h
      exact ⟨hread, le_refl 1, fun o ho => by cases ho⟩
    · cases h
  · cases h

/-- What has been searched, with one more page. -/
theorem take_page (l : List Opened) {page : Nat} (hpage : 1 ≤ page) :
    l.take (100 * page) = l.take (100 * (page - 1)) ++ (l.drop (100 * (page - 1))).take 100 := by
  rw [← List.take_add]
  congr 1
  omega

theorem pageOf_listing (w : World) (page : Nat) :
    pageOf page w.listing = ((w.labelled.drop (100 * (page - 1))).take 100).map Opened.issue := by
  rw [pageOf, World.listing, List.map_take, List.map_drop]

/-- **A page that is searched right leads to a phase that is right.** -/
theorem searchPhase_ok {env : Environment} {w : World} (h : Inv env w) {claimNonce : Uuid4} {item : ClaimItem}
    {items : List ClaimItem} {payload : Value} {page : Nat}
    (hrun : w.run = some ⟨claimNonce, item :: items, .searching payload page⟩) (hright : SearchesRight w .search)
    {phase : Phase} (hphase : searchPhase env (markerOf item.reportId) payload page w.listing = some phase) :
    PhaseOk env w (item :: items) phase := by
  obtain ⟨hread, hpage, hsearched⟩ := (h.run _ hrun).phase
  simp only [SearchesRight, hrun] at hright
  obtain ⟨hmarked, hlast⟩ := hright
  -- an issue that was created for the report has its marker and is no pull request
  have hfound : (pageOf page w.listing).find? (Issue.hasMarker (markerOf item.reportId)) = none →
      ∀ o ∈ w.labelled.take (100 * page), o.createdFor ≠ some item.reportId := by
    intro hnone o ho hfor
    rw [take_page w.labelled hpage, List.mem_append] at ho
    rcases ho with ho | ho
    · exact hsearched o ho hfor
    · have hopened : o ∈ w.opened := (List.mem_filter.1 (List.mem_of_mem_drop (List.mem_of_mem_take ho))).1
      obtain ⟨-, hpull, r, -, hid, body, hbody, hrendered⟩ := h.created o hopened _ hfor
      have hmem : o.issue ∈ pageOf page w.listing := by
        rw [pageOf_listing]
        exact List.mem_map_of_mem ho
      refine List.find?_eq_none.1 hnone o.issue hmem ?_
      rw [Issue.hasMarker, hbody, hpull, Option.any_some, ← hid, marker_of_rendered hrendered]
      rfl
  rw [searchPhase] at hphase
  cases hsearch : findExistingIssue env (markerOf item.reportId) page w.listing with
  | found issue =>
    rw [hsearch] at hphase
    obtain rfl := Option.some.inj hphase
    rw [findExistingIssue] at hsearch
    split at hsearch
    · rename_i found hfind
      split at hsearch
      · rename_i hvalid
        obtain rfl := Search.found.inj hsearch
        have hmem := List.mem_of_find?_eq_some hfind
        rw [pageOf_listing] at hmem
        obtain ⟨o, ho, rfl⟩ := List.mem_map.1 hmem
        have hopened : o ∈ w.opened := (List.mem_filter.1 (List.mem_of_mem_drop (List.mem_of_mem_take ho))).1
        exact ⟨hread, hvalid, o, hopened, rfl, hmarked o ho (List.find?_some hfind)⟩
      · cases hsearch
    · split at hsearch <;> cases hsearch
  | next =>
    rw [hsearch] at hphase
    obtain rfl := Option.some.inj hphase
    rw [findExistingIssue] at hsearch
    split at hsearch
    · split at hsearch <;> cases hsearch
    · rename_i hnone
      refine ⟨hread, by omega, ?_⟩
      rw [Nat.add_sub_cancel]
      exact hfound hnone
  | absent =>
    rw [hsearch] at hphase
    obtain rfl := Option.some.inj hphase
    rw [findExistingIssue] at hsearch
    split at hsearch
    · split at hsearch <;> cases hsearch
    · rename_i hnone
      split at hsearch
      · rename_i hend
        refine ⟨hread, fun o ho hfor => ?_⟩
        have hlabel := (h.created o ho _ hfor).1
        have hlabelled : o ∈ w.labelled := List.mem_filter.2 ⟨ho, hlabel⟩
        rcases hend with hshort | hten
        · -- a short page is the end of the listing
          have hall : w.labelled.take (100 * page) = w.labelled := by
            rw [pageOf_listing, List.length_map, List.length_take, List.length_drop] at hshort
            exact List.take_of_length_le (by omega)
          refine hfound hnone o ?_ hfor
          rw [hall]
          exact hlabelled
        · rw [← List.take_append_drop 1000 w.labelled, List.mem_append] at hlabelled
          rcases hlabelled with hmem | hmem
          · exact hfound hnone o (List.take_subset_take_left _ (by omega) hmem) hfor
          · exact hlast hten o hmem hfor
      · cases hsearch
  | invalid =>
    rw [hsearch] at hphase
    cases hphase

/-- What a publisher's receipt does to the tables: nothing, or it links the report to the issue. -/
theorem receive_signed {env : Environment} {s s' : Tables} {claimNonce nonce : Uuid4} {acceptedAt now : Nat} {payload : Value}
    {item : ClaimItem} {issue : Issue} (hread : readItem env item = .ok payload) (hvalid : issue.isValid env = true)
    (h : receivePortalIssueReportReceipt env s
      (signEnvelope env (receiptFields env claimNonce nonce acceptedAt payload item issue)).text now = .ok s') :
    s' = s ∨ ∃ sha claim at_, s' = s.publishReport item.reportId sha claim issue.number issue.htmlUrl at_ := by
  have hid := reportId_of_readItem hread
  rw [Issue.isValid, Bool.and_eq_true] at hvalid
  obtain ⟨hparse, -, henvelope⟩ := read_receipt env claimNonce nonce acceptedAt hid hvalid.1
  have hfield : ∀ (key : String) (v : Value), (key, v) ∈ receiptFields env claimNonce nonce acceptedAt payload item issue →
      (record (receiptFields env claimNonce nonce acceptedAt payload item issue)).property key = v :=
    fun _ _ hmem => property_record receiptKeys rfl (by decide) hmem
  rw [receivePortalIssueReportReceipt, hparse] at h
  dsimp only at h
  rw [henvelope] at h
  obtain ⟨-, -, h⟩ := bind_eq_ok.1 h
  obtain ⟨verified, -, h⟩ := bind_eq_ok.1 h
  split at h
  · cases h
  rw [Tables.acceptReceipt, hfield "reportId" (.string item.reportId) (by simp [receiptFields, hid])] at h
  obtain ⟨reportId, hreportId, h⟩ := bind_eq_ok.1 h
  obtain rfl := Except.ok.inj hreportId
  split at h
  · cases h
  split at h
  · cases h
  split at h
  · cases h
  split at h
  · split at h
    · cases h
    · exact Or.inl (Except.ok.inj h).symm
  split at h
  · cases h
  rw [hfield "issueNumber" (.number issue.number) (by simp [receiptFields]),
    hfield "issueUrl" (.string issue.htmlUrl) (by simp [receiptFields]),
    hfield "claimNonce" (.string claimNonce.1) (by simp [receiptFields])] at h
  exact Or.inr ⟨_, _, _, (Except.ok.inj h).symm⟩

/-- **A report is linked to an issue that was created from it.** -/
theorem Inv.publish {env : Environment} {w : World} (h : Inv env w) {item : ClaimItem} {issue : Issue}
    {sha claim : Str} {at_ : Nat} {o : Opened} (ho : o ∈ w.opened) (hissue : o.issue = issue)
    (hfor : o.createdFor = some item.reportId) :
    Inv env { w with tables := w.tables.publishReport item.reportId sha claim issue.number issue.htmlUrl at_, run := none }
    where
  numbers := h.numbers
  created b hb id hid := by
    obtain ⟨hlabel, hpull, r, hr, hrid, body, hbody, hrendered⟩ := h.created b hb id hid
    obtain ⟨r', hr', hsame⟩ := kept_updateReports (f := .publish issue.number issue.htmlUrl at_) (fun _ => rfl)
      (fun _ => ⟨rfl, rfl, rfl⟩) r hr
    exact ⟨hlabel, hpull, r', hr', hsame.1.trans hrid, body, hbody, renderedFrom_same hsame hrendered⟩
  atMostOne := h.atMostOne
  rendered r hr hpublished := by
    obtain ⟨x, hx, rfl⟩ := Table.mem_update.1 hr
    split at hpublished
    · rename_i hp
      rw [if_pos hp]
      simp only [Bool.and_eq_true, decide_eq_true_eq] at hp
      obtain ⟨-, -, r₀, hr₀, hid₀, body, hbody, hrendered⟩ := h.created o ho _ hfor
      obtain rfl := w.tables.reportsKeyed.eq_of_key hr₀ hx (hid₀.trans hp.1.1.1.symm)
      refine ⟨o, ?_, ho, hfor.trans (congrArg some hid₀.symm), body, hbody, hrendered⟩
      rw [ReportRow.LinkedTo, hissue]
      exact ⟨rfl, rfl⟩
    · rename_i hp
      rw [if_neg hp]
      exact h.rendered x hx hpublished
  run := nofun

theorem Inv.receipt {env : Environment} {w : World} (h : Inv env w) {claimNonce nonce : Uuid4} {acceptedAt now : Nat}
    {item : ClaimItem} {items : List ClaimItem} {payload : Value} {issue : Issue}
    (hrun : w.run = some ⟨claimNonce, item :: items, .reporting payload issue⟩) {s : Tables}
    (hreceive : receivePortalIssueReportReceipt env w.tables
      (signEnvelope env (receiptFields env claimNonce nonce acceptedAt payload item issue)).text now = .ok s) :
    Inv env { w with tables := s, run := some ⟨claimNonce, items, .reading⟩ } := by
  have hrunOk := h.run _ hrun
  obtain ⟨hread, hvalid, o, ho, hissue, hfor⟩ := hrunOk.phase
  have hitems : ∀ i ∈ items, ∃ r ∈ s.reports, r.item = i := by
    intro i hi
    obtain ⟨r, hr, rfl⟩ := hrunOk.items i (List.mem_cons_of_mem item hi)
    rcases receive_signed hread hvalid hreceive with rfl | ⟨sha, claim, at_, rfl⟩
    · exact ⟨r, hr, rfl⟩
    · obtain ⟨r', hr', hsame⟩ := kept_updateReports (f := .publish issue.number issue.htmlUrl at_) (fun _ => rfl)
        (fun _ => ⟨rfl, rfl, rfl⟩) r hr
      exact ⟨r', hr', item_of_sameReport hsame⟩
  have hstopped : Inv env { w with tables := s, run := none } := by
    rcases receive_signed hread hvalid hreceive with rfl | ⟨sha, claim, at_, rfl⟩
    · exact h.stopped
    · exact h.publish ho hissue hfor
  exact hstopped.goOn hitems (fun p (hp : some Phase.reading = some p) => by
    obtain rfl := Option.some.inj hp
    cases items <;> exact trivial)

/-- **An issue is created for a report that has none.** -/
theorem Inv.create {env : Environment} {w : World} (h : Inv env w) {claimNonce : Uuid4} {item : ClaimItem}
    {items : List ClaimItem} {payload : Value} (hrun : w.run = some ⟨claimNonce, item :: items, .creating payload⟩)
    {title body : Str} (htext : issueText payload = .ok (title, body)) {number : Number} {htmlUrl : Str}
    (hnew : w.isNew number = true) :
    Inv env { w with
      opened := ⟨⟨number, htmlUrl, some body, false⟩, true, some item.reportId⟩ :: w.opened
      run := if (Issue.mk number htmlUrl (some body) false).isValid env then
        some ⟨claimNonce, item :: items, .reporting payload ⟨number, htmlUrl, some body, false⟩⟩ else none } where
  numbers := by
    rw [List.map_cons, List.nodup_cons]
    refine ⟨fun hmem => ?_, h.numbers⟩
    obtain ⟨o, ho, heq⟩ := List.mem_map.1 hmem
    exact isNew_iff.1 hnew o ho heq
  created o ho id hid := by
    rcases List.mem_cons.1 ho with rfl | ho
    · obtain ⟨r, hr, rfl⟩ := (h.run _ hrun).items item List.mem_cons_self
      have hread := (h.run _ hrun).phase.1
      obtain ⟨title', -, htext⟩ := bind_eq_ok.1 htext
      obtain ⟨body', hbody, htext⟩ := bind_eq_ok.1 htext
      obtain ⟨-, rfl⟩ := Prod.mk.inj (Except.ok.inj htext)
      exact ⟨rfl, rfl, r, hr, Option.some.inj hid, body', rfl, payload, hread, hbody⟩
    · exact h.created o ho id hid
  atMostOne id := by
    by_cases hid : item.reportId = id
    · have hnone : w.opened.filter (fun o => decide (o.createdFor = some id)) = [] := by
        rw [List.filter_eq_nil_iff]
        intro o ho hfor
        rw [decide_eq_true_eq, ← hid] at hfor
        exact (h.run _ hrun).phase.2 o ho hfor
      rw [List.filter_cons_of_pos (by rw [hid]; exact decide_eq_true rfl), hnone]
      exact le_refl 1
    · rw [List.filter_cons_of_neg (by simpa using hid)]
      exact h.atMostOne id
  rendered r hr hpublished := by
    obtain ⟨o, hlinked, ho, hcreated⟩ := h.rendered r hr hpublished
    exact ⟨o, hlinked, List.mem_cons_of_mem _ ho, hcreated⟩
  run run hnext := by
    split at hnext
    · rename_i hvalid
      obtain rfl := Option.some.inj hnext
      exact ⟨(h.run _ hrun).items, (h.run _ hrun).phase.1, hvalid, _, List.mem_cons_self, rfl, rfl⟩
    · cases hnext

/-- **Every step that searches right keeps the invariant.** -/
theorem Inv.step {env : Environment} {w w' : World} {a : Action} (h : Inv env w) (hright : SearchesRight w a)
    (hs : w.step env a = some w') : Inv env w' := by
  cases a with
  | report userId body now =>
    rw [World.step, Option.map_eq_some_iff] at hs
    obtain ⟨s, hs, rfl⟩ := hs
    exact h.tables (linksNone_create hs)
  | openIssue issue labelled =>
    rw [World.step] at hs
    split at hs
    · rename_i hnew
      obtain rfl := Option.some.inj hs
      exact h.openIssue hnew
    · cases hs
  | claim claimNonce requestedAt now =>
    rw [World.step] at hs
    split at hs
    · cases hs
    split at hs
    · rename_i items s hclaim
      obtain rfl := Option.some.inj hs
      obtain ⟨hlinks, hitems⟩ := linksNone_claim hclaim
      exact (h.tables hlinks).goOn hitems (fun p (hp : some Phase.reading = some p) => by
        obtain rfl := Option.some.inj hp
        cases items <;> exact trivial)
    · obtain rfl := Option.some.inj hs
      exact h
  | read =>
    rw [World.step] at hs
    split at hs
    · rename_i claimNonce item items hrun
      obtain rfl := Option.some.inj hs
      exact h.goOn (h.run _ hrun).items (fun p hp => readPhase_ok hp)
    · cases hs
  | search =>
    rw [World.step] at hs
    split at hs
    · rename_i claimNonce item items payload page hrun
      obtain rfl := Option.some.inj hs
      exact h.goOn (h.run _ hrun).items (fun p hp => searchPhase_ok h hrun hright hp)
    · cases hs
  | create number htmlUrl =>
    rw [World.step] at hs
    split at hs
    · rename_i claimNonce item items payload hrun
      split at hs
      · obtain rfl := Option.some.inj hs
        exact h.stopped
      · rename_i title body htext
        dsimp only at hs
        split at hs
        · rename_i hnew
          obtain rfl := Option.some.inj hs
          exact h.create hrun htext hnew
        · cases hs
    · cases hs
  | receipt nonce acceptedAt now =>
    rw [World.step] at hs
    split at hs
    · rename_i claimNonce item items payload issue hrun
      split at hs
      · rename_i s hreceive
        obtain rfl := Option.some.inj hs
        exact h.receipt hrun hreceive
      · obtain rfl := Option.some.inj hs
        exact h.stopped
    · cases hs
  | stop =>
    obtain rfl := Option.some.inj hs
    exact h.stopped

theorem inv_start (env : Environment) : Inv env World.start :=
  { numbers := List.nodup_nil, created := nofun, atMostOne := fun _ => Nat.zero_le 1, rendered := nofun, run := nofun }

theorem Inv.correspond {env : Environment} {w : World} (h : Inv env w) : Correspond env w where
  atMostOne := h.atMostOne
  rendered := h.rendered
  different r hr r' hr' hpublished hpublished' heq := by
    obtain ⟨o, hlinked, ho, hfor, -⟩ := h.rendered r hr hpublished
    obtain ⟨o', hlinked', ho', hfor', -⟩ := h.rendered r' hr' hpublished'
    have hnumber : o.issue.number = o'.issue.number := by
      rw [hlinked.1, hlinked'.1] at heq
      exact Option.some.inj heq
    obtain rfl := List.inj_on_of_nodup_map h.numbers ho ho' hnumber
    rw [hfor] at hfor'
    exact w.tables.reportsKeyed.eq_of_key hr hr' (Option.some.inj hfor')

/-- **In a run whose every search comes upon the right issue, reports and issues correspond in every state.** -/
theorem issues_correspond (env : Environment) {w : World} (h : (publishing env).Steps SearchesRight World.start w) :
    Correspond env w :=
  (h.invariant (I := Inv env) (inv_start env) (fun _ _ _ hx hc hs => hx.step hc hs)).correspond

/-! ## Two runs -/

instance (w : World) (a : Action) : Decidable (SearchesRight w a) := by
  cases a with
  | search =>
    rw [SearchesRight]
    split <;> infer_instance
  | report _ _ _ | openIssue _ _ | claim _ _ _ | read | create _ _ | receipt _ _ _ | stop => exact Decidable.isTrue trivial

/-- A claim and the publication of its first report, as the issue 7. -/
def publishFirst : List Action :=
  [.claim claimNonce 1700000060000 1700000060000, .read, .search,
    .create (.ofNat 7) (str "https://github.com/sbay-dev/ADG-Lang/issues/7"), .receipt receiptNonce 1700000065000 1700000066000]

def oneReport : List Action := .report (str "user-1") (sampleReport finishedId) 1700000000000 :: publishFirst

theorem issues_correspond_oneReport : ∃ w, (publishing sampleEnv).runIf SearchesRight World.start oneReport = some w ∧
    w.tables.reports.map ReportRow.status = [.published] ∧ Correspond sampleEnv w := by
  have hrun : ((publishing sampleEnv).runIf SearchesRight World.start oneReport).map (fun w =>
      w.tables.reports.map ReportRow.status) = some [.published] := by decide +kernel
  obtain ⟨w, hw, hstatus⟩ := Option.map_eq_some_iff.1 hrun
  exact ⟨w, hw, hstatus, issues_correspond sampleEnv (Machine.steps_of_runIf hw)⟩

/-- Another report, whose description names the marker of the first. -/
def namingReport : Document :=
  ⟨bodyWith "9d1f0c7a-2b4e-4f6a-8c3d-1e5a7b9c0d2e"
    "See adg-portal-report-id:5f0c1b6e-8d2a-4c3b-9a1e-7b6d5c4e3f21 as well.", bodyWith_json _ _⟩

def twoReports : List Action :=
  .report (str "user-1") namingReport 1699999999000 :: .report (str "user-1") (sampleReport finishedId) 1700000000000 ::
    (publishFirst ++ [.read, .search, .receipt receiptNonce 1700000065000 1700000066000])

/-- **The second report is linked to the issue of the first**, in whose body its marker was found. -/
theorem issues_do_not_correspond : ∃ w, (publishing sampleEnv).Reaches World.start w ∧ ¬ Correspond sampleEnv w := by
  have hrun : ((publishing sampleEnv).run World.start twoReports).map (fun w =>
      w.tables.reports.map (fun r => (r.id, r.status, r.githubIssueNumber))) =
        some [(str "9d1f0c7a-2b4e-4f6a-8c3d-1e5a7b9c0d2e", .published, some (.ofNat 7)),
          (str finishedId, .published, some (.ofNat 7))] := by decide +kernel
  obtain ⟨w, hw, hrows⟩ := Option.map_eq_some_iff.1 hrun
  refine ⟨w, Machine.steps_of_run hw (Machine.runMeets_true _ _), fun h => ?_⟩
  have hrow : ∀ id : Str, id = str "9d1f0c7a-2b4e-4f6a-8c3d-1e5a7b9c0d2e" ∨ id = str finishedId →
      ∃ r ∈ w.tables.reports, r.id = id ∧ r.status = .published ∧ r.githubIssueNumber = some (.ofNat 7) := by
    intro id hid
    have hmem : (id, ReportStatus.published, some (Number.ofNat 7)) ∈
        w.tables.reports.map (fun r => (r.id, r.status, r.githubIssueNumber)) := by
      rw [hrows]
      rcases hid with rfl | rfl
      · exact List.mem_cons_self
      · exact List.mem_cons_of_mem _ List.mem_cons_self
    obtain ⟨r, hr, hfields⟩ := List.mem_map.1 hmem
    simp only [Prod.mk.injEq] at hfields
    exact ⟨r, hr, hfields⟩
  obtain ⟨r, hr, hid, hfields⟩ := hrow _ (Or.inl rfl)
  obtain ⟨r', hr', hid', hfields'⟩ := hrow _ (Or.inr rfl)
  have hsame := h.different r hr r' hr' hfields.1 hfields'.1 (hfields.2.trans hfields'.2.symm)
  rw [hsame, hid'] at hid
  exact absurd hid (by decide)

end Issues
end Adg
