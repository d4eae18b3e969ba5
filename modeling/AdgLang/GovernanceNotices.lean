import AdgLang.Fallible
import AdgLang.IssueReports
import AdgLang.SqlTranslation
import AdgLang.Table
import Mathlib.Data.List.Dedup
/-!
# GovernanceNotices — the outbox of governance notifications

`queueGovernanceNotifications`: one row of the outbox for each participant of a task who enabled notifications, on either
database.  The statement skips rows that conflict; which conflicts it skips depends on the database, and the table admits
six event types while the workflow uses seven.  A notice is queued as it should be exactly where its type is admitted or
nobody is to be told (`notices_queued_iff`).
-/
namespace Adg
namespace Governance

open Js Protocol Issues

/-! ## Tables -/

inductive NoticeStatus
  | pending
  | sending
  | sent
  | failed
  | skipped
deriving DecidableEq

/-- A row of `governance_notification_outbox`. -/
structure NoticeRow where
  id : Str
  recipientUserId : Str
  eventType : Str
  taskVersionId : Str
  contextJson : Str
  dedupeKey : Str
  status : NoticeStatus
  attempts : Nat
  nextAttemptAt : Nat
  createdAt : Nat
deriving DecidableEq

structure UserRow where
  id : Str
  consentJson : Str
deriving DecidableEq

/-- The tables that the call reads and writes: `task_versions` by id, `task_participations` by task and user. -/
structure Tables where
  tasks : List Str
  users : List UserRow
  participations : List (Str × Str)
  outbox : List NoticeRow
deriving DecidableEq

/-- `event_type IN (..)`, in both schemas. -/
def admittedEventTypes : List Str :=
  [str "task-reissued", str "result-approved", str "result-published", str "result-revoked", str "appeal-opened",
    str "appeal-decided"]

/-! ## Statements -/

inductive Backend
  | sqlite
  | postgres
deriving DecidableEq

def insertNoticeSql : Str :=
  joinLines [str "INSERT OR IGNORE INTO " ++ str "governance_notification_outbox",
    str "        (id, recipient_user_id, event_type, " ++ str "task_version_id,",
    str "         context_json, dedupe_key, " ++ str "status, attempts,", str "         next_attempt_at, created_at)",
    str "       VALUES (?, ?, ?, ?, ?, ?, " ++ str "'pending', 0, ?, ?)"]

/-- The statement that the database is given. -/
def Backend.statement (sql : Str) : Backend → Str
  | .sqlite => sql
  | .postgres => Database.rewriteInsertOrIgnore sql

/-- A row that violates a key is skipped. -/
def Backend.skipsConflicts (sql : Str) : Backend → Bool
  | .sqlite => (Database.matchInsertOrIgnore sql).isSome
  | .postgres => (str " ON CONFLICT DO NOTHING").isSuffixOf sql

/-- A row that fails a check is skipped: `OR IGNORE` covers checks, `ON CONFLICT` does not. -/
def Backend.skipsFailedChecks (sql : Str) : Backend → Bool
  | .sqlite => (Database.matchInsertOrIgnore sql).isSome
  | .postgres => false

def NoticeRow.conflicts (row r : NoticeRow) : Bool := decide (r.id = row.id) || decide (r.dedupeKey = row.dedupeKey)

/-- One insertion: the checks, then the keys, then the references. -/
def insertNotice (backend : Backend) (sql : Str) (t : Tables) (row : NoticeRow) : Except Str Tables :=
  if !admittedEventTypes.contains row.eventType then
    if backend.skipsFailedChecks sql then .ok t else .error (str "CHECK constraint failed")
  else if t.outbox.any row.conflicts then
    if backend.skipsConflicts sql then .ok t else .error (str "UNIQUE constraint failed")
  else if !(t.tasks.contains row.taskVersionId && t.users.any (fun u => decide (u.id = row.recipientUserId))) then
    .error (str "FOREIGN KEY constraint failed")
  else .ok { t with outbox := t.outbox ++ [row] }

/-- A batch: all statements, or none. -/
def batch (backend : Backend) (sql : Str) : List NoticeRow → Tables → Except Str Tables
  | [], t => .ok t
  | row :: rows, t => do
    let t ← insertNotice backend sql t row
    batch backend sql rows t

attribute [grind =] batch

/-! ## `queueGovernanceNotifications` -/

/-- `SELECT DISTINCT tp.user_id, u.consent_json .. JOIN users u`. -/
def Tables.recipients (t : Tables) (taskVersionId : Str) : List UserRow :=
  ((t.participations.filter (fun p => decide (p.1 = taskVersionId))).filterMap
    (fun p => Table.lookup UserRow.id p.2 t.users)).dedup

def discussionNotificationsEnabled (consentJson : Str) : Except Str Bool :=
  match parse consentJson with
  | none => .error (str "SyntaxError")
  | some consent =>
    if isNullish consent then .error typeError else .ok (isTrue (consent.property "discussionNotifications"))

/-- The recipients that the loop does not pass over. -/
def enabledAmong : List UserRow → Except Str (List UserRow)
  | [] => .ok []
  | row :: rows => do
    let enabled ← discussionNotificationsEnabled row.consentJson
    let rest ← enabledAmong rows
    return if enabled then row :: rest else rest

/-- `event:subject`, the dedupe key that a caller gives. -/
def eventKey (eventType subject : Str) : Str := eventType ++ unit ':' :: subject

/-- The dedupe key of a recipient's row. -/
def recipientKey (key userId : Str) : Str := key ++ unit ':' :: userId

def noticeRow (id taskVersionId eventType context key : Str) (now : Nat) (row : UserRow) : NoticeRow where
  id := id
  recipientUserId := row.id
  eventType := eventType
  taskVersionId := taskVersionId
  contextJson := context
  dedupeKey := recipientKey key row.id
  status := .pending
  attempts := 0
  nextAttemptAt := now
  createdAt := now

/-- `uuid` gives the identifiers that the loop draws, in order. -/
def queueGovernanceNotifications (backend : Backend) (uuid : Nat → Str) (now : Nat) (t : Tables)
    (taskVersionId eventType context key : Str) : Except Str Tables := do
  let rows ← enabledAmong (t.recipients taskVersionId)
  batch backend (backend.statement insertNoticeSql)
    (rows.mapIdx (fun i row => noticeRow (uuid i) taskVersionId eventType context key now row)) t

/-! ## The calls of the workflow -/

inductive GovernanceEvent
  | taskReissued
  | resultApproved
  | resultPublished
  | resultRevoked
  | appealOpened
  | appealDecided
  | j1AdjudicationRequired
deriving DecidableEq

def GovernanceEvent.text : GovernanceEvent → Str
  | .taskReissued => str "task-reissued"
  | .resultApproved => str "result-approved"
  | .resultPublished => str "result-published"
  | .resultRevoked => str "result-revoked"
  | .appealOpened => str "appeal-opened"
  | .appealDecided => str "appeal-decided"
  | .j1AdjudicationRequired => str "j1-adjudication-required"

/-- A call: every caller's dedupe key is the event type with the identifier of what happened. -/
structure Notice where
  event : GovernanceEvent
  taskVersionId : Str
  subject : Str
  context : Str

def Notice.key (n : Notice) : Str := eventKey n.event.text n.subject

def Notice.queue (n : Notice) (backend : Backend) (uuid : Nat → Str) (now : Nat) (t : Tables) : Except Str Tables :=
  queueGovernanceNotifications backend uuid now t n.taskVersionId n.event.text n.context n.key

/-! ## Sound tables -/

/-- A row of the outbox as the calls write them. -/
structure NoticeRow.Named (r : NoticeRow) : Prop where
  admitted : r.eventType ∈ admittedEventTypes
  key : ∃ subject, r.dedupeKey = recipientKey (eventKey r.eventType subject) r.recipientUserId
  recipient : unit ':' ∉ r.recipientUserId

/-- The tables as the schema and the portal keep them: identifiers of users are UUIDs, and consents are objects. -/
structure Tables.Sound (t : Tables) : Prop where
  users : Table.Keyed UserRow.id t.users
  names : ∀ u ∈ t.users, unit ':' ∉ u.id
  consents : ∀ u ∈ t.users, ∃ properties, parse u.consentJson = some (.object properties)
  references : ∀ p ∈ t.participations, p.1 ∈ t.tasks
  keys : Table.Keyed NoticeRow.dedupeKey t.outbox
  outbox : ∀ r ∈ t.outbox, r.Named

/-- The identifiers drawn are new. -/
structure Draws (uuid : Nat → Str) (t : Tables) : Prop where
  distinct : ∀ i j, uuid i = uuid j → i = j
  fresh : ∀ i, ∀ r ∈ t.outbox, r.id ≠ uuid i

/-- The participants of a task who enabled notifications. -/
def Tables.told (t : Tables) (taskVersionId : Str) : List UserRow :=
  (t.recipients taskVersionId).filter (fun u => decide (discussionNotificationsEnabled u.consentJson = .ok true))

/-- Every participant who enabled notifications has one row under the key, and the call did not throw. -/
def Queued (n : Notice) (t : Tables) (result : Except Str Tables) : Prop :=
  ∃ t', result = .ok t' ∧ ∀ u ∈ t.told n.taskVersionId,
    t'.outbox.countP (fun r => decide (r.dedupeKey = recipientKey n.key u.id ∧ r.recipientUserId = u.id)) = 1

/-! ## Keys -/

theorem before_eq {c : UInt16} : ∀ {e f x y : Str}, c ∉ e → c ∉ f → e ++ c :: x = f ++ c :: y → e = f
  | [], [], _, _, _, _, _ => rfl
  | [], v :: f, _, _, _, hf, h => by
    rw [List.nil_append, List.cons_append, List.cons.injEq] at h
    exact absurd h.1 (fun hv => hf (by simp [hv]))
  | u :: e, [], _, _, he, _, h => by
    rw [List.nil_append, List.cons_append, List.cons.injEq] at h
    exact absurd h.1 (fun hu => he (by simp [hu]))
  | u :: e, v :: f, _, _, he, hf, h => by
    rw [List.cons_append, List.cons_append, List.cons.injEq] at h
    rw [h.1, before_eq (fun hc => he (List.mem_cons_of_mem _ hc)) (fun hc => hf (List.mem_cons_of_mem _ hc)) h.2]

theorem after_eq {c : UInt16} {e f x y : Str} (hx : c ∉ x) (hy : c ∉ y) (h : e ++ c :: x = f ++ c :: y) : x = y := by
  have hreverse := congrArg List.reverse h
  rw [List.reverse_append, List.reverse_append, List.reverse_cons, List.reverse_cons, List.append_assoc,
    List.append_assoc] at hreverse
  exact List.reverse_injective (before_eq (by simpa using hx) (by simpa using hy) hreverse)

theorem colon_not_mem_event (e : GovernanceEvent) : unit ':' ∉ e.text := by
  cases e <;> decide +kernel

theorem colon_not_mem_admitted : ∀ e ∈ admittedEventTypes, unit ':' ∉ e := by decide +kernel

theorem admitted_iff (e : GovernanceEvent) : e.text ∈ admittedEventTypes ↔ e ≠ .j1AdjudicationRequired := by
  cases e <;> decide +kernel

/-- The key of a row names its event and its recipient. -/
theorem NoticeRow.Named.of_key {r : NoticeRow} (h : r.Named) {n : Notice} {userId : Str} (huser : unit ':' ∉ userId)
    (hkey : r.dedupeKey = recipientKey n.key userId) : r.eventType = n.event.text ∧ r.recipientUserId = userId := by
  obtain ⟨subject, hsubject⟩ := h.key
  rw [hsubject] at hkey
  refine ⟨?_, after_eq h.recipient huser hkey⟩
  have hkey : r.eventType ++ unit ':' :: (subject ++ unit ':' :: r.recipientUserId) =
      n.event.text ++ unit ':' :: (n.subject ++ unit ':' :: userId) := by
    simpa [recipientKey, eventKey, Notice.key] using hkey
  exact before_eq (colon_not_mem_admitted _ h.admitted) (colon_not_mem_event _) hkey

/-! ## Recipients -/

theorem mem_recipients {t : Tables} {taskVersionId : Str} {u : UserRow} (h : u ∈ t.recipients taskVersionId) :
    u ∈ t.users ∧ ∃ p ∈ t.participations, p.1 = taskVersionId := by
  obtain ⟨p, hp, hlookup⟩ := List.mem_filterMap.1 (List.mem_dedup.1 h)
  obtain ⟨hp, htask⟩ := List.mem_filter.1 hp
  exact ⟨(Table.lookup_some hlookup).1, p, hp, of_decide_eq_true htask⟩

/-- With consents that are objects the loop passes over those who did not enable notifications, and no one else. -/
theorem enabledAmong_eq : ∀ {rows : List UserRow}, (∀ u ∈ rows, ∃ properties, parse u.consentJson = some (.object properties)) →
    enabledAmong rows = .ok (rows.filter (fun u => decide (discussionNotificationsEnabled u.consentJson = .ok true)))
  | [], _ => rfl
  | u :: rows, h => by
    obtain ⟨properties, hu⟩ := h u (by simp)
    have hrest := enabledAmong_eq (fun v hv => h v (List.mem_cons_of_mem _ hv))
    have hone : ∃ b, discussionNotificationsEnabled u.consentJson = .ok b := by
      rw [discussionNotificationsEnabled, hu]
      exact ⟨_, rfl⟩
    obtain ⟨b, hb⟩ := hone
    rw [enabledAmong, hb, hrest, List.filter_cons, hb]
    cases b <;> rfl

theorem Tables.Sound.enabledAmong {t : Tables} (h : t.Sound) (taskVersionId : Str) :
    Governance.enabledAmong (t.recipients taskVersionId) = .ok (t.told taskVersionId) :=
  enabledAmong_eq (fun u hu => h.consents u (mem_recipients hu).1)

/-- No participant is told twice. -/
theorem Tables.Sound.nodup_told {t : Tables} (h : t.Sound) (taskVersionId : Str) :
    ((t.told taskVersionId).map UserRow.id).Nodup := by
  refine List.Nodup.map_on (fun u hu v hv hid => ?_) ((List.nodup_dedup _).filter _)
  exact h.users.eq_of_key (mem_recipients (List.mem_of_mem_filter hu)).1 (mem_recipients (List.mem_of_mem_filter hv)).1 hid

/-! ## Batches -/

/-- What an admitted row meets in the tables. -/
theorem insertNotice_ok {backend : Backend} {sql : Str} {t : Tables} {row : NoticeRow}
    (hskips : backend.skipsConflicts sql = true) (hadmitted : row.eventType ∈ admittedEventTypes)
    (htask : row.taskVersionId ∈ t.tasks) (huser : ∃ u ∈ t.users, u.id = row.recipientUserId) :
    insertNotice backend sql t row =
      .ok (if t.outbox.any row.conflicts then t else { t with outbox := t.outbox ++ [row] }) := by
  have huser : t.users.any (fun u => decide (u.id = row.recipientUserId)) = true := by
    obtain ⟨u, hu, hid⟩ := huser
    exact List.any_eq_true.2 ⟨u, hu, decide_eq_true hid⟩
  rw [insertNotice, List.contains_iff_mem.2 hadmitted, hskips, List.contains_iff_mem.2 htask, huser]
  cases t.outbox.any row.conflicts <;> rfl

/-- A row that fails the check is skipped, or the batch fails. -/
theorem insertNotice_rejected {backend : Backend} {sql : Str} {t : Tables} {row : NoticeRow}
    (hrejected : row.eventType ∉ admittedEventTypes) : insertNotice backend sql t row =
      if backend.skipsFailedChecks sql then .ok t else .error (str "CHECK constraint failed") := by
  have hcontains : admittedEventTypes.contains row.eventType = false := by
    rw [← Bool.not_eq_true, List.contains_iff_mem]
    exact hrejected
  rw [insertNotice, hcontains]
  rfl

theorem batch_rejected {backend : Backend} {sql : Str} {rows : List NoticeRow} {t t' : Tables}
    (hrejected : ∀ row ∈ rows, row.eventType ∉ admittedEventTypes) (h : batch backend sql rows t = .ok t') : t' = t := by
  induction rows with
  | nil => exact (Except.ok.inj h).symm
  | cons row rows ih =>
    rw [batch, insertNotice_rejected (hrejected row (by simp))] at h
    obtain ⟨t₁, ht₁, h⟩ := bind_eq_ok.1 h
    split at ht₁
    · obtain rfl := Except.ok.inj ht₁
      exact ih (fun r hr => hrejected r (List.mem_cons_of_mem _ hr)) h
    · cases ht₁

/-- What holds of the tables after a batch of admitted rows. -/
structure Inserted (rows : List NoticeRow) (t t' : Tables) : Prop where
  others : t' = { t with outbox := t'.outbox }
  keys : Table.Keyed NoticeRow.dedupeKey t'.outbox
  named : ∀ r ∈ t'.outbox, r.Named
  kept : ∀ r ∈ t.outbox, r ∈ t'.outbox
  there : ∀ row ∈ rows, ∃ r ∈ t'.outbox, r.dedupeKey = row.dedupeKey

/-- **A batch of admitted rows with new identifiers ends with a row under every key.** -/
theorem batch_ok {backend : Backend} {sql : Str} (hskips : backend.skipsConflicts sql = true) :
    ∀ {rows : List NoticeRow} {t : Tables}, Table.Keyed NoticeRow.dedupeKey t.outbox → (∀ r ∈ t.outbox, r.Named) →
      (∀ row ∈ rows, row.Named ∧ row.taskVersionId ∈ t.tasks ∧ ∃ u ∈ t.users, u.id = row.recipientUserId) →
      (rows.map NoticeRow.id).Nodup → (∀ row ∈ rows, ∀ r ∈ t.outbox, r.id ≠ row.id) →
      ∃ t', batch backend sql rows t = .ok t' ∧ Inserted rows t t'
  | [], t, hkeys, hnamed, _, _, _ => ⟨t, rfl, rfl, hkeys, hnamed, fun _ hr => hr, nofun⟩
  | row :: rows, t, hkeys, hnamed, hrows, hids, hfresh => by
    obtain ⟨hrow, htask, huser⟩ := hrows row (by simp)
    rw [List.map_cons, List.nodup_cons] at hids
    have hrest : ∀ r ∈ rows, r.Named ∧ r.taskVersionId ∈ t.tasks ∧ ∃ u ∈ t.users, u.id = r.recipientUserId :=
      fun r hr => hrows r (List.mem_cons_of_mem _ hr)
    rw [batch, insertNotice_ok hskips hrow.admitted htask huser]
    by_cases hclash : t.outbox.any row.conflicts = true
    · -- the identifier is new, so that the key is there
      obtain ⟨r, hr, hconflict⟩ := List.any_eq_true.1 hclash
      rw [NoticeRow.conflicts, Bool.or_eq_true, decide_eq_true_eq, decide_eq_true_eq] at hconflict
      have hkey : r.dedupeKey = row.dedupeKey := hconflict.resolve_left (hfresh row (by simp) r hr)
      rw [if_pos hclash]
      obtain ⟨t', hbatch, hinserted⟩ := batch_ok hskips hkeys hnamed hrest hids.2
        (fun x hx => hfresh x (List.mem_cons_of_mem _ hx))
      refine ⟨t', hbatch, hinserted.others, hinserted.keys, hinserted.named, hinserted.kept, fun x hx => ?_⟩
      rcases List.mem_cons.1 hx with rfl | hx
      · exact ⟨r, hinserted.kept r hr, hkey⟩
      · exact hinserted.there x hx
    · have hnone : ∀ r ∈ t.outbox, r.dedupeKey ≠ row.dedupeKey := fun r hr hkey =>
        hclash (List.any_eq_true.2 ⟨r, hr, by rw [NoticeRow.conflicts, hkey]; simp⟩)
      rw [if_neg hclash]
      obtain ⟨t', hbatch, hinserted⟩ := batch_ok hskips (t := { t with outbox := t.outbox ++ [row] })
        (hkeys.append hnone) (fun r hr => by
          rcases List.mem_append.1 hr with hr | hr
          · exact hnamed r hr
          · rw [List.mem_singleton.1 hr]
            exact hrow) hrest hids.2 (fun x hx r hr => by
          rcases List.mem_append.1 hr with hr | hr
          · exact hfresh x (List.mem_cons_of_mem _ hx) r hr
          · rw [List.mem_singleton.1 hr]
            exact fun hid => hids.1 (List.mem_map.2 ⟨x, hx, hid.symm⟩))
      refine ⟨t', hbatch, hinserted.others, hinserted.keys, hinserted.named,
        fun r hr => hinserted.kept r (List.mem_append_left _ hr), fun x hx => ?_⟩
      rcases List.mem_cons.1 hx with rfl | hx
      · exact ⟨x, hinserted.kept x (by simp), rfl⟩
      · exact hinserted.there x hx

/-! ## Notices -/

theorem skipsConflicts_statement (backend : Backend) :
    backend.skipsConflicts (backend.statement insertNoticeSql) = true := by
  cases backend <;> decide +kernel

section Notices

variable {backend : Backend} {uuid : Nat → Str} {now : Nat} {t : Tables} {n : Notice}

/-- The rows that the call inserts. -/
def Notice.rows (n : Notice) (uuid : Nat → Str) (now : Nat) (t : Tables) : List NoticeRow :=
  (t.told n.taskVersionId).mapIdx (fun i row => noticeRow (uuid i) n.taskVersionId n.event.text n.context n.key now row)

theorem queue_eq (h : t.Sound) : n.queue backend uuid now t =
    batch backend (backend.statement insertNoticeSql) (n.rows uuid now t) t := by
  rw [Notice.queue, queueGovernanceNotifications, h.enabledAmong]
  rfl

theorem mem_rows {row : NoticeRow} (h : row ∈ n.rows uuid now t) : ∃ i, ∃ u ∈ t.told n.taskVersionId,
    row = noticeRow (uuid i) n.taskVersionId n.event.text n.context n.key now u := by
  obtain ⟨i, hi, rfl⟩ := List.mem_mapIdx.1 h
  exact ⟨i, _, List.getElem_mem hi, rfl⟩

/-- The batch of an admitted notice. -/
theorem inserted_of_admitted (backend : Backend) (now : Nat) (h : t.Sound) (hdraws : Draws uuid t) (hadmitted : n.event.text ∈ admittedEventTypes) :
    ∃ t', n.queue backend uuid now t = .ok t' ∧ Inserted (n.rows uuid now t) t t' := by
  have hrows : ∀ row ∈ n.rows uuid now t, row.Named ∧ row.taskVersionId ∈ t.tasks ∧
      ∃ u ∈ t.users, u.id = row.recipientUserId := by
    intro row hrow
    obtain ⟨i, u, hu, rfl⟩ := mem_rows hrow
    obtain ⟨huser, p, hp, htask⟩ := mem_recipients (List.mem_of_mem_filter hu)
    exact ⟨⟨hadmitted, ⟨n.subject, rfl⟩, h.names u huser⟩, htask ▸ h.references p hp, u, huser, rfl⟩
  have hids : ((n.rows uuid now t).map NoticeRow.id).Nodup := by
    rw [List.nodup_iff_injective_getElem]
    intro i j hij
    have hij : uuid i.1 = uuid j.1 := by simpa [Notice.rows, noticeRow] using hij
    exact Fin.ext (hdraws.distinct _ _ hij)
  rw [queue_eq h]
  refine batch_ok (skipsConflicts_statement backend) h.keys h.outbox hrows hids (fun row hrow r hr => ?_)
  obtain ⟨i, u, hu, rfl⟩ := mem_rows hrow
  exact hdraws.fresh i r hr

/-- **An admitted notice is queued.** -/
theorem queued_of_admitted (h : t.Sound) (hdraws : Draws uuid t) (hadmitted : n.event.text ∈ admittedEventTypes) :
    Queued n t (n.queue backend uuid now t) := by
  obtain ⟨t', hqueue, hinserted⟩ := inserted_of_admitted backend now h hdraws hadmitted
  refine ⟨t', hqueue, fun u hu => ?_⟩
  obtain ⟨i, hi, hget⟩ := List.getElem_of_mem hu
  have hrow : noticeRow (uuid i) n.taskVersionId n.event.text n.context n.key now u ∈ n.rows uuid now t :=
    List.mem_mapIdx.2 ⟨i, hi, by rw [hget]⟩
  obtain ⟨r, hr, hkey⟩ := hinserted.there _ hrow
  have hrecipient := ((hinserted.named r hr).of_key (h.names u (mem_recipients (List.mem_of_mem_filter hu)).1) hkey).2
  refine Nat.le_antisymm ?_ (List.countP_pos_iff.2 ⟨r, hr, decide_eq_true ⟨hkey, hrecipient⟩⟩)
  refine Nat.le_trans ?_ (hinserted.keys.changes_le_one (p := fun r => decide (r.dedupeKey = recipientKey n.key u.id))
    (k := recipientKey n.key u.id) (fun r _ hr => of_decide_eq_true hr))
  exact List.countP_mono_left (fun r _ hr => decide_eq_true (of_decide_eq_true hr).1)

theorem rows_rejected (hrejected : n.event.text ∉ admittedEventTypes) :
    ∀ row ∈ n.rows uuid now t, row.eventType ∉ admittedEventTypes := by
  intro row hrow
  obtain ⟨i, u, -, rfl⟩ := mem_rows hrow
  exact hrejected

/-- **The tables stay sound.** -/
theorem Tables.Sound.queue {t' : Tables} (h : t.Sound) (hdraws : Draws uuid t)
    (hqueue : n.queue backend uuid now t = .ok t') : t'.Sound := by
  by_cases hadmitted : n.event.text ∈ admittedEventTypes
  · obtain ⟨t₁, ht₁, hinserted⟩ := inserted_of_admitted backend now h hdraws hadmitted
    rw [hqueue] at ht₁
    obtain rfl := Except.ok.inj ht₁
    have hothers := hinserted.others
    refine ⟨?_, ?_, ?_, ?_, hinserted.keys, hinserted.named⟩
    · rw [hothers]; exact h.users
    · rw [hothers]; exact h.names
    · rw [hothers]; exact h.consents
    · rw [hothers]; exact h.references
  · rw [batch_rejected (rows_rejected hadmitted) ((queue_eq h).symm.trans hqueue)]
    exact h

/-- No row of sound tables stands under the key of a notice that is not admitted. -/
theorem no_row_of_rejected (h : t.Sound) (hrejected : n.event.text ∉ admittedEventTypes) {u : UserRow} (hu : u ∈ t.users) :
    t.outbox.countP (fun r => decide (r.dedupeKey = recipientKey n.key u.id ∧ r.recipientUserId = u.id)) = 0 := by
  rw [List.countP_eq_zero]
  intro r hr hmatch
  have hkey := (of_decide_eq_true hmatch).1
  have hevent := ((h.outbox r hr).of_key (h.names u hu) hkey).1
  exact hrejected (hevent ▸ (h.outbox r hr).admitted)

/-- **A notice is queued as it should be exactly where the table admits its type or nobody is to be told.** -/
theorem notices_queued_iff (h : t.Sound) (hdraws : Draws uuid t) : Queued n t (n.queue backend uuid now t) ↔
    n.event ≠ .j1AdjudicationRequired ∨ t.told n.taskVersionId = [] := by
  rw [← admitted_iff]
  constructor
  · rintro ⟨t', hresult, hrows⟩
    by_contra hno
    obtain ⟨hrejected, htold⟩ := not_or.1 hno
    obtain ⟨u, hu⟩ := List.exists_mem_of_ne_nil _ htold
    have hsame : t' = t := batch_rejected (rows_rejected hrejected) ((queue_eq h).symm.trans hresult)
    have hone := hrows u hu
    rw [hsame, no_row_of_rejected h hrejected (mem_recipients (List.mem_of_mem_filter hu)).1] at hone
    cases hone
  · rintro (hadmitted | hnone)
    · exact queued_of_admitted h hdraws hadmitted
    · refine ⟨t, ?_, by rw [hnone]; nofun⟩
      rw [queue_eq h, Notice.rows, hnone]
      rfl

end Notices

def sampleConsent : Value := .object [(str "discussionNotifications", .bool true)]

/-- One task with one participant, who enabled notifications. -/
def sampleTables : Tables where
  tasks := [str "t"]
  users := [⟨str "u", sampleConsent.text⟩]
  participations := [(str "t", str "u")]
  outbox := []

def sampleNotice (event : GovernanceEvent) : Notice := ⟨event, str "t", str "e", str "null"⟩

theorem sampleTables_sound : sampleTables.Sound where
  users := List.nodup_singleton _
  names := by decide +kernel
  consents u hu := by
    obtain rfl := List.mem_singleton.1 hu
    have hjson : sampleConsent.Json := ⟨by decide +kernel, by decide +kernel⟩
    exact ⟨[(str "discussionNotifications", .bool true)], parse_text hjson⟩
  references := by decide +kernel
  keys := List.nodup_nil
  outbox := nofun

theorem sampleDraws : Draws natStr sampleTables := ⟨fun _ _ h => natStr_injective h, fun _ => nofun⟩

theorem sampleTables_told : sampleTables.told (str "t") ≠ [] := by decide +kernel

theorem notices_queued_published :
    Queued (sampleNotice .resultPublished) sampleTables ((sampleNotice .resultPublished).queue .postgres natStr 0 sampleTables) :=
  (notices_queued_iff sampleTables_sound sampleDraws).2 (.inl nofun)

/-- **The participant is not told that J1 has to adjudicate.** -/
theorem notices_not_queued : ¬ ∀ (backend : Backend) (uuid : Nat → Str) (t : Tables) (n : Notice), t.Sound → Draws uuid t →
    Queued n t (n.queue backend uuid 0 t) := by
  intro h
  obtain ⟨t', hresult, hrows⟩ := h .sqlite natStr sampleTables (sampleNotice .j1AdjudicationRequired) sampleTables_sound
    sampleDraws
  have hthrows : ((sampleNotice .j1AdjudicationRequired).queue .sqlite natStr 0 sampleTables) = .ok sampleTables := by
    decide +kernel
  rw [hthrows] at hresult
  obtain rfl := Except.ok.inj hresult
  obtain ⟨u, hu⟩ := List.exists_mem_of_ne_nil _ sampleTables_told
  have hone := hrows u hu
  cases hone

end Governance
end Adg
