import AdgLang.Table
import AdgLang.Text
import Mathlib.Data.List.Sort
import Mathlib.Data.Prod.Lex
/-!
# RecoveryJournal — the table `cpoly_pg_write_journal`

The rows of the D1 write journal and the statements of `cpoly-recovery.js` on them: the marks, the replay queries and the
cleanup.  Receipts are ordered by generation and then by sequence, and a snapshot covers the receipts up to its own
(`Receipt.covers_iff`).
-/
namespace Adg
namespace Recovery

/-! ## Receipts -/

/-- The generation and the sequence number of a write receipt, or the last of both that a snapshot contains. -/
structure Receipt where
  generation : Nat
  receiptSeq : Nat
deriving DecidableEq

/-- A snapshot's coverage is the last receipt it contains. -/
abbrev Coverage := Receipt

/-- `generation < G`, or `generation = G` and `receipt_seq <= W`. -/
def Receipt.covers (coverage : Coverage) (receipt : Receipt) : Bool :=
  decide (receipt.generation < coverage.generation) ||
    (decide (receipt.generation = coverage.generation) && decide (receipt.receiptSeq ≤ coverage.receiptSeq))

/-- The place of a receipt in the order of writes. -/
def Receipt.place (receipt : Receipt) : ℕ ×ₗ ℕ := toLex (receipt.generation, receipt.receiptSeq)

/-- **Coverage is the order of writes.** -/
theorem Receipt.covers_iff {coverage : Coverage} {receipt : Receipt} :
    coverage.covers receipt = true ↔ receipt.place ≤ coverage.place := by
  simp [Receipt.covers, Receipt.place, Prod.Lex.toLex_le_toLex]

theorem Receipt.covers_trans {a b c : Receipt} (h : c.covers b = true) (h' : b.covers a = true) : c.covers a = true := by
  rw [Receipt.covers_iff] at *
  exact h'.trans h

theorem Receipt.covers_self (a : Receipt) : a.covers a = true := Receipt.covers_iff.2 le_rfl

/-- Of two snapshots one covers the other. -/
theorem Receipt.covers_total (a b : Receipt) : a.covers b = true ∨ b.covers a = true := by
  rw [Receipt.covers_iff, Receipt.covers_iff]
  exact le_total _ _

inductive JournalStatus
  | pending | applied | failed
deriving DecidableEq

inductive RecoveryDisposition
  | blocking | terminalRejected
deriving DecidableEq

inductive OperationKind
  | run | batch
deriving DecidableEq

/-- What a write is replayed from; the ciphertext of the journal is read as the operations it encrypts. -/
structure JournalEntry (Op : Type) where
  requestId : Text
  payloadHash : Text
  operationKind : OperationKind
  operations : List Op
deriving DecidableEq

structure JournalRow (Op : Type) where
  requestId : Text
  payloadHash : Text
  operationKind : OperationKind
  operations : List Op
  status : JournalStatus
  recoveryDisposition : RecoveryDisposition
  attempts : Nat
  lastError : Option Text
  createdAt : Nat
  updatedAt : Nat
  appliedAt : Option Nat
  postgresGeneration : Option Nat
  postgresReceiptSeq : Option Nat
deriving DecidableEq

variable {Op : Type}

def JournalRow.entry (row : JournalRow Op) : JournalEntry Op :=
  ⟨row.requestId, row.payloadHash, row.operationKind, row.operations⟩

/-- The receipt recorded in a row; none where one of its columns is null. -/
def JournalRow.receipt (row : JournalRow Op) : Option Receipt :=
  match row.postgresGeneration, row.postgresReceiptSeq with
  | some generation, some receiptSeq => some ⟨generation, receiptSeq⟩
  | _, _ => none

/-! ## Statements -/

def boundErrorMessage (message : Text) : Text :=
  (if message = [] then "Recovery operation failed.".toList else message).take 400

/-- The row of a write that has not been tried. -/
def JournalEntry.pending (entry : JournalEntry Op) (now : Nat) : JournalRow Op where
  requestId := entry.requestId
  payloadHash := entry.payloadHash
  operationKind := entry.operationKind
  operations := entry.operations
  status := .pending
  recoveryDisposition := .blocking
  attempts := 0
  lastError := none
  createdAt := now
  updatedAt := now
  appliedAt := none
  postgresGeneration := none
  postgresReceiptSeq := none

/-- `insertPendingJournalEntry`; none where the request has a row or the statement count is out of the column's range. -/
def insertPendingJournalEntry (entry : JournalEntry Op) (now : Nat) (journal : List (JournalRow Op)) :
    Option (List (JournalRow Op)) :=
  if (Table.lookup JournalRow.requestId entry.requestId journal).isSome ∨ entry.operations.length < 1 ∨
      512 < entry.operations.length then none
  else some (journal ++ [entry.pending now])

/-- An update of the row of one request. -/
def updateRow (requestId : Text) (f : JournalRow Op → JournalRow Op) (journal : List (JournalRow Op)) :
    List (JournalRow Op) :=
  Table.update (fun row => decide (row.requestId = requestId)) f journal

def JournalRow.markApplied (appliedAt : Nat) (generation receiptSeq : Option Nat) (row : JournalRow Op) : JournalRow Op :=
  { row with
    status := .applied
    recoveryDisposition := .blocking
    attempts := row.attempts + 1
    lastError := none
    updatedAt := appliedAt
    appliedAt := row.appliedAt.or (some appliedAt)
    postgresGeneration := generation.or row.postgresGeneration
    postgresReceiptSeq := receiptSeq.or row.postgresReceiptSeq }

/-- `markJournalApplied`. -/
def markJournalApplied (requestId : Text) (appliedAt : Nat) (generation receiptSeq : Option Nat) :
    List (JournalRow Op) → List (JournalRow Op) :=
  updateRow requestId (JournalRow.markApplied appliedAt generation receiptSeq)

def JournalRow.markPending (message : Text) (now : Nat) (row : JournalRow Op) : JournalRow Op :=
  { row with
    status := .pending
    recoveryDisposition := .blocking
    attempts := row.attempts + 1
    lastError := some (boundErrorMessage message)
    updatedAt := now }

/-- `markJournalPending`. -/
def markJournalPending (requestId message : Text) (now : Nat) : List (JournalRow Op) → List (JournalRow Op) :=
  updateRow requestId (JournalRow.markPending message now)

def JournalRow.markFailed (disposition : RecoveryDisposition) (message : Text) (now : Nat) (row : JournalRow Op) :
    JournalRow Op :=
  { row with
    status := .failed
    recoveryDisposition := disposition
    attempts := row.attempts + 1
    lastError := some (boundErrorMessage message)
    updatedAt := now }

/-- `markJournalFailed`. -/
def markJournalFailed (requestId message : Text) (disposition : RecoveryDisposition) (now : Nat) :
    List (JournalRow Op) → List (JournalRow Op) :=
  updateRow requestId (JournalRow.markFailed disposition message now)

def ambiguousPostgresWriteErrorMarkers : List Text :=
  ["timeout".toList, "network".toList, "connection".toList, "disconnect".toList, "socket".toList, "econn".toList,
   "temporarily unavailable".toList, "try again".toList, "provider request failed with status 5".toList]

/-- `text.includes(part)`. -/
def includes (text part : Text) : Bool := text.tails.any (fun rest => part.isPrefixOf rest)

/-- `lower(COALESCE(last_error, '')) LIKE '%marker%'`, for some marker; `lower` is on ASCII letters. -/
def JournalRow.failedAmbiguously (row : JournalRow Op) : Bool :=
  ambiguousPostgresWriteErrorMarkers.any (fun marker => includes ((row.lastError.getD []).map Char.toLower) marker)

def JournalRow.requeues (row : JournalRow Op) : Bool :=
  decide (row.status = .failed) && decide (row.recoveryDisposition = .blocking) && row.failedAmbiguously

def JournalRow.requeue (now : Nat) (row : JournalRow Op) : JournalRow Op :=
  { row with status := .pending, recoveryDisposition := .blocking, updatedAt := now }

/-- `requeueAmbiguousFailedJournalEntries`. -/
def requeueAmbiguousFailedJournalEntries (now : Nat) (journal : List (JournalRow Op)) : List (JournalRow Op) :=
  Table.update JournalRow.requeues (JournalRow.requeue now) journal

/-- `ORDER BY created_at ASC LIMIT limit`. -/
def oldest (limit : Nat) (rows : List (JournalRow Op)) : List (JournalRow Op) :=
  (rows.insertionSort (fun a b => a.createdAt ≤ b.createdAt)).take limit

def JournalRow.isCandidate (row : JournalRow Op) : Bool :=
  decide (row.status = .pending) || (decide (row.status = .applied) && row.receipt.isNone)

/-- `loadRecoveryJournalCandidates`. -/
def loadRecoveryJournalCandidates (limit : Nat) (journal : List (JournalRow Op)) : List (JournalRow Op) :=
  oldest limit (journal.filter JournalRow.isCandidate)

/-- A row that the snapshot handed over lets go. -/
def JournalRow.coveredBy (snapshot : Coverage) (row : JournalRow Op) : Bool :=
  decide (row.status = .applied) && row.receipt.any snapshot.covers

/-- The rows that `cleanupAppliedRecoveryJournal` selects, in the order of their receipts. -/
def cleanupSelection (snapshot : Coverage) (limit : Nat) (journal : List (JournalRow Op)) : List (JournalRow Op) :=
  let key := fun row : JournalRow Op =>
    toLex (row.postgresGeneration.getD 0, toLex (row.postgresReceiptSeq.getD 0, row.createdAt))
  ((journal.filter (JournalRow.coveredBy snapshot)).insertionSort (fun a b => key a ≤ key b)).take limit

/-- `cleanupAppliedRecoveryJournal`. -/
def cleanupAppliedRecoveryJournal (snapshot : Coverage) (limit : Nat) (journal : List (JournalRow Op)) :
    List (JournalRow Op) :=
  let deleteIds := (cleanupSelection snapshot limit journal).map JournalRow.requestId
  Table.delete (fun row => decide (row.requestId ∈ deleteIds)) journal

/-- A row whose write a restore from `coverage` may have lost, when receipts of the target generation are trusted. -/
def JournalRow.needsReplay (coverage : Coverage) (targetGeneration : Nat) (row : JournalRow Op) : Bool :=
  decide (row.status = .pending) ||
    (decide (row.status = .applied) &&
      row.receipt.all (fun receipt => decide (receipt.generation < targetGeneration) &&
        (decide (coverage.generation < receipt.generation) ||
          (decide (receipt.generation = coverage.generation) && decide (coverage.receiptSeq < receipt.receiptSeq)))))

/-- `loadRecoveryReplayBatch`. -/
def loadRecoveryReplayBatch (coverage : Coverage) (targetGeneration limit : Nat) (journal : List (JournalRow Op)) :
    List (JournalRow Op) :=
  oldest limit (journal.filter (JournalRow.needsReplay coverage targetGeneration))

/-- `countRecoveryReplayPending`. -/
def countRecoveryReplayPending (coverage : Coverage) (targetGeneration : Nat) (journal : List (JournalRow Op)) : Nat :=
  journal.countP (fun row => row.needsReplay coverage targetGeneration ||
    (decide (row.status = .failed) && decide (row.recoveryDisposition = .blocking)))

/-! ## What the statements keep -/

theorem mem_oldest {limit : Nat} {rows : List (JournalRow Op)} {row : JournalRow Op} (h : row ∈ oldest limit rows) :
    row ∈ rows := (List.mem_insertionSort _).1 (List.mem_of_mem_take h)

theorem mem_cleanupSelection {snapshot : Coverage} {limit : Nat} {journal : List (JournalRow Op)} {row : JournalRow Op}
    (h : row ∈ cleanupSelection snapshot limit journal) : row ∈ journal ∧ row.coveredBy snapshot = true :=
  List.mem_filter.1 ((List.mem_insertionSort _).1 (List.mem_of_mem_take h))

/-- **The requests that the cleanup lets go are those of the rows it selects.** -/
theorem exists_cleanup {snapshot : Coverage} {limit : Nat} {journal : List (JournalRow Op)} {requestId : Text} :
    (∃ row ∈ cleanupAppliedRecoveryJournal snapshot limit journal, row.requestId = requestId) ↔
      (∃ row ∈ journal, row.requestId = requestId) ∧
        ∀ row ∈ cleanupSelection snapshot limit journal, row.requestId ≠ requestId := by
  unfold cleanupAppliedRecoveryJournal
  constructor
  · rintro ⟨row, hrow, rfl⟩
    obtain ⟨hrow, hkept⟩ := Table.mem_delete.1 hrow
    refine ⟨⟨row, hrow, rfl⟩, fun x hx hid => ?_⟩
    exact of_decide_eq_false hkept (List.mem_map.2 ⟨x, hx, hid⟩)
  · rintro ⟨⟨row, hrow, rfl⟩, hkept⟩
    refine ⟨row, Table.mem_delete.2 ⟨hrow, decide_eq_false fun hmem => ?_⟩, rfl⟩
    obtain ⟨x, hx, hid⟩ := List.mem_map.1 hmem
    exact hkept x hx hid

/-- Requeued rows keep their requests. -/
theorem exists_requeue {now : Nat} {journal : List (JournalRow Op)} {requestId : Text} :
    (∃ row ∈ requeueAmbiguousFailedJournalEntries now journal, row.requestId = requestId) ↔
      ∃ row ∈ journal, row.requestId = requestId := by
  rw [← List.mem_map, ← List.mem_map, requeueAmbiguousFailedJournalEntries,
    Table.map_key_update (f := JournalRow.requeue now) (fun _ => rfl)]

/-- An update of the row of a request neither adds nor removes requests. -/
theorem exists_updateRow {id requestId : Text} {f : JournalRow Op → JournalRow Op} {journal : List (JournalRow Op)}
    (hf : ∀ row, (f row).requestId = row.requestId) :
    (∃ row ∈ updateRow requestId f journal, row.requestId = id) ↔ ∃ row ∈ journal, row.requestId = id := by
  rw [← List.mem_map, ← List.mem_map, updateRow, Table.map_key_update hf]

end Recovery
end Adg
