import AdgLang.PostgresProvider
/-!
# PostgresDatabase — write receipts in the transaction of the write

`PostgresD1Database` runs a write and its receipt in one transaction: it inserts the receipt of a request that has none
and runs the operations, or finds the receipt of an earlier run and returns zero changes with it
(`applyMutatingOperationsWithReceipt`).  The tables that the operations write are of any type, and an operation means any
function that tells the rows changed and the tables after it.
-/
namespace Adg
namespace Recovery

variable {Op σ : Type}

/-! ## Operations -/

/-- The rows an operation changes, and the tables after it. -/
abbrev Meaning (Op σ : Type) := Op → σ → Nat × σ

/-- The operations in their order: the change counts, and the tables after them. -/
def executeOperations (meaning : Meaning Op σ) : List Op → σ → List Nat × σ
  | [], tables => ([], tables)
  | operation :: operations, tables =>
    let (changes, tables) := meaning operation tables
    let (results, tables) := executeOperations meaning operations tables
    (changes :: results, tables)

def zeroResultsForOperations (operations : List Op) : List Nat := operations.map (fun _ => 0)

/-- The tables after writes in an order. -/
def applyEntries (meaning : Meaning Op σ) (entries : List (JournalEntry Op)) (tables : σ) : σ :=
  entries.foldl (fun tables entry => (executeOperations meaning entry.operations tables).2) tables

theorem applyEntries_append (meaning : Meaning Op σ) (entries entries' : List (JournalEntry Op)) (tables : σ) :
    applyEntries meaning (entries ++ entries') tables =
      applyEntries meaning entries' (applyEntries meaning entries tables) := List.foldl_append ..

/-! ## The database -/

/-- `cpoly_runtime_state`, the last number of `receipt_seq`, `cpoly_write_receipts`, and the tables of the portal. -/
structure Postgres (σ : Type) where
  currentGeneration : Nat
  sequence : Nat
  receipts : List ReceiptRow
  tables : σ
deriving DecidableEq

def Postgres.receiptOf (postgres : Postgres σ) (requestId : Text) : Option ReceiptRow :=
  Table.lookup ReceiptRow.requestId requestId postgres.receipts

/-- The results and the receipt of a write. -/
structure Applied where
  results : List Nat
  receipt : Receipt
deriving DecidableEq

def recoveryGenerationMismatch (expected found : Nat) : WriteError :=
  .ofMessage ("PostgreSQL recovery generation mismatch: expected ".toList ++ decimal expected ++ " but found ".toList ++
    decimal found ++ ".".toList)

def writeReceiptConflict (requestId : Text) : WriteError :=
  { WriteError.ofMessage ("PostgreSQL write receipt conflict for request ".toList ++ requestId ++ ".".toList) with
    receiptConflict := true }

/-- The receipt of a claim that finds none; the gap counts the numbers that rolled back transactions took. -/
def Postgres.claimed (postgres : Postgres σ) (entry : JournalEntry Op) (gap : Nat) : ReceiptRow where
  requestId := entry.requestId
  payloadHash := entry.payloadHash
  operationKind := entry.operationKind
  statementCount := entry.operations.length
  generation := postgres.currentGeneration
  receiptSeq := postgres.sequence + gap + 1

/-- The claim and the operations, committed. -/
def Postgres.commit (meaning : Meaning Op σ) (postgres : Postgres σ) (entry : JournalEntry Op) (gap : Nat) : Postgres σ :=
  { postgres with
    sequence := postgres.sequence + gap + 1
    receipts := postgres.receipts ++ [postgres.claimed entry gap]
    tables := (executeOperations meaning entry.operations postgres.tables).2 }

/-- `applyMutatingOperationsWithReceipt`.  Operations that are run may be rejected, and then nothing is committed. -/
def Postgres.applyMutatingOperationsWithReceipt (meaning : Meaning Op σ) (forcedGeneration : Option Nat)
    (entry : JournalEntry Op) (operations : Except WriteError Nat) (postgres : Postgres σ) :
    Except WriteError (Applied × Postgres σ) :=
  if forcedGeneration.all (fun generation => decide (postgres.currentGeneration = generation)) then
    match postgres.receiptOf entry.requestId with
    | some row =>
      if row.matches entry then .ok (⟨zeroResultsForOperations entry.operations, row.receipt⟩, postgres)
      else .error (writeReceiptConflict entry.requestId)
    | none => match operations with
      | .ok gap => .ok (⟨(executeOperations meaning entry.operations postgres.tables).1, (postgres.claimed entry gap).receipt⟩,
          postgres.commit meaning entry gap)
      | .error error => .error error
  else .error (recoveryGenerationMismatch (forcedGeneration.getD 0) postgres.currentGeneration)

def Postgres.getGlobalReceiptWatermark (postgres : Postgres σ) : Nat :=
  (postgres.receipts.map ReceiptRow.receiptSeq).foldr max 0

variable {meaning : Meaning Op σ} {forcedGeneration : Option Nat} {entry : JournalEntry Op}
  {operations : Except WriteError Nat} {postgres postgres' : Postgres σ} {applied : Applied}

/-- **A write that returns** found the receipt of its request and changed nothing, or had none and was committed. -/
inductive Returned (meaning : Meaning Op σ) (entry : JournalEntry Op) (postgres : Postgres σ) :
    Applied → Postgres σ → Prop
  | found {row : ReceiptRow} (h : postgres.receiptOf entry.requestId = some row) (hmatches : row.matches entry = true) :
      Returned meaning entry postgres ⟨zeroResultsForOperations entry.operations, row.receipt⟩ postgres
  | claimed {gap : Nat} (h : postgres.receiptOf entry.requestId = none) :
      Returned meaning entry postgres ⟨(executeOperations meaning entry.operations postgres.tables).1,
        (postgres.claimed entry gap).receipt⟩ (postgres.commit meaning entry gap)

theorem returned_of_apply
    (h : postgres.applyMutatingOperationsWithReceipt meaning forcedGeneration entry operations = .ok (applied, postgres')) :
    Returned meaning entry postgres applied postgres' := by
  unfold Postgres.applyMutatingOperationsWithReceipt at h
  split at h
  · split at h
    · rename_i row hrow
      split at h
      · rename_i hmatches
        cases h
        exact .found hrow hmatches
      · cases h
    · rename_i hrow
      cases operations with
      | ok gap => cases h; exact .claimed hrow
      | error error => cases h
  · cases h

end Recovery
end Adg
