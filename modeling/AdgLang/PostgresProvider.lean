import AdgLang.RecoveryJournal
import AdgLang.Diagnostics
/-!
# PostgresProvider — write receipts, the provider's answers and what the Worker reads in them

The provider (`server.mjs`) runs a write and its receipt in one transaction: `execute` leaves the receipts alone or adds
the receipt of a request that had none (`execute_spec`).  The Worker reads the answer (`readAnswer`) and sorts the
errors by status, code, message and the provider's last error, which is a property of the provider and not of the
request.
-/
namespace Adg
namespace Recovery

variable {Op : Type}

/-! ## The provider -/

/-- A row of `cpoly_write_receipts`. -/
structure ReceiptRow where
  requestId : Text
  payloadHash : Text
  operationKind : OperationKind
  statementCount : Nat
  generation : Nat
  receiptSeq : Nat
deriving DecidableEq

def ReceiptRow.receipt (row : ReceiptRow) : Receipt := ⟨row.generation, row.receiptSeq⟩

/-- The database with its receipts, and the process that serves it. -/
structure Provider where
  currentGeneration : Nat
  /-- The number that the sequence of `receipt_seq` gave last. -/
  sequence : Nat
  receipts : List ReceiptRow
  lastError : Option Text
  /-- The requests whose operations were committed, one entry for each time. -/
  commits : List Text
deriving DecidableEq

def Provider.initial : Provider := ⟨1, 0, [], none, []⟩

/-- What reaches the Worker: a body with status 2xx, an error body, one that is no JSON or no object, or nothing.  The
numbers of a receipt are those that `Number` makes of its fields. -/
inductive Answer
  | success (results : Option (List Bool)) (receipt : Option (Option Nat × Option Nat))
  | failure (status : Nat) (code : Option Text) (message : Text) (retryable : Bool)
  | malformed
  | invalid
  | thrown (message : Text)
deriving DecidableEq

/-- `sendError`. -/
def sendError (status : Nat) (code message : Text) : Answer :=
  .failure status (some code) message (decide (500 ≤ status))

def Provider.fail (provider : Provider) (message : Text) : Provider × Answer :=
  ({ provider with lastError := some message }, sendError 500 "internal_error".toList "Provider request failed.".toList)

/-- How a transaction ends: committed, committed although the provider sees an error, or rolled back.  The gap counts the
sequence numbers that other transactions took without a receipt. -/
inductive Outcome
  | committed (gap : Nat)
  | committedUnseen (gap : Nat) (message : Text)
  | failed (message : Text)
deriving DecidableEq

/-- The receipt of a claim that finds none. -/
def Provider.claimed (provider : Provider) (entry : JournalEntry Op) (gap : Nat) : ReceiptRow where
  requestId := entry.requestId
  payloadHash := entry.payloadHash
  operationKind := entry.operationKind
  statementCount := entry.operations.length
  generation := provider.currentGeneration
  receiptSeq := provider.sequence + gap + 1

/-- The insertion of the receipt, committed with the operations. -/
def Provider.commit (provider : Provider) (entry : JournalEntry Op) (gap : Nat) : Provider :=
  { provider with
    sequence := provider.sequence + gap + 1
    receipts := provider.receipts ++ [provider.claimed entry gap]
    commits := provider.commits ++ [entry.requestId] }

def ReceiptRow.matches (row : ReceiptRow) (entry : JournalEntry Op) : Bool :=
  decide (row.payloadHash = entry.payloadHash) && decide (row.operationKind = entry.operationKind) &&
    decide (row.statementCount = entry.operations.length)

def executed (entry : JournalEntry Op) (receipt : Receipt) : Answer :=
  .success (some (List.replicate entry.operations.length true)) (some (some receipt.generation, some receipt.receiptSeq))

/-- `claimReceipt` and the operations, in a transaction that commits. -/
def Provider.claimReceipt (provider : Provider) (entry : JournalEntry Op) (gap : Nat) : Provider × Answer :=
  match Table.lookup ReceiptRow.requestId entry.requestId provider.receipts with
  | some row =>
    if row.matches entry then (provider, executed entry row.receipt)
    else (provider, sendError 409 "write_receipt_conflict".toList
      "Write receipt conflicts with an existing request.".toList)
  | none => (provider.commit entry gap, executed entry (provider.claimed entry gap).receipt)

/-- `execute` of a journaled write. -/
def Provider.execute (provider : Provider) (expectedGeneration : Option Nat) (entry : JournalEntry Op)
    (outcome : Outcome) : Provider × Answer :=
  if expectedGeneration.all (fun generation => decide (provider.currentGeneration = generation)) then
    match outcome with
    | .committed gap => provider.claimReceipt entry gap
    | .committedUnseen gap message => (provider.claimReceipt entry gap).1.fail message
    | .failed message => provider.fail message
  else (provider, sendError 409 "generation_conflict".toList
    "PostgreSQL generation did not match the expected generation.".toList)

/-- The transaction adds a receipt: the generation is the expected one, it commits, and the request has none. -/
def Provider.adds (provider : Provider) (expectedGeneration : Option Nat) (entry : JournalEntry Op)
    (outcome : Outcome) : Bool :=
  expectedGeneration.all (fun generation => decide (provider.currentGeneration = generation)) &&
    (match outcome with | .failed _ => false | _ => true) &&
    (Table.lookup ReceiptRow.requestId entry.requestId provider.receipts).isNone

/-- `globalReceiptWatermark`. -/
def Provider.globalReceiptWatermark (provider : Provider) : Nat :=
  (provider.receipts.map ReceiptRow.receiptSeq).foldr max 0

/-- `promoteGeneration`; none where the snapshot cannot be promoted. -/
def Provider.promoteGeneration (snapshot : Coverage) (targetGeneration : Nat) (provider : Provider) : Option Provider :=
  if provider.currentGeneration = targetGeneration then some provider
  else if provider.currentGeneration ≠ snapshot.generation ∨
      provider.globalReceiptWatermark < snapshot.receiptSeq then none
  else some { provider with currentGeneration := targetGeneration }

/-! ## The Worker's reading -/

/-- The properties of an error that the Worker looks at. -/
structure WriteError where
  /-- A `WriteReceiptConflictError`. -/
  receiptConflict : Bool
  status : Nat
  code : Text
  retryable : Bool
  message : Text
  providerLastError : Text
deriving DecidableEq

/-- `new Error(message)`. -/
def WriteError.ofMessage (message : Text) : WriteError := ⟨false, 0, [], false, message, []⟩

/-- `providerErrorFromResponse`. -/
def providerErrorFromResponse (status : Nat) (code : Option Text) (message : Text) (retryable : Bool) : WriteError where
  receiptConflict := false
  status := status
  code := code.getD []
  retryable := retryable
  message :=
    if trim message = [] then "CPOLY provider request failed with status ".toList ++ decimal status ++ ".".toList
    else trim message
  providerLastError := []

/-- `normalizeContainerProviderWriteError`. -/
def normalizeContainerProviderWriteError (error : WriteError) : WriteError :=
  if error.status = 409 ∧ error.code.map Char.toLower = "write_receipt_conflict".toList then
    { WriteError.ofMessage error.message with receiptConflict := true }
  else error

/-- `normalizeContainerRunResults`. -/
def normalizeContainerRunResults (statementCount : Nat) (results : Option (List Bool)) : Except WriteError Unit :=
  let returned := (results.map List.length).getD 0
  if results.isNone ∨ returned ≠ statementCount then
    .error (.ofMessage ("CPOLY provider returned ".toList ++ decimal returned ++ " results, expected ".toList ++
      decimal statementCount ++ ".".toList))
  else match (results.getD []).findIdx? (fun success => !success) with
    | some index => .error (.ofMessage ("CPOLY provider result ".toList ++ decimal index ++
        " was unsuccessful or malformed.".toList))
    | none => .ok ()

/-- `normalizeProviderReceipt`. -/
def normalizeProviderReceipt : Option (Option Nat × Option Nat) → Except WriteError Receipt
  | none => .error (.ofMessage "CPOLY provider receipt payload was invalid.".toList)
  | some (generation, receiptSeq) =>
    match generation with
    | none | some 0 => .error (.ofMessage "CPOLY provider generation was invalid.".toList)
    | some generation => match receiptSeq with
      | none => .error (.ofMessage "CPOLY provider receipt sequence was invalid.".toList)
      | some receiptSeq => .ok ⟨generation, receiptSeq⟩

/-- `applyMutatingOperationsWithReceipt` on the answer, before the diagnostic. -/
def readAnswer (statementCount : Nat) : Answer → Except WriteError Receipt
  | .success results receipt => do
    normalizeContainerRunResults statementCount results
    normalizeProviderReceipt receipt
  | .failure status code message retryable =>
    .error (normalizeContainerProviderWriteError (providerErrorFromResponse status code message retryable))
  | .malformed => .error { WriteError.ofMessage "CPOLY provider returned malformed JSON.".toList with status := 502 }
  | .invalid => .error { WriteError.ofMessage
      "CPOLY provider returned invalid JSON for /api/internal/postgres/v1/query.".toList with status := 502 }
  | .thrown message => .error (.ofMessage message)

/-- `attachContainerProviderDiagnostic`, when the provider's status names this last error. -/
def attachContainerProviderDiagnostic (lastError : Text) (error : WriteError) : WriteError :=
  if trim lastError = [] then error else { error with providerLastError := (trim lastError).take 1000 }

/-- `lastError` of the status payload. -/
def Provider.statusLastError (provider : Provider) (startupFailure : Option Text) : Text :=
  match startupFailure with
  | some value => "startup-failure:".toList ++ value.take 500
  | none => provider.lastError.getD []

/-- `journalFailureMessage`. -/
def journalFailureMessage (error : WriteError) : Text :=
  if error.providerLastError ≠ [] then error.providerLastError
  else if error.message ≠ [] then error.message
  else "Error".toList

def isCodeCharacter (c : Char) : Bool := c.isDigit || c.isUpper

/-- `isAmbiguousPostgresWriteError`. -/
def isAmbiguousPostgresWriteError (error : WriteError) : Bool :=
  if error.receiptConflict then false
  else if error.retryable then true
  else if error.status = 408 ∨ error.status = 425 ∨ error.status = 429 ∨ 500 ≤ error.status then true
  else if error.code.length = 5 ∧ error.code.all isCodeCharacter then
    "08".toList.isPrefixOf error.code || decide (error.code = "57P01".toList) ||
      decide (error.code = "57P02".toList) || decide (error.code = "57P03".toList)
  else ambiguousPostgresWriteErrorMarkers.any (includes (error.message.map Char.toLower))

def constraintViolations : List Text :=
  ["duplicate key value violates unique constraint".toList, "violates foreign key constraint".toList,
   "violates not-null constraint".toList, "violates check constraint".toList,
   "violates exclusion constraint".toList]

/-- `isTerminalPostgresWriteRejection`. -/
def isTerminalPostgresWriteRejection (error : WriteError) : Bool :=
  let code := error.code.map Char.toUpper
  !error.receiptConflict &&
    (decide (code.length = 5) && "23".toList.isPrefixOf code && code.all isCodeCharacter ||
      constraintViolations.any (includes (error.providerLastError.map Char.toLower)))

/-! ## What a transaction does -/

/-- The receipts are those of the commits, one for each request. -/
structure Provider.Consistent (provider : Provider) : Prop where
  commits : provider.commits = provider.receipts.map ReceiptRow.requestId
  keyed : Table.Keyed ReceiptRow.requestId provider.receipts
  generation : 1 ≤ provider.currentGeneration
  generations : ∀ row ∈ provider.receipts, 1 ≤ row.generation

/-- The provider keeps a receipt of the request. -/
def Provider.HasReceipt (provider : Provider) (requestId : Text) (receipt : Receipt) : Prop :=
  ∃ row ∈ provider.receipts, row.requestId = requestId ∧ row.receipt = receipt

/-- An answer that reads as a success names the receipt of the request. -/
def Answer.Tells (provider : Provider) (entry : JournalEntry Op) (answer : Answer) : Prop :=
  ∀ receipt, readAnswer entry.operations.length answer = .ok receipt → provider.HasReceipt entry.requestId receipt

theorem Answer.tells_failure {provider : Provider} {entry : JournalEntry Op} {status : Nat} {code : Option Text}
    {message : Text} {retryable : Bool} : (Answer.failure status code message retryable).Tells provider entry :=
  fun _ h => by cases h

/-- The answer to a write that has a receipt names it. -/
theorem readAnswer_executed {entry : JournalEntry Op} {receipt : Receipt} (hgen : 1 ≤ receipt.generation) :
    readAnswer entry.operations.length (executed entry receipt) = .ok receipt := by
  obtain ⟨generation, receiptSeq⟩ := receipt
  obtain ⟨generation, rfl⟩ : ∃ n, generation = n + 1 := ⟨generation - 1, by simp only at hgen; omega⟩
  have hresults : normalizeContainerRunResults entry.operations.length
      (some (List.replicate entry.operations.length true)) = .ok () := by
    have hall : (List.replicate entry.operations.length true).findIdx? (fun success => !success) = none :=
      List.findIdx?_eq_none_iff.2 (fun x hx => by rw [List.eq_of_mem_replicate hx]; rfl)
    simp [normalizeContainerRunResults, hall]
  simp only [readAnswer, executed, hresults]
  rfl

theorem Provider.HasReceipt.of_append {provider : Provider} {requestId : Text} {receipt : Receipt} {provider' : Provider}
    (hsub : ∀ row ∈ provider.receipts, row ∈ provider'.receipts) (h : provider.HasReceipt requestId receipt) :
    provider'.HasReceipt requestId receipt := by
  obtain ⟨row, hrow, h⟩ := h
  exact ⟨row, hsub row hrow, h⟩

theorem Answer.Tells.grows {provider provider' : Provider} {entry : JournalEntry Op} {answer : Answer}
    (hsub : ∀ row ∈ provider.receipts, row ∈ provider'.receipts) (h : answer.Tells provider entry) :
    answer.Tells provider' entry := fun receipt hread => (h receipt hread).of_append hsub

/-- The tables of the database are those of a provider before, with the receipt of the request if it was added. -/
structure Provider.Ran (provider provider' : Provider) (added : Bool) (entry : JournalEntry Op) : Prop where
  currentGeneration : provider'.currentGeneration = provider.currentGeneration
  receipts : ∃ gap, provider'.receipts = provider.receipts ++ if added then [provider.claimed entry gap] else []
  commits : provider'.commits = provider.commits ++ if added then [entry.requestId] else []

theorem Provider.Ran.fail {provider provider' : Provider} {added : Bool} {entry : JournalEntry Op} {message : Text}
    (h : provider.Ran provider' added entry) : provider.Ran (provider'.fail message).1 added entry :=
  ⟨h.currentGeneration, h.receipts, h.commits⟩

theorem Provider.ran_none {provider : Provider} {entry : JournalEntry Op} : provider.Ran provider false entry :=
  ⟨rfl, ⟨0, (List.append_nil _).symm⟩, (List.append_nil _).symm⟩

theorem Provider.ran_commit {provider : Provider} {entry : JournalEntry Op} {gap : Nat} :
    provider.Ran (provider.commit entry gap) true entry := ⟨rfl, ⟨gap, rfl⟩, rfl⟩

/-- A claim adds the receipt of a request that has none, and answers with the receipt of the request. -/
theorem Provider.claimReceipt_spec {provider : Provider} {entry : JournalEntry Op} {gap : Nat}
    (hok : provider.Consistent) :
    provider.Ran (provider.claimReceipt entry gap).1
        (Table.lookup ReceiptRow.requestId entry.requestId provider.receipts).isNone entry ∧
      (provider.claimReceipt entry gap).2.Tells (provider.claimReceipt entry gap).1 entry := by
  unfold Provider.claimReceipt
  cases hl : Table.lookup ReceiptRow.requestId entry.requestId provider.receipts with
  | none =>
    refine ⟨ran_commit, fun receipt h => ?_⟩
    rw [readAnswer_executed hok.generation] at h
    obtain rfl := Except.ok.inj h
    exact ⟨provider.claimed entry gap, List.mem_append_right _ (List.mem_singleton.2 rfl), rfl, rfl⟩
  | some row =>
    obtain ⟨hrow, hid⟩ := Table.lookup_some hl
    simp only
    split
    · refine ⟨ran_none, fun receipt h => ?_⟩
      rw [readAnswer_executed (hok.generations row hrow)] at h
      obtain rfl := Except.ok.inj h
      exact ⟨row, hrow, hid, rfl⟩
    · exact ⟨ran_none, Answer.tells_failure⟩

/-- **A transaction leaves the receipts alone or adds the receipt of a request that has none, and its answer tells the
truth.** -/
theorem Provider.execute_spec {provider : Provider} (expectedGeneration : Option Nat) (entry : JournalEntry Op)
    (outcome : Outcome) (hok : provider.Consistent) :
    provider.Ran (provider.execute expectedGeneration entry outcome).1 (provider.adds expectedGeneration entry outcome)
        entry ∧
      (provider.execute expectedGeneration entry outcome).2.Tells
        (provider.execute expectedGeneration entry outcome).1 entry := by
  unfold Provider.execute Provider.adds
  split
  · rename_i hgen
    rw [hgen, Bool.true_and]
    cases outcome with
    | committed gap => exact claimReceipt_spec hok
    | committedUnseen gap message => exact ⟨(claimReceipt_spec hok).1.fail, Answer.tells_failure⟩
    | failed message => exact ⟨ran_none.fail, Answer.tells_failure⟩
  · rename_i hgen
    rw [Bool.eq_false_iff.2 hgen]
    exact ⟨ran_none, Answer.tells_failure⟩

theorem Provider.Ran.consistent {provider provider' : Provider} {added : Bool} {entry : JournalEntry Op}
    (h : provider.Ran provider' added entry) (hok : provider.Consistent)
    (hfree : added = true → Table.lookup ReceiptRow.requestId entry.requestId provider.receipts = none) :
    provider'.Consistent := by
  obtain ⟨gap, hreceipts⟩ := h.receipts
  cases added with
  | false =>
    have hreceipts : provider'.receipts = provider.receipts := by rw [hreceipts]; exact List.append_nil _
    have hcommits : provider'.commits = provider.commits := by rw [h.commits]; exact List.append_nil _
    refine ⟨?_, ?_, ?_, ?_⟩
    · rw [hcommits, hreceipts]; exact hok.commits
    · rw [hreceipts]; exact hok.keyed
    · rw [h.currentGeneration]; exact hok.generation
    · rw [hreceipts]; exact hok.generations
  | true =>
    have hreceipts : provider'.receipts = provider.receipts ++ [provider.claimed entry gap] := hreceipts
    have hcommits : provider'.commits = provider.commits ++ [entry.requestId] := h.commits
    refine ⟨?_, ?_, ?_, ?_⟩
    · rw [hcommits, hreceipts, List.map_append, hok.commits]; rfl
    · rw [hreceipts]
      exact hok.keyed.append (fun x hx => Table.lookup_none_iff.1 (hfree rfl) x hx)
    · rw [h.currentGeneration]; exact hok.generation
    · rw [hreceipts]
      intro row hrow
      obtain hrow | hrow := List.mem_append.1 hrow
      · exact hok.generations row hrow
      · rw [List.mem_singleton.1 hrow]
        exact hok.generation

theorem Provider.lookup_of_adds {provider : Provider} {expectedGeneration : Option Nat} {entry : JournalEntry Op}
    {outcome : Outcome} (h : provider.adds expectedGeneration entry outcome = true) :
    Table.lookup ReceiptRow.requestId entry.requestId provider.receipts = none := by
  simp only [Provider.adds, Bool.and_eq_true, Option.isNone_iff_eq_none] at h
  exact h.2

end Recovery
end Adg
