import AdgLang.Batches
import AdgLang.JournalRun
import AdgLang.PostgresDatabase
/-!
# RecoveryReplay — the replay after a restore

`completeRecoveryReplay` replays batches of the journal until one is empty.  An entry that was replayed leaves the next
batch, unless it is stuck: PostgreSQL has its receipt already, of a generation below the target and beyond the snapshot,
and the entry is marked with that receipt again.  The entries to replay, in the order of their creation, are a queue that
each pass of the loop works off like a turn of `Batches` (`going_pass`).  A pass whose calls return applies the entries of
its batch that have no receipt, in their order (`pass_calm`).
-/
namespace Adg
namespace Recovery

open Batches (turn AtEnd ComesToEnd)

variable {Op σ : Type}

/-! ## The loop -/

/-- An error that is no rejection by PostgreSQL. -/
abbrev Breakdown := { error : WriteError // isTerminalPostgresWriteRejection error = false }

/-- How the replay of an entry goes, as far as the state does not decide it. -/
inductive Attempt
  /-- The calls return; operations that are run may be rejected. -/
  | completes (operations : Except WriteError Nat)
  /-- A call breaks down, possibly after the transaction was committed. -/
  | breaks (committed : Option Nat) (error : Breakdown)

/-- An attempt, and the clock at its mark. -/
structure Trial where
  attempt : Attempt
  now : Nat

/-- The journal and the database, and the counter of the loop. -/
structure Site (Op σ : Type) where
  journal : List (JournalRow Op)
  postgres : Postgres σ
  replayed : Nat

/-- A run of `completeRecoveryReplay`: its arguments, what reading the stored payload of an entry throws, and what the
operations mean. -/
structure Replay (Op σ : Type) where
  snapshotCoverage : Coverage
  targetGeneration : Nat
  limit : Nat
  payloadError : JournalEntry Op → Option Breakdown
  meaning : Meaning Op σ

namespace Replay

/-- What the attempt to apply an entry returns, and the database after it. -/
def applyEntry (R : Replay Op σ) (entry : JournalEntry Op) (attempt : Attempt) (postgres : Postgres σ) :
    Except WriteError Receipt × Postgres σ :=
  let apply := fun operations =>
    postgres.applyMutatingOperationsWithReceipt R.meaning (some R.targetGeneration) entry operations
  match R.payloadError entry with
  | some error => (.error error.1, postgres)
  | none => match attempt with
    | .completes operations => match apply operations with
      | .ok (applied, postgres) => (.ok applied.receipt, postgres)
      | .error error => (.error error, postgres)
    | .breaks none error => (.error error.1, postgres)
    | .breaks (some gap) error => match apply (.ok gap) with
      | .ok (_, postgres) => (.error error.1, postgres)
      | .error _ => (.error error.1, postgres)

/-- Where the loop is after an entry. -/
inductive Progress (Op σ : Type)
  | going (s : Site Op σ)
  | thrown (error : WriteError) (s : Site Op σ)

/-- The body of the loop over a batch: only a terminal rejection is passed over. -/
def replayEntry (R : Replay Op σ) (entry : JournalEntry Op) (trial : Trial) (s : Site Op σ) : Progress Op σ :=
  let (outcome, postgres) := R.applyEntry entry trial.attempt s.postgres
  let journal := Writes.markOutcome false entry.requestId outcome trial.now s.journal
  match outcome with
  | .ok _ => .going ⟨journal, postgres, s.replayed + 1⟩
  | .error error =>
    if Writes.failureMark false error = some .terminalRejected then .going ⟨journal, postgres, s.replayed⟩
    else .thrown error ⟨journal, postgres, s.replayed⟩

/-- The loop over a batch, from its entry number `i` on. -/
def pass (R : Replay Op σ) (trials : Nat → Trial) : Nat → List (JournalEntry Op) → Site Op σ → Progress Op σ
  | _, [], s => .going s
  | i, entry :: entries, s => match R.replayEntry entry (trials i) s with
    | .going s => R.pass trials (i + 1) entries s
    | .thrown error s => .thrown error s

/-- `loadRecoveryReplayBatch`. -/
def batch (R : Replay Op σ) (s : Site Op σ) : List (JournalEntry Op) :=
  (loadRecoveryReplayBatch R.snapshotCoverage R.targetGeneration R.limit s.journal).map JournalRow.entry

/-- What `completeRecoveryReplay` returns. -/
structure Report where
  generation : Nat
  receiptSeq : Nat
  replayed : Nat
  pending : Nat
deriving DecidableEq

def report (R : Replay Op σ) (s : Site Op σ) : Report where
  generation := s.postgres.currentGeneration
  receiptSeq := s.postgres.getGlobalReceiptWatermark
  replayed := s.replayed
  pending := countRecoveryReplayPending R.snapshotCoverage R.targetGeneration s.journal

/-- The loop is still running, or it returned or threw. -/
inductive Result (Op σ : Type)
  | running (s : Site Op σ)
  | returned (report : Report) (s : Site Op σ)
  | thrown (error : WriteError) (s : Site Op σ)

def needs (R : Replay Op σ) (row : JournalRow Op) : Bool := row.needsReplay R.snapshotCoverage R.targetGeneration

/-- A journal by the times its entries were made. -/
def byCreation (journal : List (JournalRow Op)) : List (JournalRow Op) :=
  journal.insertionSort (fun a b => a.createdAt ≤ b.createdAt)

/-- The entries to replay, in the order of their creation. -/
def queue (R : Replay Op σ) (journal : List (JournalRow Op)) : List (JournalEntry Op) :=
  ((byCreation journal).filter R.needs).map JournalRow.entry

variable {R : Replay Op σ}

theorem filter_byCreation (p : JournalRow Op → Bool) (journal : List (JournalRow Op)) :
    (byCreation journal).filter p = byCreation (journal.filter p) :=
  Batches.filter_insertionSort (r := fun a b => a.createdAt ≤ b.createdAt)
    (fun x y => Nat.le_total x.createdAt y.createdAt) (fun _ _ _ => Nat.le_trans) journal

theorem batch_eq (s : Site Op σ) : R.batch s = (R.queue s.journal).take R.limit := by
  rw [queue, filter_byCreation, ← List.map_take]
  rfl

/-- A receipt that the replay takes for lost: beyond the snapshot, and of a generation below the target. -/
def missing (R : Replay Op σ) (receipt : Receipt) : Bool :=
  decide (receipt.generation < R.targetGeneration) &&
    (decide (R.snapshotCoverage.generation < receipt.generation) ||
      (decide (receipt.generation = R.snapshotCoverage.generation) &&
        decide (R.snapshotCoverage.receiptSeq < receipt.receiptSeq)))

/-- The database has the receipt of an entry, and it is one that the replay takes for lost. -/
def stuck (R : Replay Op σ) (postgres : Postgres σ) (entry : JournalEntry Op) : Bool :=
  (R.payloadError entry).isNone &&
    (postgres.receiptOf entry.requestId).any (fun row => row.matches entry && R.missing row.receipt)

/-- The payload of an entry cannot be read, or the database has the receipt of another write under its request. -/
def stops (R : Replay Op σ) (postgres : Postgres σ) (entry : JournalEntry Op) : Bool :=
  (R.payloadError entry).isSome || (postgres.receiptOf entry.requestId).any (fun row => !row.matches entry)

theorem not_terminal_ofMessage (message : Text) : isTerminalPostgresWriteRejection (.ofMessage message) = false := by
  have hnone : constraintViolations.any (includes []) = false := by decide
  simp [isTerminalPostgresWriteRejection, WriteError.ofMessage, hnone]

theorem failureMark_of_not_terminal {live : Bool} {error : WriteError} (h : isTerminalPostgresWriteRejection error = false) :
    Writes.failureMark live error ≠ some .terminalRejected := by
  unfold Writes.failureMark
  simp only [h, Bool.and_false, Bool.false_eq_true, if_false]
  split <;> simp

theorem applyEntry_ok {entry : JournalEntry Op} {attempt : Attempt} {postgres postgres' : Postgres σ} {receipt : Receipt}
    (h : R.applyEntry entry attempt postgres = (.ok receipt, postgres')) :
    R.payloadError entry = none ∧ ∃ applied, applied.receipt = receipt ∧
      Returned R.meaning entry postgres applied postgres' := by
  unfold applyEntry at h
  cases hp : R.payloadError entry with
  | some error => simp [hp] at h
  | none =>
    refine ⟨rfl, ?_⟩
    cases attempt with
    | completes operations =>
      simp only [hp] at h
      split at h
      · rename_i applied pg happly
        cases h
        exact ⟨applied, rfl, returned_of_apply happly⟩
      · cases h
    | breaks committed error =>
      cases committed with
      | none => simp [hp] at h
      | some gap =>
        simp only [hp] at h
        split at h <;> cases h

/-- Only operations that are run are rejected, and then nothing is committed. -/
theorem applyEntry_rejected {entry : JournalEntry Op} {attempt : Attempt} {postgres postgres' : Postgres σ}
    {error : WriteError} (hgen : postgres.currentGeneration = R.targetGeneration)
    (h : R.applyEntry entry attempt postgres = (.error error, postgres'))
    (hmark : Writes.failureMark false error = some .terminalRejected) :
    R.payloadError entry = none ∧ postgres.receiptOf entry.requestId = none ∧ postgres' = postgres := by
  have hterminal : ∀ e : Breakdown, error ≠ e.1 := fun e he => failureMark_of_not_terminal e.2 (he ▸ hmark)
  unfold applyEntry at h
  cases hp : R.payloadError entry with
  | some e =>
    simp only [hp, Prod.mk.injEq, Except.error.injEq] at h
    exact absurd h.1.symm (hterminal e)
  | none =>
    refine ⟨rfl, ?_⟩
    cases attempt with
    | completes operations =>
      simp only [hp] at h
      split at h
      · cases h
      · rename_i e happly
        cases h
        unfold Postgres.applyMutatingOperationsWithReceipt at happly
        rw [Option.all_some, hgen, decide_eq_true rfl, if_pos rfl] at happly
        split at happly
        · split at happly
          · cases happly
          · cases happly
            cases hmark
        · rename_i hnone
          exact ⟨hnone, rfl⟩
    | breaks committed e =>
      cases committed with
      | none =>
        simp only [hp, Prod.mk.injEq, Except.error.injEq] at h
        exact absurd h.1.symm (hterminal e)
      | some gap =>
        simp only [hp] at h
        split at h <;> (simp only [Prod.mk.injEq, Except.error.injEq] at h; exact absurd h.1.symm (hterminal e))

/-- What an entry that does not end the loop leaves behind: its row needs a replay again exactly if it is stuck, and the
receipts of other requests are as they were. -/
structure Went (R : Replay Op σ) (entry : JournalEntry Op) (s s' : Site Op σ) : Prop where
  reads : R.stops s.postgres entry = false
  generation : s'.postgres.currentGeneration = s.postgres.currentGeneration
  receipts : ∀ requestId, requestId ≠ entry.requestId ∨ R.stuck s.postgres entry = true →
    s'.postgres.receiptOf requestId = s.postgres.receiptOf requestId
  journal : ∃ f : JournalRow Op → JournalRow Op, s'.journal = updateRow entry.requestId f s.journal ∧
    ∀ row, (f row).entry = row.entry ∧ (f row).createdAt = row.createdAt ∧ R.needs (f row) = R.stuck s.postgres entry

theorem needs_markApplied (row : JournalRow Op) (now : Nat) (receipt : Receipt) :
    R.needs (row.markApplied now (some receipt.generation) (some receipt.receiptSeq)) = R.missing receipt := by
  simp [needs, JournalRow.needsReplay, JournalRow.markApplied, JournalRow.receipt, missing]

theorem needs_markFailed (row : JournalRow Op) (disposition : RecoveryDisposition) (message : Text) (now : Nat) :
    R.needs (row.markFailed disposition message now) = false := by
  simp [needs, JournalRow.needsReplay, JournalRow.markFailed]

theorem stuck_of_none {postgres : Postgres σ} {entry : JournalEntry Op} (h : postgres.receiptOf entry.requestId = none) :
    R.stuck postgres entry = false := by
  rw [stuck, h, Option.any_none, Bool.and_false]

theorem stops_of_none {postgres : Postgres σ} {entry : JournalEntry Op} (hp : R.payloadError entry = none)
    (h : postgres.receiptOf entry.requestId = none) : R.stops postgres entry = false := by
  rw [stops, hp, h]; rfl

/-- The receipts of other requests after a commit. -/
theorem receiptOf_commit {postgres : Postgres σ} {entry : JournalEntry Op} {gap : Nat} {requestId : Text}
    (h : requestId ≠ entry.requestId) :
    (postgres.commit R.meaning entry gap).receiptOf requestId = postgres.receiptOf requestId := by
  show Table.lookup _ _ (postgres.receipts ++ [postgres.claimed entry gap]) = _
  rw [Table.lookup_append, if_neg (fun he => h he.symm), Option.or_none]
  rfl

/-- **An entry ends the loop, or its row leaves the queue unless it is stuck.** -/
theorem replayEntry_going {entry : JournalEntry Op} {trial : Trial} {s s' : Site Op σ}
    (hgen : s.postgres.currentGeneration = R.targetGeneration) (h : R.replayEntry entry trial s = .going s') :
    Went R entry s s' := by
  unfold replayEntry at h
  cases happly : R.applyEntry entry trial.attempt s.postgres with
  | mk outcome postgres =>
    rw [happly] at h
    cases outcome with
    | ok receipt =>
      obtain ⟨hp, applied, rfl, hreturned⟩ := applyEntry_ok happly
      obtain rfl : _ = s' := Progress.going.inj h
      have hjournal : ∀ row : JournalRow Op, R.needs (row.markApplied trial.now (some applied.receipt.generation)
          (some applied.receipt.receiptSeq)) = R.missing applied.receipt := fun row => needs_markApplied row _ _
      cases hreturned with
      | @found row hrow hmatches =>
        have hstuck : R.stuck s.postgres entry = R.missing row.receipt := by
          rw [stuck, hp, hrow, Option.any_some, hmatches]; rfl
        refine ⟨?_, rfl, fun _ _ => rfl, _, rfl, fun row => ⟨rfl, rfl, ?_⟩⟩
        · rw [stops, hp, hrow, Option.any_some, hmatches]; rfl
        · rw [hjournal, hstuck]
      | @claimed gap hnone =>
        refine ⟨stops_of_none hp hnone, rfl, fun requestId hid => ?_, _, rfl, fun row => ⟨rfl, rfl, ?_⟩⟩
        · rcases hid with hid | hid
          · exact receiptOf_commit hid
          · rw [stuck_of_none hnone] at hid; cases hid
        · rw [hjournal, stuck_of_none hnone, missing]
          simp [Postgres.claimed, ReceiptRow.receipt, hgen]
    | error error =>
      simp only at h
      split at h
      · rename_i hmark
        obtain ⟨hp, hnone, rfl⟩ := applyEntry_rejected hgen happly hmark
        obtain rfl : _ = s' := Progress.going.inj h
        refine ⟨stops_of_none hp hnone, rfl, fun _ _ => rfl,
          JournalRow.markFailed .terminalRejected (journalFailureMessage error) trial.now, ?_, fun row => ⟨rfl, rfl, ?_⟩⟩
        · simp only [Writes.markOutcome, Writes.markFailure, hmark]
          rfl
        · rw [needs_markFailed, stuck_of_none hnone]
      · cases h

/-! ## A pass -/

/-- The rows of a keyed journal are told apart by their requests. -/
theorem byCreation_updateRow {requestId : Text} {f : JournalRow Op → JournalRow Op} {journal : List (JournalRow Op)}
    (hf : ∀ row, (f row).createdAt = row.createdAt) :
    byCreation (updateRow requestId f journal) =
      (byCreation journal).map (fun row => if decide (row.requestId = requestId) then f row else row) := by
  refine (List.map_insertionSort (fun a b : JournalRow Op => a.createdAt ≤ b.createdAt)
    (fun a b : JournalRow Op => a.createdAt ≤ b.createdAt) _ journal fun a _ b _ => ?_).symm
  have hcreated : ∀ row : JournalRow Op,
      (if decide (row.requestId = requestId) then f row else row).createdAt = row.createdAt := fun row => by
    split
    · exact hf row
    · rfl
  rw [hcreated, hcreated]

/-- **The queue after an entry of it**: the entry is gone unless it is stuck. -/
theorem Went.queue {entry : JournalEntry Op} {s s' : Site Op σ} (h : Went R entry s s')
    (hkeyed : Table.Keyed JournalRow.requestId s.journal) (hmem : entry ∈ R.queue s.journal) :
    R.queue s'.journal = (R.queue s.journal).filter
      (fun x => decide (x.requestId ≠ entry.requestId) || R.stuck s.postgres entry) := by
  obtain ⟨f, hjournal, hf⟩ := h.journal
  obtain ⟨row, hrow, rfl⟩ := List.mem_map.1 hmem
  obtain ⟨hrow, hneeds⟩ := List.mem_filter.1 hrow
  have hrow' : row ∈ s.journal := (List.mem_insertionSort _).1 hrow
  have hentry : ∀ x : JournalRow Op, (if decide (x.requestId = row.entry.requestId) then f x else x).entry = x.entry :=
    fun x => by
      split
      · exact (hf x).1
      · rfl
  rw [hjournal, Replay.queue, Replay.queue, byCreation_updateRow (fun x => (hf x).2.1), List.filter_map, List.map_map,
    List.filter_map, List.filter_filter]
  refine (List.map_congr_left (g := JournalRow.entry) fun x _ => hentry x).trans ?_
  refine congrArg _ (List.filter_congr fun x hx => ?_)
  have hx : x ∈ s.journal := (List.mem_insertionSort _).1 hx
  by_cases hid : x.requestId = row.requestId
  · obtain rfl := hkeyed.eq_of_key hx hrow' hid
    simp only [Function.comp_apply, show x.entry.requestId = x.requestId from rfl, decide_true, if_true, (hf x).2.2, hneeds,
      ne_eq, not_true_eq_false, decide_false, Bool.false_or, Bool.and_true]
  · simp only [Function.comp_apply, show row.entry.requestId = row.requestId from rfl,
      show x.entry.requestId = x.requestId from rfl, hid, decide_false, ne_eq, not_false_eq_true, decide_true, Bool.true_or,
      Bool.true_and, Bool.false_eq_true, if_false]

theorem Went.keyed {entry : JournalEntry Op} {s s' : Site Op σ} (h : Went R entry s s')
    (hkeyed : Table.Keyed JournalRow.requestId s.journal) : Table.Keyed JournalRow.requestId s'.journal := by
  obtain ⟨f, hjournal, hf⟩ := h.journal
  rw [hjournal]
  exact hkeyed.update fun row => congrArg JournalEntry.requestId (hf row).1

theorem keyed_queue {journal : List (JournalRow Op)} (hkeyed : Table.Keyed JournalRow.requestId journal) :
    Table.Keyed JournalEntry.requestId (R.queue journal) := by
  have hperm : Table.Keyed JournalRow.requestId (byCreation journal) :=
    (((List.perm_insertionSort _ journal).map JournalRow.requestId).nodup_iff).2 hkeyed
  rw [Table.Keyed, queue, List.map_map]
  exact List.Nodup.sublist (List.filter_sublist.map _) hperm

theorem stuck_congr {postgres postgres' : Postgres σ} {entry : JournalEntry Op}
    (h : postgres'.receiptOf entry.requestId = postgres.receiptOf entry.requestId) :
    R.stuck postgres' entry = R.stuck postgres entry := by
  rw [stuck, stuck, h]

theorem stops_congr {postgres postgres' : Postgres σ} {entry : JournalEntry Op}
    (h : postgres'.receiptOf entry.requestId = postgres.receiptOf entry.requestId) :
    R.stops postgres' entry = R.stops postgres entry := by
  rw [stops, stops, h]

/-- What a pass over a batch that does not end the loop leaves behind. -/
structure Passed (R : Replay Op σ) (entries : List (JournalEntry Op)) (s s' : Site Op σ) : Prop where
  reads : ∀ entry ∈ entries, R.stops s.postgres entry = false
  generation : s'.postgres.currentGeneration = s.postgres.currentGeneration
  receipts : ∀ requestId, (∀ entry ∈ entries, entry.requestId = requestId → R.stuck s.postgres entry = true) →
    s'.postgres.receiptOf requestId = s.postgres.receiptOf requestId
  keyed : Table.Keyed JournalRow.requestId s'.journal
  queue : R.queue s'.journal = (R.queue s.journal).filter
    (fun x => decide (x.requestId ∉ entries.map JournalEntry.requestId) || R.stuck s.postgres x)

/-- **A pass takes the entries of its batch from the queue, except those that are stuck.** -/
theorem pass_going {trials : Nat → Trial} : ∀ {entries : List (JournalEntry Op)} {i : Nat} {s s' : Site Op σ},
    s.postgres.currentGeneration = R.targetGeneration → Table.Keyed JournalRow.requestId s.journal →
    Table.Keyed JournalEntry.requestId entries → (∀ entry ∈ entries, entry ∈ R.queue s.journal) →
    R.pass trials i entries s = .going s' → Passed R entries s s'
  | [], i, s, s', _, hkeyed, _, _, h => by
    obtain rfl := Progress.going.inj h
    exact ⟨nofun, rfl, fun _ _ => rfl, hkeyed, (List.filter_eq_self.2 fun x _ => by simp).symm⟩
  | entry :: entries, i, s, s', hgen, hkeyed, hentries, hmem, h => by
    rw [pass] at h
    split at h
    · rename_i s1 hentry
      have hwent := replayEntry_going hgen hentry
      obtain ⟨hnotin, hentries⟩ := List.nodup_cons.1 hentries
      obtain ⟨hin, hmem⟩ := List.forall_mem_cons.1 hmem
      have hne : ∀ x ∈ entries, x.requestId ≠ entry.requestId := fun x hx he =>
        hnotin (he ▸ List.mem_map_of_mem hx)
      have hqueue := hwent.queue hkeyed hin
      have hmem1 : ∀ x ∈ entries, x ∈ R.queue s1.journal := fun x hx => by
        rw [hqueue]
        exact List.mem_filter.2 ⟨hmem x hx, by simp [hne x hx]⟩
      have ih := pass_going (hwent.generation.trans hgen) (hwent.keyed hkeyed) hentries hmem1 h
      have hsame : ∀ x ∈ entries, s1.postgres.receiptOf x.requestId = s.postgres.receiptOf x.requestId := fun x hx =>
        hwent.receipts _ (.inl (hne x hx))
      refine ⟨List.forall_mem_cons.2 ⟨hwent.reads, fun x hx => ?_⟩, ih.generation.trans hwent.generation,
        fun requestId hid => ?_, ih.keyed, ?_⟩
      · rw [← stops_congr (hsame x hx)]
        exact ih.reads x hx
      · obtain ⟨hhead, htail⟩ := List.forall_mem_cons.1 hid
        refine (ih.receipts requestId fun x hx he => ?_).trans (hwent.receipts requestId ?_)
        · rw [stuck_congr (hsame x hx)]
          exact htail x hx he
        · by_cases he : requestId = entry.requestId
          · exact .inr (hhead he.symm)
          · exact .inl he
      · rw [ih.queue, hqueue, List.filter_filter]
        refine List.filter_congr fun x hx => ?_
        by_cases he : x.requestId = entry.requestId
        · obtain rfl := (keyed_queue hkeyed).eq_of_key hx hin he
          simp only [hnotin, not_false_eq_true, decide_true, Bool.true_or, Bool.true_and, ne_eq, not_true_eq_false,
            decide_false, Bool.false_or, List.map_cons, List.mem_cons, true_or]
        · rw [stuck_congr (hwent.receipts _ (.inl he))]
          simp [he]
    · cases h

/-- **A pass over the next batch is a turn of the queue.** -/
theorem going_pass {trials : Nat → Trial} {s s' : Site Op σ} (hgen : s.postgres.currentGeneration = R.targetGeneration)
    (hkeyed : Table.Keyed JournalRow.requestId s.journal) (h : R.pass trials 0 (R.batch s) s = .going s') :
    Passed R (R.batch s) s s' ∧ R.queue s'.journal = turn (R.stuck s.postgres) R.limit (R.queue s.journal) := by
  have hsub : (R.batch s).Sublist (R.queue s.journal) := by
    rw [batch_eq]
    exact List.take_sublist _ _
  have hnodup := keyed_queue (R := R) hkeyed
  have hpassed := pass_going hgen hkeyed (hnodup.sublist (hsub.map _)) (fun entry hentry => hsub.subset hentry) h
  refine ⟨hpassed, ?_⟩
  rw [hpassed.queue, batch_eq, ← Batches.filter_eq_turn hnodup]
  exact List.filter_congr fun x _ => by congr

/-! ## Calls that return -/

/-- The database has no receipt of an entry. -/
def fresh (postgres : Postgres σ) (entry : JournalEntry Op) : Bool := (postgres.receiptOf entry.requestId).isNone

/-- The entries without a receipt were applied, in their order. -/
structure Ran (R : Replay Op σ) (entries : List (JournalEntry Op)) (postgres postgres' : Postgres σ) : Prop where
  receipts : postgres'.receipts.map ReceiptRow.requestId = postgres.receipts.map ReceiptRow.requestId ++
    (entries.filter (fresh postgres)).map JournalEntry.requestId
  tables : postgres'.tables = applyEntries R.meaning (entries.filter (fresh postgres)) postgres.tables

theorem Ran.nil (postgres : Postgres σ) : Ran R [] postgres postgres := ⟨by simp, rfl⟩

theorem Ran.append {entries entries' : List (JournalEntry Op)} {p p' p'' : Postgres σ} (h : Ran R entries p p')
    (h' : Ran R entries' p' p'') (hfresh : ∀ entry ∈ entries', fresh p' entry = fresh p entry) :
    Ran R (entries ++ entries') p p'' := by
  have hfilter : entries'.filter (fresh p') = entries'.filter (fresh p) := List.filter_congr hfresh
  refine ⟨?_, ?_⟩
  · rw [h'.receipts, h.receipts, hfilter, List.filter_append, List.map_append, List.append_assoc]
  · rw [h'.tables, h.tables, hfilter, List.filter_append, applyEntries_append]

end Replay

end Recovery
end Adg
