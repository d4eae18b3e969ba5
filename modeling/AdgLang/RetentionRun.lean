import AdgLang.Machine
import AdgLang.RecoveryBackups
/-!
# RetentionRun — the journal under pruning and cleanup

Backup sets are created, completed, leased and pruned, journal entries are inserted, marked and cleaned up, in any
order over a clock that does not go back.  A cleanup uses a snapshot that some earlier pruning returned.  A write that
was marked applied can be rebuilt while its entry stands or some complete set covers its receipt
(`World.Recoverable`).  Expiry takes that away: a set expires without regard for the entries that were cleaned up
because of it.  One step keeps every write recoverable exactly under `Retains` (`recoverable_step_iff`).
-/
namespace Adg
namespace Recovery
namespace Retention

variable {Op : Type}

/-! ## The store -/

/-- The D1 recovery store, with the marks that it received and the snapshots handed to cleanups. -/
structure World (Op : Type) where
  backups : List BackupSet
  runtime : RecoveryRuntime
  journal : List (JournalRow Op)
  clock : Nat
  /-- The receipts that writes were marked applied with. -/
  marks : List (Text × Receipt)
  /-- What the prunings of `processCpolyRecoveryMaintenance` returned. -/
  handed : List Coverage

def World.start : World Op where
  backups := []
  runtime := .initial
  journal := []
  clock := 0
  marks := []
  handed := []

inductive Action (Op : Type)
  | createBackup (backupId : Text) (descriptor : BackupDescriptor) (retentionHours : Option Nat)
  | uploadChunk (backupId : Text) (chunkIndex sizeBytes : Nat)
  | completeBackup (backupId : Text) (contentsOk : Bool)
  | touchLease (backupId : Text) (leaseExpiresAt : Nat)
  | prune (objectsDeleted : Text → Bool)
  | cleanup (snapshot : Coverage) (limit : Nat)
  | beginRecovery (backupId recoveryId : Text)
  | completeRecovery (coverage : Coverage)
  | insertPending (entry : JournalEntry Op)
  | markApplied (requestId : Text) (generation receiptSeq : Option Nat)
  | markPending (requestId message : Text)
  | markFailed (requestId message : Text) (disposition : RecoveryDisposition)
  | requeue

/-- The receipts that the rows of a request have. -/
def receiptsOf (requestId : Text) (journal : List (JournalRow Op)) : List (Text × Receipt) :=
  (Table.lookup JournalRow.requestId requestId journal).toList.filterMap
    (fun row => row.receipt.map (fun receipt => (requestId, receipt)))

/-- One step at a time. -/
def World.act (env : RetentionEnv) (now : Nat) (w : World Op) : Action Op → Option (World Op)
  | .createBackup backupId descriptor hours =>
    (createBackupSet env backupId descriptor hours now w.backups).map (fun sets => { w with backups := sets })
  | .uploadChunk backupId chunkIndex sizeBytes =>
    (uploadBackupChunk backupId chunkIndex sizeBytes now w.backups).map (fun sets => { w with backups := sets })
  | .completeBackup backupId contentsOk =>
    (completeBackupSet backupId contentsOk now w.backups).map (fun sets => { w with backups := sets })
  | .touchLease backupId lease => some { w with backups := touchBackupRestoreLease backupId lease now w.backups }
  | .prune objectsDeleted =>
    let pruned := pruneExpiredBackups env now w.runtime objectsDeleted w.backups
    -- during a recovery the maintenance ends before its cleanup
    some { w with
      backups := pruned.1
      runtime := w.runtime.unlink pruned.1
      handed := if w.runtime.state = .recovering then w.handed else w.handed ++ pruned.2.toList }
  | .cleanup snapshot limit =>
    if snapshot ∈ w.handed then some { w with journal := cleanupAppliedRecoveryJournal snapshot limit w.journal }
    else none
  | .beginRecovery backupId recoveryId =>
    (Recovery.beginRecovery env backupId recoveryId now w.backups w.runtime).map
      (fun out => { w with backups := out.1, runtime := out.2 })
  | .completeRecovery coverage =>
    (finishRecovery coverage now w.journal w.backups w.runtime).map
      (fun out => { w with backups := out.1, runtime := out.2 })
  | .insertPending entry =>
    (insertPendingJournalEntry entry now w.journal).map (fun journal => { w with journal := journal })
  | .markApplied requestId generation receiptSeq =>
    let journal := markJournalApplied requestId now generation receiptSeq w.journal
    some { w with journal := journal, marks := w.marks ++ receiptsOf requestId journal }
  | .markPending requestId message => some { w with journal := markJournalPending requestId message now w.journal }
  | .markFailed requestId message disposition =>
    some { w with journal := markJournalFailed requestId message disposition now w.journal }
  | .requeue => some { w with journal := requeueAmbiguousFailedJournalEntries now w.journal }

/-- Steps with the time at which they are taken. -/
def store (env : RetentionEnv) : Machine (World Op) (Nat × Action Op) where
  step w a := if a.1 < w.clock then none else { w with clock := a.1 }.act env a.1 a.2

/-! ## What can be rebuilt -/

def World.HasEntry (w : World Op) (requestId : Text) : Prop := ∃ row ∈ w.journal, row.requestId = requestId

/-- Some complete set covers the receipt. -/
def World.Covers (w : World Op) (receipt : Receipt) : Prop :=
  ∃ set ∈ w.backups, set.status = .complete ∧ set.snapshot.covers receipt = true

/-- Every write marked applied has its entry still, or some complete set covers it. -/
def World.Recoverable (w : World Op) : Prop := ∀ m ∈ w.marks, w.HasEntry m.1 ∨ w.Covers m.2

/-- The steps that strand nothing.  Before a pruning, every marked write without an entry is covered by a complete set
that is leased, being restored, or unexpired and within the limit of retained bytes.  Before a cleanup, some complete
set covers each receipt with which the writes it selects were marked. -/
def Retains (env : RetentionEnv) (w : World Op) (a : Nat × Action Op) : Prop :=
  match a.2 with
  | .prune _ => ∀ m ∈ w.marks, ¬ w.HasEntry m.1 → ∃ set ∈ w.backups,
      set.status = .complete ∧ set.snapshot.covers m.2 = true ∧ set.isProtected env a.1 w.runtime = true
  | .cleanup snapshot limit => ∀ row ∈ cleanupSelection snapshot limit w.journal, ∀ m ∈ w.marks,
      m.1 = row.requestId → w.Covers m.2
  | _ => True

instance (w : World Op) (requestId : Text) : Decidable (w.HasEntry requestId) :=
  inferInstanceAs (Decidable (∃ row ∈ w.journal, row.requestId = requestId))

instance (w : World Op) (receipt : Receipt) : Decidable (w.Covers receipt) :=
  inferInstanceAs (Decidable (∃ set ∈ w.backups, set.status = .complete ∧ set.snapshot.covers receipt = true))

instance (w : World Op) : Decidable w.Recoverable :=
  inferInstanceAs (Decidable (∀ m ∈ w.marks, w.HasEntry m.1 ∨ w.Covers m.2))

instance (env : RetentionEnv) (w : World Op) (a : Nat × Action Op) : Decidable (Retains env w a) :=
  match a with
  | (now, .prune _) => inferInstanceAs (Decidable (∀ m ∈ w.marks, ¬ w.HasEntry m.1 → ∃ set ∈ w.backups,
      set.status = .complete ∧ set.snapshot.covers m.2 = true ∧ set.isProtected env now w.runtime = true))
  | (_, .cleanup snapshot limit) => inferInstanceAs (Decidable (∀ row ∈ cleanupSelection snapshot limit w.journal,
      ∀ m ∈ w.marks, m.1 = row.requestId → w.Covers m.2))
  | (_, .createBackup ..) | (_, .uploadChunk ..) | (_, .completeBackup ..) | (_, .touchLease ..)
  | (_, .beginRecovery ..) | (_, .completeRecovery ..) | (_, .insertPending ..) | (_, .markApplied ..)
  | (_, .markPending ..) | (_, .markFailed ..) | (_, .requeue) => .isTrue trivial

/-! ## One step -/

theorem mem_receiptsOf {requestId : Text} {journal : List (JournalRow Op)} {m : Text × Receipt}
    (h : m ∈ receiptsOf requestId journal) : ∃ row ∈ journal, row.requestId = m.1 := by
  unfold receiptsOf at h
  obtain ⟨row, hrow, hm⟩ := List.mem_filterMap.1 h
  obtain ⟨receipt, -, rfl⟩ := Option.map_eq_some_iff.1 hm
  obtain ⟨hrow, hid⟩ := Table.lookup_some (Option.mem_toList.1 hrow)
  exact ⟨row, hrow, hid⟩

/-- A step that changes the sets without pruning keeps every write recoverable. -/
theorem World.Recoverable.retaining {w : World Op} {sets : List BackupSet} (h : w.Recoverable)
    (hsets : Retaining w.backups sets) : ∀ m ∈ w.marks, w.HasEntry m.1 ∨
      ∃ set ∈ sets, set.status = .complete ∧ set.snapshot.covers m.2 = true := fun m hm =>
  (h m hm).imp_right (hsets.2 m.2)

/-- So does a step that changes the journal and lets no request go. -/
theorem World.Recoverable.keeping {w : World Op} {journal : List (JournalRow Op)} (h : w.Recoverable)
    (hkeeps : ∀ id, w.HasEntry id → ∃ row ∈ journal, row.requestId = id) :
    ∀ m ∈ w.marks, (∃ row ∈ journal, row.requestId = m.1) ∨ w.Covers m.2 := fun m hm =>
  (h m hm).imp_left (hkeeps m.1)

/-- **A pruning keeps every write recoverable exactly if it meets the condition.** -/
theorem recoverable_prune_iff {env : RetentionEnv} {now : Nat} {w w' : World Op} {objectsDeleted : Text → Bool}
    (hok : SetsOk w.backups) (hs : w.act env now (.prune objectsDeleted) = some w') :
    w'.Recoverable ↔ Retains env w (now, .prune objectsDeleted) := by
  obtain rfl := Option.some.inj hs
  constructor
  · intro h m hm hgone
    exact (covers_pruneExpiredBackups hok).1 ((h m hm).resolve_left hgone)
  · intro h m hm
    by_cases hentry : w.HasEntry m.1
    · exact .inl hentry
    · exact .inr ((covers_pruneExpiredBackups hok).2 (h m hm hentry))

/-- **So does a cleanup.** -/
theorem recoverable_cleanup_iff {env : RetentionEnv} {now : Nat} {w w' : World Op} {snapshot : Coverage} {limit : Nat}
    (hrec : w.Recoverable) (hs : w.act env now (.cleanup snapshot limit) = some w') :
    w'.Recoverable ↔ Retains env w (now, .cleanup snapshot limit) := by
  simp only [World.act] at hs
  split at hs
  · obtain rfl := Option.some.inj hs
    constructor
    · intro h row hrow m hm hid
      refine (h m hm).resolve_left (fun hentry => ?_)
      exact (exists_cleanup.1 hentry).2 row hrow hid.symm
    · intro h m hm
      by_cases hsel : ∃ row ∈ cleanupSelection snapshot limit w.journal, row.requestId = m.1
      · obtain ⟨row, hrow, hid⟩ := hsel
        exact .inr (h row hrow m hm hid.symm)
      · refine (hrec m hm).imp_left (fun hentry => exists_cleanup.2 ⟨hentry, fun row hrow hid => ?_⟩)
        exact hsel ⟨row, hrow, hid⟩
  · cases hs

/-- A step that replaces the sets by others. -/
theorem recoverable_sets {w w' : World Op} {sets? : Option (List BackupSet)} (hrec : w.Recoverable)
    (hsets : ∀ sets, sets? = some sets → Retaining w.backups sets)
    (hs : sets?.map (fun sets => { w with backups := sets }) = some w') : SetsOk w'.backups ∧ w'.Recoverable := by
  obtain ⟨sets, hsome, rfl⟩ := Option.map_eq_some_iff.1 hs
  exact ⟨(hsets sets hsome).1, hrec.retaining (hsets sets hsome)⟩

theorem recoverable_runtime {w w' : World Op} {out? : Option (List BackupSet × RecoveryRuntime)}
    (hrec : w.Recoverable) (hsets : ∀ out, out? = some out → Retaining w.backups out.1)
    (hs : out?.map (fun out => { w with backups := out.1, runtime := out.2 }) = some w') :
    SetsOk w'.backups ∧ w'.Recoverable := by
  obtain ⟨out, hsome, rfl⟩ := Option.map_eq_some_iff.1 hs
  exact ⟨(hsets out hsome).1, hrec.retaining (hsets out hsome)⟩

theorem exists_insertPending {entry : JournalEntry Op} {now : Nat} {journal journal' : List (JournalRow Op)}
    (h : insertPendingJournalEntry entry now journal = some journal') {id : Text}
    (hid : ∃ row ∈ journal, row.requestId = id) : ∃ row ∈ journal', row.requestId = id := by
  unfold insertPendingJournalEntry at h
  split at h
  · cases h
  · obtain rfl := Option.some.inj h
    obtain ⟨row, hrow, hid⟩ := hid
    exact ⟨row, List.mem_append_left _ hrow, hid⟩

/-- **One step keeps the sets well formed, and keeps every write recoverable exactly if it meets the condition.** -/
theorem recoverable_act_iff {env : RetentionEnv} {now : Nat} {w w' : World Op} {a : Action Op}
    (hok : SetsOk w.backups) (hrec : w.Recoverable) (hs : w.act env now a = some w') :
    SetsOk w'.backups ∧ (w'.Recoverable ↔ Retains env w (now, a)) := by
  have free : SetsOk w'.backups ∧ w'.Recoverable → Retains env w (now, a) →
      SetsOk w'.backups ∧ (w'.Recoverable ↔ Retains env w (now, a)) := fun h hr => ⟨h.1, fun _ => hr, fun _ => h.2⟩
  cases a with
  | createBackup backupId descriptor hours =>
    exact free (recoverable_sets hrec (fun _ => retaining_createBackupSet hok) hs) trivial
  | uploadChunk backupId chunkIndex sizeBytes =>
    exact free (recoverable_sets hrec (fun _ => retaining_uploadBackupChunk hok) hs) trivial
  | completeBackup backupId contentsOk =>
    exact free (recoverable_sets hrec (fun _ => retaining_completeBackupSet hok) hs) trivial
  | touchLease backupId lease =>
    obtain rfl := Option.some.inj hs
    have hsets := retaining_touchBackupRestoreLease backupId lease now hok
    exact free ⟨hsets.1, hrec.retaining hsets⟩ trivial
  | prune objectsDeleted =>
    refine ⟨?_, recoverable_prune_iff hok hs⟩
    obtain rfl := Option.some.inj hs
    exact hok.pruneExpiredBackups
  | cleanup snapshot limit =>
    refine ⟨?_, recoverable_cleanup_iff hrec hs⟩
    simp only [World.act] at hs
    split at hs
    · obtain rfl := Option.some.inj hs
      exact hok
    · cases hs
  | beginRecovery backupId recoveryId =>
    exact free (recoverable_runtime hrec (fun _ => retaining_beginRecovery hok) hs) trivial
  | completeRecovery coverage =>
    exact free (recoverable_runtime hrec (fun _ => retaining_finishRecovery hok) hs) trivial
  | insertPending entry =>
    obtain ⟨journal, hsome, rfl⟩ := Option.map_eq_some_iff.1 hs
    exact free ⟨hok, hrec.keeping (fun _ => exists_insertPending hsome)⟩ trivial
  | markApplied requestId generation receiptSeq =>
    obtain rfl := Option.some.inj hs
    refine free ⟨hok, fun m hm => ?_⟩ trivial
    obtain hm | hm := List.mem_append.1 hm
    · exact hrec.keeping
        (fun _ => (exists_updateRow (f := JournalRow.markApplied now generation receiptSeq) (fun _ => rfl)).2) m hm
    · exact .inl (mem_receiptsOf hm)
  | markPending requestId message =>
    obtain rfl := Option.some.inj hs
    exact free ⟨hok, hrec.keeping
      (fun _ => (exists_updateRow (f := JournalRow.markPending message now) (fun _ => rfl)).2)⟩ trivial
  | markFailed requestId message disposition =>
    obtain rfl := Option.some.inj hs
    exact free ⟨hok, hrec.keeping
      (fun _ => (exists_updateRow (f := JournalRow.markFailed disposition message now) (fun _ => rfl)).2)⟩ trivial
  | requeue =>
    obtain rfl := Option.some.inj hs
    exact free ⟨hok, hrec.keeping (fun _ => exists_requeue.2)⟩ trivial

theorem recoverable_step_iff {env : RetentionEnv} {w w' : World Op} {a : Nat × Action Op} (hok : SetsOk w.backups)
    (hrec : w.Recoverable) (hs : (store env).step w a = some w') :
    SetsOk w'.backups ∧ (w'.Recoverable ↔ Retains env w a) := by
  simp only [store] at hs
  split at hs
  · cases hs
  · exact recoverable_act_iff (w := { w with clock := a.1 }) hok hrec hs

/-! ## Runs -/

theorem World.start_sound : SetsOk (World.start : World Op).backups ∧ (World.start : World Op).Recoverable :=
  ⟨⟨List.nodup_nil, fun _ h => by cases h⟩, fun _ h => by cases h⟩

/-- **Along a run whose prunings and cleanups meet the condition every write stays recoverable, and the first step that
does not meet it strands one.** -/
theorem recoverable_runs {env : RetentionEnv} {w : World Op} (hrun : (store env).Steps (Retains env) .start w) :
    w.Recoverable ∧
      ∀ a w', (store env).step w a = some w' → (w'.Recoverable ↔ Retains env w a) := by
  have hI : SetsOk w.backups ∧ w.Recoverable := hrun.invariant
    (I := fun w => SetsOk w.backups ∧ w.Recoverable) World.start_sound
    (fun x a y hx hc hs => by
      obtain ⟨hok, hiff⟩ := recoverable_step_iff hx.1 hx.2 hs
      exact ⟨hok, hiff.2 hc⟩)
  exact ⟨hI.2, fun a w' hs => (recoverable_step_iff hI.1 hI.2 hs).2⟩

def coveredEntry : JournalEntry Unit :=
  ⟨"10000000-0000-4000-8000-000000000001".toList, List.replicate 64 '0', .run, [()]⟩

def hourlyBackup : Text := "20000000-0000-4000-8000-000000000001".toList

/-- A write, a backup of it that is kept for an hour, and the maintenance that cleans up its entry. -/
def coveredWrite : List (Nat × Action Unit) :=
  [(0, .insertPending coveredEntry), (0, .markApplied coveredEntry.requestId (some 1) (some 1)),
   (1, .createBackup hourlyBackup ⟨[1], ⟨1, 1⟩⟩ (some 1)), (1, .uploadChunk hourlyBackup 0 1),
   (1, .completeBackup hourlyBackup true), (1, .prune (fun _ => true)),
   (2, .prune (fun _ => true)), (2, .cleanup ⟨1, 1⟩ 10)]

/-- An hour later. -/
def expiringRun : List (Nat × Action Unit) := coveredWrite ++ [(1 + hourMs, .prune (fun _ => true))]

theorem recoverable_runs_coveredWrite :
    ∃ w, (store .default).run .start coveredWrite = some w ∧ w.marks = [(coveredEntry.requestId, ⟨1, 1⟩)] ∧ w.Recoverable := by
  have hmeets : (store .default).runMeets (Retains .default) .start coveredWrite := by decide +kernel
  have hmarks : ((store .default).run .start coveredWrite).any
      (fun w => decide (w.marks = [(coveredEntry.requestId, ⟨1, 1⟩)])) = true := by decide +kernel
  obtain ⟨w, hw, hm⟩ := (Option.any_eq_true _ _).1 hmarks
  exact ⟨w, hw, of_decide_eq_true hm, (recoverable_runs (Machine.steps_of_run hw hmeets)).1⟩

/-- **Retention strands the journal**: the only set that covers the write expires after the write's entry is gone. -/
theorem not_recoverable : ¬ ∀ w : World Unit, (store .default).Reaches .start w → w.Recoverable := by
  have hlost : ((store .default).run .start expiringRun).any (fun w => !decide w.Recoverable) = true := by
    decide +kernel
  obtain ⟨w, hw, hw'⟩ := (Option.any_eq_true _ _).1 hlost
  intro h
  rw [decide_eq_true (h w (Machine.steps_of_run hw (Machine.runMeets_true _ _)))] at hw'
  cases hw'

end Retention
end Recovery
end Adg
