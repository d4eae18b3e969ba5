import AdgLang.RecoveryJournal
import Mathlib.Algebra.GroupWithZero.Nat
/-!
# RecoveryBackups — backup sets, leases and retention

The tables `cpoly_backup_sets` and `cpoly_recovery_runtime` and the operations of `cpoly-recovery.js` on them.
`pruneExpiredBackups` walks the complete sets from the newest snapshot down and keeps a set that is leased or being
restored, and further sets within the limits (`keepIds`).  It keeps a set above a given place whenever a set there is
protected (`exists_kept`).
-/
namespace Adg
namespace Recovery

/-! ## Tables -/

/-- The settings of `env`; `boundedInteger` keeps the number of retained backups positive. -/
structure RetentionEnv where
  maxRetainedBackups : Nat
  maxRetainedBytes : Nat
  maxBackupBytes : Nat
  retentionHours : Nat
  staleUploadHours : Nat
  recoveryLeaseMs : Nat
  maxRetainedBackups_pos : 1 ≤ maxRetainedBackups

/-- The defaults of `cpoly-recovery.js`. -/
def RetentionEnv.default : RetentionEnv where
  maxRetainedBackups := 7
  maxRetainedBytes := 67108864
  maxBackupBytes := 33554432
  retentionHours := 24 * 7
  staleUploadHours := 12
  recoveryLeaseMs := 60 * 60 * 1000
  maxRetainedBackups_pos := by decide

def hourMs : Nat := 60 * 60 * 1000

inductive BackupStatus
  | uploading | complete | failed | expired
deriving DecidableEq

/-- The parts of a descriptor that decide about a set: the sizes of its chunks and the snapshot it was taken at. -/
structure BackupDescriptor where
  chunks : List Nat
  snapshotCoverage : Coverage
deriving DecidableEq

def BackupDescriptor.sizeBytes (descriptor : BackupDescriptor) : Nat := descriptor.chunks.sum

/-- A row of `cpoly_backup_sets`; `snapshot_generation` and `snapshot_watermark` are the descriptor's. -/
structure BackupSet where
  id : Text
  status : BackupStatus
  createdAt : Nat
  updatedAt : Nat
  expiresAt : Nat
  descriptor : BackupDescriptor
  totalSizeBytes : Option Nat
  uploadedBytes : Nat
  uploadedChunks : Nat
  completedAt : Option Nat
  verifiedAt : Option Nat
  restoreLeaseExpiresAt : Option Nat
deriving DecidableEq

abbrev BackupSet.snapshot (set : BackupSet) : Coverage := set.descriptor.snapshotCoverage

inductive RuntimeState
  | ready | recovering
deriving DecidableEq

/-- The row of `cpoly_recovery_runtime`. -/
structure RecoveryRuntime where
  state : RuntimeState
  readyGeneration : Nat
  targetGeneration : Option Nat
  recoveryId : Option Text
  restoreBackupId : Option Text
  restoreSnapshot : Option Coverage
  restoreLeaseExpiresAt : Option Nat
deriving DecidableEq

/-- The row that the migration inserts. -/
def RecoveryRuntime.initial : RecoveryRuntime where
  state := .ready
  readyGeneration := 1
  targetGeneration := none
  recoveryId := none
  restoreBackupId := none
  restoreSnapshot := none
  restoreLeaseExpiresAt := none

/-! ## Backup sets -/

abbrev loadBackupSet (backupId : Text) (sets : List BackupSet) : Option BackupSet :=
  Table.lookup BackupSet.id backupId sets

/-- `requestedRetentionHours`; none where the hours asked for are out of range. -/
def requestedRetentionHours (env : RetentionEnv) : Option Nat → Option Nat
  | none => some env.retentionHours
  | some hours => if 1 ≤ hours ∧ hours ≤ env.retentionHours then some hours else none

/-- `createBackupSet`. -/
def createBackupSet (env : RetentionEnv) (backupId : Text) (descriptor : BackupDescriptor) (retentionHours : Option Nat)
    (now : Nat) (sets : List BackupSet) : Option (List BackupSet) :=
  match requestedRetentionHours env retentionHours with
  | none => none
  | some hours =>
    if (loadBackupSet backupId sets).isSome ∨ env.maxBackupBytes < descriptor.sizeBytes then none
    else some (sets ++ [{
      id := backupId, status := .uploading, createdAt := now, updatedAt := now, expiresAt := now + hours * hourMs,
      descriptor := descriptor, totalSizeBytes := none, uploadedBytes := 0, uploadedChunks := 0, completedAt := none,
      verifiedAt := none, restoreLeaseExpiresAt := none }])

/-- `ensureUploadableBackup`. -/
def BackupSet.isUploadable (now : Nat) (set : BackupSet) : Bool :=
  decide (set.status = .uploading) && decide (now < set.expiresAt)

def updateSet (backupId : Text) (status : BackupStatus) (f : BackupSet → BackupSet) (sets : List BackupSet) :
    List BackupSet :=
  Table.update (fun set => decide (set.id = backupId) && decide (set.status = status)) f sets

/-- `uploadBackupChunk`, for a chunk that is new. -/
def uploadBackupChunk (backupId : Text) (chunkIndex sizeBytes now : Nat) (sets : List BackupSet) :
    Option (List BackupSet) :=
  match loadBackupSet backupId sets with
  | none => none
  | some set =>
    if set.isUploadable now ∧ chunkIndex = set.uploadedChunks ∧ set.descriptor.chunks[chunkIndex]? = some sizeBytes then
      some (updateSet backupId .uploading (fun row => { row with
        uploadedBytes := set.uploadedBytes + sizeBytes, uploadedChunks := chunkIndex + 1, updatedAt := now }) sets)
    else none

/-- `markBackupFailed`. -/
def markBackupFailed (backupId : Text) (now : Nat) : List BackupSet → List BackupSet :=
  updateSet backupId .uploading (fun set => { set with status := .failed, updatedAt := now })

/-- `touchBackupRestoreLease`. -/
def touchBackupRestoreLease (backupId : Text) (leaseExpiresAt now : Nat) : List BackupSet → List BackupSet :=
  updateSet backupId .complete (fun set => { set with restoreLeaseExpiresAt := some leaseExpiresAt, updatedAt := now })

/-- The update of `completeBackupSet` on a set whose contents were verified. -/
def BackupSet.completed (now : Nat) (set : BackupSet) : BackupSet :=
  { set with
    status := .complete
    totalSizeBytes := some set.descriptor.sizeBytes
    completedAt := some now
    verifiedAt := some now
    updatedAt := now }

/-- The checks of `completeBackupSet` before it reads the chunks. -/
def BackupSet.isCompletable (now : Nat) (set : BackupSet) : Bool :=
  set.isUploadable now && decide (set.uploadedChunks = set.descriptor.chunks.length) &&
    decide (set.uploadedBytes = set.descriptor.sizeBytes)

/-- `completeBackupSet` up to its update; the pruning at its end is a step of its own. -/
def completeBackupSet (backupId : Text) (contentsOk : Bool) (now : Nat) (sets : List BackupSet) :
    Option (List BackupSet) :=
  match loadBackupSet backupId sets with
  | none => none
  | some set =>
    if set.isCompletable now then
      some (if contentsOk then updateSet backupId .uploading (BackupSet.completed now) sets
        else markBackupFailed backupId now sets)
    else none

/-! ## Retention -/

/-- The columns `ORDER BY snapshot_generation DESC, snapshot_watermark DESC, verified_at DESC, created_at DESC`. -/
def BackupSet.rank (set : BackupSet) : (ℕ ×ₗ ℕ) ×ₗ (ℕ ×ₗ ℕ) :=
  toLex (set.snapshot.place, toLex (set.verifiedAt.getD 0, set.createdAt))

def completeRows (sets : List BackupSet) : List BackupSet :=
  (sets.filter (fun set => decide (set.status = .complete) && set.verifiedAt.isSome)).insertionSort
    (fun a b => b.rank ≤ a.rank)

def BackupSet.isLeased (now : Nat) (set : BackupSet) : Bool := set.restoreLeaseExpiresAt.any (fun lease => decide (now < lease))

def RecoveryRuntime.isRestoring (runtime : RecoveryRuntime) (set : BackupSet) : Bool :=
  decide (runtime.state = .recovering) && decide (runtime.restoreBackupId = some set.id)

/-- The loop of `pruneExpiredBackups` over the complete rows, with the sets kept and their size so far. -/
def keepIds (env : RetentionEnv) (now : Nat) (runtime : RecoveryRuntime) : List BackupSet → List Text → Nat → List Text
  | [], kept, _ => kept
  | set :: sets, kept, retainedBytes =>
    if set.isLeased now || runtime.isRestoring set then
      keepIds env now runtime sets (kept ++ [set.id]) (retainedBytes + set.totalSizeBytes.getD 0)
    else if set.expiresAt ≤ now then keepIds env now runtime sets kept retainedBytes
    else if env.maxRetainedBackups ≤ kept.length then keepIds env now runtime sets kept retainedBytes
    else if env.maxRetainedBytes < retainedBytes + set.totalSizeBytes.getD 0 then
      keepIds env now runtime sets kept retainedBytes
    else keepIds env now runtime sets (kept ++ [set.id]) (retainedBytes + set.totalSizeBytes.getD 0)

def keptIds (env : RetentionEnv) (now : Nat) (runtime : RecoveryRuntime) (sets : List BackupSet) : List Text :=
  keepIds env now runtime (completeRows sets) [] 0

/-- A set that `pruneExpiredBackups` may keep on its own: leased, being restored, or unexpired and small enough. -/
def BackupSet.isProtected (env : RetentionEnv) (now : Nat) (runtime : RecoveryRuntime) (set : BackupSet) : Bool :=
  set.isLeased now || runtime.isRestoring set ||
    (decide (now < set.expiresAt) && decide (set.totalSizeBytes.getD 0 ≤ env.maxRetainedBytes))

def BackupSet.isStale (env : RetentionEnv) (now : Nat) (set : BackupSet) : Bool :=
  decide (set.status ≠ .complete) && decide (set.createdAt + env.staleUploadHours * hourMs ≤ now)

/-- The update of the sets that were not kept. -/
def BackupSet.expire (now : Nat) (set : BackupSet) : BackupSet :=
  { set with status := .expired, completedAt := none, updatedAt := now }

def BackupSet.fail (now : Nat) (set : BackupSet) : BackupSet := { set with status := .failed, updatedAt := now }

/-- `pruneExpiredBackups`, with the snapshot it returns; `objectsDeleted` says of which sets all objects could be
deleted from the store. -/
def pruneExpiredBackups (env : RetentionEnv) (now : Nat) (runtime : RecoveryRuntime) (objectsDeleted : Text → Bool)
    (sets : List BackupSet) : List BackupSet × Option Coverage :=
  let keepIds := keptIds env now runtime sets
  let deleteIds := ((completeRows sets).filter (fun set => decide (set.id ∉ keepIds))).map BackupSet.id
  let staleDeleteIds := (sets.filter (BackupSet.isStale env now)).map BackupSet.id
  let expired := Table.update (fun set => decide (set.id ∈ deleteIds) && decide (set.status = .complete))
    (BackupSet.expire now) sets
  let failed := Table.update (fun set => decide (set.id ∈ staleDeleteIds) && decide (set.status = .uploading))
    (BackupSet.fail now) expired
  (Table.delete (fun set => decide (set.id ∈ deleteIds ++ staleDeleteIds) && objectsDeleted set.id) failed,
    ((completeRows sets).find? (fun set => decide (set.id ∈ keepIds))).map BackupSet.snapshot)

/-- A runtime whose backup set was deleted; `ON DELETE SET NULL`. -/
def RecoveryRuntime.unlink (sets : List BackupSet) (runtime : RecoveryRuntime) : RecoveryRuntime :=
  { runtime with restoreBackupId := runtime.restoreBackupId.filter (fun id => (loadBackupSet id sets).isSome) }

/-! ## What pruning keeps -/

section Pruning

variable {env : RetentionEnv} {now : Nat} {runtime : RecoveryRuntime}

theorem mem_completeRows {set : BackupSet} {sets : List BackupSet} :
    set ∈ completeRows sets ↔ set ∈ sets ∧ set.status = .complete ∧ set.verifiedAt.isSome := by
  unfold completeRows
  rw [List.mem_insertionSort, List.mem_filter]
  simp

/-- The complete rows come with the newest snapshot first. -/
theorem pairwise_completeRows (sets : List BackupSet) :
    (completeRows sets).Pairwise (fun a b => b.snapshot.place ≤ a.snapshot.place) := by
  have hsorted : (completeRows sets).Pairwise (fun a b => b.rank ≤ a.rank) :=
    List.pairwise_insertionSort (fun a b : BackupSet => b.rank ≤ a.rank) _
  exact hsorted.imp (fun h => Prod.Lex.monotone_fst _ _ h)

theorem mem_keepIds_of_kept {id : Text} : ∀ (sets : List BackupSet) {kept : List Text} {bytes : Nat}, id ∈ kept →
    id ∈ keepIds env now runtime sets kept bytes
  | [], _, _, h => h
  | set :: sets, kept, bytes, h => by
    have happ : id ∈ kept ++ [set.id] := List.mem_append_left _ h
    unfold keepIds
    split
    · exact mem_keepIds_of_kept sets happ
    · split
      · exact mem_keepIds_of_kept sets h
      · split
        · exact mem_keepIds_of_kept sets h
        · split
          · exact mem_keepIds_of_kept sets h
          · exact mem_keepIds_of_kept sets happ

theorem isProtected_of_fits {set : BackupSet} {bytes : Nat} (hlive : ¬ set.expiresAt ≤ now)
    (hfits : ¬ env.maxRetainedBytes < bytes + set.totalSizeBytes.getD 0) : set.isProtected env now runtime = true := by
  have h1 : now < set.expiresAt := by omega
  have h2 : set.totalSizeBytes.getD 0 ≤ env.maxRetainedBytes := by omega
  simp [BackupSet.isProtected, h1, h2]

/-- Only protected sets are kept. -/
theorem isProtected_of_keepIds {id : Text} : ∀ (sets : List BackupSet) {kept : List Text} {bytes : Nat},
    id ∈ keepIds env now runtime sets kept bytes →
      id ∈ kept ∨ ∃ set ∈ sets, set.id = id ∧ set.isProtected env now runtime = true
  | [], _, _, h => .inl h
  | set :: sets, kept, bytes, h => by
    have skip : ∀ {kept' : List Text} {bytes' : Nat}, id ∈ keepIds env now runtime sets kept' bytes' →
        id ∈ kept' ∨ ∃ x ∈ set :: sets, x.id = id ∧ x.isProtected env now runtime = true := fun h' => by
      obtain h' | ⟨x, hx, hid⟩ := isProtected_of_keepIds sets h'
      · exact .inl h'
      · exact .inr ⟨x, List.mem_cons_of_mem _ hx, hid⟩
    have keep : ∀ {bytes' : Nat}, set.isProtected env now runtime = true →
        id ∈ keepIds env now runtime sets (kept ++ [set.id]) bytes' →
        id ∈ kept ∨ ∃ x ∈ set :: sets, x.id = id ∧ x.isProtected env now runtime = true := fun hp h' => by
      obtain h' | h' := skip h'
      · obtain h' | h' := List.mem_append.1 h'
        · exact .inl h'
        · exact .inr ⟨set, List.mem_cons_self, (List.mem_singleton.1 h').symm, hp⟩
      · exact .inr h'
    unfold keepIds at h
    split at h
    · rename_i hl
      exact keep (by rw [BackupSet.isProtected, hl, Bool.true_or]) h
    · split at h
      · exact skip h
      · rename_i hlive
        split at h
        · exact skip h
        · split at h
          · exact skip h
          · rename_i hfits
            exact keep (isProtected_of_fits hlive hfits) h

/-- **The walk keeps a set above a protected one.**  Nothing is kept before the first protected set, so neither the
number nor the size of the sets kept stands against it. -/
theorem exists_keepIds {Q : BackupSet → Prop} {set : BackupSet} (hQ : Q set)
    (hp : set.isProtected env now runtime = true) : ∀ {sets : List BackupSet},
      sets.Pairwise (fun a b => Q b → Q a) → set ∈ sets → ∃ x ∈ sets, Q x ∧ x.id ∈ keepIds env now runtime sets [] 0
  | [], _, h => by cases h
  | a :: sets, hpair, h => by
    obtain ⟨ha, hpair⟩ := List.pairwise_cons.1 hpair
    have hQa : Q a := by
      obtain rfl | h := List.mem_cons.1 h
      · exact hQ
      · exact ha set h hQ
    have skip : set ≠ a → ∃ x ∈ a :: sets, Q x ∧ x.id ∈ keepIds env now runtime sets [] 0 := fun hne => by
      obtain ⟨x, hx, hq, hk⟩ := exists_keepIds hQ hp hpair ((List.mem_cons.1 h).resolve_left hne)
      exact ⟨x, List.mem_cons_of_mem _ hx, hq, hk⟩
    have hpos := env.maxRetainedBackups_pos
    unfold keepIds
    split
    · exact ⟨a, List.mem_cons_self, hQa, mem_keepIds_of_kept sets (by simp)⟩
    · rename_i hl
      split
      · rename_i hexp
        refine skip (fun heq => ?_)
        subst heq
        rw [BackupSet.isProtected, Bool.eq_false_iff.2 hl] at hp
        have : ¬ now < set.expiresAt := by omega
        simp [this] at hp
      · split
        · rename_i hfull
          simp only [List.length_nil] at hfull
          omega
        · split
          · rename_i hbig
            refine skip (fun heq => ?_)
            subst heq
            rw [BackupSet.isProtected, Bool.eq_false_iff.2 hl] at hp
            have : ¬ set.totalSizeBytes.getD 0 ≤ env.maxRetainedBytes := by omega
            simp [this] at hp
          · exact ⟨a, List.mem_cons_self, hQa, mem_keepIds_of_kept sets (by simp)⟩

/-- A complete set has been verified, and no two sets have one identifier. -/
structure SetsOk (sets : List BackupSet) : Prop where
  keyed : Table.Keyed BackupSet.id sets
  verified : ∀ set ∈ sets, set.status = .complete → set.verifiedAt.isSome

/-- **Pruning keeps the complete sets that the walk keeps, as they are.** -/
theorem mem_pruneExpiredBackups (objectsDeleted : Text → Bool) {sets : List BackupSet} (hok : SetsOk sets)
    {set : BackupSet} :
    (set ∈ (pruneExpiredBackups env now runtime objectsDeleted sets).1 ∧ set.status = .complete) ↔
      (set ∈ sets ∧ set.status = .complete) ∧ set.id ∈ keptIds env now runtime sets := by
  have hstale : set ∈ sets → set.status = .complete →
      set.id ∉ (sets.filter (BackupSet.isStale env now)).map BackupSet.id := fun hx hc hmem => by
    obtain ⟨y, hy, hid⟩ := List.mem_map.1 hmem
    obtain ⟨hy, hst⟩ := List.mem_filter.1 hy
    rw [hok.keyed.eq_of_key hy hx hid] at hst
    simp [BackupSet.isStale, hc] at hst
  have hdelete : set ∈ sets → set.status = .complete →
      (set.id ∈ ((completeRows sets).filter (fun x => decide (x.id ∉ keptIds env now runtime sets))).map BackupSet.id ↔
        set.id ∉ keptIds env now runtime sets) := fun hx hc => by
    constructor
    · rintro hmem hk
      obtain ⟨y, hy, hid⟩ := List.mem_map.1 hmem
      exact of_decide_eq_true (List.mem_filter.1 hy).2 (hid ▸ hk)
    · intro hk
      exact List.mem_map.2
        ⟨set, List.mem_filter.2 ⟨mem_completeRows.2 ⟨hx, hc, hok.verified set hx hc⟩, decide_eq_true hk⟩, rfl⟩
  simp only [Recovery.pruneExpiredBackups, Table.mem_delete]
  rw [and_right_comm, Table.mem_update_of_not (q := fun x : BackupSet => x.status = .complete) (fun _ h => by cases h),
    Table.mem_update_of_not (q := fun x : BackupSet => x.status = .complete) (fun _ h => by cases h)]
  constructor
  · rintro ⟨⟨⟨⟨hx, hc⟩, he⟩, -⟩, -⟩
    refine ⟨⟨hx, hc⟩, ?_⟩
    by_contra hk
    rw [decide_eq_true ((hdelete hx hc).2 hk), decide_eq_true hc] at he
    cases he
  · rintro ⟨⟨hx, hc⟩, hk⟩
    have hkept := fun h => (hdelete hx hc).1 h hk
    refine ⟨⟨⟨⟨hx, hc⟩, ?_⟩, ?_⟩, ?_⟩
    · rw [decide_eq_false hkept]; rfl
    · rw [decide_eq_false (hstale hx hc)]; rfl
    · rw [decide_eq_false (fun h => (List.mem_append.1 h).elim hkept (hstale hx hc))]; rfl

/-- **Some complete set covers a receipt after pruning exactly if a protected one covered it before.** -/
theorem covers_pruneExpiredBackups {objectsDeleted : Text → Bool} {sets : List BackupSet} (hok : SetsOk sets)
    {receipt : Receipt} :
    (∃ set ∈ (pruneExpiredBackups env now runtime objectsDeleted sets).1,
        set.status = .complete ∧ set.snapshot.covers receipt = true) ↔
      ∃ set ∈ sets, set.status = .complete ∧ set.snapshot.covers receipt = true ∧
        set.isProtected env now runtime = true := by
  constructor
  · rintro ⟨set, hset, hc, hcov⟩
    obtain ⟨⟨hset, -⟩, hk⟩ := (mem_pruneExpiredBackups _ hok).1 ⟨hset, hc⟩
    obtain h | ⟨x, hx, hid, hp⟩ := isProtected_of_keepIds _ hk
    · cases h
    · obtain rfl := hok.keyed.eq_of_key (mem_completeRows.1 hx).1 hset hid
      exact ⟨x, hset, hc, hcov, hp⟩
  · rintro ⟨set, hset, hc, hcov, hp⟩
    have hpair : (completeRows sets).Pairwise
        (fun a b => b.snapshot.covers receipt = true → a.snapshot.covers receipt = true) :=
      (pairwise_completeRows sets).imp (fun h hb => Receipt.covers_trans (Receipt.covers_iff.2 h) hb)
    obtain ⟨x, hx, hcov, hk⟩ := exists_keepIds (Q := fun set => set.snapshot.covers receipt = true) hcov hp hpair
      (mem_completeRows.2 ⟨hset, hc, hok.verified set hset hc⟩)
    obtain ⟨hx, hxc, -⟩ := mem_completeRows.1 hx
    have hkept := (mem_pruneExpiredBackups objectsDeleted hok).2 ⟨⟨hx, hxc⟩, hk⟩
    exact ⟨x, hkept.1, hkept.2, hcov⟩

theorem SetsOk.pruneExpiredBackups {objectsDeleted : Text → Bool} {sets : List BackupSet} (hok : SetsOk sets) :
    SetsOk (pruneExpiredBackups env now runtime objectsDeleted sets).1 where
  keyed := Table.Keyed.delete (Table.Keyed.update (f := BackupSet.fail now)
    (Table.Keyed.update (f := BackupSet.expire now) hok.keyed (fun _ => rfl)) (fun _ => rfl))
  verified := fun set hset hc => by
    obtain ⟨⟨hset, hc⟩, -⟩ := (mem_pruneExpiredBackups _ hok).1 ⟨hset, hc⟩
    exact hok.verified set hset hc

end Pruning

/-! ## What the other updates keep -/

/-- An update of sets of one status keeps the coverage of complete sets if it keeps a complete set's snapshot. -/
theorem covers_updateSet {backupId : Text} {status : BackupStatus} {f : BackupSet → BackupSet} {sets : List BackupSet}
    {receipt : Receipt}
    (hf : ∀ set, set.status = status → set.status = .complete →
      (f set).status = .complete ∧ (f set).snapshot = set.snapshot) :
    (∃ set ∈ sets, set.status = .complete ∧ set.snapshot.covers receipt = true) →
      ∃ set ∈ updateSet backupId status f sets, set.status = .complete ∧ set.snapshot.covers receipt = true := by
  rintro ⟨set, hset, hc, hcov⟩
  refine ⟨_, Table.mem_update.2 ⟨set, hset, rfl⟩, ?_⟩
  split
  · rename_i hp
    simp only [Bool.and_eq_true, decide_eq_true_eq] at hp
    obtain ⟨h1, h2⟩ := hf set hp.2 hc
    exact ⟨h1, h2 ▸ hcov⟩
  · exact ⟨hc, hcov⟩

theorem SetsOk.updateSet {backupId : Text} {status : BackupStatus} {f : BackupSet → BackupSet} {sets : List BackupSet}
    (hok : SetsOk sets) (hid : ∀ set, (f set).id = set.id)
    (hf : ∀ set ∈ sets, set.status = status → (f set).status = .complete → (f set).verifiedAt.isSome) :
    SetsOk (updateSet backupId status f sets) where
  keyed := hok.keyed.update hid
  verified := fun set hset hc => by
    obtain ⟨x, hx, rfl⟩ := Table.mem_update.1 hset
    split at hc
    · rename_i hp
      rw [if_pos hp]
      simp only [Bool.and_eq_true, decide_eq_true_eq] at hp
      exact hf x hx hp.2 hc
    · rename_i hp
      rw [if_neg hp]
      exact hok.verified x hx hc

/-- Sets after a step that prunes nothing: still well formed, and covering what they covered. -/
def Retaining (sets sets' : List BackupSet) : Prop :=
  SetsOk sets' ∧ ∀ receipt : Receipt, (∃ set ∈ sets, set.status = .complete ∧ set.snapshot.covers receipt = true) →
    ∃ set ∈ sets', set.status = .complete ∧ set.snapshot.covers receipt = true

theorem Retaining.uploading {backupId : Text} {f : BackupSet → BackupSet} {sets : List BackupSet} (hok : SetsOk sets)
    (hid : ∀ set, (f set).id = set.id)
    (hf : ∀ set, set.status = .uploading → (f set).status = .complete → (f set).verifiedAt.isSome) :
    Retaining sets (updateSet backupId .uploading f sets) :=
  ⟨hok.updateSet hid (fun set _ => hf set), fun _ => covers_updateSet (fun set h hc => by rw [h] at hc; cases hc)⟩

theorem retaining_touchBackupRestoreLease (backupId : Text) (lease now : Nat) {sets : List BackupSet}
    (hok : SetsOk sets) : Retaining sets (touchBackupRestoreLease backupId lease now sets) :=
  ⟨hok.updateSet (fun _ => rfl) (fun set hset hc _ => hok.verified set hset hc),
    fun _ => covers_updateSet (fun _ _ hc => ⟨hc, rfl⟩)⟩

theorem retaining_createBackupSet {env : RetentionEnv} {backupId : Text} {descriptor : BackupDescriptor}
    {retentionHours : Option Nat} {now : Nat} {sets sets' : List BackupSet} (hok : SetsOk sets)
    (h : createBackupSet env backupId descriptor retentionHours now sets = some sets') : Retaining sets sets' := by
  unfold createBackupSet at h
  split at h
  · cases h
  · split at h
    · cases h
    · rename_i hfree
      obtain rfl := Option.some.inj h
      have hnone : loadBackupSet backupId sets = none := by
        cases hl : loadBackupSet backupId sets with
        | none => rfl
        | some x => exact absurd (.inl (by rw [hl]; rfl)) hfree
      refine ⟨⟨hok.keyed.append (fun x hx => Table.lookup_none_iff.1 hnone x hx), fun set hset hc => ?_⟩, ?_⟩
      · obtain hset | hset := List.mem_append.1 hset
        · exact hok.verified set hset hc
        · obtain rfl := List.mem_singleton.1 hset
          cases hc
      · rintro receipt ⟨set, hset, hc⟩
        exact ⟨set, List.mem_append_left _ hset, hc⟩

theorem retaining_uploadBackupChunk {backupId : Text} {chunkIndex sizeBytes now : Nat} {sets sets' : List BackupSet}
    (hok : SetsOk sets) (h : uploadBackupChunk backupId chunkIndex sizeBytes now sets = some sets') :
    Retaining sets sets' := by
  unfold uploadBackupChunk at h
  split at h
  · cases h
  · split at h
    · obtain rfl := Option.some.inj h
      exact .uploading hok (fun _ => rfl) (fun _ hu hc => by cases hu.symm.trans hc)
    · cases h

theorem retaining_completeBackupSet {backupId : Text} {contentsOk : Bool} {now : Nat} {sets sets' : List BackupSet}
    (hok : SetsOk sets) (h : completeBackupSet backupId contentsOk now sets = some sets') : Retaining sets sets' := by
  unfold completeBackupSet at h
  split at h
  · cases h
  · split at h
    · obtain rfl := Option.some.inj h
      cases contentsOk with
      | true => exact .uploading hok (fun _ => rfl) (fun _ _ _ => rfl)
      | false => exact .uploading hok (fun _ => rfl) (fun _ _ hc => by cases hc)
    · cases h

/-! ## Recovery runtime -/

/-- `beginRecovery` of a backup set, with the snapshot that its descriptor names; a recovery that runs already is only
prolonged, and another one is refused. -/
def beginRecovery (env : RetentionEnv) (backupId recoveryId : Text) (now : Nat) (sets : List BackupSet)
    (runtime : RecoveryRuntime) : Option (List BackupSet × RecoveryRuntime) :=
  let leaseExpiresAt := now + env.recoveryLeaseMs
  match loadBackupSet backupId sets with
  | none => none
  | some backup =>
    if backup.status ≠ .complete then none
    else if runtime.state = .recovering then
      if runtime.restoreBackupId = some backupId ∧ runtime.restoreSnapshot = some backup.snapshot then
        some (touchBackupRestoreLease backupId leaseExpiresAt now sets,
          { runtime with restoreLeaseExpiresAt := some leaseExpiresAt })
      else none
    else some (touchBackupRestoreLease backupId leaseExpiresAt now sets, { runtime with
      state := .recovering, targetGeneration := some (runtime.readyGeneration + 1), recoveryId := some recoveryId,
      restoreBackupId := some backupId, restoreSnapshot := some backup.snapshot,
      restoreLeaseExpiresAt := some leaseExpiresAt })

/-- The update of the runtime at the end of `completeRecovery`. -/
def RecoveryRuntime.ready (targetGeneration : Nat) (runtime : RecoveryRuntime) : RecoveryRuntime :=
  { runtime with
    state := .ready, readyGeneration := targetGeneration, targetGeneration := none, recoveryId := none,
    restoreBackupId := none, restoreSnapshot := none, restoreLeaseExpiresAt := none }

/-- The end of `completeRecovery`, given the coverage that PostgreSQL reports after the replay. -/
def finishRecovery {Op : Type} (coverage : Coverage) (now : Nat) (journal : List (JournalRow Op))
    (sets : List BackupSet) (runtime : RecoveryRuntime) : Option (List BackupSet × RecoveryRuntime) :=
  match runtime.state, runtime.restoreBackupId, runtime.restoreSnapshot, runtime.targetGeneration with
  | .recovering, some backupId, some snapshot, some targetGeneration =>
    if (loadBackupSet backupId sets).map BackupSet.snapshot ≠ some snapshot then none
    else if 0 < countRecoveryReplayPending snapshot targetGeneration journal then none
    else if coverage.generation ≠ targetGeneration ∨ coverage.receiptSeq < snapshot.receiptSeq then none
    else some (touchBackupRestoreLease backupId now now sets, runtime.ready targetGeneration)
  | _, _, _, _ => none

theorem retaining_beginRecovery {env : RetentionEnv} {backupId recoveryId : Text} {now : Nat} {sets : List BackupSet}
    {runtime : RecoveryRuntime} {out : List BackupSet × RecoveryRuntime} (hok : SetsOk sets)
    (h : beginRecovery env backupId recoveryId now sets runtime = some out) : Retaining sets out.1 := by
  unfold beginRecovery at h
  split at h
  · cases h
  · split at h
    · cases h
    · split at h
      · split at h
        · obtain rfl := Option.some.inj h
          exact retaining_touchBackupRestoreLease _ _ _ hok
        · cases h
      · obtain rfl := Option.some.inj h
        exact retaining_touchBackupRestoreLease _ _ _ hok

theorem retaining_finishRecovery {Op : Type} {coverage : Coverage} {now : Nat} {journal : List (JournalRow Op)}
    {sets : List BackupSet} {runtime : RecoveryRuntime} {out : List BackupSet × RecoveryRuntime} (hok : SetsOk sets)
    (h : finishRecovery coverage now journal sets runtime = some out) : Retaining sets out.1 := by
  unfold finishRecovery at h
  split at h
  · split at h
    · cases h
    · split at h
      · cases h
      · split at h
        · cases h
        · obtain rfl := Option.some.inj h
          exact retaining_touchBackupRestoreLease _ _ _ hok
  · cases h

end Recovery
end Adg
