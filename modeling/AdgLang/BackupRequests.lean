import AdgLang.BackupLane
/-!
# BackupRequests — the requests of the backup lane, one await at a time

`uploadBackupChunk`, `completeBackupSet`, `pruneExpiredBackups`, `fetchLatestBackup`, `fetchBackupChunk` and
`beginRecovery` as stages that wait on the database or on the object store.  Each step has one effect (`Call.step`), any
number of requests run side by side (`lane`), and every answer of the database or of the store may fail or get lost.
-/
namespace Adg
namespace Recovery
namespace Lane

open Control (RouteError ControlError BeginBody BeginStage)

/-! ## Answers -/

/-- How an access ends: it goes through, it fails, or it goes through and its answer is lost. -/
inductive Answer
  | ok | failed | lost
deriving DecidableEq

/-- What the outside gives to one step: the answer, the bytes a read of the object store finds, and what
`crypto.randomUUID` returns. -/
structure Input where
  answer : Answer
  bytes : Option (List UInt8)
  uuid : Text
deriving DecidableEq

/-- A write, with the stage after it and the stage after an error. -/
def Answer.write {σ : Type} (answer : Answer) (effect : Effect) (next threw : σ) : Effect × σ :=
  match answer with
  | .ok => (effect, next)
  | .failed => (.quiet, threw)
  | .lost => (effect, threw)

/-- A read of the object store finds nothing, or what was put under the key. -/
def Store.finds (st : Store) (key : ChunkKey) (bytes : Option (List UInt8)) : Bool :=
  bytes.all (fun b => decide ((key, b) ∈ st.objects))

def Store.backupSets (st : Store) : List BackupSet := st.sets.map StoredSet.toBackupSet

/-! ## uploadBackupChunk -/

structure UploadRequest where
  backupId : Text
  chunkIndex : Nat
  rawBody : List UInt8
deriving DecidableEq

structure UploadResponse where
  nextChunkIndex : Nat
  idempotent : Bool
  repaired : Bool
  uploadedBytes : Option Nat
deriving DecidableEq

inductive UploadStage
  | loading
  | finding (backup : StoredSet) (now : Nat)
  | reading (backup : StoredSet) (now : Nat) (existing : InventoryRow)
  | replacing (backup : StoredSet) (now : Nat) (existing : InventoryRow) (key : ChunkKey)
  | swapping (backup : StoredSet) (now : Nat) (existing : InventoryRow) (key : ChunkKey)
  | removing (oldKey : ChunkKey) (response : UploadResponse)
  | putting (backup : StoredSet) (now : Nat) (key : ChunkKey)
  | inserting (backup : StoredSet) (now : Nat) (key : ChunkKey)
  /-- The key that was built is not in the inventory, as far as the request knows. -/
  | discarding (key : ChunkKey) (error : ControlError)
  | returned (response : UploadResponse)
  | threw (error : ControlError)
deriving DecidableEq

/-- `ensureUploadableBackup`. -/
def ensureUploadableBackup (set : StoredSet) (now : Nat) : Except ControlError Unit :=
  if set.status ≠ .uploading then .error (.route ⟨"Backup is no longer accepting chunk uploads.".toList, 409⟩)
  else if set.expiresAt ≤ now then .error (.route ⟨"Backup has expired.".toList, 409⟩)
  else .ok ()

/-- The checks of `uploadBackupChunk` on the set that it read. -/
def uploadChecks (env : LaneEnv) (request : UploadRequest) (now : Nat) (sets : List StoredSet) :
    Except ControlError StoredSet :=
  if request.rawBody = [] then .error (.route ⟨"Backup chunk body is empty.".toList, 400⟩)
  else match loadSet request.backupId sets with
    | none => .error (.route ⟨"CPOLY backup was not found.".toList, 404⟩)
    | some backup => match ensureUploadableBackup backup now with
      | .error error => .error error
      | .ok () =>
        if env.maxBackupChunks ≤ request.chunkIndex then
          .error (.route ⟨"Backup chunk index exceeded the configured cap.".toList, 413⟩)
        else if env.maxChunkBytes < request.rawBody.length then
          .error (.route ⟨"Backup chunk exceeded the configured cap.".toList, 413⟩)
        else .ok backup

/-- The checks on a chunk that is not in the inventory. -/
def newChunkChecks (env : LaneEnv) (request : UploadRequest) (backup : StoredSet) : Except ControlError Unit :=
  if request.chunkIndex ≠ backup.uploadedChunks then
    .error (.route ⟨"Expected chunk index ".toList ++ Nat.toDigits 10 backup.uploadedChunks ++ " but received ".toList ++
      Nat.toDigits 10 request.chunkIndex ++ ".".toList, 409⟩)
  else if env.maxBackupBytes < backup.uploadedBytes + request.rawBody.length then
    .error (.route ⟨"Backup size exceeded the configured cap.".toList, 413⟩)
  else match backup.descriptor.chunks[request.chunkIndex]? with
    | none => .error (.route ⟨"Backup chunk index was not declared in the backup descriptor.".toList, 409⟩)
    | some expected =>
      if request.rawBody.length ≠ expected.sizeBytes ∨ env.sha256 request.rawBody ≠ expected.sha256 then
        .error (.route ⟨"Backup chunk did not match the declared archive metadata.".toList, 409⟩)
      else if backup.descriptor.archive.sizeBytes < backup.uploadedBytes + request.rawBody.length then
        .error (.route ⟨"Backup size exceeded the stored archive metadata.".toList, 409⟩)
      else .ok ()

def UploadRequest.key (request : UploadRequest) (uuid : Text) : ChunkKey := ⟨request.backupId, request.chunkIndex, uuid⟩

def UploadRequest.row (env : LaneEnv) (request : UploadRequest) (key : ChunkKey) (now : Nat) : InventoryRow where
  backupId := request.backupId
  chunkIndex := request.chunkIndex
  kvKey := key
  plaintextSizeBytes := request.rawBody.length
  plaintextSha256 := env.sha256 request.rawBody
  createdAt := now

def UploadStage.step (env : LaneEnv) (st : Store) (input : Input) (request : UploadRequest) :
    UploadStage → Option (Effect × UploadStage)
  | .loading => match uploadChecks env request st.clock st.sets with
    | .error error => some (.quiet, .threw error)
    | .ok backup => some (.quiet, .finding backup st.clock)
  | .finding backup now => match findChunk request.backupId request.chunkIndex st.inventory with
    | some existing =>
      if existing.plaintextSizeBytes ≠ request.rawBody.length ∨ existing.plaintextSha256 ≠ env.sha256 request.rawBody then
        some (.quiet, .threw (.route ⟨"Backup chunk conflict was detected.".toList, 409⟩))
      else some (.quiet, .reading backup now existing)
    | none => match newChunkChecks env request backup with
      | .error error => some (.quiet, .threw error)
      | .ok () => some (.buildKey (request.key input.uuid), .putting backup now (request.key input.uuid))
  | .reading backup now existing =>
    if !st.finds existing.kvKey input.bytes then none
    else if input.bytes.any (fun bytes => decide (bytes.length = request.rawBody.length) &&
        decide (env.sha256 bytes = env.sha256 request.rawBody)) then
      some (.quiet, .returned ⟨backup.uploadedChunks, true, false, none⟩)
    else some (.buildKey (request.key input.uuid), .replacing backup now existing (request.key input.uuid))
  | .replacing backup now existing key =>
    some (input.answer.write (.putObject key request.rawBody) (.swapping backup now existing key) (.threw .failed))
  | .swapping backup now existing key =>
    if st.inventory.any ((request.row env key now).isAt existing.kvKey) then
      some (input.answer.write (.swapKey (request.row env key now) existing.kvKey)
        (.removing existing.kvKey ⟨backup.uploadedChunks, true, true, none⟩) (.discarding key .failed))
    else some (input.answer.write .quiet
      (.discarding key (.route ⟨"Backup chunk repair lost its inventory lease.".toList, 409⟩)) (.discarding key .failed))
  | .removing oldKey response =>
    some (input.answer.write (.deleteObject oldKey) (.returned response) (.returned response))
  | .putting backup now key =>
    some (input.answer.write (.putObject key request.rawBody) (.inserting backup now key) (.threw .failed))
  | .inserting backup now key =>
    if st.accepts (request.row env key now) then
      some (input.answer.write
        (.insertChunk (request.row env key now) (backup.uploadedBytes + request.rawBody.length)
          (backup.uploadedChunks + 1) now)
        (.returned ⟨request.chunkIndex + 1, false, false, some (backup.uploadedBytes + request.rawBody.length)⟩)
        (.discarding key .failed))
    else some (.quiet, .discarding key .failed)
  | .discarding key error => some (input.answer.write (.deleteObject key) (.threw error) (.threw error))
  | .returned _ | .threw _ => none

/-! ## verifyStoredChunkInventoryMetadata -/

def chunkSetIncomplete : ControlError := .route ⟨"Backup chunk set is incomplete.".toList, 409⟩

/-- `assertBackupChunkRecordMatchesExpected`. -/
def chunkRecordMatches (backupId : Text) (row : InventoryRow) (descriptor : StoredDescriptor) : Bool :=
  descriptor.chunks[row.chunkIndex]?.any (fun expected => decide (row.plaintextSizeBytes = expected.sizeBytes) &&
    decide (row.plaintextSha256 = expected.sha256)) &&
  decide (row.kvKey.backupId = backupId) && decide (row.kvKey.chunkIndex = row.chunkIndex)

def chunkRecordMismatch : ControlError :=
  .route ⟨"Backup chunk metadata did not match the stored descriptor.".toList, 409⟩

inductive MetadataStage
  | counting
  | listing (offset : Nat)
deriving DecidableEq

/-- One query of `verifyStoredChunkInventoryMetadata`; none when it has ended. -/
def MetadataStage.step (backupId : Text) (descriptor : StoredDescriptor) (inventory : List InventoryRow) :
    MetadataStage → Except ControlError (Option MetadataStage)
  | .counting =>
    let counts := queryBackupChunkInventory backupId inventory
    if counts.count ≠ descriptor.archive.chunkCount ∨ counts.totalBytes ≠ descriptor.archive.sizeBytes ∨
        counts.minIndex ≠ some 0 ∨ counts.maxIndex ≠ some (descriptor.archive.chunkCount - 1) then
      .error chunkSetIncomplete
    else .ok (some (.listing 0))
  | .listing offset =>
    let rows := loadBackupChunkPage backupId offset 64 inventory
    if rows = [] then .error chunkSetIncomplete
    else if rows.any (fun row => !chunkRecordMatches backupId row descriptor) then .error chunkRecordMismatch
    else if offset + rows.length < descriptor.archive.chunkCount then .ok (some (.listing (offset + rows.length)))
    else .ok none

/-! ## pruneExpiredBackups -/

inductive PruneStage
  | readingRuntime (now : Nat)
  | readingRows (now : Nat) (runtime : RecoveryRuntime)
  | readingStale (now : Nat) (deleteIds : List Text) (latestKept : Option Coverage)
  | expiring (now : Nat) (deleteIds staleDeleteIds : List Text) (latestKept : Option Coverage)
  | failing (now : Nat) (deleteIds staleDeleteIds : List Text) (latestKept : Option Coverage)
  | clearing (pending confirmed : List Text) (latestKept : Option Coverage)
  /-- `deleteBackupObjectsBestEffort` of one set. -/
  | deleting (backupId : Text) (keys : List ChunkKey) (deleted : Bool) (pending confirmed : List Text)
      (latestKept : Option Coverage)
  | returned (latestKept : Option Coverage)
  | threw
deriving DecidableEq

/-- The keys that `deleteBackupObjectsBestEffort` goes through. -/
def objectKeys (env : LaneEnv) (backupId : Text) (inventory : List InventoryRow) : List ChunkKey :=
  (loadBackupChunkPage backupId 0 (max env.maxBackupChunks 1) inventory).map InventoryRow.kvKey

def PruneStage.step (env : LaneEnv) (st : Store) (input : Input) : PruneStage → Option (Effect × PruneStage)
  | .readingRuntime now => some (.quiet, .readingRows now st.runtime)
  | .readingRows now runtime =>
    let rows := completeRows st.backupSets
    let keepIds := keptIds env.toRetentionEnv now runtime st.backupSets
    some (.quiet, .readingStale now ((rows.filter (fun set => decide (set.id ∉ keepIds))).map BackupSet.id)
      ((rows.find? (fun set => decide (set.id ∈ keepIds))).map BackupSet.snapshot))
  | .readingStale now deleteIds latestKept =>
    let staleRows := (st.backupSets.filter (BackupSet.isStale env.toRetentionEnv now)).map BackupSet.id
    some (.quiet, .expiring now deleteIds (staleRows.filter (fun id => decide (id ∉ deleteIds))) latestKept)
  | .expiring now deleteIds staleDeleteIds latestKept =>
    if deleteIds = [] then some (.quiet, .failing now deleteIds staleDeleteIds latestKept)
    else some (input.answer.write (.expireSets deleteIds now) (.failing now deleteIds staleDeleteIds latestKept) .threw)
  | .failing now deleteIds staleDeleteIds latestKept =>
    if staleDeleteIds = [] then some (.quiet, .clearing (deleteIds ++ staleDeleteIds) [] latestKept)
    else some (input.answer.write (.failSets staleDeleteIds now) (.clearing (deleteIds ++ staleDeleteIds) [] latestKept)
      .threw)
  | .clearing [] [] latestKept => some (.quiet, .returned latestKept)
  | .clearing [] (id :: confirmed) latestKept =>
    some (input.answer.write (.deleteSets (id :: confirmed)) (.returned latestKept) .threw)
  | .clearing (backupId :: pending) confirmed latestKept =>
    some (.quiet, .deleting backupId (objectKeys env backupId st.inventory) true pending confirmed latestKept)
  | .deleting backupId [] deleted pending confirmed latestKept =>
    some (.quiet, .clearing pending (if deleted then confirmed ++ [backupId] else confirmed) latestKept)
  | .deleting backupId (key :: keys) deleted pending confirmed latestKept =>
    some (input.answer.write (.deleteObject key) (.deleting backupId keys deleted pending confirmed latestKept)
      (.deleting backupId keys false pending confirmed latestKept))
  | .returned _ | .threw => none

/-! ## completeBackupSet -/

/-- The values of a request that are compared with the descriptor. -/
structure CompleteBody where
  chunkCount : Option Nat
  totalBytes : Option Nat
  sha256 : Option Text
deriving DecidableEq

inductive CompleteStage
  | loading
  | checking (backup : StoredSet) (now : Nat) (metadata : MetadataStage)
  | paging (backup : StoredSet) (now : Nat) (chunks : List StoredChunk)
  | fetching (backup : StoredSet) (now : Nat) (chunks : List StoredChunk) (row : InventoryRow) (rows : List InventoryRow)
  | finishing (backup : StoredSet) (now : Nat) (chunks : List StoredChunk)
  /-- `markBackupFailed` and `deleteBackupObjectsBestEffort`. -/
  | failing (now : Nat) (error : ControlError)
  | clearing (error : ControlError)
  | deleting (keys : List ChunkKey) (error : ControlError)
  | pruning (stage : PruneStage)
  | threw (error : ControlError)
deriving DecidableEq

/-- `validateDescriptorCompleteBody`. -/
def validateDescriptorCompleteBody (body : CompleteBody) (descriptor : StoredDescriptor) : Except ControlError Unit :=
  if body.chunkCount.any (fun chunkCount => decide (chunkCount ≠ descriptor.archive.chunkCount)) then
    .error (.route ⟨"Backup chunk count did not match the stored descriptor.".toList, 409⟩)
  else if body.totalBytes.any (fun totalBytes => decide (totalBytes ≠ descriptor.archive.sizeBytes)) then
    .error (.route ⟨"Backup size did not match the stored descriptor.".toList, 409⟩)
  else if body.sha256.any (fun sha256 => decide (sha256 ≠ descriptor.archive.sha256)) then
    .error (.route ⟨"Backup SHA-256 did not match the stored descriptor.".toList, 409⟩)
  else .ok ()

/-- The checks of `completeBackupSet` on the set that it read. -/
def completeChecks (backupId : Text) (body : CompleteBody) (now : Nat) (sets : List StoredSet) :
    Except ControlError StoredSet :=
  match loadSet backupId sets with
  | none => .error (.route ⟨"CPOLY backup was not found.".toList, 404⟩)
  | some backup => match validateDescriptorCompleteBody body backup.descriptor with
    | .error error => .error error
    | .ok () => match ensureUploadableBackup backup now with
      | .error error => .error error
      | .ok () =>
        if backup.uploadedChunks ≠ backup.descriptor.archive.chunkCount then
          .error (.route ⟨"Backup chunk count did not match the uploaded set.".toList, 409⟩)
        else if backup.uploadedBytes ≠ backup.descriptor.archive.sizeBytes then
          .error (.route ⟨"Backup total size did not match the uploaded set.".toList, 409⟩)
        else .ok backup

/-- The rest of a page of `verifyBackupStoreContents`, with the chunks read so far. -/
def nextChunk (env : LaneEnv) (backupId : Text) (backup : StoredSet) (now : Nat) (chunks : List StoredChunk) :
    List InventoryRow → CompleteStage
  | row :: rows =>
    if chunkRecordMatches backupId row backup.descriptor then .fetching backup now chunks row rows
    else .failing now chunkRecordMismatch
  | [] =>
    if chunks.length < backup.descriptor.archive.chunkCount then .paging backup now chunks
    else if (chunks.flatMap StoredChunk.bytes).length ≠ backup.descriptor.archive.sizeBytes ∨
        env.sha256 (chunks.flatMap StoredChunk.bytes) ≠ backup.descriptor.archive.sha256 then
      .failing now (.route ⟨"Backup archive digest did not match the stored descriptor.".toList, 409⟩)
    else .finishing backup now chunks

/-- The check of `verifyBackupStoreContents` on what was read for a row. -/
def chunkContents (env : LaneEnv) (row : InventoryRow) : Option (List UInt8) → Except ControlError (List UInt8)
  | none => .error (.route ⟨"Backup chunk was missing from object storage.".toList, 409⟩)
  | some bytes =>
    if bytes.length ≠ row.plaintextSizeBytes ∨ env.sha256 bytes ≠ row.plaintextSha256 then
      .error (.route ⟨"Backup chunk integrity verification failed.".toList, 409⟩)
    else .ok bytes

/-- A step of `completeBackupSet`.  An error in `verifyBackupStoreContents`, also one of a query, makes the set fail. -/
def CompleteStage.step (env : LaneEnv) (st : Store) (input : Input) (backupId : Text) (body : CompleteBody) :
    CompleteStage → Option (Effect × CompleteStage)
  | .loading => match completeChecks backupId body st.clock st.sets with
    | .error error => some (.quiet, .threw error)
    | .ok backup => some (.quiet, .checking backup st.clock .counting)
  | .checking backup now metadata =>
    if input.answer ≠ .ok then some (.quiet, .failing now .failed)
    else match metadata.step backupId backup.descriptor st.inventory with
      | .error error => some (.quiet, .failing now error)
      | .ok (some metadata) => some (.quiet, .checking backup now metadata)
      | .ok none => some (.quiet, .paging backup now [])
  | .paging backup now chunks =>
    if input.answer ≠ .ok then some (.quiet, .failing now .failed)
    else match loadBackupChunkPage backupId chunks.length 32 st.inventory with
      | [] => some (.quiet, .failing now chunkSetIncomplete)
      | row :: rows => some (.quiet, nextChunk env backupId backup now chunks (row :: rows))
  | .fetching backup now chunks row rows =>
    if input.answer ≠ .ok then some (.quiet, .failing now .failed)
    else if !st.finds row.kvKey input.bytes then none
    else match chunkContents env row input.bytes with
      | .error error => some (.quiet, .failing now error)
      | .ok bytes => some (.quiet, nextChunk env backupId backup now (chunks ++ [⟨row, bytes⟩]) rows)
  | .finishing backup now chunks =>
    if st.sets.any (StoredSet.isAt backupId .uploading) then
      some (input.answer.write (.complete backupId backup.descriptor now chunks) (.pruning (.readingRuntime now))
        (.threw .failed))
    else some (input.answer.write .quiet
      (.threw (.route ⟨"Backup is no longer accepting completion.".toList, 409⟩)) (.threw .failed))
  | .failing now error => some (input.answer.write (.markFailed backupId now) (.clearing error) (.threw .failed))
  | .clearing error => some (.quiet, .deleting (objectKeys env backupId st.inventory) error)
  | .deleting [] error => some (.quiet, .threw error)
  | .deleting (key :: keys) error =>
    some (input.answer.write (.deleteObject key) (.deleting keys error) (.deleting keys error))
  | .pruning stage => (stage.step env st input).map (fun step => (step.1, .pruning step.2))
  | .threw _ => none

/-! ## fetchLatestBackup, fetchBackupChunk and beginRecovery -/

inductive LatestStage
  | loading
  | checking (ids : List Text) (backup : StoredSet) (metadata : MetadataStage) (backups : List StoredSet)
  | touching (ids : List Text) (leaseExpiresAt : Nat)
  | returned
  | threw (error : ControlError)
deriving DecidableEq

def LatestStage.step (env : LaneEnv) (st : Store) (input : Input) : LatestStage → Option (Effect × LatestStage)
  | .loading => match loadLatestCompleteBackups 2 st.sets with
    | [] => some (.quiet, .threw (.route ⟨"No complete CPOLY backup is available.".toList, 404⟩))
    | backup :: backups => some (.quiet, .checking [] backup .counting backups)
  | .checking ids backup metadata backups => match metadata.step backup.id backup.descriptor st.inventory with
    | .error error => some (.quiet, .threw error)
    | .ok (some metadata) => some (.quiet, .checking ids backup metadata backups)
    | .ok none => match backups with
      | prior :: backups => some (.quiet, .checking (ids ++ [backup.id]) prior .counting backups)
      | [] => some (.quiet, .touching (ids ++ [backup.id]) (st.clock + env.backupRestoreLeaseMs))
  | .touching [] _ => some (.quiet, .returned)
  | .touching (backupId :: ids) leaseExpiresAt =>
    some (input.answer.write (.touchLease backupId leaseExpiresAt) (.touching ids leaseExpiresAt) (.threw .failed))
  | .returned | .threw _ => none

inductive ChunkStage
  | loading
  | finding (backup : StoredSet)
  | reading (backup : StoredSet) (row : InventoryRow)
  | touching (bytes : List UInt8) (leaseExpiresAt : Nat)
  | returned (bytes : List UInt8)
  | threw (error : ControlError)
deriving DecidableEq

def ChunkStage.step (env : LaneEnv) (st : Store) (input : Input) (backupId : Text) (chunkIndex : Nat) :
    ChunkStage → Option (Effect × ChunkStage)
  | .loading => match loadSet backupId st.sets with
    | none => some (.quiet, .threw (.route ⟨"CPOLY backup was not found.".toList, 404⟩))
    | some backup =>
      if backup.status ≠ .complete then some (.quiet, .threw (.route ⟨"Backup is not complete.".toList, 409⟩))
      else if backup.chunkCount.getD 0 ≤ chunkIndex then
        some (.quiet, .threw (.route ⟨"Backup chunk index is out of range.".toList, 404⟩))
      else some (.quiet, .finding backup)
  | .finding backup => match findChunk backupId chunkIndex st.inventory with
    | none => some (.quiet, .threw (.route ⟨"Backup chunk was not found.".toList, 404⟩))
    | some row => some (.quiet, .reading backup row)
  | .reading backup row =>
    if !st.finds row.kvKey input.bytes then none
    else match chunkContents env row input.bytes with
      | .error error => some (.quiet, .threw error)
      | .ok bytes =>
        if backup.descriptor.chunks[chunkIndex]?.any (fun expected => decide (expected.sizeBytes = bytes.length) &&
            decide (expected.sha256 = env.sha256 bytes)) then
          some (.quiet, .touching bytes (st.clock + env.backupRestoreLeaseMs))
        else some (.quiet, .threw (.route ⟨"Backup chunk did not match the stored descriptor.".toList, 409⟩))
  | .touching bytes leaseExpiresAt =>
    some (input.answer.write (.touchLease backupId leaseExpiresAt) (.returned bytes) (.threw .failed))
  | .returned _ | .threw _ => none

/-- A step of `beginRecovery`; its update needs the row of the backup to be there. -/
def beginStep (env : LaneEnv) (st : Store) (input : Input) (body : BeginBody) : BeginStage → Option (Effect × BeginStage)
  | .reading => some (.quiet, .loading st.runtime)
  | .loading runtime =>
    some (.quiet, Control.beginChecks env.toRetentionEnv body st.clock input.uuid runtime st.backupSets)
  | .prolonging runtime leaseExpiresAt =>
    if Control.prolongGuard runtime st.runtime then
      some (input.answer.write (.setRuntime { st.runtime with restoreLeaseExpiresAt := some leaseExpiresAt })
        (.touching none leaseExpiresAt) (.threw .failed))
    else some (input.answer.write .quiet (.touching none leaseExpiresAt) (.threw .failed))
  | .starting runtime active leaseExpiresAt =>
    if (loadSet active.backupId st.sets).isSome then
      some (input.answer.write (.setRuntime (Control.begunRow runtime active leaseExpiresAt))
        (.touching (some active) leaseExpiresAt) (.threw .failed))
    else some (.quiet, .threw .failed)
  | .touching began leaseExpiresAt =>
    some (input.answer.write (.touchLease body.backupId leaseExpiresAt) (.rereading began) (.threw .failed))
  | .rereading began => some (.quiet, .returned began st.runtime)
  | .returned .. | .threw _ => none

/-! ## The lane -/

/-- A request with the stage that it has reached. -/
inductive Call
  | upload (request : UploadRequest) (stage : UploadStage)
  | complete (backupId : Text) (body : CompleteBody) (stage : CompleteStage)
  | prune (stage : PruneStage)
  | latest (stage : LatestStage)
  | chunk (backupId : Text) (chunkIndex : Nat) (stage : ChunkStage)
  | begin (body : BeginBody) (stage : BeginStage)
deriving DecidableEq

def Call.step (env : LaneEnv) (st : Store) (input : Input) : Call → Option (Effect × Call)
  | .upload request stage => (stage.step env st input request).map (fun step => (step.1, .upload request step.2))
  | .complete backupId body stage =>
    (stage.step env st input backupId body).map (fun step => (step.1, .complete backupId body step.2))
  | .prune stage => (stage.step env st input).map (fun step => (step.1, .prune step.2))
  | .latest stage => (stage.step env st input).map (fun step => (step.1, .latest step.2))
  | .chunk backupId chunkIndex stage =>
    (stage.step env st input backupId chunkIndex).map (fun step => (step.1, .chunk backupId chunkIndex step.2))
  | .begin body stage => (beginStep env st input body stage).map (fun step => (step.1, .begin body step.2))

/-- A request that is stopped, or whose read fails outside of `verifyBackupStoreContents`. -/
def Call.stopped : Call → Call
  | .upload request _ => .upload request (.threw .failed)
  | .complete backupId body _ => .complete backupId body (.threw .failed)
  | .prune _ => .prune .threw
  | .latest _ => .latest (.threw .failed)
  | .chunk backupId chunkIndex _ => .chunk backupId chunkIndex (.threw .failed)
  | .begin body _ => .begin body (.threw .failed)

inductive Request
  | uploadBackupChunk (request : UploadRequest)
  | completeBackupSet (backupId : Text) (body : CompleteBody)
  | pruneExpiredBackups
  | fetchLatestBackup
  | fetchBackupChunk (backupId : Text) (chunkIndex : Nat)
  | beginRecovery (body : BeginBody)
deriving DecidableEq

def Request.call (now : Nat) : Request → Call
  | .uploadBackupChunk request => .upload request .loading
  | .completeBackupSet backupId body => .complete backupId body .loading
  | .pruneExpiredBackups => .prune (.readingRuntime now)
  | .fetchLatestBackup => .latest .loading
  | .fetchBackupChunk backupId chunkIndex => .chunk backupId chunkIndex .loading
  | .beginRecovery body => .begin body .reading

structure World where
  store : Store
  calls : List Call
deriving DecidableEq

def World.start (clock : Nat) : World := ⟨.start clock, []⟩

/-- The row that `createBackupSet` inserts. -/
def newSet (backupId : Text) (descriptor : StoredDescriptor) (hours now : Nat) : StoredSet where
  id := backupId
  status := .uploading
  createdAt := now
  updatedAt := now
  expiresAt := now + hours * hourMs
  descriptor := descriptor
  totalSizeBytes := none
  chunkCount := none
  sha256 := none
  uploadedBytes := 0
  uploadedChunks := 0
  completedAt := none
  verifiedAt := none
  restoreLeaseExpiresAt := none

/-- `createBackupSet`, with an identifier that `crypto.randomUUID` has not given before. -/
def Store.createBackupSet (env : LaneEnv) (backupId : Text) (descriptor : StoredDescriptor) (retentionHours : Option Nat)
    (st : Store) : Option Store :=
  match requestedRetentionHours env.toRetentionEnv retentionHours with
  | none => none
  | some hours =>
    if backupId ∈ st.created ∨ env.maxBackupBytes < descriptor.archive.sizeBytes ∨
        env.maxBackupChunks < descriptor.archive.chunkCount then none
    else some { st with
      sets := st.sets ++ [newSet backupId descriptor hours st.clock]
      created := st.created ++ [backupId] }

/-- No key is built twice. -/
def Store.allows (st : Store) : Effect → Bool
  | .buildKey key => decide (key ∉ st.built.map Prod.fst)
  | _ => true

inductive Action
  | createBackupSet (backupId : Text) (descriptor : StoredDescriptor) (retentionHours : Option Nat)
  | request (request : Request)
  | advance (i : Nat) (input : Input)
  | stop (i : Nat)
  /-- The update at the end of `completeRecovery`. -/
  | completeRecovery (targetGeneration : Nat)
  | tick (ms : Nat)
deriving DecidableEq

def World.advance (env : LaneEnv) (w : World) (i : Nat) (input : Input) : Option World :=
  match w.calls[i]? with
  | none => none
  | some call => match call.step env w.store input with
    | none => none
    | some (effect, next) =>
      if w.store.allows effect then some ⟨w.store.apply i effect, w.calls.set i next⟩ else none

def World.act (env : LaneEnv) (w : World) : Action → Option World
  | .createBackupSet backupId descriptor retentionHours =>
    (w.store.createBackupSet env backupId descriptor retentionHours).map (fun store => { w with store := store })
  | .request request => some { w with calls := w.calls ++ [request.call w.store.clock] }
  | .advance i input => w.advance env i input
  | .stop i => (w.calls[i]?).map (fun call => { w with calls := w.calls.set i call.stopped })
  | .completeRecovery targetGeneration =>
    some { w with store := { w.store with runtime := w.store.runtime.ready targetGeneration } }
  | .tick ms => some { w with store := { w.store with clock := w.store.clock + ms } }

def lane (env : LaneEnv) : Machine World Action := ⟨World.act env⟩

/-- **What an advance does.** -/
theorem advance_cases {env : LaneEnv} {w w' : World} {i : Nat} {input : Input} (h : w.advance env i input = some w') :
    ∃ call effect next, w.calls[i]? = some call ∧ call.step env w.store input = some (effect, next) ∧
      w.store.allows effect = true ∧ w' = ⟨w.store.apply i effect, w.calls.set i next⟩ := by
  unfold World.advance at h
  split at h
  · cases h
  · rename_i call hcall
    split at h
    · cases h
    · rename_i effect next hstep
      split at h
      · rename_i hallows
        exact ⟨call, effect, next, hcall, hstep, hallows, (Option.some.inj h).symm⟩
      · cases h

end Lane
end Recovery
end Adg
