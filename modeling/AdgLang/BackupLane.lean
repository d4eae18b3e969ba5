import AdgLang.RecoveryControl
import Mathlib.Algebra.GroupWithZero.Nat
/-!
# BackupLane — backup sets with their chunks in the object store

The tables `cpoly_backup_sets` and `cpoly_backup_chunk_inventory` with the object store beside them, and what the
requests of the backup lane do to them (`Effect`).  A key of the object store is built once and an object is put under
it once; a read of the store finds the object or, while the store has not caught up or after a deletion, nothing.
-/
namespace Adg
namespace Recovery
namespace Lane

/-! ## Tables -/

/-- The settings of `env`, with the hash function of `node:crypto`. -/
structure LaneEnv extends RetentionEnv where
  maxBackupChunks : Nat
  maxChunkBytes : Nat
  backupRestoreLeaseMs : Nat
  sha256 : List UInt8 → Text

structure ChunkDescriptor where
  index : Nat
  sizeBytes : Nat
  sha256 : Text
deriving DecidableEq

structure ArchiveDescriptor where
  sizeBytes : Nat
  chunkCount : Nat
  sha256 : Text
deriving DecidableEq

/-- A descriptor that `normalizeBackupDescriptorParts` accepts. -/
structure StoredDescriptor where
  archive : ArchiveDescriptor
  chunks : List ChunkDescriptor
  snapshotCoverage : Coverage
  chunks_index : chunks.map ChunkDescriptor.index = List.range archive.chunkCount
  chunks_size : (chunks.map ChunkDescriptor.sizeBytes).sum = archive.sizeBytes
  chunkCount_pos : 1 ≤ archive.chunkCount
deriving DecidableEq

/-- A row of `cpoly_backup_sets`. -/
structure StoredSet where
  id : Text
  status : BackupStatus
  createdAt : Nat
  updatedAt : Nat
  expiresAt : Nat
  descriptor : StoredDescriptor
  totalSizeBytes : Option Nat
  chunkCount : Option Nat
  sha256 : Option Text
  uploadedBytes : Nat
  uploadedChunks : Nat
  completedAt : Option Nat
  verifiedAt : Option Nat
  restoreLeaseExpiresAt : Option Nat
deriving DecidableEq

/-- The columns that decide about the retention of a set. -/
def StoredSet.toBackupSet (set : StoredSet) : BackupSet where
  id := set.id
  status := set.status
  createdAt := set.createdAt
  updatedAt := set.updatedAt
  expiresAt := set.expiresAt
  descriptor := ⟨set.descriptor.chunks.map ChunkDescriptor.sizeBytes, set.descriptor.snapshotCoverage⟩
  totalSizeBytes := set.totalSizeBytes
  uploadedBytes := set.uploadedBytes
  uploadedChunks := set.uploadedChunks
  completedAt := set.completedAt
  verifiedAt := set.verifiedAt
  restoreLeaseExpiresAt := set.restoreLeaseExpiresAt

/-- The parts that `buildBackupChunkKey` joins; `crypto.randomUUID` gives the version. -/
structure ChunkKey where
  backupId : Text
  chunkIndex : Nat
  versionToken : Text
deriving DecidableEq

/-- A row of `cpoly_backup_chunk_inventory`. -/
structure InventoryRow where
  backupId : Text
  chunkIndex : Nat
  kvKey : ChunkKey
  plaintextSizeBytes : Nat
  plaintextSha256 : Text
  createdAt : Nat
deriving DecidableEq

/-- A row with the bytes that were read for it. -/
structure StoredChunk where
  row : InventoryRow
  bytes : List UInt8
deriving DecidableEq

/-- The database and the object store, with what has happened to them. -/
structure Store where
  clock : Nat
  sets : List StoredSet
  inventory : List InventoryRow
  runtime : RecoveryRuntime
  objects : List (ChunkKey × List UInt8)
  deleted : List ChunkKey
  /-- The identifiers that were given out: of sets, and of keys with the request that built them. -/
  created : List Text
  built : List (ChunkKey × Nat)
  /-- Every row that has been in the inventory, and the chunks that the completed sets were verified with. -/
  listed : List InventoryRow
  verified : List (Text × List StoredChunk)
deriving DecidableEq

def Store.start (clock : Nat) : Store := ⟨clock, [], [], .initial, [], [], [], [], [], []⟩

/-! ## Queries -/

abbrev loadSet (backupId : Text) (sets : List StoredSet) : Option StoredSet := Table.lookup StoredSet.id backupId sets

/-- The rows of one set. -/
def rowsOf (backupId : Text) (inventory : List InventoryRow) : List InventoryRow :=
  inventory.filter (fun row => decide (row.backupId = backupId))

/-- The query for the row of one chunk. -/
def findChunk (backupId : Text) (chunkIndex : Nat) (inventory : List InventoryRow) : Option InventoryRow :=
  inventory.find? (fun row => decide (row.backupId = backupId) && decide (row.chunkIndex = chunkIndex))

def loadBackupChunkPage (backupId : Text) (offset limit : Nat) (inventory : List InventoryRow) : List InventoryRow :=
  ((((rowsOf backupId inventory).insertionSort (fun a b => a.chunkIndex ≤ b.chunkIndex)).drop offset).take limit)

/-- What `queryBackupChunkInventory` counts. -/
structure InventoryCount where
  count : Nat
  totalBytes : Nat
  minIndex : Option Nat
  maxIndex : Option Nat
deriving DecidableEq

def queryBackupChunkInventory (backupId : Text) (inventory : List InventoryRow) : InventoryCount where
  count := (rowsOf backupId inventory).length
  totalBytes := ((rowsOf backupId inventory).map InventoryRow.plaintextSizeBytes).sum
  minIndex := ((rowsOf backupId inventory).map InventoryRow.chunkIndex).min?
  maxIndex := ((rowsOf backupId inventory).map InventoryRow.chunkIndex).max?

/-- `loadLatestCompleteBackups`. -/
def loadLatestCompleteBackups (limit : Nat) (sets : List StoredSet) : List StoredSet :=
  ((sets.filter (fun set => decide (set.status = .complete) && set.verifiedAt.isSome)).insertionSort
    (fun a b => b.toBackupSet.rank ≤ a.toBackupSet.rank)).take limit

/-! ## Statements -/

def updateStored (p : StoredSet → Bool) (f : StoredSet → StoredSet) (st : Store) : Store :=
  { st with sets := Table.update p f st.sets }

/-- The `WHERE id = ? AND status = ?` of an update. -/
def StoredSet.isAt (backupId : Text) (status : BackupStatus) (set : StoredSet) : Bool :=
  decide (set.id = backupId) && decide (set.status = status)

def StoredSet.counted (uploadedBytes uploadedChunks now : Nat) (set : StoredSet) : StoredSet :=
  { set with uploadedBytes := uploadedBytes, uploadedChunks := uploadedChunks, updatedAt := now }

/-- The update of `completeBackupSet`, with the descriptor that it read. -/
def StoredSet.completed (descriptor : StoredDescriptor) (now : Nat) (set : StoredSet) : StoredSet :=
  { set with
    status := .complete
    totalSizeBytes := some descriptor.archive.sizeBytes
    chunkCount := some descriptor.archive.chunkCount
    sha256 := some descriptor.archive.sha256
    completedAt := some now
    verifiedAt := some now
    updatedAt := now }

def StoredSet.fail (now : Nat) (set : StoredSet) : StoredSet := { set with status := .failed, updatedAt := now }

def StoredSet.expire (now : Nat) (set : StoredSet) : StoredSet :=
  { set with status := .expired, completedAt := none, updatedAt := now }

def StoredSet.leased (leaseExpiresAt now : Nat) (set : StoredSet) : StoredSet :=
  { set with restoreLeaseExpiresAt := some leaseExpiresAt, updatedAt := now }

/-- The row that an update of the repair path hits. -/
def InventoryRow.isAt (row : InventoryRow) (oldKey : ChunkKey) (other : InventoryRow) : Bool :=
  decide (other.backupId = row.backupId) && decide (other.chunkIndex = row.chunkIndex) && decide (other.kvKey = oldKey)

/-- The columns that the repair path sets. -/
def InventoryRow.repaired (row other : InventoryRow) : InventoryRow :=
  { other with
    kvKey := row.kvKey
    plaintextSizeBytes := row.plaintextSizeBytes
    plaintextSha256 := row.plaintextSha256
    createdAt := row.createdAt }

/-- The constraints of the inventory on a new row: its set is there, its place and its key are new. -/
def Store.accepts (st : Store) (row : InventoryRow) : Bool :=
  (loadSet row.backupId st.sets).isSome && (findChunk row.backupId row.chunkIndex st.inventory).isNone &&
    st.inventory.all (fun other => decide (other.kvKey ≠ row.kvKey))

/-! ## Effects -/

/-- What one step of a request does to the database or to the object store. -/
inductive Effect
  | quiet
  | buildKey (key : ChunkKey)
  | putObject (key : ChunkKey) (bytes : List UInt8)
  | deleteObject (key : ChunkKey)
  /-- The batch at the end of `uploadBackupChunk`. -/
  | insertChunk (row : InventoryRow) (uploadedBytes uploadedChunks now : Nat)
  | swapKey (row : InventoryRow) (oldKey : ChunkKey)
  | complete (backupId : Text) (descriptor : StoredDescriptor) (now : Nat) (chunks : List StoredChunk)
  | markFailed (backupId : Text) (now : Nat)
  | expireSets (ids : List Text) (now : Nat)
  | failSets (ids : List Text) (now : Nat)
  | deleteSets (ids : List Text)
  | touchLease (backupId : Text) (leaseExpiresAt : Nat)
  | setRuntime (runtime : RecoveryRuntime)
deriving DecidableEq

/-- `DELETE FROM cpoly_backup_sets`; the rows of the inventory go with their sets, and a recovery loses its backup. -/
def Store.deleteSets (ids : List Text) (st : Store) : Store :=
  { st with
    sets := Table.delete (fun set => decide (set.id ∈ ids)) st.sets
    inventory := Table.delete (fun row => decide (row.backupId ∈ ids)) st.inventory
    runtime := { st.runtime with restoreBackupId := st.runtime.restoreBackupId.filter (fun id => decide (id ∉ ids)) } }

/-- The effect of a step of request `i`. -/
def Store.apply (st : Store) (i : Nat) : Effect → Store
  | .quiet => st
  | .buildKey key => { st with built := st.built ++ [(key, i)] }
  | .putObject key bytes => { st with objects := st.objects ++ [(key, bytes)] }
  | .deleteObject key => { st with deleted := st.deleted ++ [key] }
  | .insertChunk row uploadedBytes uploadedChunks now =>
    { updateStored (StoredSet.isAt row.backupId .uploading) (StoredSet.counted uploadedBytes uploadedChunks now) st with
      inventory := st.inventory ++ [row]
      listed := st.listed ++ [row] }
  | .swapKey row oldKey =>
    { st with
      inventory := Table.update (row.isAt oldKey) row.repaired st.inventory
      listed := st.listed ++ [row] }
  | .complete backupId descriptor now chunks =>
    { updateStored (StoredSet.isAt backupId .uploading) (StoredSet.completed descriptor now) st with
      verified := st.verified ++ [(backupId, chunks)] }
  | .markFailed backupId now => updateStored (StoredSet.isAt backupId .uploading) (StoredSet.fail now) st
  | .expireSets ids now =>
    updateStored (fun set => decide (set.id ∈ ids) && decide (set.status = .complete)) (StoredSet.expire now) st
  | .failSets ids now =>
    updateStored (fun set => decide (set.id ∈ ids) && decide (set.status = .uploading)) (StoredSet.fail now) st
  | .deleteSets ids => st.deleteSets ids
  | .touchLease backupId leaseExpiresAt =>
    updateStored (StoredSet.isAt backupId .complete) (StoredSet.leased leaseExpiresAt st.clock) st
  | .setRuntime runtime => { st with runtime := runtime }

end Lane
end Recovery
end Adg
