import AdgLang.BackupFields
import Mathlib.Data.List.Sort
/-!
# BackupDescriptor — what a backup says of itself

`normalizeBackupDescriptorParts` of `cpoly-recovery.js` with the normalisers of its parts.  A descriptor has an archive,
its chunks and a manifest; what is accepted is kept as one JSON text, under the digest of that text, and
`parseStoredBackupDescriptor` reads it from the row.  The reader of dates and the hash function are the platform's.
-/
namespace Adg
namespace Backup

open Js Protocol Issues
open Recovery (Coverage)

/-- What the platform does: whether `Date.parse` knows a text, and the SHA-256 of a text in UTF-8. -/
structure Platform where
  parsesDate : Str → Bool
  sha256HexUtf8 : Str → HexDigest

/-! ## Limits -/

structure Limits where
  maxChunkBytes : Nat
  maxBackupBytes : Nat
  maxBackupChunks : Nat
deriving DecidableEq

def hardMaxChunkBytes : Nat := 524288

/-- The variables `CPOLY_BACKUP_MAX_CHUNK_BYTES`, `CPOLY_BACKUP_MAX_BACKUP_BYTES` and `CPOLY_BACKUP_MAX_CHUNKS`. -/
structure LimitVariables where
  maxChunkBytes : Value
  maxBackupBytes : Value
  maxChunks : Value

def createBackupDescriptorLimits (env : LimitVariables) : Except NormalizeError Limits := do
  let maxChunkBytes ← boundedInteger env.maxChunkBytes 524288 1 hardMaxChunkBytes
  let maxBackupBytes ← boundedInteger env.maxBackupBytes 33554432 maxChunkBytes (hardMaxChunkBytes * 512)
  let maxBackupChunks ← boundedInteger env.maxChunks 512 1 4096
  return ⟨maxChunkBytes, maxBackupBytes, maxBackupChunks⟩

def storedBackupDescriptorLimits : Limits := ⟨hardMaxChunkBytes, hardMaxChunkBytes * 4096, 4096⟩

/-! ## The archive and its chunks -/

structure Archive where
  fileName : Str
  sizeBytes : Nat
  sha256 : HexDigest
  chunkCount : Nat
  chunkSizeBytes : Nat
  contentType : Str
  encryptionFormat : EncryptionFormat
  database : Option Str
  format : Option Str
deriving DecidableEq

def normalizeBackupArchiveMetadata (archive : Value) (limits : Limits) : Except NormalizeError Archive := do
  let object ← normalizeObject archive "archive"
  let fileName ← normalizeSafeFileName (object.property "fileName") "archive.fileName" none
  let format ← normalizeOptionalString (object.property "format") "archive.format" 128
  let database ← normalizeOptionalString (object.property "database") "archive.database" 256
  let sizeBytes ← positiveInteger (object.property "sizeBytes") "archive.sizeBytes" 1 limits.maxBackupBytes
  let sha256 ← normalizeSha256Hex (object.property "sha256") "archive.sha256"
  let chunkCount ← positiveInteger (object.property "chunkCount") "archive.chunkCount" 1 limits.maxBackupChunks
  let chunkSizeBytes ← positiveInteger (object.property "chunkSizeBytes") "archive.chunkSizeBytes" 1 limits.maxChunkBytes
  let contentType ← normalizeOptionalString (object.property "contentType") "archive.contentType" 128
  let encryptionFormat ← normalizeArchiveEncryptionFormat
    (coalesce (object.property "encryptionFormat") (object.property "ciphertextFormat"))
  return ⟨fileName, sizeBytes, sha256, chunkCount, chunkSizeBytes, contentType.getD (str "application/octet-stream"),
    encryptionFormat, database, format⟩

structure Chunk where
  index : Nat
  sizeBytes : Nat
  sha256 : HexDigest
deriving DecidableEq

def normalizeBackupChunk (archive : Archive) (limits : Limits) (length index : Nat) (chunk : Value) :
    Except NormalizeError Chunk := do
  let object ← normalizeObject chunk s!"chunks[{index}]"
  let chunkIndex ← positiveInteger (object.property "index") s!"chunks[{index}].index" 0 limits.maxBackupChunks
  refuse (decide (chunkIndex ≠ index)) (refusal "Backup chunk indexes must be contiguous and zero-based." 400)
  let sizeBytes ← positiveInteger (object.property "sizeBytes") s!"chunks[{index}].sizeBytes" 1 archive.chunkSizeBytes
  refuse (decide (index + 1 < length ∧ sizeBytes ≠ archive.chunkSizeBytes))
    (refusal "All non-final backup chunks must use archive.chunkSizeBytes." 400)
  let sha256 ← normalizeSha256Hex (object.property "sha256") s!"chunks[{index}].sha256"
  return ⟨chunkIndex, sizeBytes, sha256⟩

def normalizeBackupChunkDescriptors (chunks : Value) (archive : Archive) (limits : Limits) :
    Except NormalizeError (List Chunk) := do
  let values ← normalizeArray chunks "chunks"
  refuse (decide (values.length ≠ archive.chunkCount))
    (refusal "Backup chunk descriptors did not match archive.chunkCount." 400)
  let normalized ← mapIndexed (normalizeBackupChunk archive limits values.length) 0 values
  refuse (decide ((normalized.map Chunk.sizeBytes).sum ≠ archive.sizeBytes))
    (refusal "Backup chunk descriptors did not sum to archive.sizeBytes." 400)
  return normalized

/-! ## The manifest -/

structure Database where
  name : Str
  bytes : Nat
  dump : Str
  oid : Option Nat

/-- `/\.(dump|sql)$/iu`. -/
def dumpPattern : Pattern := .seqs [.literal (str "."), .alt (anyCase "dump") (anyCase "sql"), .finish]

def normalizeBackupDatabase (index : Nat) (database : Value) : Except NormalizeError Database := do
  let object ← normalizeObject database s!"manifest.databases[{index}]"
  let name ← normalizeNonEmptyString (object.property "name") s!"manifest.databases[{index}].name" 256
  let bytes ← positiveInteger (object.property "bytes") s!"manifest.databases[{index}].bytes" 1 maxSafeInteger
  let dump ← normalizeSafeFileName (object.property "dump") s!"manifest.databases[{index}].dump" (some dumpPattern)
  let oid ← whenPresent (object.property "oid") none
    (fun oid => some <$> positiveInteger oid s!"manifest.databases[{index}].oid" 1 maxSafeInteger)
  return ⟨name, bytes, dump, oid⟩

def normalizeBackupDatabaseInventory (databases : Value) : Except NormalizeError (List Database) := do
  let values ← normalizeArray databases "manifest.databases"
  refuse values.isEmpty (refusal "Backup manifest.databases must not be empty." 400)
  mapIndexed normalizeBackupDatabase 0 values

structure PlaintextHash where
  name : Str
  bytes : Nat
  sha256 : HexDigest

def normalizeBackupPlaintextHash (index : Nat) (row : Value) : Except NormalizeError PlaintextHash := do
  let object ← normalizeObject row s!"manifest.plaintext_file_hashes[{index}]"
  let name ← normalizeSafeFileName (object.property "name") s!"manifest.plaintext_file_hashes[{index}].name" none
  let bytes ← positiveInteger (object.property "bytes") s!"manifest.plaintext_file_hashes[{index}].bytes" 1 maxSafeInteger
  let sha256 ← normalizeSha256Hex (object.property "sha256") s!"manifest.plaintext_file_hashes[{index}].sha256"
  return ⟨name, bytes, sha256⟩

def normalizeBackupPlaintextHashes (values : Value) : Except NormalizeError (List PlaintextHash) := do
  let rows ← normalizeArray values "manifest.plaintext_file_hashes"
  refuse rows.isEmpty (refusal "Backup manifest.plaintext_file_hashes must not be empty." 400)
  mapIndexed normalizeBackupPlaintextHash 0 rows

def attestationsSchema : Str := str "adg.cpoly-postgres.backup-attestations.v1"

/-- All three attestations have to be true, so nothing but their schema is left to keep. -/
def normalizeBackupManifestAttestations (attestations : Value) : Except NormalizeError Unit := do
  let object ← normalizeObject attestations "manifest.attestations"
  let schema ← whenPresent (object.property "schema") attestationsSchema
    (normalizeNonEmptyString · "manifest.attestations.schema" 128)
  refuse (decide (schema ≠ attestationsSchema)) (refusal "Backup manifest attestation schema was invalid." 400)
  let protectedColumnsEntityCrypt ← normalizeBoolean (object.property "protected_columns_entitycrypt")
    "manifest.attestations.protected_columns_entitycrypt"
  let rolePasswordMaterialExcluded ← normalizeBoolean (object.property "role_password_material_excluded")
    "manifest.attestations.role_password_material_excluded"
  let bootstrapRolesSeparate ← normalizeBoolean (object.property "bootstrap_roles_separate")
    "manifest.attestations.bootstrap_roles_separate"
  refuse (!protectedColumnsEntityCrypt || !rolePasswordMaterialExcluded || !bootstrapRolesSeparate)
    (refusal "Backup manifest attestations must confirm EntityCrypt protection and separate role bootstrap handling." 400)

/-- The encryption of an archive whose file, size and digest are the archive's. -/
structure Encryption where
  algorithm : Str
  encryptedArchive : Str
  encryptedBytes : Nat
  encryptedSha256 : HexDigest
  keySource : Option Str
  keyVaultName : Option Str
  secretName : Option Str

def encryptionStatus : Str := str "PASS_AES256_GPG_SYMMETRIC"

/-- `/AES-?256/iu`. -/
def aes256Pattern : Pattern := .seqs [anyCase "aes", .opt (.literal (str "-")), .literal (str "256")]

/-- `/\.gpg$/iu`. -/
def gpgPattern : Pattern := .seqs [.literal (str "."), anyCase "gpg", .finish]

def normalizeBackupManifestEncryption (encryption : Value) (archive : Archive) : Except NormalizeError (Option Encryption) :=
  if isNullish encryption then .ok none
  else do
    refuse (decide (archive.encryptionFormat ≠ .openpgp))
      (refusal "Backup manifest encryption metadata requires an encrypted archive format." 400)
    let object ← normalizeObject encryption "manifest.encryption"
    let status ← normalizeNonEmptyString (object.property "status") "manifest.encryption.status" 128
    refuse (decide (status ≠ encryptionStatus)) (refusal "Backup manifest encryption status was invalid." 400)
    let algorithm ← normalizeNonEmptyString (object.property "algorithm") "manifest.encryption.algorithm" 256
    refuse (!aes256Pattern.test algorithm || !(anyCase "openpgp").test algorithm)
      (refusal "Backup manifest encryption algorithm was invalid." 400)
    let encryptedArchive ← normalizeSafeFileName (object.property "encrypted_archive")
      "manifest.encryption.encrypted_archive" (some gpgPattern)
    let encryptedBytes ← positiveInteger (object.property "encrypted_bytes") "manifest.encryption.encrypted_bytes" 1
      maxSafeInteger
    let encryptedSha256 ← normalizeSha256Hex (object.property "encrypted_sha256") "manifest.encryption.encrypted_sha256"
    refuse (decide (encryptedArchive ≠ archive.fileName ∨ encryptedBytes ≠ archive.sizeBytes ∨
      encryptedSha256 ≠ archive.sha256)) (refusal "Backup manifest encryption metadata did not match the archive." 400)
    refuse (!isTrue (object.property "round_trip_verified"))
      (refusal "Backup manifest must prove an encryption round-trip." 400)
    let keySource ← normalizeOptionalString (object.property "key_source") "manifest.encryption.key_source" 256
    let keyVaultName ← normalizeOptionalString (object.property "key_vault_name") "manifest.encryption.key_vault_name" 256
    let secretName ← normalizeOptionalString (object.property "secret_name") "manifest.encryption.secret_name" 256
    return some ⟨algorithm, encryptedArchive, encryptedBytes, encryptedSha256, keySource, keyVaultName, secretName⟩

structure RestoredDatabase where
  sourceDatabase : Str
  targetDatabase : Str
  restoredBytes : Nat
  status : Str

def normalizeRestoredDatabase (index : Nat) (row : Value) : Except NormalizeError RestoredDatabase := do
  let value ← normalizeObject row s!"manifest.restore_test.databases[{index}]"
  let sourceDatabase ← normalizeNonEmptyString (value.property "source_database")
    s!"manifest.restore_test.databases[{index}].source_database" 256
  let targetDatabase ← normalizeNonEmptyString (value.property "target_database")
    s!"manifest.restore_test.databases[{index}].target_database" 256
  let restoredBytes ← positiveInteger (value.property "restored_bytes")
    s!"manifest.restore_test.databases[{index}].restored_bytes" 1 maxSafeInteger
  let status ← normalizeNonEmptyString (value.property "status") s!"manifest.restore_test.databases[{index}].status" 64
  return ⟨sourceDatabase, targetDatabase, restoredBytes, status⟩

structure RestoreTest where
  requested : Bool
  status : Str
  databases : List RestoredDatabase

/-- `sort`, by the code units of the texts. -/
def sortTexts (texts : List Str) : List Str := texts.mergeSort (fun a b => decide (a ≤ b))

def normalizeBackupRestoreEvidence (restoreTest : Value) (inventoryRows : List Database) :
    Except NormalizeError RestoreTest := do
  let object ← normalizeObject restoreTest "manifest.restore_test"
  let requested ← normalizeBoolean (object.property "requested") "manifest.restore_test.requested"
  let status ← normalizeNonEmptyString (object.property "status") "manifest.restore_test.status" 64
  refuse (!(["PASS", "NOT_RUN"].map str).contains status) (refusal "Backup restore evidence status was invalid." 400)
  let rows ← whenPresent (object.property "databases") [] (normalizeArray · "manifest.restore_test.databases")
  let databases ← mapIndexed normalizeRestoredDatabase 0 rows
  refuse (requested && decide (status ≠ str "PASS")) (refusal "Requested restore evidence must report PASS." 400)
  refuse (requested && databases.isEmpty) (refusal "Requested restore evidence must list restored databases." 400)
  let inventory := sortTexts (inventoryRows.map Database.name)
  let restored := databases.map RestoredDatabase.sourceDatabase
  refuse (decide ¬ restored.Nodup) (refusal "Restore evidence contained a duplicate source database." 400)
  refuse (requested && decide (sortTexts restored ≠ inventory))
    (refusal "Restore evidence must cover every inventoried database exactly once." 400)
  refuse (requested && databases.any (fun row => decide (row.status ≠ str "PASS")))
    (refusal "Restore evidence rows must all report PASS." 400)
  return ⟨requested, status, databases⟩

def claimBoundary : Str :=
  str "This proves creation, integrity, EntityCrypt protected-column " ++
    (str "attestations, separate role bootstrap handling, and the requested " ++
      (str "restore test only. Off-host replication and recovery-time objectives " ++
        str "require separate scheduled operations."))

def legacyClaimBoundary : Str :=
  str "This proves creation, integrity, encryption, and the requested restore " ++
    (str "test only. Off-host replication and recovery-time objectives require " ++ str "separate scheduled operations.")

def normalizeExactClaimBoundary (value : Value) (legacyEncryptedArchive : Bool) : Except NormalizeError Str := do
  let text ← normalizeNonEmptyString value "manifest.claim_boundary" 512
  let accepted := if legacyEncryptedArchive then [claimBoundary, legacyClaimBoundary] else [claimBoundary]
  refuse (!accepted.contains text) (refusal "Backup manifest claim boundary was invalid." 400)
  return text

structure Manifest where
  schema : Str
  createdAtUtc : Str
  sourceContainer : Str
  sourceImage : Str
  serverVersion : Str
  databases : List Database
  plaintextFileHashes : List PlaintextHash
  restoreTest : RestoreTest
  claimBoundary : Str
  snapshotGeneration : Nat
  postgresReceiptWatermark : Nat
  encryption : Option Encryption

def manifestSchemas : List Str := ["cpoly_postgres_backup_v1", "adg.cpoly-postgres.encrypted-bundle.v1"].map str

def normalizeBackupManifest (platform : Platform) (manifest : Value) (archive : Archive) : Except NormalizeError Manifest := do
  let object ← normalizeObject manifest "manifest"
  let schema ← textOr (object.property "schema") []
  refuse (!manifestSchemas.contains schema) (refusal "Backup manifest schema was invalid." 400)
  let databases ← normalizeBackupDatabaseInventory (object.property "databases")
  normalizeBackupManifestAttestations (object.property "attestations")
  let encryption ← normalizeBackupManifestEncryption (object.property "encryption") archive
  let claimBoundary ← normalizeExactClaimBoundary (object.property "claim_boundary") encryption.isSome
  let restoreTest ← normalizeBackupRestoreEvidence (object.property "restore_test") databases
  let createdAtUtc ← normalizeIsoTimestamp platform.parsesDate (object.property "created_at_utc") "manifest.created_at_utc"
  let sourceContainer ← normalizeNonEmptyString (object.property "source_container") "manifest.source_container" 256
  let sourceImage ← normalizeNonEmptyString (object.property "source_image") "manifest.source_image" 512
  let serverVersion ← normalizeNonEmptyString (object.property "server_version") "manifest.server_version" 128
  let plaintextFileHashes ← normalizeBackupPlaintextHashes (object.property "plaintext_file_hashes")
  let snapshotGeneration ← positiveInteger (object.property "snapshotGeneration") "manifest.snapshotGeneration" 1
    maxSafeInteger
  let postgresReceiptWatermark ← positiveInteger (object.property "postgresReceiptWatermark")
    "manifest.postgresReceiptWatermark" 0 maxSafeInteger
  return ⟨schema, createdAtUtc, sourceContainer, sourceImage, serverVersion, databases, plaintextFileHashes, restoreTest,
    claimBoundary, snapshotGeneration, postgresReceiptWatermark, encryption⟩

/-! ## The descriptor as it is written -/

/-- An object with these properties, but for those that there is nothing for. -/
def sparse (entries : List (String × Option Value)) : Value := record (entries.filterMap (fun e => e.2.map (Prod.mk e.1)))

def Archive.entries (archive : Archive) : List (String × Option Value) :=
  [("fileName", some (.string archive.fileName)), ("sizeBytes", some (whole archive.sizeBytes)),
    ("sha256", some (.string archive.sha256.1)), ("chunkCount", some (whole archive.chunkCount)),
    ("chunkSizeBytes", some (whole archive.chunkSizeBytes)), ("contentType", some (.string archive.contentType)),
    ("encryptionFormat", some (.string archive.encryptionFormat.text)), ("database", archive.database.map .string),
    ("format", archive.format.map .string)]

def Archive.value (archive : Archive) : Value := sparse archive.entries

def Chunk.fields (chunk : Chunk) : List (String × Value) :=
  [("index", whole chunk.index), ("sizeBytes", whole chunk.sizeBytes), ("sha256", .string chunk.sha256.1)]

def Chunk.value (chunk : Chunk) : Value := record chunk.fields

def Database.entries (database : Database) : List (String × Option Value) :=
  [("name", some (.string database.name)), ("bytes", some (whole database.bytes)),
    ("dump", some (.string database.dump)), ("oid", database.oid.map whole)]

def Database.value (database : Database) : Value := sparse database.entries

def PlaintextHash.fields (row : PlaintextHash) : List (String × Value) :=
  [("name", .string row.name), ("bytes", whole row.bytes), ("sha256", .string row.sha256.1)]

def PlaintextHash.value (row : PlaintextHash) : Value := record row.fields

def attestationsFields : List (String × Value) :=
  [("schema", .string attestationsSchema), ("protected_columns_entitycrypt", .bool true),
    ("role_password_material_excluded", .bool true), ("bootstrap_roles_separate", .bool true)]

def attestationsValue : Value := record attestationsFields

def Encryption.entries (encryption : Encryption) : List (String × Option Value) :=
  [("status", some (.string encryptionStatus)), ("algorithm", some (.string encryption.algorithm)),
    ("encrypted_archive", some (.string encryption.encryptedArchive)),
    ("encrypted_bytes", some (whole encryption.encryptedBytes)),
    ("encrypted_sha256", some (.string encryption.encryptedSha256.1)), ("round_trip_verified", some (.bool true)),
    ("key_source", encryption.keySource.map .string), ("key_vault_name", encryption.keyVaultName.map .string),
    ("secret_name", encryption.secretName.map .string)]

def Encryption.value (encryption : Encryption) : Value := sparse encryption.entries

def RestoredDatabase.fields (row : RestoredDatabase) : List (String × Value) :=
  [("source_database", .string row.sourceDatabase), ("target_database", .string row.targetDatabase),
    ("restored_bytes", whole row.restoredBytes), ("status", .string row.status)]

def RestoredDatabase.value (row : RestoredDatabase) : Value := record row.fields

def RestoreTest.fields (restoreTest : RestoreTest) : List (String × Value) :=
  [("requested", .bool restoreTest.requested), ("status", .string restoreTest.status),
    ("databases", .array (restoreTest.databases.map RestoredDatabase.value))]

def RestoreTest.value (restoreTest : RestoreTest) : Value := record restoreTest.fields

def Manifest.entries (manifest : Manifest) : List (String × Option Value) :=
  [("schema", some (.string manifest.schema)), ("created_at_utc", some (.string manifest.createdAtUtc)),
    ("source_container", some (.string manifest.sourceContainer)), ("source_image", some (.string manifest.sourceImage)),
    ("server_version", some (.string manifest.serverVersion)),
    ("databases", some (.array (manifest.databases.map Database.value))),
    ("plaintext_file_hashes", some (.array (manifest.plaintextFileHashes.map PlaintextHash.value))),
    ("attestations", some attestationsValue), ("restore_test", some manifest.restoreTest.value),
    ("claim_boundary", some (.string manifest.claimBoundary)),
    ("snapshotGeneration", some (whole manifest.snapshotGeneration)),
    ("postgresReceiptWatermark", some (whole manifest.postgresReceiptWatermark)),
    ("encryption", manifest.encryption.map Encryption.value)]

def Manifest.value (manifest : Manifest) : Value := sparse manifest.entries

structure Descriptor where
  manifest : Manifest
  archive : Archive
  chunks : List Chunk

def backupDescriptorSchema : Str := str "adg.cpoly-postgres.backup.v1"

def Descriptor.fields (descriptor : Descriptor) : List (String × Value) :=
  [("schema", .string backupDescriptorSchema), ("manifest", descriptor.manifest.value),
    ("metadata", descriptor.manifest.value), ("archive", descriptor.archive.value),
    ("chunks", .array (descriptor.chunks.map Chunk.value))]

def Descriptor.value (descriptor : Descriptor) : Value := record descriptor.fields

/-- What `normalizeBackupDescriptorParts` returns; both hashes of the manifest are one. -/
structure Normalized where
  descriptor : Descriptor
  descriptorJson : Str
  descriptorSha256 : HexDigest
  metadataSha256 : HexDigest
  snapshotCoverage : Coverage

def maxBackupDescriptorJsonBytes : Nat := 262144

def normalizeBackupDescriptorParts (platform : Platform) (parts : Value) (limits : Limits) :
    Except NormalizeError Normalized := do
  let schema ← normalizeNonEmptyString (parts.property "schema") "schema" 128
  refuse (decide (schema ≠ backupDescriptorSchema)) (refusal "Backup descriptor schema was invalid." 400)
  let archive ← normalizeBackupArchiveMetadata (parts.property "archive") limits
  let chunks ← normalizeBackupChunkDescriptors (parts.property "chunks") archive limits
  let manifest ← normalizeBackupManifest platform (coalesce (parts.property "manifest") (parts.property "metadata")) archive
  let descriptor : Descriptor := ⟨manifest, archive, chunks⟩
  let descriptorJson := descriptor.value.text
  refuse (decide (maxBackupDescriptorJsonBytes < (encodeUtf8 descriptorJson).length))
    (refusal "Backup descriptor exceeded the configured limit." 413)
  return ⟨descriptor, descriptorJson, platform.sha256HexUtf8 descriptorJson, platform.sha256HexUtf8 manifest.value.text,
    ⟨manifest.snapshotGeneration, manifest.postgresReceiptWatermark⟩⟩

def parseRequestedBackupDescriptor (platform : Platform) (body : Value) (env : LimitVariables) :
    Except NormalizeError Normalized := do
  normalizeBackupDescriptorParts platform body (← createBackupDescriptorLimits env)

/-! ## The row -/

/-- The columns of `cpoly_backup_sets` that hold the descriptor. -/
structure DescriptorRow where
  descriptorJson : Option Str
  descriptorSha256 : Option Str
  manifestSha256 : Option Str
  snapshotGeneration : Option Nat
  snapshotWatermark : Option Nat
deriving DecidableEq

/-- The values that `createBackupSet` binds. -/
def Normalized.row (normalized : Normalized) : DescriptorRow where
  descriptorJson := some normalized.descriptorJson
  descriptorSha256 := some normalized.descriptorSha256.1
  manifestSha256 := some normalized.metadataSha256.1
  snapshotGeneration := some normalized.snapshotCoverage.generation
  snapshotWatermark := some normalized.snapshotCoverage.receiptSeq

/-- The bytes that a text of hexadecimal digits stands for. -/
def hexToBytes : Str → List Nat
  | a :: b :: rest => (16 * (hexValue a).getD 0 + (hexValue b).getD 0) :: hexToBytes rest
  | _ => []

def constantTimeHexEqual (left right : Str) : Bool :=
  digestPattern.test left && digestPattern.test right && decide (hexToBytes left = hexToBytes right)

theorem constantTimeHexEqual_self (digest : HexDigest) : constantTimeHexEqual digest.1 digest.1 = true := by
  rw [constantTimeHexEqual, digest.2, decide_eq_true rfl]
  rfl

/-- The digest of the metadata is compared when the row has one. -/
def checkMetadataSha256 (manifestSha256 : Option Str) (normalized : Normalized) : Except NormalizeError Unit :=
  match manifestSha256 with
  | none | some [] => .ok ()
  | some manifestSha256 => do
    let storedMetadataSha ← normalizeSha256Hex (.string manifestSha256) "Stored backup metadata hash"
    refuse (!constantTimeHexEqual normalized.metadataSha256.1 storedMetadataSha.1)
      (refusal "Stored backup metadata hash did not match its payload." 409)

/-- `parseStoredBackupDescriptor`; a row without a descriptor has none to return. -/
def parseStoredBackupDescriptor (platform : Platform) (backup : DescriptorRow) :
    Except NormalizeError (Option Normalized) :=
  match backup.descriptorJson with
  | none | some [] => .ok none
  | some descriptorJson => do
    let descriptorSha256 ← normalizeSha256Hex (optionalText backup.descriptorSha256) "Stored backup descriptor hash"
    refuse (!constantTimeHexEqual (platform.sha256HexUtf8 descriptorJson).1 descriptorSha256.1)
      (refusal "Stored backup descriptor hash did not match its payload." 409)
    match parse descriptorJson with
    | none => .error (refusal "Stored backup descriptor JSON was invalid." 409)
    | some parsed =>
      let normalized ← normalizeBackupDescriptorParts platform parsed storedBackupDescriptorLimits
      refuse (!constantTimeHexEqual normalized.descriptorSha256.1 descriptorSha256.1)
        (refusal "Stored backup descriptor normalization mismatch was detected." 409)
      checkMetadataSha256 backup.manifestSha256 normalized
      refuse (backup.snapshotGeneration.any (fun generation => decide (generation ≠ normalized.snapshotCoverage.generation)))
        (refusal "Stored backup snapshot generation did not match its descriptor." 409)
      refuse (backup.snapshotWatermark.any (fun watermark => decide (watermark ≠ normalized.snapshotCoverage.receiptSeq)))
        (refusal "Stored backup snapshot watermark did not match its descriptor." 409)
      return some normalized

end Backup
end Adg
