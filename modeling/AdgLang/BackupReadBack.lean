import AdgLang.BackupDescriptor
/-!
# BackupReadBack — a stored descriptor reads back

The descriptor that `createBackupSet` stores is read again by every later request.  Each part that a normaliser returned
is written as a value that it returns again, so the row of an accepted descriptor is read as that descriptor
(`parseStored_row`).
-/
namespace Adg
namespace Backup

open Js Protocol Issues

/-! ## Objects that are written -/

/-- A value that JSON gives back as it is. -/
def Written (v : Value) : Prop := v.Json ∧ v.reread = v

theorem written_leaf {v : Value} (hleaf : v.isLeaf = true) (hjson : v.isJson = true) (hreread : v.reread = v) : Written v :=
  ⟨Value.json_leaf hleaf hjson, hreread⟩

theorem written_string (s : Str) : Written (.string s) := written_leaf rfl rfl rfl

theorem written_bool (b : Bool) : Written (.bool b) := written_leaf rfl rfl rfl

theorem written_whole (n : Nat) : Written (whole n) := by
  refine written_leaf rfl rfl ?_
  rw [whole, Number.ofNat, Number.ofDecimal]
  split <;> rfl

theorem written_array {items : List Value} (h : ∀ v ∈ items, Written v) : Written (.array items) := by
  refine ⟨Value.json_array (fun v hv => (h v hv).1), ?_⟩
  rw [Value.reread, Value.rereadItems_eq, List.map_congr_left (fun v hv => (h v hv).2), List.map_id']

theorem written_record {fields : List (String × Value)} (keys : List String) (hfields : (fields.map Prod.fst).Sublist keys)
    (hkeys : orderedKeys (keys.map str) = true) (h : ∀ f ∈ fields, Written f.2) : Written (record fields) := by
  have hordered : orderedKeys ((fields.map Prod.fst).map str) = true :=
    decide_eq_true ((of_decide_eq_true hkeys).sublist (hfields.map str))
  refine ⟨json_record _ rfl hordered (fun f hf => (h f hf).1), ?_⟩
  rw [reread_record, List.map_congr_left (g := id) (fun f hf => by rw [(h f hf).2]; rfl), List.map_id]

theorem sparse_fields (entries : List (String × Option Value)) :
    ((entries.filterMap (fun e => e.2.map (Prod.mk e.1))).map Prod.fst).Sublist (entries.map Prod.fst) := by
  induction entries with
  | nil => exact List.Sublist.slnil
  | cons e entries ih =>
    obtain ⟨key, value⟩ := e
    cases value with
    | none => exact ih.cons key
    | some value => exact ih.cons_cons key

theorem written_sparse {entries : List (String × Option Value)} (keys : List String) (hentries : entries.map Prod.fst = keys)
    (hkeys : orderedKeys (keys.map str) = true) (h : ∀ e ∈ entries, ∀ v, e.2 = some v → Written v) : Written (sparse entries) := by
  refine written_record keys (hentries ▸ sparse_fields entries) hkeys (fun f hf => ?_)
  obtain ⟨e, he, hvalue⟩ := List.mem_filterMap.1 hf
  obtain ⟨v, hv, rfl⟩ := Option.map_eq_some_iff.1 hvalue
  exact h e he v hv

theorem property_sparse {entries : List (String × Option Value)} (keys : List String) (hentries : entries.map Prod.fst = keys)
    (hkeys : DistinctKeys keys) {key : String} {value : Option Value} (h : (key, value) ∈ entries) :
    (sparse entries).property key = value.getD .undefined := by
  cases value with
  | some value =>
    have hmem : (key, value) ∈ entries.filterMap (fun e => e.2.map (Prod.mk e.1)) := List.mem_filterMap.2 ⟨_, h, rfl⟩
    have hnodup : DistinctKeys ((entries.filterMap (fun e => e.2.map (Prod.mk e.1))).map Prod.fst) :=
      List.Nodup.sublist ((hentries ▸ sparse_fields entries).map str) hkeys
    exact property_record _ rfl hnodup hmem
  | none =>
    have hmissing : (((entries.filterMap (fun e => e.2.map (Prod.mk e.1))).map (fun f => (str f.1, f.2))).find?
        (fun p => p.1 == str key)) = none := by
      refine List.find?_eq_none.2 (fun p hp hkey => ?_)
      obtain ⟨f, hf, rfl⟩ := List.mem_map.1 hp
      obtain ⟨e, he, hvalue⟩ := List.mem_filterMap.1 hf
      obtain ⟨v, hv, rfl⟩ := Option.map_eq_some_iff.1 hvalue
      have hnodup : (entries.map (fun e => str e.1)).Nodup := by
        have hkeys : (keys.map str).Nodup := hkeys
        rwa [← hentries, List.map_map] at hkeys
      have heq := List.inj_on_of_nodup_map hnodup he h (eq_of_beq hkey)
      rw [heq] at hv
      cases hv
    rw [sparse, record, Value.property, hmissing]
    rfl

/-! ## The archive and its chunks -/

/-- The second limits allow what the first do. -/
structure Limits.Within (limits limits' : Limits) : Prop where
  maxChunkBytes : limits.maxChunkBytes ≤ limits'.maxChunkBytes
  maxBackupBytes : limits.maxBackupBytes ≤ limits'.maxBackupBytes
  maxBackupChunks : limits.maxBackupChunks ≤ limits'.maxBackupChunks

def archiveKeys : List String :=
  ["fileName", "sizeBytes", "sha256", "chunkCount", "chunkSizeBytes", "contentType", "encryptionFormat", "database", "format"]

theorem Archive.property_value (archive : Archive) (key : String) (value : Option Value) (h : (key, value) ∈ archive.entries) :
    archive.value.property key = value.getD .undefined :=
  property_sparse archiveKeys rfl (by decide) h

theorem settles_normalizeBackupArchiveMetadata {limits limits' : Limits} (hlimits : limits.Within limits') :
    Settles (normalizeBackupArchiveMetadata · limits) (normalizeBackupArchiveMetadata · limits') Archive.value := by
  intro value archive h
  obtain ⟨object, -, h⟩ := bind_eq_ok.1 h
  obtain ⟨fileName, hfileName, h⟩ := bind_eq_ok.1 h
  obtain ⟨format, hformat, h⟩ := bind_eq_ok.1 h
  obtain ⟨database, hdatabase, h⟩ := bind_eq_ok.1 h
  obtain ⟨sizeBytes, hsizeBytes, h⟩ := bind_eq_ok.1 h
  obtain ⟨sha256, hsha256, h⟩ := bind_eq_ok.1 h
  obtain ⟨chunkCount, hchunkCount, h⟩ := bind_eq_ok.1 h
  obtain ⟨chunkSizeBytes, hchunkSizeBytes, h⟩ := bind_eq_ok.1 h
  obtain ⟨contentType, hcontentType, h⟩ := bind_eq_ok.1 h
  obtain ⟨encryptionFormat, hencryptionFormat, h⟩ := bind_eq_ok.1 h
  cases h
  have hproperty := Archive.property_value ⟨fileName, sizeBytes, sha256, chunkCount, chunkSizeBytes,
    contentType.getD (str "application/octet-stream"), encryptionFormat, database, format⟩
  have hcontentKept : Kept 128 (contentType.getD (str "application/octet-stream")) := by
    cases contentType with
    | none => exact kept_of_ends (by decide) (by decide) (by decide) (by decide)
    | some contentType => exact kept_of_optional hcontentType
  refine bind_eq_ok.2 ⟨Archive.value _, rfl, ?_⟩
  refine bind_eq_ok.2 ⟨fileName, (settles_normalizeSafeFileName _ _).at hfileName
    (hproperty "fileName" (some (.string fileName)) (by simp [Archive.entries])), ?_⟩
  refine bind_eq_ok.2 ⟨format, (settles_normalizeOptionalString _ _).at hformat
    ((hproperty "format" (format.map .string) (by simp [Archive.entries])).trans (optional_getD format)), ?_⟩
  refine bind_eq_ok.2 ⟨database, (settles_normalizeOptionalString _ _).at hdatabase
    ((hproperty "database" (database.map .string) (by simp [Archive.entries])).trans (optional_getD database)), ?_⟩
  refine bind_eq_ok.2 ⟨sizeBytes, (settles_positiveInteger _ hlimits.maxBackupBytes).at hsizeBytes
    (hproperty "sizeBytes" (some (whole sizeBytes)) (by simp [Archive.entries])), ?_⟩
  refine bind_eq_ok.2 ⟨sha256, (settles_normalizeSha256Hex _).at hsha256
    (hproperty "sha256" (some (.string sha256.1)) (by simp [Archive.entries])), ?_⟩
  refine bind_eq_ok.2 ⟨chunkCount, (settles_positiveInteger _ hlimits.maxBackupChunks).at hchunkCount
    (hproperty "chunkCount" (some (whole chunkCount)) (by simp [Archive.entries])), ?_⟩
  refine bind_eq_ok.2 ⟨chunkSizeBytes, (settles_positiveInteger _ hlimits.maxChunkBytes).at hchunkSizeBytes
    (hproperty "chunkSizeBytes" (some (whole chunkSizeBytes)) (by simp [Archive.entries])), ?_⟩
  refine bind_eq_ok.2 ⟨some (contentType.getD (str "application/octet-stream")), ?_, ?_⟩
  · rw [hproperty "contentType" (some (.string (contentType.getD (str "application/octet-stream"))))
      (by simp [Archive.entries])]
    exact hcontentKept.optional _
  refine bind_eq_ok.2 ⟨encryptionFormat, settles_normalizeArchiveEncryptionFormat.at hencryptionFormat ?_, rfl⟩
  rw [hproperty "encryptionFormat" (some (.string encryptionFormat.text)) (by simp [Archive.entries])]
  rfl

theorem Chunk.property_value (chunk : Chunk) (key : String) (value : Value) (h : (key, value) ∈ chunk.fields) :
    chunk.value.property key = value :=
  property_record ["index", "sizeBytes", "sha256"] rfl (by decide) h

theorem settles_normalizeBackupChunk {limits limits' : Limits} (hlimits : limits.Within limits') (archive : Archive)
    (length index : Nat) :
    Settles (normalizeBackupChunk archive limits length index) (normalizeBackupChunk archive limits' length index)
      Chunk.value := by
  intro value chunk h
  obtain ⟨object, -, h⟩ := bind_eq_ok.1 h
  obtain ⟨chunkIndex, hchunkIndex, h⟩ := bind_eq_ok.1 h
  obtain ⟨_, hcontiguous, h⟩ := bind_eq_ok.1 h
  obtain ⟨sizeBytes, hsizeBytes, h⟩ := bind_eq_ok.1 h
  obtain ⟨_, hnonFinal, h⟩ := bind_eq_ok.1 h
  obtain ⟨sha256, hsha256, h⟩ := bind_eq_ok.1 h
  cases h
  have hproperty := Chunk.property_value ⟨chunkIndex, sizeBytes, sha256⟩
  refine bind_eq_ok.2 ⟨Chunk.value _, rfl, ?_⟩
  refine bind_eq_ok.2 ⟨chunkIndex, (settles_positiveInteger _ hlimits.maxBackupChunks).at hchunkIndex
    (hproperty "index" (whole chunkIndex) (by simp [Chunk.fields])), ?_⟩
  refine bind_eq_ok.2 ⟨⟨⟩, hcontiguous, ?_⟩
  refine bind_eq_ok.2 ⟨sizeBytes, (settles_positiveInteger _ (Nat.le_refl _)).at hsizeBytes
    (hproperty "sizeBytes" (whole sizeBytes) (by simp [Chunk.fields])), ?_⟩
  refine bind_eq_ok.2 ⟨⟨⟩, hnonFinal, ?_⟩
  exact bind_eq_ok.2 ⟨sha256, (settles_normalizeSha256Hex _).at hsha256
    (hproperty "sha256" (.string sha256.1) (by simp [Chunk.fields])), rfl⟩

theorem settles_normalizeBackupChunkDescriptors {limits limits' : Limits} (hlimits : limits.Within limits')
    (archive : Archive) :
    Settles (normalizeBackupChunkDescriptors · archive limits) (normalizeBackupChunkDescriptors · archive limits')
      (fun chunks => .array (chunks.map Chunk.value)) := by
  intro value chunks h
  obtain ⟨values, -, h⟩ := bind_eq_ok.1 h
  obtain ⟨_, hcount, h⟩ := bind_eq_ok.1 h
  obtain ⟨normalized, hnormalized, h⟩ := bind_eq_ok.1 h
  obtain ⟨_, hsum, h⟩ := bind_eq_ok.1 h
  cases h
  have hlength : (chunks.map Chunk.value).length = values.length := by
    rw [List.length_map, length_mapIndexed hnormalized]
  refine bind_eq_ok.2 ⟨chunks.map Chunk.value, rfl, ?_⟩
  rw [hlength]
  refine bind_eq_ok.2 ⟨⟨⟩, hcount, ?_⟩
  refine bind_eq_ok.2 ⟨chunks, Settles.mapIndexed (settles_normalizeBackupChunk hlimits archive _) hnormalized, ?_⟩
  exact bind_eq_ok.2 ⟨⟨⟩, hsum, rfl⟩

/-! ## The manifest -/

theorem Database.property_value (database : Database) (key : String) (value : Option Value)
    (h : (key, value) ∈ database.entries) : database.value.property key = value.getD .undefined :=
  property_sparse ["name", "bytes", "dump", "oid"] rfl (by decide) h

theorem isNullish_whole (n : Nat) : isNullish (whole n) = false := rfl

theorem settles_normalizeBackupDatabase (index : Nat) :
    Settles (normalizeBackupDatabase index) (normalizeBackupDatabase index) Database.value := by
  intro value database h
  obtain ⟨object, -, h⟩ := bind_eq_ok.1 h
  obtain ⟨name, hname, h⟩ := bind_eq_ok.1 h
  obtain ⟨bytes, hbytes, h⟩ := bind_eq_ok.1 h
  obtain ⟨dump, hdump, h⟩ := bind_eq_ok.1 h
  obtain ⟨oid, hoid, h⟩ := bind_eq_ok.1 h
  cases h
  have hproperty := Database.property_value ⟨name, bytes, dump, oid⟩
  refine bind_eq_ok.2 ⟨Database.value _, rfl, ?_⟩
  refine bind_eq_ok.2 ⟨name, (settles_normalizeNonEmptyString _ _).at hname
    (hproperty "name" (some (.string name)) (by simp [Database.entries])), ?_⟩
  refine bind_eq_ok.2 ⟨bytes, (settles_positiveInteger _ (Nat.le_refl _)).at hbytes
    (hproperty "bytes" (some (whole bytes)) (by simp [Database.entries])), ?_⟩
  refine bind_eq_ok.2 ⟨dump, (settles_normalizeSafeFileName _ _).at hdump
    (hproperty "dump" (some (.string dump)) (by simp [Database.entries])), ?_⟩
  refine bind_eq_ok.2 ⟨oid, ?_, rfl⟩
  rw [hproperty "oid" (oid.map whole) (by simp [Database.entries])]
  cases oid with
  | none => rfl
  | some oid =>
    rw [whenPresent] at hoid
    split at hoid
    · cases hoid
    · obtain ⟨n, hn, heq⟩ := map_eq_ok.1 hoid
      cases heq
      exact map_eq_ok.2 ⟨oid, settles_positiveInteger _ (Nat.le_refl _) _ _ hn, rfl⟩

theorem settles_normalizeBackupDatabaseInventory :
    Settles normalizeBackupDatabaseInventory normalizeBackupDatabaseInventory
      (fun databases => .array (databases.map Database.value)) := by
  intro value databases h
  obtain ⟨values, -, h⟩ := bind_eq_ok.1 h
  obtain ⟨_, hempty, h⟩ := bind_eq_ok.1 h
  have hsame : (databases.map Database.value).isEmpty = values.isEmpty := by
    rw [List.isEmpty_map, isEmpty_mapIndexed h]
  refine bind_eq_ok.2 ⟨databases.map Database.value, rfl, ?_⟩
  rw [hsame]
  exact bind_eq_ok.2 ⟨⟨⟩, hempty, Settles.mapIndexed settles_normalizeBackupDatabase h⟩

theorem PlaintextHash.property_value (row : PlaintextHash) (key : String) (value : Value) (h : (key, value) ∈ row.fields) :
    row.value.property key = value :=
  property_record ["name", "bytes", "sha256"] rfl (by decide) h

theorem settles_normalizeBackupPlaintextHash (index : Nat) :
    Settles (normalizeBackupPlaintextHash index) (normalizeBackupPlaintextHash index) PlaintextHash.value := by
  intro value row h
  obtain ⟨object, -, h⟩ := bind_eq_ok.1 h
  obtain ⟨name, hname, h⟩ := bind_eq_ok.1 h
  obtain ⟨bytes, hbytes, h⟩ := bind_eq_ok.1 h
  obtain ⟨sha256, hsha256, h⟩ := bind_eq_ok.1 h
  cases h
  have hproperty := PlaintextHash.property_value ⟨name, bytes, sha256⟩
  refine bind_eq_ok.2 ⟨PlaintextHash.value _, rfl, ?_⟩
  refine bind_eq_ok.2 ⟨name, (settles_normalizeSafeFileName _ _).at hname
    (hproperty "name" (.string name) (by simp [PlaintextHash.fields])), ?_⟩
  refine bind_eq_ok.2 ⟨bytes, (settles_positiveInteger _ (Nat.le_refl _)).at hbytes
    (hproperty "bytes" (whole bytes) (by simp [PlaintextHash.fields])), ?_⟩
  exact bind_eq_ok.2 ⟨sha256, (settles_normalizeSha256Hex _).at hsha256
    (hproperty "sha256" (.string sha256.1) (by simp [PlaintextHash.fields])), rfl⟩

theorem settles_normalizeBackupPlaintextHashes :
    Settles normalizeBackupPlaintextHashes normalizeBackupPlaintextHashes
      (fun rows => .array (rows.map PlaintextHash.value)) := by
  intro value rows h
  obtain ⟨values, -, h⟩ := bind_eq_ok.1 h
  obtain ⟨_, hempty, h⟩ := bind_eq_ok.1 h
  have hsame : (rows.map PlaintextHash.value).isEmpty = values.isEmpty := by
    rw [List.isEmpty_map, isEmpty_mapIndexed h]
  refine bind_eq_ok.2 ⟨rows.map PlaintextHash.value, rfl, ?_⟩
  rw [hsame]
  exact bind_eq_ok.2 ⟨⟨⟩, hempty, Settles.mapIndexed settles_normalizeBackupPlaintextHash h⟩

theorem normalizeBackupManifestAttestations_value : normalizeBackupManifestAttestations attestationsValue = .ok () := by
  have hproperty : ∀ key value, (key, value) ∈ attestationsFields → attestationsValue.property key = value := fun key value =>
    property_record ["schema", "protected_columns_entitycrypt", "role_password_material_excluded",
      "bootstrap_roles_separate"] rfl (by decide)
  have hschema : Kept 128 attestationsSchema := kept_of_ends (by decide) (by decide) (by decide) (by decide)
  refine bind_eq_ok.2 ⟨attestationsValue, rfl, ?_⟩
  rw [hproperty "schema" (.string attestationsSchema) (by simp [attestationsFields]),
    hproperty "protected_columns_entitycrypt" (.bool true) (by simp [attestationsFields]),
    hproperty "role_password_material_excluded" (.bool true) (by simp [attestationsFields]),
    hproperty "bootstrap_roles_separate" (.bool true) (by simp [attestationsFields])]
  refine bind_eq_ok.2 ⟨attestationsSchema, hschema.normalize _, ?_⟩
  exact bind_eq_ok.2 ⟨⟨⟩, refuse_eq_ok.2 (decide_eq_false (fun h => h rfl)), rfl⟩

theorem Encryption.property_value (encryption : Encryption) (key : String) (value : Option Value)
    (h : (key, value) ∈ encryption.entries) : encryption.value.property key = value.getD .undefined :=
  property_sparse ["status", "algorithm", "encrypted_archive", "encrypted_bytes", "encrypted_sha256", "round_trip_verified",
    "key_source", "key_vault_name", "secret_name"] rfl (by decide) h

/-- What is missing is written as nothing. -/
def optionalValue {α : Type} (write : α → Value) (a : Option α) : Value := (a.map write).getD .undefined

theorem settles_normalizeBackupManifestEncryption (archive : Archive) :
    Settles (normalizeBackupManifestEncryption · archive) (normalizeBackupManifestEncryption · archive)
      (optionalValue Encryption.value) := by
  intro value encryption h
  beta_reduce at h
  rw [normalizeBackupManifestEncryption] at h
  split at h
  · cases h
    rfl
  obtain ⟨_, hformat, h⟩ := bind_eq_ok.1 h
  obtain ⟨object, -, h⟩ := bind_eq_ok.1 h
  obtain ⟨status, hstatus, h⟩ := bind_eq_ok.1 h
  obtain ⟨_, hstatusKnown, h⟩ := bind_eq_ok.1 h
  obtain ⟨algorithm, halgorithm, h⟩ := bind_eq_ok.1 h
  obtain ⟨_, halgorithmKnown, h⟩ := bind_eq_ok.1 h
  obtain ⟨encryptedArchive, hencryptedArchive, h⟩ := bind_eq_ok.1 h
  obtain ⟨encryptedBytes, hencryptedBytes, h⟩ := bind_eq_ok.1 h
  obtain ⟨encryptedSha256, hencryptedSha256, h⟩ := bind_eq_ok.1 h
  obtain ⟨_, hsame, h⟩ := bind_eq_ok.1 h
  obtain ⟨_, -, h⟩ := bind_eq_ok.1 h
  obtain ⟨keySource, hkeySource, h⟩ := bind_eq_ok.1 h
  obtain ⟨keyVaultName, hkeyVaultName, h⟩ := bind_eq_ok.1 h
  obtain ⟨secretName, hsecretName, h⟩ := bind_eq_ok.1 h
  cases h
  have hproperty := Encryption.property_value ⟨algorithm, encryptedArchive, encryptedBytes, encryptedSha256, keySource,
    keyVaultName, secretName⟩
  have hstatusEq : status = encryptionStatus := of_not_not (of_decide_eq_false (refuse_eq_ok.1 hstatusKnown))
  have hnullish : isNullish (optionalValue Encryption.value (some ⟨algorithm, encryptedArchive, encryptedBytes,
    encryptedSha256, keySource, keyVaultName, secretName⟩)) = false := rfl
  rw [hstatusEq] at hstatus
  refine Eq.trans (if_neg (by rw [hnullish]; decide)) ?_
  refine bind_eq_ok.2 ⟨⟨⟩, hformat, ?_⟩
  refine bind_eq_ok.2 ⟨Encryption.value _, rfl, ?_⟩
  refine bind_eq_ok.2 ⟨encryptionStatus, (settles_normalizeNonEmptyString _ _).at hstatus
    (hproperty "status" (some (.string encryptionStatus)) (by simp [Encryption.entries])), ?_⟩
  refine bind_eq_ok.2 ⟨⟨⟩, refuse_eq_ok.2 (decide_eq_false (fun h => h rfl)), ?_⟩
  refine bind_eq_ok.2 ⟨algorithm, (settles_normalizeNonEmptyString _ _).at halgorithm
    (hproperty "algorithm" (some (.string algorithm)) (by simp [Encryption.entries])), ?_⟩
  refine bind_eq_ok.2 ⟨⟨⟩, halgorithmKnown, ?_⟩
  refine bind_eq_ok.2 ⟨encryptedArchive, (settles_normalizeSafeFileName _ _).at hencryptedArchive
    (hproperty "encrypted_archive" (some (.string encryptedArchive)) (by simp [Encryption.entries])), ?_⟩
  refine bind_eq_ok.2 ⟨encryptedBytes, (settles_positiveInteger _ (Nat.le_refl _)).at hencryptedBytes
    (hproperty "encrypted_bytes" (some (whole encryptedBytes)) (by simp [Encryption.entries])), ?_⟩
  refine bind_eq_ok.2 ⟨encryptedSha256, (settles_normalizeSha256Hex _).at hencryptedSha256
    (hproperty "encrypted_sha256" (some (.string encryptedSha256.1)) (by simp [Encryption.entries])), ?_⟩
  refine bind_eq_ok.2 ⟨⟨⟩, hsame, ?_⟩
  refine bind_eq_ok.2 ⟨⟨⟩, ?_, ?_⟩
  · rw [hproperty "round_trip_verified" (some (.bool true)) (by simp [Encryption.entries])]
    rfl
  refine bind_eq_ok.2 ⟨keySource, (settles_normalizeOptionalString _ _).at hkeySource
    ((hproperty "key_source" (keySource.map .string) (by simp [Encryption.entries])).trans (optional_getD keySource)), ?_⟩
  refine bind_eq_ok.2 ⟨keyVaultName, (settles_normalizeOptionalString _ _).at hkeyVaultName
    ((hproperty "key_vault_name" (keyVaultName.map .string) (by simp [Encryption.entries])).trans
      (optional_getD keyVaultName)), ?_⟩
  exact bind_eq_ok.2 ⟨secretName, (settles_normalizeOptionalString _ _).at hsecretName
    ((hproperty "secret_name" (secretName.map .string) (by simp [Encryption.entries])).trans (optional_getD secretName)), rfl⟩

theorem RestoredDatabase.property_value (row : RestoredDatabase) (key : String) (value : Value)
    (h : (key, value) ∈ row.fields) : row.value.property key = value :=
  property_record ["source_database", "target_database", "restored_bytes", "status"] rfl (by decide) h

theorem settles_normalizeRestoredDatabase (index : Nat) :
    Settles (normalizeRestoredDatabase index) (normalizeRestoredDatabase index) RestoredDatabase.value := by
  intro value row h
  obtain ⟨object, -, h⟩ := bind_eq_ok.1 h
  obtain ⟨sourceDatabase, hsourceDatabase, h⟩ := bind_eq_ok.1 h
  obtain ⟨targetDatabase, htargetDatabase, h⟩ := bind_eq_ok.1 h
  obtain ⟨restoredBytes, hrestoredBytes, h⟩ := bind_eq_ok.1 h
  obtain ⟨status, hstatus, h⟩ := bind_eq_ok.1 h
  cases h
  have hproperty := RestoredDatabase.property_value ⟨sourceDatabase, targetDatabase, restoredBytes, status⟩
  refine bind_eq_ok.2 ⟨RestoredDatabase.value _, rfl, ?_⟩
  refine bind_eq_ok.2 ⟨sourceDatabase, (settles_normalizeNonEmptyString _ _).at hsourceDatabase
    (hproperty "source_database" (.string sourceDatabase) (by simp [RestoredDatabase.fields])), ?_⟩
  refine bind_eq_ok.2 ⟨targetDatabase, (settles_normalizeNonEmptyString _ _).at htargetDatabase
    (hproperty "target_database" (.string targetDatabase) (by simp [RestoredDatabase.fields])), ?_⟩
  refine bind_eq_ok.2 ⟨restoredBytes, (settles_positiveInteger _ (Nat.le_refl _)).at hrestoredBytes
    (hproperty "restored_bytes" (whole restoredBytes) (by simp [RestoredDatabase.fields])), ?_⟩
  exact bind_eq_ok.2 ⟨status, (settles_normalizeNonEmptyString _ _).at hstatus
    (hproperty "status" (.string status) (by simp [RestoredDatabase.fields])), rfl⟩

theorem RestoreTest.property_value (restoreTest : RestoreTest) (key : String) (value : Value)
    (h : (key, value) ∈ restoreTest.fields) : restoreTest.value.property key = value :=
  property_record ["requested", "status", "databases"] rfl (by decide) h

theorem settles_normalizeBackupRestoreEvidence (inventoryRows : List Database) :
    Settles (normalizeBackupRestoreEvidence · inventoryRows) (normalizeBackupRestoreEvidence · inventoryRows)
      RestoreTest.value := by
  intro value restoreTest h
  obtain ⟨object, -, h⟩ := bind_eq_ok.1 h
  obtain ⟨requested, -, h⟩ := bind_eq_ok.1 h
  obtain ⟨status, hstatus, h⟩ := bind_eq_ok.1 h
  obtain ⟨_, hknown, h⟩ := bind_eq_ok.1 h
  obtain ⟨rows, -, h⟩ := bind_eq_ok.1 h
  obtain ⟨databases, hdatabases, h⟩ := bind_eq_ok.1 h
  obtain ⟨_, hpass, h⟩ := bind_eq_ok.1 h
  obtain ⟨_, hlisted, h⟩ := bind_eq_ok.1 h
  obtain ⟨_, hdistinct, h⟩ := bind_eq_ok.1 h
  obtain ⟨_, hcovered, h⟩ := bind_eq_ok.1 h
  obtain ⟨_, hpassed, h⟩ := bind_eq_ok.1 h
  cases h
  have hproperty := RestoreTest.property_value ⟨requested, status, databases⟩
  refine bind_eq_ok.2 ⟨RestoreTest.value _, rfl, ?_⟩
  refine bind_eq_ok.2 ⟨requested, ?_, ?_⟩
  · rw [hproperty "requested" (.bool requested) (by simp [RestoreTest.fields])]
    rfl
  refine bind_eq_ok.2 ⟨status, (settles_normalizeNonEmptyString _ _).at hstatus
    (hproperty "status" (.string status) (by simp [RestoreTest.fields])), ?_⟩
  refine bind_eq_ok.2 ⟨⟨⟩, hknown, ?_⟩
  refine bind_eq_ok.2 ⟨databases.map RestoredDatabase.value, ?_, ?_⟩
  · rw [hproperty "databases" (.array (databases.map RestoredDatabase.value)) (by simp [RestoreTest.fields])]
    rfl
  refine bind_eq_ok.2 ⟨databases, Settles.mapIndexed settles_normalizeRestoredDatabase hdatabases, ?_⟩
  refine bind_eq_ok.2 ⟨⟨⟩, hpass, ?_⟩
  refine bind_eq_ok.2 ⟨⟨⟩, hlisted, ?_⟩
  refine bind_eq_ok.2 ⟨⟨⟩, hdistinct, ?_⟩
  refine bind_eq_ok.2 ⟨⟨⟩, hcovered, ?_⟩
  exact bind_eq_ok.2 ⟨⟨⟩, hpassed, rfl⟩

theorem settles_normalizeExactClaimBoundary (legacyEncryptedArchive : Bool) :
    Settles (normalizeExactClaimBoundary · legacyEncryptedArchive) (normalizeExactClaimBoundary · legacyEncryptedArchive)
      .string := by
  intro value text h
  obtain ⟨_, htext, h⟩ := bind_eq_ok.1 h
  obtain ⟨_, haccepted, h⟩ := bind_eq_ok.1 h
  cases h
  exact bind_eq_ok.2 ⟨text, settles_normalizeNonEmptyString _ _ _ _ htext, bind_eq_ok.2 ⟨⟨⟩, haccepted, rfl⟩⟩

theorem Manifest.property_value (manifest : Manifest) (key : String) (value : Option Value)
    (h : (key, value) ∈ manifest.entries) : manifest.value.property key = value.getD .undefined :=
  property_sparse ["schema", "created_at_utc", "source_container", "source_image", "server_version", "databases",
    "plaintext_file_hashes", "attestations", "restore_test", "claim_boundary", "snapshotGeneration",
    "postgresReceiptWatermark", "encryption"] rfl (by decide) h

theorem manifestSchema_ne_nil {schema : Str} (h : manifestSchemas.contains schema = true) : schema ≠ [] := fun hnil => by
  rw [hnil] at h
  exact absurd h (by decide)

theorem settles_normalizeBackupManifest (platform : Platform) (archive : Archive) :
    Settles (normalizeBackupManifest platform · archive) (normalizeBackupManifest platform · archive) Manifest.value := by
  intro value manifest h
  obtain ⟨object, -, h⟩ := bind_eq_ok.1 h
  obtain ⟨schema, -, h⟩ := bind_eq_ok.1 h
  obtain ⟨_, hschema, h⟩ := bind_eq_ok.1 h
  obtain ⟨databases, hdatabases, h⟩ := bind_eq_ok.1 h
  obtain ⟨_, -, h⟩ := bind_eq_ok.1 h
  obtain ⟨encryption, hencryption, h⟩ := bind_eq_ok.1 h
  obtain ⟨claimBoundary, hclaimBoundary, h⟩ := bind_eq_ok.1 h
  obtain ⟨restoreTest, hrestoreTest, h⟩ := bind_eq_ok.1 h
  obtain ⟨createdAtUtc, hcreatedAtUtc, h⟩ := bind_eq_ok.1 h
  obtain ⟨sourceContainer, hsourceContainer, h⟩ := bind_eq_ok.1 h
  obtain ⟨sourceImage, hsourceImage, h⟩ := bind_eq_ok.1 h
  obtain ⟨serverVersion, hserverVersion, h⟩ := bind_eq_ok.1 h
  obtain ⟨plaintextFileHashes, hplaintextFileHashes, h⟩ := bind_eq_ok.1 h
  obtain ⟨snapshotGeneration, hsnapshotGeneration, h⟩ := bind_eq_ok.1 h
  obtain ⟨postgresReceiptWatermark, hpostgresReceiptWatermark, h⟩ := bind_eq_ok.1 h
  cases h
  have hproperty := Manifest.property_value ⟨schema, createdAtUtc, sourceContainer, sourceImage, serverVersion, databases,
    plaintextFileHashes, restoreTest, claimBoundary, snapshotGeneration, postgresReceiptWatermark, encryption⟩
  have hknown : manifestSchemas.contains schema = true := by
    have h := refuse_eq_ok.1 hschema
    rwa [Bool.not_eq_false'] at h
  refine bind_eq_ok.2 ⟨Manifest.value _, rfl, ?_⟩
  refine bind_eq_ok.2 ⟨schema, ?_, ?_⟩
  · rw [hproperty "schema" (some (.string schema)) (by simp [Manifest.entries])]
    exact textOr_string (manifestSchema_ne_nil hknown) []
  refine bind_eq_ok.2 ⟨⟨⟩, hschema, ?_⟩
  refine bind_eq_ok.2 ⟨databases, settles_normalizeBackupDatabaseInventory.at hdatabases
    (hproperty "databases" (some (.array (databases.map Database.value))) (by simp [Manifest.entries])), ?_⟩
  refine bind_eq_ok.2 ⟨⟨⟩, ?_, ?_⟩
  · rw [hproperty "attestations" (some attestationsValue) (by simp [Manifest.entries])]
    exact normalizeBackupManifestAttestations_value
  refine bind_eq_ok.2 ⟨encryption, (settles_normalizeBackupManifestEncryption archive).at hencryption
    (hproperty "encryption" (encryption.map Encryption.value) (by simp [Manifest.entries])), ?_⟩
  refine bind_eq_ok.2 ⟨claimBoundary, (settles_normalizeExactClaimBoundary _).at hclaimBoundary
    (hproperty "claim_boundary" (some (.string claimBoundary)) (by simp [Manifest.entries])), ?_⟩
  refine bind_eq_ok.2 ⟨restoreTest, (settles_normalizeBackupRestoreEvidence databases).at hrestoreTest
    (hproperty "restore_test" (some restoreTest.value) (by simp [Manifest.entries])), ?_⟩
  refine bind_eq_ok.2 ⟨createdAtUtc, (settles_normalizeIsoTimestamp _ _).at hcreatedAtUtc
    (hproperty "created_at_utc" (some (.string createdAtUtc)) (by simp [Manifest.entries])), ?_⟩
  refine bind_eq_ok.2 ⟨sourceContainer, (settles_normalizeNonEmptyString _ _).at hsourceContainer
    (hproperty "source_container" (some (.string sourceContainer)) (by simp [Manifest.entries])), ?_⟩
  refine bind_eq_ok.2 ⟨sourceImage, (settles_normalizeNonEmptyString _ _).at hsourceImage
    (hproperty "source_image" (some (.string sourceImage)) (by simp [Manifest.entries])), ?_⟩
  refine bind_eq_ok.2 ⟨serverVersion, (settles_normalizeNonEmptyString _ _).at hserverVersion
    (hproperty "server_version" (some (.string serverVersion)) (by simp [Manifest.entries])), ?_⟩
  refine bind_eq_ok.2 ⟨plaintextFileHashes, settles_normalizeBackupPlaintextHashes.at hplaintextFileHashes
    (hproperty "plaintext_file_hashes" (some (.array (plaintextFileHashes.map PlaintextHash.value)))
      (by simp [Manifest.entries])), ?_⟩
  refine bind_eq_ok.2 ⟨snapshotGeneration, (settles_positiveInteger _ (Nat.le_refl _)).at hsnapshotGeneration
    (hproperty "snapshotGeneration" (some (whole snapshotGeneration)) (by simp [Manifest.entries])), ?_⟩
  exact bind_eq_ok.2 ⟨postgresReceiptWatermark,
    (settles_positiveInteger _ (Nat.le_refl _)).at hpostgresReceiptWatermark
      (hproperty "postgresReceiptWatermark" (some (whole postgresReceiptWatermark)) (by simp [Manifest.entries])), rfl⟩

/-! ## The descriptor -/

theorem Descriptor.property_value (descriptor : Descriptor) (key : String) (value : Value)
    (h : (key, value) ∈ descriptor.fields) : descriptor.value.property key = value :=
  property_record ["schema", "manifest", "metadata", "archive", "chunks"] rfl (by decide) h

theorem settles_normalizeBackupDescriptorParts (platform : Platform) {limits limits' : Limits}
    (hlimits : limits.Within limits') :
    Settles (normalizeBackupDescriptorParts platform · limits) (normalizeBackupDescriptorParts platform · limits')
      (fun normalized => normalized.descriptor.value) := by
  intro parts normalized h
  obtain ⟨schema, hschema, h⟩ := bind_eq_ok.1 h
  obtain ⟨_, hknown, h⟩ := bind_eq_ok.1 h
  obtain ⟨archive, harchive, h⟩ := bind_eq_ok.1 h
  obtain ⟨chunks, hchunks, h⟩ := bind_eq_ok.1 h
  obtain ⟨manifest, hmanifest, h⟩ := bind_eq_ok.1 h
  obtain ⟨_, hsize, h⟩ := bind_eq_ok.1 h
  cases h
  have hproperty := Descriptor.property_value ⟨manifest, archive, chunks⟩
  have hschemaEq : schema = backupDescriptorSchema := of_not_not (of_decide_eq_false (refuse_eq_ok.1 hknown))
  rw [hschemaEq] at hschema
  refine bind_eq_ok.2 ⟨backupDescriptorSchema, (settles_normalizeNonEmptyString _ _).at hschema
    (hproperty "schema" (.string backupDescriptorSchema) (by simp [Descriptor.fields])), ?_⟩
  refine bind_eq_ok.2 ⟨⟨⟩, refuse_eq_ok.2 (decide_eq_false (fun h => h rfl)), ?_⟩
  refine bind_eq_ok.2 ⟨archive, (settles_normalizeBackupArchiveMetadata hlimits).at harchive
    (hproperty "archive" archive.value (by simp [Descriptor.fields])), ?_⟩
  refine bind_eq_ok.2 ⟨chunks, (settles_normalizeBackupChunkDescriptors hlimits archive).at hchunks
    (hproperty "chunks" (.array (chunks.map Chunk.value)) (by simp [Descriptor.fields])), ?_⟩
  refine bind_eq_ok.2 ⟨manifest, (settles_normalizeBackupManifest platform archive).at hmanifest ?_, ?_⟩
  · rw [hproperty "manifest" manifest.value (by simp [Descriptor.fields])]
    rfl
  exact bind_eq_ok.2 ⟨⟨⟩, hsize, rfl⟩

/-! ## The text of a descriptor -/

theorem written_some {v : Value} (h : Written v) : ∀ w, some v = some w → Written w := fun _ hw => Option.some.inj hw ▸ h

theorem written_map {α : Type} {write : α → Value} (h : ∀ a, Written (write a)) (o : Option α) :
    ∀ w, o.map write = some w → Written w := fun _ hw => by
  obtain ⟨a, -, rfl⟩ := Option.map_eq_some_iff.1 hw
  exact h a

theorem written_items {α : Type} {write : α → Value} (h : ∀ a, Written (write a)) (l : List α) :
    Written (.array (l.map write)) :=
  written_array (List.forall_mem_map.2 (fun a _ => h a))

theorem Archive.written (archive : Archive) : Written archive.value := by
  refine written_sparse archiveKeys rfl (by decide) ?_
  simp only [Archive.entries, List.forall_mem_cons]
  exact ⟨written_some (written_string _), written_some (written_whole _), written_some (written_string _),
    written_some (written_whole _), written_some (written_whole _), written_some (written_string _),
    written_some (written_string _), written_map written_string _, written_map written_string _, nofun⟩

theorem Chunk.written (chunk : Chunk) : Written chunk.value := by
  refine written_record ["index", "sizeBytes", "sha256"] (List.Sublist.refl _) (by decide) ?_
  simp only [Chunk.fields, List.forall_mem_cons]
  exact ⟨written_whole _, written_whole _, written_string _, nofun⟩

theorem Database.written (database : Database) : Written database.value := by
  refine written_sparse ["name", "bytes", "dump", "oid"] rfl (by decide) ?_
  simp only [Database.entries, List.forall_mem_cons]
  exact ⟨written_some (written_string _), written_some (written_whole _), written_some (written_string _),
    written_map written_whole _, nofun⟩

theorem PlaintextHash.written (row : PlaintextHash) : Written row.value := by
  refine written_record ["name", "bytes", "sha256"] (List.Sublist.refl _) (by decide) ?_
  simp only [PlaintextHash.fields, List.forall_mem_cons]
  exact ⟨written_string _, written_whole _, written_string _, nofun⟩

theorem attestations_written : Written attestationsValue := by
  refine written_record ["schema", "protected_columns_entitycrypt", "role_password_material_excluded",
    "bootstrap_roles_separate"] (List.Sublist.refl _) (by decide) ?_
  simp only [attestationsFields, List.forall_mem_cons]
  exact ⟨written_string _, written_bool _, written_bool _, written_bool _, nofun⟩

theorem Encryption.written (encryption : Encryption) : Written encryption.value := by
  refine written_sparse ["status", "algorithm", "encrypted_archive", "encrypted_bytes", "encrypted_sha256",
    "round_trip_verified", "key_source", "key_vault_name", "secret_name"] rfl (by decide) ?_
  simp only [Encryption.entries, List.forall_mem_cons]
  exact ⟨written_some (written_string _), written_some (written_string _), written_some (written_string _),
    written_some (written_whole _), written_some (written_string _), written_some (written_bool _),
    written_map written_string _, written_map written_string _, written_map written_string _, nofun⟩

theorem RestoredDatabase.written (row : RestoredDatabase) : Written row.value := by
  refine written_record ["source_database", "target_database", "restored_bytes", "status"] (List.Sublist.refl _)
    (by decide) ?_
  simp only [RestoredDatabase.fields, List.forall_mem_cons]
  exact ⟨written_string _, written_string _, written_whole _, written_string _, nofun⟩

theorem RestoreTest.written (restoreTest : RestoreTest) : Written restoreTest.value := by
  refine written_record ["requested", "status", "databases"] (List.Sublist.refl _) (by decide) ?_
  simp only [RestoreTest.fields, List.forall_mem_cons]
  exact ⟨written_bool _, written_string _, written_items RestoredDatabase.written _, nofun⟩

theorem Manifest.written (manifest : Manifest) : Written manifest.value := by
  refine written_sparse ["schema", "created_at_utc", "source_container", "source_image", "server_version", "databases",
    "plaintext_file_hashes", "attestations", "restore_test", "claim_boundary", "snapshotGeneration",
    "postgresReceiptWatermark", "encryption"] rfl (by decide) ?_
  simp only [Manifest.entries, List.forall_mem_cons]
  exact ⟨written_some (written_string _), written_some (written_string _), written_some (written_string _),
    written_some (written_string _), written_some (written_string _), written_some (written_items Database.written _),
    written_some (written_items PlaintextHash.written _), written_some attestations_written,
    written_some (RestoreTest.written _), written_some (written_string _), written_some (written_whole _),
    written_some (written_whole _), written_map Encryption.written _, nofun⟩

theorem Descriptor.written (descriptor : Descriptor) : Written descriptor.value := by
  refine written_record ["schema", "manifest", "metadata", "archive", "chunks"] (List.Sublist.refl _) (by decide) ?_
  simp only [Descriptor.fields, List.forall_mem_cons]
  exact ⟨written_string _, Manifest.written _, Manifest.written _, Archive.written _, written_items Chunk.written _, nofun⟩

/-- The text of a descriptor is read as the descriptor. -/
theorem Descriptor.parse_text (descriptor : Descriptor) : parse descriptor.value.text = some descriptor.value := by
  rw [Js.parse_text descriptor.written.1, descriptor.written.2]

theorem Descriptor.text_ne_nil (descriptor : Descriptor) : descriptor.value.text ≠ [] := fun hnil => by
  have h := descriptor.parse_text
  rw [hnil] at h
  cases h

/-! ## The row -/

theorem boundedInteger_le {value : Value} {fallback min max n : Nat} (h : boundedInteger value fallback min max = .ok n)
    (hfallback : fallback ≤ max) : n ≤ max := by
  obtain ⟨text, -, h⟩ := bind_eq_ok.1 h
  split at h
  · cases h
    split
    · omega
    · exact hfallback
  · cases h
    exact hfallback

theorem createBackupDescriptorLimits_within {env : LimitVariables} {limits : Limits}
    (h : createBackupDescriptorLimits env = .ok limits) : limits.Within storedBackupDescriptorLimits := by
  obtain ⟨maxChunkBytes, hmaxChunkBytes, h⟩ := bind_eq_ok.1 h
  obtain ⟨maxBackupBytes, hmaxBackupBytes, h⟩ := bind_eq_ok.1 h
  obtain ⟨maxBackupChunks, hmaxBackupChunks, h⟩ := bind_eq_ok.1 h
  cases h
  refine ⟨boundedInteger_le hmaxChunkBytes (by decide), ?_, boundedInteger_le hmaxBackupChunks (by decide)⟩
  exact Nat.le_trans (boundedInteger_le hmaxBackupBytes (by decide)) (by decide)

/-- What the normaliser returns is computed from the descriptor. -/
theorem normalized_eq {platform : Platform} {parts : Value} {limits : Limits} {normalized : Normalized}
    (h : normalizeBackupDescriptorParts platform parts limits = .ok normalized) :
    normalized.descriptorJson = normalized.descriptor.value.text ∧
      normalized.descriptorSha256 = platform.sha256HexUtf8 normalized.descriptorJson := by
  obtain ⟨_, -, h⟩ := bind_eq_ok.1 h
  obtain ⟨_, -, h⟩ := bind_eq_ok.1 h
  obtain ⟨archive, -, h⟩ := bind_eq_ok.1 h
  obtain ⟨chunks, -, h⟩ := bind_eq_ok.1 h
  obtain ⟨manifest, -, h⟩ := bind_eq_ok.1 h
  obtain ⟨_, -, h⟩ := bind_eq_ok.1 h
  cases h
  exact ⟨rfl, rfl⟩

/-- A normalised descriptor is read from its row, also where more is allowed. -/
theorem parseStored_of_normalized {platform : Platform} {parts : Value} {limits : Limits} {normalized : Normalized}
    (hlimits : limits.Within storedBackupDescriptorLimits)
    (h : normalizeBackupDescriptorParts platform parts limits = .ok normalized) :
    parseStoredBackupDescriptor platform normalized.row = .ok (some normalized) := by
  obtain ⟨hjson, hsha256⟩ := normalized_eq h
  have hagain : normalizeBackupDescriptorParts platform normalized.descriptor.value storedBackupDescriptorLimits =
    .ok normalized := settles_normalizeBackupDescriptorParts platform hlimits parts normalized h
  have hne : normalized.descriptorJson ≠ [] := by
    rw [hjson]
    exact normalized.descriptor.text_ne_nil
  have hparse : parse normalized.descriptorJson = some normalized.descriptor.value := by
    rw [hjson]
    exact normalized.descriptor.parse_text
  have hself : ∀ digest : HexDigest, refuse (!constantTimeHexEqual digest.1 digest.1) = fun _ => .ok () := fun digest => by
    rw [constantTimeHexEqual_self]
    rfl
  have hmetadata : checkMetadataSha256 (some normalized.metadataSha256.1) normalized = .ok () := by
    obtain ⟨u, rest, hcons⟩ := List.exists_cons_of_ne_nil (digest_ne_nil normalized.metadataSha256)
    rw [hcons, checkMetadataSha256, ← hcons, normalizeSha256Hex_digest]
    · exact bind_eq_ok.2 ⟨_, rfl, congrFun (hself _) _⟩
    · exact List.cons_ne_nil _ _
  rw [parseStoredBackupDescriptor]
  split
  · rename_i hnone
    cases hnone
  · rename_i hnil
    exact absurd (Option.some.inj hnil) hne
  · rename_i text _ htext
    cases htext
    refine bind_eq_ok.2 ⟨normalized.descriptorSha256, normalizeSha256Hex_digest _ _, ?_⟩
    refine bind_eq_ok.2 ⟨⟨⟩, ?_, ?_⟩
    · rw [← hsha256]
      exact congrFun (hself _) _
    rw [hparse]
    refine bind_eq_ok.2 ⟨normalized, hagain, ?_⟩
    refine bind_eq_ok.2 ⟨⟨⟩, congrFun (hself _) _, ?_⟩
    refine bind_eq_ok.2 ⟨⟨⟩, hmetadata, ?_⟩
    refine bind_eq_ok.2 ⟨⟨⟩, refuse_eq_ok.2 (decide_eq_false (fun h => h rfl)), ?_⟩
    exact bind_eq_ok.2 ⟨⟨⟩, refuse_eq_ok.2 (decide_eq_false (fun h => h rfl)), rfl⟩

/-- **An accepted descriptor reads back**: to store it and to read its row is to normalise it. -/
theorem parseStored_parseRequested (platform : Platform) (body : Value) (env : LimitVariables) :
    (do parseStoredBackupDescriptor platform (← parseRequestedBackupDescriptor platform body env).row) =
      some <$> parseRequestedBackupDescriptor platform body env := by
  cases h : parseRequestedBackupDescriptor platform body env with
  | error error => rfl
  | ok normalized =>
    obtain ⟨limits, hlimits, h⟩ := bind_eq_ok.1 h
    exact parseStored_of_normalized (createBackupDescriptorLimits_within hlimits) h

end Backup
end Adg
