import AdgLang.BackupReadBack
import AdgLang.Pieces
import Mathlib.Algebra.BigOperators.Group.List.Basic
/-!
# BackupChunks — the chunks of an archive

The chunks of an accepted descriptor are those of an archive of its size (`sizes_of_accepted`).  `build_chunks` of
`d1_backup_client.py` describes the chunks that it reads, of the size that is configured; `upload` reads chunks of the size
that the descriptor names, which is the largest one's.  Both are the same, and the worker keeps them as they are.
-/
namespace Adg
namespace Backup

open Js Protocol Issues
open Recovery.Lane (StoredDescriptor ArchiveDescriptor ChunkDescriptor)

/-! ## Accepted chunks -/

theorem chunk_of_accepted {archive : Archive} {limits : Limits} {length index : Nat} {value : Value} {chunk : Chunk}
    (h : normalizeBackupChunk archive limits length index value = .ok chunk) :
    chunk.index = index ∧ (1 ≤ chunk.sizeBytes ∧ chunk.sizeBytes ≤ archive.chunkSizeBytes) ∧
      (index + 1 < length → chunk.sizeBytes = archive.chunkSizeBytes) := by
  obtain ⟨object, -, h⟩ := bind_eq_ok.1 h
  obtain ⟨chunkIndex, -, h⟩ := bind_eq_ok.1 h
  obtain ⟨_, hcontiguous, h⟩ := bind_eq_ok.1 h
  obtain ⟨sizeBytes, hsizeBytes, h⟩ := bind_eq_ok.1 h
  obtain ⟨_, hnonFinal, h⟩ := bind_eq_ok.1 h
  obtain ⟨sha256, -, h⟩ := bind_eq_ok.1 h
  cases h
  obtain ⟨hmin, hmax, -⟩ := positiveInteger_spec hsizeBytes
  have hnonFinal := of_decide_eq_false (refuse_eq_ok.1 hnonFinal)
  exact ⟨of_not_not (of_decide_eq_false (refuse_eq_ok.1 hcontiguous)), ⟨hmin, hmax⟩,
    fun hlast => of_not_not (fun hne => hnonFinal ⟨hlast, hne⟩)⟩

/-- What `normalizeBackupChunkDescriptors` accepts: the chunks are numbered and cut an archive of the size that is named. -/
structure CutChunks (archive : Archive) (chunks : List Chunk) : Prop where
  count : chunks.length = archive.chunkCount
  indexes : chunks.map Chunk.index = List.range archive.chunkCount
  sizes : chunks.map Chunk.sizeBytes = pieces archive.chunkSizeBytes archive.sizeBytes

theorem cutChunks_of_accepted {archive : Archive} {limits : Limits} {value : Value} {chunks : List Chunk}
    (h : normalizeBackupChunkDescriptors value archive limits = .ok chunks) : CutChunks archive chunks := by
  obtain ⟨values, -, h⟩ := bind_eq_ok.1 h
  obtain ⟨_, hcount, h⟩ := bind_eq_ok.1 h
  obtain ⟨normalized, hnormalized, h⟩ := bind_eq_ok.1 h
  obtain ⟨_, hsum, h⟩ := bind_eq_ok.1 h
  cases h
  have hlength : chunks.length = values.length := length_mapIndexed hnormalized
  have hcount : chunks.length = archive.chunkCount := by
    rw [hlength]
    exact of_not_not (of_decide_eq_false (refuse_eq_ok.1 hcount))
  have hsum : (chunks.map Chunk.sizeBytes).sum = archive.sizeBytes := of_not_not (of_decide_eq_false (refuse_eq_ok.1 hsum))
  have hat : ∀ (i : Nat) (chunk : Chunk), chunks[i]? = some chunk → chunk.index = i ∧
      (1 ≤ chunk.sizeBytes ∧ chunk.sizeBytes ≤ archive.chunkSizeBytes) ∧
        (i + 1 < values.length → chunk.sizeBytes = archive.chunkSizeBytes) := fun i chunk hchunk => by
    obtain ⟨value, -, hread⟩ := getElem?_mapIndexed hnormalized hchunk
    rw [Nat.zero_add] at hread
    exact chunk_of_accepted hread
  have hsizeAt : ∀ (i n : Nat), (chunks.map Chunk.sizeBytes)[i]? = some n → ∃ chunk, chunks[i]? = some chunk ∧
      chunk.sizeBytes = n := fun i n hn => by
    rw [List.getElem?_map] at hn
    exact Option.map_eq_some_iff.1 hn
  refine ⟨hcount, ?_, ?_⟩
  · refine List.ext_getElem? (fun i => ?_)
    rw [List.getElem?_map]
    rcases hchunk : chunks[i]? with _ | chunk
    · rw [Option.map_none, List.getElem?_eq_none]
      rw [List.length_range, ← hcount]
      exact List.getElem?_eq_none_iff.1 hchunk
    · have hi : i < archive.chunkCount := by
        rw [← hcount]
        exact (List.getElem?_eq_some_iff.1 hchunk).1
      rw [Option.map_some, (hat i chunk hchunk).1, List.getElem?_range hi]
  · rw [← hsum]
    refine eq_pieces (fun i n hn => ?_) (fun i n hn hi => ?_)
    · obtain ⟨chunk, hchunk, rfl⟩ := hsizeAt i n hn
      exact (hat i chunk hchunk).2.1
    · obtain ⟨chunk, hchunk, rfl⟩ := hsizeAt i n hn
      rw [List.length_map, hlength] at hi
      exact (hat i chunk hchunk).2.2 hi

/-- The columns of the descriptor that the backup lane keeps; a digest is a text of characters there. -/
def HexDigest.text (digest : HexDigest) : Text := digest.1.map (fun u => Char.ofNat u.toNat)

theorem archive_of_accepted {limits : Limits} {value : Value} {archive : Archive}
    (h : normalizeBackupArchiveMetadata value limits = .ok archive) : 1 ≤ archive.chunkCount ∧ 1 ≤ archive.chunkSizeBytes := by
  obtain ⟨object, -, h⟩ := bind_eq_ok.1 h
  obtain ⟨fileName, -, h⟩ := bind_eq_ok.1 h
  obtain ⟨format, -, h⟩ := bind_eq_ok.1 h
  obtain ⟨database, -, h⟩ := bind_eq_ok.1 h
  obtain ⟨sizeBytes, -, h⟩ := bind_eq_ok.1 h
  obtain ⟨sha256, -, h⟩ := bind_eq_ok.1 h
  obtain ⟨chunkCount, hchunkCount, h⟩ := bind_eq_ok.1 h
  obtain ⟨chunkSizeBytes, hchunkSizeBytes, h⟩ := bind_eq_ok.1 h
  obtain ⟨contentType, -, h⟩ := bind_eq_ok.1 h
  obtain ⟨encryptionFormat, -, h⟩ := bind_eq_ok.1 h
  cases h
  exact ⟨(positiveInteger_spec hchunkCount).1, (positiveInteger_spec hchunkSizeBytes).1⟩

theorem descriptor_of_accepted {platform : Platform} {parts : Value} {limits : Limits} {normalized : Normalized}
    (h : normalizeBackupDescriptorParts platform parts limits = .ok normalized) :
    CutChunks normalized.descriptor.archive normalized.descriptor.chunks ∧
      1 ≤ normalized.descriptor.archive.chunkCount ∧ 1 ≤ normalized.descriptor.archive.chunkSizeBytes := by
  obtain ⟨_, -, h⟩ := bind_eq_ok.1 h
  obtain ⟨_, -, h⟩ := bind_eq_ok.1 h
  obtain ⟨archive, harchive, h⟩ := bind_eq_ok.1 h
  obtain ⟨chunks, hchunks, h⟩ := bind_eq_ok.1 h
  obtain ⟨manifest, -, h⟩ := bind_eq_ok.1 h
  obtain ⟨_, -, h⟩ := bind_eq_ok.1 h
  cases h
  exact ⟨cutChunks_of_accepted hchunks, archive_of_accepted harchive⟩

/-- An accepted descriptor as the backup lane has it. -/
def Normalized.stored (normalized : Normalized) (hchunks : CutChunks normalized.descriptor.archive normalized.descriptor.chunks)
    (hcount : 1 ≤ normalized.descriptor.archive.chunkCount)
    (hsize : 1 ≤ normalized.descriptor.archive.chunkSizeBytes) : StoredDescriptor where
  archive := ⟨normalized.descriptor.archive.sizeBytes, normalized.descriptor.archive.chunkCount,
    HexDigest.text normalized.descriptor.archive.sha256⟩
  chunks := normalized.descriptor.chunks.map (fun chunk => ⟨chunk.index, chunk.sizeBytes, HexDigest.text chunk.sha256⟩)
  snapshotCoverage := normalized.snapshotCoverage
  chunks_index := by
    rw [List.map_map]
    exact hchunks.indexes
  chunks_size := by
    have hsum := sum_pieces hsize normalized.descriptor.archive.sizeBytes
    rw [← hchunks.sizes] at hsum
    rw [List.map_map]
    exact hsum
  chunkCount_pos := hcount

/-- The descriptor that a later request reads from the row of an accepted one, as the backup lane has it. -/
def storedDescriptor (platform : Platform) (parts : Value) (limits : Limits) : Except NormalizeError StoredDescriptor :=
  match h : normalizeBackupDescriptorParts platform parts limits with
  | .error error => .error error
  | .ok normalized =>
    let hcut := descriptor_of_accepted h
    .ok (normalized.stored hcut.1 hcut.2.1 hcut.2.2)

/-! ## The client -/

/-- A file whose size is a number that JSON keeps. -/
abbrev File := { bytes : List UInt8 // bytes.length ≤ maxSafeInteger }

/-- `MAX_CHUNK_BYTES` of the client. -/
def clientMaxChunkBytes : Int := 512 * 1024

def describe (sha256 : List UInt8 → HexDigest) (index : Nat) (chunk : List UInt8) : Chunk :=
  ⟨index, chunk.length, sha256 chunk⟩

structure ArchiveChunks where
  archiveSha256 : HexDigest
  archiveSize : Nat
  chunks : List Chunk
deriving DecidableEq

/-- `build_chunks`; the limits are what `int` reads in the environment. -/
def buildChunks (sha256 : List UInt8 → HexDigest) (archive : File) (chunkBytes maxTotalBytes maxChunks : Int) :
    Except Str ArchiveChunks :=
  if chunkBytes < 64 * 1024 ∨ clientMaxChunkBytes < chunkBytes then
    .error (str "Chunk size must be between 65536 and 524288 bytes.")
  else if archive.1.length < 1 ∨ maxTotalBytes < archive.1.length then
    .error (str "Encrypted archive exceeds the bounded total cap: " ++ natStr archive.1.length)
  else
    let chunks := (cut chunkBytes.toNat archive.1).mapIdx (describe sha256)
    if chunks.isEmpty ∨ maxChunks < chunks.length then
      .error (str "Encrypted archive chunk count exceeds the bounded cap.")
    else .ok ⟨sha256 archive.1, archive.1.length, chunks⟩

/-- `max` of the sizes of the chunks. -/
def largestChunk (chunks : List Chunk) : Nat := (chunks.map Chunk.sizeBytes).max?.getD 0

/-- The texts of the archive that the arguments give. -/
structure ArchiveNames where
  database : Str
  format : Str
  fileName : Str
  encryptionFormat : Str

/-- The archive of `build_upload_spec`. -/
def uploadFields (names : ArchiveNames) (built : ArchiveChunks) : List (String × Value) :=
  [("database", .string names.database), ("format", .string names.format), ("fileName", .string names.fileName),
    ("sizeBytes", whole built.archiveSize), ("sha256", .string built.archiveSha256.1),
    ("chunkCount", whole built.chunks.length), ("chunkSizeBytes", whole (largestChunk built.chunks)),
    ("contentType", .string (str "application/octet-stream")), ("encryptionFormat", .string names.encryptionFormat)]

def uploadArchive (names : ArchiveNames) (built : ArchiveChunks) : Value := record (uploadFields names built)

theorem largestChunk_spec {chunks : List Chunk} (hne : chunks ≠ []) :
    largestChunk chunks ∈ chunks.map Chunk.sizeBytes ∧ ∀ n ∈ chunks.map Chunk.sizeBytes, n ≤ largestChunk chunks := by
  have hsome : (chunks.map Chunk.sizeBytes).max? = some (largestChunk chunks) := by
    rw [largestChunk]
    cases hmax : (chunks.map Chunk.sizeBytes).max? with
    | none =>
      rw [List.max?_eq_none_iff, List.map_eq_nil_iff] at hmax
      exact absurd hmax hne
    | some n => rfl
  exact List.max?_eq_some_iff.1 hsome

theorem positiveInteger_whole_eq {n m min max : Nat} {fieldName : String} (hn : n ≤ maxSafeInteger)
    (h : positiveInteger (whole n) fieldName min max = .ok m) : m = n ∧ n ≤ max := by
  obtain ⟨text, htext, hparsed⟩ := bind_eq_ok.1 h
  cases htext
  rw [parseInt_whole hn] at hparsed
  obtain ⟨-, hmax, -⟩ := positiveInteger_spec h
  split at hparsed
  · rename_i parsed heq
    cases heq
    split at hparsed
    · cases hparsed
    · cases hparsed
      exact ⟨rfl, hmax⟩
  · rename_i heq
    cases heq

/-- What `build_chunks` returned describes the pieces of the archive. -/
theorem buildChunks_spec {sha256 : List UInt8 → HexDigest} {archive : File} {chunkBytes maxTotalBytes maxChunks : Int}
    {built : ArchiveChunks} (h : buildChunks sha256 archive chunkBytes maxTotalBytes maxChunks = .ok built) :
    0 < chunkBytes.toNat ∧ chunkBytes.toNat ≤ maxSafeInteger ∧ built.chunks ≠ [] ∧
      built = ⟨sha256 archive.1, archive.1.length, (cut chunkBytes.toNat archive.1).mapIdx (describe sha256)⟩ := by
  rw [buildChunks] at h
  split at h
  · cases h
  rename_i hbytes
  split at h
  · cases h
  dsimp only at h
  split at h
  · cases h
  rename_i hchunks
  cases h
  have hsafe : clientMaxChunkBytes ≤ (maxSafeInteger : Int) := by decide
  refine ⟨by omega, by omega, fun hnil => hchunks (Or.inl ?_), rfl⟩
  rw [List.isEmpty_iff]
  exact hnil

theorem sizes_describe (sha256 : List UInt8 → HexDigest) (l : List (List UInt8)) :
    (l.mapIdx (describe sha256)).map Chunk.sizeBytes = l.map List.length :=
  List.ext_getElem? (fun i => by simp [describe, Function.comp_def])

theorem indexes_describe (sha256 : List UInt8 → HexDigest) (l : List (List UInt8)) :
    (l.mapIdx (describe sha256)).map Chunk.index = List.range l.length := by
  refine List.ext_getElem (by simp) (fun i hi hi' => ?_)
  rw [List.getElem_map, List.getElem_mapIdx, List.getElem_range]
  rfl

theorem length_pieces_le (size total : Nat) : (pieces size total).length ≤ total := by
  rcases Nat.eq_zero_or_pos size with rfl | hsize
  · rw [pieces_zero_size]
    exact Nat.zero_le total
  · have h := List.length_le_sum_of_one_le (pieces size total) (fun n hn => (mem_pieces hn).1)
    rwa [sum_pieces hsize] at h

/-- The numbers of the archive that the client describes. -/
theorem uploadArchive_numbers {names : ArchiveNames} {built : ArchiveChunks} {limits : Limits} {archive : Archive}
    (hsize : built.archiveSize ≤ maxSafeInteger) (hcount : built.chunks.length ≤ maxSafeInteger)
    (hlargest : largestChunk built.chunks ≤ maxSafeInteger)
    (h : normalizeBackupArchiveMetadata (uploadArchive names built) limits = .ok archive) :
    archive.sizeBytes = built.archiveSize ∧ archive.sha256 = built.archiveSha256 ∧
      archive.chunkCount = built.chunks.length ∧ archive.chunkSizeBytes = largestChunk built.chunks ∧
      built.chunks.length ≤ limits.maxBackupChunks := by
  obtain ⟨object, hobject, h⟩ := bind_eq_ok.1 h
  obtain ⟨fileName, -, h⟩ := bind_eq_ok.1 h
  obtain ⟨format, -, h⟩ := bind_eq_ok.1 h
  obtain ⟨database, -, h⟩ := bind_eq_ok.1 h
  obtain ⟨sizeBytes, hsizeBytes, h⟩ := bind_eq_ok.1 h
  obtain ⟨sha256, hsha256, h⟩ := bind_eq_ok.1 h
  obtain ⟨chunkCount, hchunkCount, h⟩ := bind_eq_ok.1 h
  obtain ⟨chunkSizeBytes, hchunkSizeBytes, h⟩ := bind_eq_ok.1 h
  obtain ⟨contentType, -, h⟩ := bind_eq_ok.1 h
  obtain ⟨encryptionFormat, -, h⟩ := bind_eq_ok.1 h
  cases h
  cases hobject
  have hproperty : ∀ key value, (key, value) ∈ uploadFields names built →
      (uploadArchive names built).property key = value := fun key value hmem =>
    property_record ["database", "format", "fileName", "sizeBytes", "sha256", "chunkCount", "chunkSizeBytes",
      "contentType", "encryptionFormat"] rfl (by decide) hmem
  have hsizeBytes : positiveInteger ((uploadArchive names built).property "sizeBytes") _ _ _ = .ok sizeBytes := hsizeBytes
  have hsha256 : normalizeSha256Hex ((uploadArchive names built).property "sha256") _ = .ok sha256 := hsha256
  have hchunkCount : positiveInteger ((uploadArchive names built).property "chunkCount") _ _ _ = .ok chunkCount :=
    hchunkCount
  have hchunkSizeBytes : positiveInteger ((uploadArchive names built).property "chunkSizeBytes") _ _ _ =
    .ok chunkSizeBytes := hchunkSizeBytes
  rw [hproperty "sizeBytes" (whole built.archiveSize) (by simp [uploadFields])] at hsizeBytes
  rw [hproperty "sha256" (.string built.archiveSha256.1) (by simp [uploadFields]), normalizeSha256Hex_digest] at hsha256
  rw [hproperty "chunkCount" (whole built.chunks.length) (by simp [uploadFields])] at hchunkCount
  rw [hproperty "chunkSizeBytes" (whole (largestChunk built.chunks)) (by simp [uploadFields])] at hchunkSizeBytes
  obtain ⟨hcountEq, hmaxChunks⟩ := positiveInteger_whole_eq hcount hchunkCount
  exact ⟨(positiveInteger_whole_eq hsize hsizeBytes).1, (Except.ok.inj hsha256).symm, hcountEq,
    (positiveInteger_whole_eq hlargest hchunkSizeBytes).1, hmaxChunks⟩

/-- Chunks that cut an archive are accepted as they are. -/
theorem CutChunks.normalize {archive : Archive} {limits : Limits} {chunks : List Chunk} (h : CutChunks archive chunks)
    (hsize : 1 ≤ archive.chunkSizeBytes) (hsafe : archive.chunkSizeBytes ≤ maxSafeInteger)
    (hcount : chunks.length ≤ limits.maxBackupChunks) (hcountSafe : chunks.length ≤ maxSafeInteger) :
    normalizeBackupChunkDescriptors (.array (chunks.map Chunk.value)) archive limits = .ok chunks := by
  refine bind_eq_ok.2 ⟨chunks.map Chunk.value, rfl, ?_⟩
  refine bind_eq_ok.2 ⟨⟨⟩, refuse_eq_ok.2 (decide_eq_false (not_not.2 ?_)), ?_⟩
  · rw [List.length_map, h.count]
  refine bind_eq_ok.2 ⟨chunks, mapIndexed_map (fun i chunk hchunk => ?_), ?_⟩
  · have hi : i < chunks.length := (List.getElem?_eq_some_iff.1 hchunk).1
    have hindex : chunk.index = i := by
      have hat : (chunks.map Chunk.index)[i]? = some chunk.index := by rw [List.getElem?_map, hchunk, Option.map_some]
      rw [h.indexes, List.getElem?_range (by rw [← h.count]; exact hi)] at hat
      exact (Option.some.inj hat).symm
    have hsizeAt : (pieces archive.chunkSizeBytes archive.sizeBytes)[i]? = some chunk.sizeBytes := by
      rw [← h.sizes, List.getElem?_map, hchunk, Option.map_some]
    obtain ⟨hpos, hle⟩ := mem_pieces (List.mem_of_getElem? hsizeAt)
    have hproperty := Chunk.property_value chunk
    rw [Nat.zero_add]
    refine bind_eq_ok.2 ⟨chunk.value, rfl, ?_⟩
    refine bind_eq_ok.2 ⟨chunk.index, ?_, ?_⟩
    · rw [hproperty "index" (whole chunk.index) (by simp [Chunk.fields])]
      exact positiveInteger_whole (Nat.zero_le _) (by omega) (by omega)
    refine bind_eq_ok.2 ⟨⟨⟩, refuse_eq_ok.2 (decide_eq_false (not_not.2 hindex)), ?_⟩
    refine bind_eq_ok.2 ⟨chunk.sizeBytes, ?_, ?_⟩
    · rw [hproperty "sizeBytes" (whole chunk.sizeBytes) (by simp [Chunk.fields])]
      exact positiveInteger_whole hpos hle (by omega)
    refine bind_eq_ok.2 ⟨⟨⟩, refuse_eq_ok.2 (decide_eq_false ?_), ?_⟩
    · rintro ⟨hlast, hne⟩
      refine hne (getElem?_pieces hsizeAt ?_)
      rwa [← h.sizes, List.length_map, ← List.length_map (f := Chunk.value)]
    · refine bind_eq_ok.2 ⟨chunk.sha256, ?_, rfl⟩
      rw [hproperty "sha256" (.string chunk.sha256.1) (by simp [Chunk.fields])]
      exact normalizeSha256Hex_digest _ _
  · refine bind_eq_ok.2 ⟨⟨⟩, refuse_eq_ok.2 (decide_eq_false (not_not.2 ?_)), rfl⟩
    rw [h.sizes, sum_pieces hsize]

/-- **The client and the worker have the same chunks.**  If the worker takes the archive that the client describes, it
takes the chunks as the client described them, and the client reads these chunks again when it uploads. -/
theorem chunks_kept (sha256 : List UInt8 → HexDigest) (file : File) (chunkBytes maxTotalBytes maxChunks : Int)
    (names : ArchiveNames) (limits : Limits) (built : ArchiveChunks) (archive : Archive)
    (hbuilt : buildChunks sha256 file chunkBytes maxTotalBytes maxChunks = .ok built)
    (harchive : normalizeBackupArchiveMetadata (uploadArchive names built) limits = .ok archive) :
    archive.sizeBytes = file.1.length ∧ archive.sha256 = sha256 file.1 ∧
      normalizeBackupChunkDescriptors (.array (built.chunks.map Chunk.value)) archive limits = .ok built.chunks ∧
      (cut archive.chunkSizeBytes file.1).mapIdx (describe sha256) = built.chunks ∧
      (cut archive.chunkSizeBytes file.1).flatten = file.1 := by
  obtain ⟨hpos, hsafe, hne, heq⟩ := buildChunks_spec hbuilt
  have hchunks : built.chunks = (cut chunkBytes.toNat file.1).mapIdx (describe sha256) := by rw [heq]
  have hsizes : built.chunks.map Chunk.sizeBytes = (cut chunkBytes.toNat file.1).map List.length := by
    rw [hchunks, sizes_describe]
  obtain ⟨hmem, hlargest⟩ := largestChunk_spec hne
  rw [hsizes] at hmem hlargest
  have hcut : cut (largestChunk built.chunks) file.1 = cut chunkBytes.toNat file.1 := cut_max hpos hmem hlargest
  rw [lengths_cut hpos] at hmem hsizes
  obtain ⟨hone, hle⟩ := mem_pieces hmem
  have hlength : built.chunks.length ≤ maxSafeInteger := by
    rw [← List.length_map (f := Chunk.sizeBytes), hsizes]
    exact Nat.le_trans (length_pieces_le _ _) file.2
  obtain ⟨hsizeBytes, hsha256, hcount, hchunkSize, hmaxChunks⟩ := uploadArchive_numbers (by rw [heq]; exact file.2) hlength
    (Nat.le_trans hle hsafe) harchive
  have hsizeBytes : archive.sizeBytes = file.1.length := by rw [hsizeBytes, heq]
  have hsha256 : archive.sha256 = sha256 file.1 := by rw [hsha256, heq]
  have hcutChunks : CutChunks archive built.chunks := by
    refine ⟨hcount.symm, ?_, ?_⟩
    · rw [hcount, hchunks, List.length_mapIdx]
      exact indexes_describe sha256 _
    · rw [hsizes, hchunkSize, hsizeBytes, ← lengths_cut hpos, ← hcut, lengths_cut hone]
  rw [hchunkSize, hcut]
  refine ⟨hsizeBytes, hsha256, ?_, hchunks.symm, flatten_cut hpos _⟩
  exact hcutChunks.normalize (by rw [hchunkSize]; exact hone) (by rw [hchunkSize]; exact Nat.le_trans hle hsafe) hmaxChunks
    hlength

def sampleFile : File := ⟨[0x50, 0x47, 0x44, 0x4D, 0x50], by decide⟩

def sampleDigest : HexDigest := ⟨str "b5a26a21290c39819235a235b8ed66b3bd98ed90c8316c8949bfbb7419cac878", by decide⟩

def sampleNames : ArchiveNames := ⟨str "cpoly_d1", str "postgres-custom", str "cpoly.dump", str "none"⟩

def sampleBuilt : ArchiveChunks := ⟨sampleDigest, 5, [⟨0, 5, sampleDigest⟩]⟩

def sampleArchive : Archive :=
  ⟨str "cpoly.dump", 5, sampleDigest, 1, 5, str "application/octet-stream", .unencrypted, some (str "cpoly_d1"),
    some (str "postgres-custom")⟩

theorem chunks_kept_sample :
    buildChunks (fun _ => sampleDigest) sampleFile (512 * 1024) (32 * 1024 * 1024) 512 = .ok sampleBuilt ∧
      normalizeBackupArchiveMetadata (uploadArchive sampleNames sampleBuilt) storedBackupDescriptorLimits =
        .ok sampleArchive ∧
      normalizeBackupChunkDescriptors (.array (sampleBuilt.chunks.map Chunk.value)) sampleArchive
        storedBackupDescriptorLimits = .ok sampleBuilt.chunks := by
  have hbuilt : buildChunks (fun _ => sampleDigest) sampleFile (512 * 1024) (32 * 1024 * 1024) 512 = .ok sampleBuilt := by
    decide +kernel
  have harchive : normalizeBackupArchiveMetadata (uploadArchive sampleNames sampleBuilt) storedBackupDescriptorLimits =
    .ok sampleArchive := by decide +kernel
  exact ⟨hbuilt, harchive, (chunks_kept _ _ _ _ _ sampleNames _ _ _ hbuilt harchive).2.2.1⟩

end Backup
end Adg
