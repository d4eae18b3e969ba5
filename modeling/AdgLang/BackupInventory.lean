import AdgLang.BackupRequests
/-!
# BackupInventory — the inventory and the counters of a backup set

The counters of a set are written as absolute values that were computed from a row read before the object was put.  A
chunk is only stored where no row has its index, the rows of a set stay while the set does, and the counters of a set
that is uploading never fall: so an upload that goes through has read the counters as they are (`Sound.insertChunk`).
-/
namespace Adg
namespace Recovery
namespace Lane

/-! ## What the tables account for -/

/-- A chunk of this size and hash is declared at an index. -/
def StoredDescriptor.Declares (descriptor : StoredDescriptor) (index sizeBytes : Nat) (sha256 : Text) : Prop :=
  ∃ chunk, descriptor.chunks[index]? = some chunk ∧ sizeBytes = chunk.sizeBytes ∧ sha256 = chunk.sha256

def InventoryRow.Declared (descriptor : StoredDescriptor) (row : InventoryRow) : Prop :=
  descriptor.Declares row.chunkIndex row.plaintextSizeBytes row.plaintextSha256

/-- The counters of a set are those of its rows. -/
structure StoredSet.Counts (inventory : List InventoryRow) (set : StoredSet) : Prop where
  indexes : (rowsOf set.id inventory).map InventoryRow.chunkIndex = List.range set.uploadedChunks
  bytes : set.uploadedBytes = ((rowsOf set.id inventory).map InventoryRow.plaintextSizeBytes).sum

/-- Chunks that were read for rows of the inventory, with the bytes that were put under their keys. -/
def Store.Holds (st : Store) (backupId : Text) (chunks : List StoredChunk) : Prop :=
  ∀ chunk ∈ chunks, chunk.row ∈ st.listed ∧ chunk.row.backupId = backupId ∧ (chunk.row.kvKey, chunk.bytes) ∈ st.objects

/-- The contents that a set was verified with. -/
structure StoredSet.VerifiedWith (env : LaneEnv) (st : Store) (set : StoredSet) (chunks : List StoredChunk) : Prop where
  indexes : chunks.map (fun chunk => chunk.row.chunkIndex) = List.range set.descriptor.archive.chunkCount
  holds : st.Holds set.id chunks
  length : (chunks.flatMap StoredChunk.bytes).length = set.descriptor.archive.sizeBytes
  digest : env.sha256 (chunks.flatMap StoredChunk.bytes) = set.descriptor.archive.sha256

/-- **The inventory accounts for the sets**: the counters of a set that is uploading are those of its rows, which are the
declared ones, and a complete set has all rows and was verified with its archive. -/
structure Store.Accounts (env : LaneEnv) (st : Store) : Prop where
  uploading : ∀ set ∈ st.sets, set.status = .uploading →
    set.Counts st.inventory ∧ ∀ row ∈ rowsOf set.id st.inventory, row.Declared set.descriptor
  complete : ∀ set ∈ st.sets, set.status = .complete →
    (rowsOf set.id st.inventory).map InventoryRow.chunkIndex = List.range set.descriptor.archive.chunkCount ∧
      ∃ chunks, (set.id, chunks) ∈ st.verified ∧ set.VerifiedWith env st chunks

/-! ## The invariant of the tables -/

def StoredSet.Live (set : StoredSet) : Prop := set.status = .uploading ∨ set.status = .complete

structure StoredSet.Finished (env : LaneEnv) (st : Store) (set : StoredSet) : Prop where
  chunks : set.uploadedChunks = set.descriptor.archive.chunkCount
  verified : ∃ chunks, (set.id, chunks) ∈ st.verified ∧ set.VerifiedWith env st chunks

structure Sound (env : LaneEnv) (st : Store) : Prop where
  keyed : Table.Keyed StoredSet.id st.sets
  created : ∀ set ∈ st.sets, set.id ∈ st.created
  rowsCreated : ∀ row ∈ st.inventory, row.backupId ∈ st.created
  rowsListed : ∀ row ∈ st.inventory, row ∈ st.listed
  declared : ∀ set ∈ st.sets, ∀ row ∈ rowsOf set.id st.inventory, row.Declared set.descriptor
  counts : ∀ set ∈ st.sets, set.Live → set.Counts st.inventory
  complete : ∀ set ∈ st.sets, set.status = .complete → set.Finished env st

theorem Sound.start (env : LaneEnv) (clock : Nat) : Sound env (.start clock) where
  keyed := List.nodup_nil
  created := fun _ h => nomatch h
  rowsCreated := fun _ h => nomatch h
  rowsListed := fun _ h => nomatch h
  declared := fun _ h => nomatch h
  counts := fun _ h => nomatch h
  complete := fun _ h => nomatch h

/-- A set and what may become of it. -/
structure StoredSet.Becomes (set set' : StoredSet) : Prop where
  id : set'.id = set.id
  descriptor : set'.descriptor = set.descriptor
  uploading : set'.status = .uploading → set.status = .uploading
  live : set'.Live → set.Live
  chunks : set'.Live → set.uploadedChunks ≤ set'.uploadedChunks
  bytes : set'.Live → set'.uploadedChunks = set.uploadedChunks → set'.uploadedBytes = set.uploadedBytes

theorem StoredSet.Becomes.refl (set : StoredSet) : set.Becomes set :=
  ⟨rfl, rfl, fun h => h, fun h => h, fun _ => Nat.le_refl _, fun _ _ => rfl⟩

/-- What is kept from a store to a later one. -/
structure Evolves (st st' : Store) : Prop where
  created : ∀ id ∈ st.created, id ∈ st'.created
  listed : ∀ row ∈ st.listed, row ∈ st'.listed
  objects : ∀ object ∈ st.objects, object ∈ st'.objects
  sets : ∀ set' ∈ st'.sets, set'.id ∈ st.created → ∃ set ∈ st.sets, set.Becomes set'

section

variable {env : LaneEnv} {st st' : Store}

theorem Evolves.of_sets (hsets : ∀ set' ∈ st'.sets, ∃ set ∈ st.sets, set.Becomes set')
    (hcreated : st'.created = st.created) (hlisted : ∀ row ∈ st.listed, row ∈ st'.listed)
    (hobjects : ∀ object ∈ st.objects, object ∈ st'.objects) : Evolves st st' :=
  ⟨fun _ h => hcreated ▸ h, hlisted, hobjects, fun set' h _ => hsets set' h⟩

theorem evolves_updateStored {p : StoredSet → Bool} {f : StoredSet → StoredSet}
    (hf : ∀ set ∈ st.sets, p set = true → set.Becomes (f set)) :
    ∀ set' ∈ (updateStored p f st).sets, ∃ set ∈ st.sets, set.Becomes set' := by
  intro set' hset'
  obtain ⟨set, hset, rfl⟩ := Table.mem_update.1 hset'
  refine ⟨set, hset, ?_⟩
  cases hp : p set with
  | false => exact .refl set
  | true => exact hf set hset hp

theorem Store.Holds.mono (hlisted : ∀ row ∈ st.listed, row ∈ st'.listed)
    (hobjects : ∀ object ∈ st.objects, object ∈ st'.objects) {backupId : Text} {chunks : List StoredChunk}
    (h : st.Holds backupId chunks) : st'.Holds backupId chunks := by
  intro chunk hchunk
  obtain ⟨hrow, hid, hbytes⟩ := h chunk hchunk
  exact ⟨hlisted _ hrow, hid, hobjects _ hbytes⟩

theorem StoredSet.Finished.mono (hlisted : ∀ row ∈ st.listed, row ∈ st'.listed)
    (hobjects : ∀ object ∈ st.objects, object ∈ st'.objects)
    (hverified : ∀ entry ∈ st.verified, entry ∈ st'.verified) {set set' : StoredSet} (h : set.Finished env st)
    (hid : set'.id = set.id) (hdescriptor : set'.descriptor = set.descriptor)
    (hchunks : set'.uploadedChunks = set.uploadedChunks) : set'.Finished env st' := by
  obtain ⟨chunks, hmem, hwith⟩ := h.verified
  refine ⟨by rw [hchunks, hdescriptor, h.chunks], chunks, hverified _ (hid ▸ hmem), ?_⟩
  constructor
  · rw [hdescriptor, hwith.indexes]
  · rw [hid]
    exact hwith.holds.mono hlisted hobjects
  · rw [hdescriptor, hwith.length]
  · rw [hdescriptor, hwith.digest]

/-- **The invariant where sets only change what does not count**: each set comes from one with the same counters and the
same rows. -/
theorem Sound.refit (h : Sound env st) (hkeyed : Table.Keyed StoredSet.id st'.sets)
    (hcreated : st'.created = st.created) (hlisted : st'.listed = st.listed)
    (hinventory : ∀ row ∈ st'.inventory, row ∈ st.inventory)
    (hsets : ∀ set' ∈ st'.sets, rowsOf set'.id st'.inventory = rowsOf set'.id st.inventory ∧
      ∃ set ∈ st.sets, set.Becomes set' ∧ set'.uploadedChunks = set.uploadedChunks)
    (hcomplete : ∀ set' ∈ st'.sets, set'.status = .complete → set'.Finished env st') : Sound env st' where
  keyed := hkeyed
  created := by
    intro set' hset'
    obtain ⟨-, set, hset, hbecomes, -⟩ := hsets set' hset'
    rw [hcreated, hbecomes.id]
    exact h.created set hset
  rowsCreated := fun row hrow => hcreated ▸ h.rowsCreated row (hinventory row hrow)
  rowsListed := fun row hrow => hlisted ▸ h.rowsListed row (hinventory row hrow)
  declared := by
    intro set' hset' row hrow
    obtain ⟨hrows, set, hset, hbecomes, -⟩ := hsets set' hset'
    rw [hrows, hbecomes.id] at hrow
    rw [hbecomes.descriptor]
    exact h.declared set hset row hrow
  counts := by
    intro set' hset' hlive
    obtain ⟨hrows, set, hset, hbecomes, hchunks⟩ := hsets set' hset'
    have hcounts := h.counts set hset (hbecomes.live hlive)
    constructor
    · rw [hrows, hbecomes.id, hchunks, hcounts.indexes]
    · rw [hrows, hbecomes.id, hbecomes.bytes hlive hchunks, hcounts.bytes]
  complete := hcomplete

/-- An update of sets that stay as they count, of which none becomes complete. -/
theorem Sound.updateStored (h : Sound env st) {p : StoredSet → Bool} {f : StoredSet → StoredSet}
    (hf : ∀ set ∈ st.sets, p set = true →
      set.Becomes (f set) ∧ (f set).uploadedChunks = set.uploadedChunks ∧ ((f set).status = .complete → set.status = .complete))
    (hid : ∀ set, (f set).id = set.id) : Sound env (updateStored p f st) := by
  have hsets : ∀ set' ∈ (Lane.updateStored p f st).sets, ∃ set ∈ st.sets,
      set.Becomes set' ∧ set'.uploadedChunks = set.uploadedChunks ∧ (set'.status = .complete → set.status = .complete) := by
    intro set' hset'
    obtain ⟨set, hset, rfl⟩ := Table.mem_update.1 hset'
    refine ⟨set, hset, ?_⟩
    cases hp : p set with
    | false => exact ⟨.refl set, rfl, id⟩
    | true => exact hf set hset hp
  refine h.refit (h.keyed.update hid) rfl rfl (fun _ hrow => hrow) (fun set' hset' => ?_) (fun set' hset' hstatus => ?_)
  · obtain ⟨set, hset, hbecomes, hchunks, -⟩ := hsets set' hset'
    exact ⟨rfl, set, hset, hbecomes, hchunks⟩
  · obtain ⟨set, hset, hbecomes, hchunks, hcomplete⟩ := hsets set' hset'
    refine StoredSet.Finished.mono ?_ ?_ ?_ (h.complete set hset (hcomplete hstatus)) hbecomes.id hbecomes.descriptor
      hchunks
    · exact fun _ hrow => hrow
    · exact fun _ hobject => hobject
    · exact fun _ hentry => hentry

/-! ## Rows of one set -/

theorem mem_rowsOf {backupId : Text} {inventory : List InventoryRow} {row : InventoryRow} :
    row ∈ rowsOf backupId inventory ↔ row ∈ inventory ∧ row.backupId = backupId := by
  simp [rowsOf, List.mem_filter]

theorem rowsOf_append (backupId : Text) (inventory : List InventoryRow) (row : InventoryRow) :
    rowsOf backupId (inventory ++ [row]) =
      rowsOf backupId inventory ++ if row.backupId = backupId then [row] else [] := by
  unfold rowsOf
  rw [List.filter_append, List.filter_singleton]
  simp

theorem rowsOf_swap (backupId : Text) (row : InventoryRow) (oldKey : ChunkKey) (inventory : List InventoryRow) :
    rowsOf backupId (Table.update (row.isAt oldKey) row.repaired inventory) =
      Table.update (row.isAt oldKey) row.repaired (rowsOf backupId inventory) :=
  Table.filter_update fun _ => rfl

theorem rowsOf_delete {ids : List Text} {backupId : Text} (h : backupId ∉ ids) (inventory : List InventoryRow) :
    rowsOf backupId (Table.delete (fun row => decide (row.backupId ∈ ids)) inventory) = rowsOf backupId inventory := by
  unfold rowsOf Table.delete
  rw [List.filter_filter]
  apply List.filter_congr
  intro row _
  by_cases hid : row.backupId = backupId
  · simp [hid, h]
  · simp [hid]

theorem findChunk_eq_none {backupId : Text} {chunkIndex : Nat} {inventory : List InventoryRow} :
    findChunk backupId chunkIndex inventory = none ↔
      ∀ row ∈ rowsOf backupId inventory, row.chunkIndex ≠ chunkIndex := by
  unfold findChunk
  rw [List.find?_eq_none]
  simp only [mem_rowsOf, Bool.and_eq_true, decide_eq_true_eq, not_and, and_imp]

theorem findChunk_some {backupId : Text} {chunkIndex : Nat} {inventory : List InventoryRow} {row : InventoryRow}
    (h : findChunk backupId chunkIndex inventory = some row) :
    row ∈ inventory ∧ row.backupId = backupId ∧ row.chunkIndex = chunkIndex := by
  have hat := List.find?_some h
  simp only [Bool.and_eq_true, decide_eq_true_eq] at hat
  exact ⟨List.mem_of_find?_eq_some h, hat⟩

theorem StoredDescriptor.length_chunks (descriptor : StoredDescriptor) :
    descriptor.chunks.length = descriptor.archive.chunkCount := by
  have hlength := congrArg List.length descriptor.chunks_index
  rwa [List.length_map, List.length_range] at hlength

theorem StoredDescriptor.Declares.lt {descriptor : StoredDescriptor} {index sizeBytes : Nat} {sha256 : Text}
    (h : descriptor.Declares index sizeBytes sha256) : index < descriptor.archive.chunkCount := by
  obtain ⟨chunk, hchunk, -, -⟩ := h
  rw [← descriptor.length_chunks]
  exact (List.getElem?_eq_some_iff.1 hchunk).1

theorem StoredDescriptor.Declares.size_eq {descriptor : StoredDescriptor} {index size size' : Nat}
    {sha256 sha256' : Text} (h : descriptor.Declares index size sha256) (h' : descriptor.Declares index size' sha256') :
    size = size' := by
  obtain ⟨chunk, hchunk, hsize, -⟩ := h
  obtain ⟨chunk', hchunk', hsize', -⟩ := h'
  obtain rfl := Option.some.inj (hchunk.symm.trans hchunk')
  rw [hsize, hsize']

/-- A set has no more rows than its descriptor declares. -/
theorem Sound.chunks_le (h : Sound env st) {set : StoredSet} (hset : set ∈ st.sets) (hlive : set.Live) :
    set.uploadedChunks ≤ set.descriptor.archive.chunkCount := by
  by_contra hlt
  have hmem : set.descriptor.archive.chunkCount ∈ (rowsOf set.id st.inventory).map InventoryRow.chunkIndex := by
    rw [(h.counts set hset hlive).indexes, List.mem_range]
    omega
  obtain ⟨row, hrow, hindex⟩ := List.mem_map.1 hmem
  have := (h.declared set hset row hrow).lt
  omega

/-- **The place of a chunk that is stored**: none of the rows has its index, so it comes after them. -/
theorem Sound.place_eq (h : Sound env st) {set : StoredSet} (hset : set ∈ st.sets) (hlive : set.Live) {index : Nat}
    (hnew : findChunk set.id index st.inventory = none) (hle : index ≤ set.uploadedChunks) :
    index = set.uploadedChunks := by
  by_contra hne
  have hmem : index ∈ (rowsOf set.id st.inventory).map InventoryRow.chunkIndex := by
    rw [(h.counts set hset hlive).indexes, List.mem_range]
    omega
  obtain ⟨row, hrow, hindex⟩ := List.mem_map.1 hmem
  exact findChunk_eq_none.1 hnew row hrow hindex

/-! ## Uploads -/

/-- An upload of a row whose set was read, with the counters that it read. -/
structure Store.Extends (st : Store) (row : InventoryRow) (uploadedBytes uploadedChunks : Nat) : Prop where
  accepts : st.accepts row = true
  created : row.backupId ∈ st.created
  declared : ∀ set ∈ st.sets, set.id = row.backupId → row.Declared set.descriptor
  chunks : uploadedChunks = row.chunkIndex + 1
  read : ∀ set ∈ st.sets, set.id = row.backupId → set.Live → row.chunkIndex ≤ set.uploadedChunks ∧
    (set.uploadedChunks = row.chunkIndex → uploadedBytes = set.uploadedBytes + row.plaintextSizeBytes)

theorem Store.Extends.new {row : InventoryRow} {uploadedBytes uploadedChunks : Nat}
    (h : st.Extends row uploadedBytes uploadedChunks) : findChunk row.backupId row.chunkIndex st.inventory = none := by
  have haccepts := h.accepts
  simp only [Store.accepts, Bool.and_eq_true, Option.isNone_iff_eq_none] at haccepts
  exact haccepts.1.2

/-- **An upload goes through only with the counters as they are**, and only into a set that is uploading. -/
theorem Store.Extends.counters {row : InventoryRow} {uploadedBytes uploadedChunks : Nat} (h : Sound env st)
    (hextends : st.Extends row uploadedBytes uploadedChunks) {set : StoredSet} (hset : set ∈ st.sets)
    (hid : set.id = row.backupId) (hlive : set.Live) :
    set.status = .uploading ∧ set.uploadedChunks = row.chunkIndex ∧
      uploadedBytes = set.uploadedBytes + row.plaintextSizeBytes := by
  obtain ⟨hle, hbytes⟩ := hextends.read set hset hid hlive
  have hplace : row.chunkIndex = set.uploadedChunks := h.place_eq hset hlive (hid ▸ hextends.new) hle
  refine ⟨?_, hplace.symm, hbytes hplace.symm⟩
  obtain huploading | hcomplete := hlive
  · exact huploading
  · have hfull := (h.complete set hset hcomplete).chunks
    have := (hextends.declared set hset hid).lt
    omega

theorem evolves_insertChunk (h : Sound env st) {row : InventoryRow} {uploadedBytes uploadedChunks : Nat}
    (hextends : st.Extends row uploadedBytes uploadedChunks) (i now : Nat) :
    Evolves st (st.apply i (.insertChunk row uploadedBytes uploadedChunks now)) := by
  refine .of_sets (evolves_updateStored fun set hset hat => ?_) rfl (fun _ h => List.mem_append_left _ h) fun _ h => h
  simp only [StoredSet.isAt, Bool.and_eq_true, decide_eq_true_eq] at hat
  obtain ⟨-, hplace, -⟩ := hextends.counters h hset hat.1 (.inl hat.2)
  have hlt : set.uploadedChunks < uploadedChunks := by
    rw [hextends.chunks, hplace]
    exact Nat.lt_succ_self _
  refine ⟨rfl, rfl, fun hs => hs, fun hl => hl, fun _ => Nat.le_of_lt hlt, fun _ heq => ?_⟩
  have heq : uploadedChunks = set.uploadedChunks := heq
  omega

theorem Sound.insertChunk (h : Sound env st) {row : InventoryRow} {uploadedBytes uploadedChunks : Nat}
    (hextends : st.Extends row uploadedBytes uploadedChunks) (i now : Nat) :
    Sound env (st.apply i (.insertChunk row uploadedBytes uploadedChunks now)) := by
  have hsets : ∀ set' ∈ (st.apply i (.insertChunk row uploadedBytes uploadedChunks now)).sets, ∃ set ∈ st.sets,
      (set.id = row.backupId ∧ set.status = .uploading ∧ set' = set.counted uploadedBytes uploadedChunks now) ∨
      (¬ (set.id = row.backupId ∧ set.status = .uploading) ∧ set' = set) := by
    intro set' hset'
    obtain ⟨set, hset, rfl⟩ := Table.mem_update.1 hset'
    refine ⟨set, hset, ?_⟩
    by_cases hat : set.id = row.backupId ∧ set.status = .uploading
    · refine .inl ⟨hat.1, hat.2, ?_⟩
      rw [if_pos (by simp [StoredSet.isAt, hat])]
    · refine .inr ⟨hat, ?_⟩
      rw [if_neg (by simpa [StoredSet.isAt] using hat)]
  constructor
  · exact h.keyed.update fun _ => rfl
  · intro set' hset'
    obtain ⟨set, hset, ⟨-, -, rfl⟩ | ⟨-, rfl⟩⟩ := hsets set' hset'
    · exact h.created set hset
    · exact h.created _ hset
  · intro other hother
    obtain hother | hother := List.mem_append.1 hother
    · exact h.rowsCreated other hother
    · obtain rfl := List.mem_singleton.1 hother
      exact hextends.created
  · intro other hother
    obtain hother | hother := List.mem_append.1 hother
    · exact List.mem_append_left _ (h.rowsListed other hother)
    · exact List.mem_append_right _ hother
  · intro set' hset' other hother
    have hkept : ∃ set ∈ st.sets, set'.id = set.id ∧ set'.descriptor = set.descriptor := by
      obtain ⟨set, hset, ⟨-, -, rfl⟩ | ⟨-, rfl⟩⟩ := hsets set' hset'
      · exact ⟨set, hset, rfl, rfl⟩
      · exact ⟨_, hset, rfl, rfl⟩
    obtain ⟨set, hset, hid, hdescriptor⟩ := hkept
    obtain ⟨hmem, howner⟩ := mem_rowsOf.1 hother
    rw [hdescriptor]
    obtain hmem | hmem := List.mem_append.1 hmem
    · exact h.declared set hset other (mem_rowsOf.2 ⟨hmem, howner.trans hid⟩)
    · obtain rfl := List.mem_singleton.1 hmem
      exact hextends.declared set hset (howner.trans hid).symm
  · intro set' hset' hlive
    obtain ⟨set, hset, ⟨hid, hstatus, rfl⟩ | ⟨hat, rfl⟩⟩ := hsets set' hset'
    · -- the set that the chunk goes to
      have hcounts := h.counts set hset (.inl hstatus)
      obtain ⟨-, hplace, hbytes⟩ := hextends.counters h hset hid (.inl hstatus)
      have hrows : rowsOf set.id (st.inventory ++ [row]) = rowsOf set.id st.inventory ++ [row] := by
        rw [rowsOf_append, if_pos hid.symm]
      constructor
      · show (rowsOf set.id (st.inventory ++ [row])).map InventoryRow.chunkIndex = List.range uploadedChunks
        rw [hrows, List.map_append, hcounts.indexes, hextends.chunks, hplace, List.range_succ]
        rfl
      · show uploadedBytes = ((rowsOf set.id (st.inventory ++ [row])).map InventoryRow.plaintextSizeBytes).sum
        rw [hrows, List.map_append, List.sum_append, ← hcounts.bytes, hbytes]
        rfl
    · -- no chunk goes to a set that is complete
      have hne : row.backupId ≠ set'.id := fun hid =>
        hat ⟨hid.symm, (hextends.counters h hset hid.symm hlive).1⟩
      have hrows : rowsOf set'.id (st.inventory ++ [row]) = rowsOf set'.id st.inventory := by
        rw [rowsOf_append, if_neg hne, List.append_nil]
      have hcounts := h.counts set' hset hlive
      constructor
      · exact (congrArg (List.map InventoryRow.chunkIndex) hrows).trans hcounts.indexes
      · exact hcounts.bytes.trans (congrArg (fun rows => (List.map InventoryRow.plaintextSizeBytes rows).sum) hrows.symm)
  · intro set' hset' hstatus
    obtain ⟨set, hset, ⟨-, huploading, rfl⟩ | ⟨-, rfl⟩⟩ := hsets set' hset'
    · rw [show (set.counted uploadedBytes uploadedChunks now).status = set.status from rfl, huploading] at hstatus
      cases hstatus
    · refine StoredSet.Finished.mono ?_ ?_ ?_ (h.complete _ hset hstatus) rfl rfl rfl
      · exact fun _ hrow => List.mem_append_left _ hrow
      · exact fun _ hobject => hobject
      · exact fun _ hentry => hentry

/-! ## Repairs, completions and deletions -/

/-- A repair puts its row in the place of the old one. -/
theorem InventoryRow.repaired_eq {row other : InventoryRow} {oldKey : ChunkKey} (h : row.isAt oldKey other = true) :
    row.repaired other = row := by
  simp only [InventoryRow.isAt, Bool.and_eq_true, decide_eq_true_eq] at h
  obtain ⟨⟨hid, hindex⟩, -⟩ := h
  rw [InventoryRow.repaired, hid, hindex]

/-- A repair leaves the place of a row and gives it what is declared there. -/
theorem Sound.swapKey (h : Sound env st) {row : InventoryRow} {oldKey : ChunkKey}
    (hcreated : row.backupId ∈ st.created)
    (hdeclared : ∀ set ∈ st.sets, set.id = row.backupId → row.Declared set.descriptor) (i : Nat) :
    Sound env (st.apply i (.swapKey row oldKey)) := by
  have hrows : ∀ other ∈ (st.apply i (.swapKey row oldKey)).inventory, other = row ∨ other ∈ st.inventory := by
    intro other hother
    obtain ⟨old, hold, rfl⟩ := Table.mem_update.1 hother
    cases hat : row.isAt oldKey old with
    | false => exact .inr hold
    | true => exact .inl (InventoryRow.repaired_eq hat)
  constructor
  · exact h.keyed
  · exact h.created
  · intro other hother
    obtain rfl | hother := hrows other hother
    · exact hcreated
    · exact h.rowsCreated other hother
  · intro other hother
    obtain rfl | hother := hrows other hother
    · exact List.mem_append_right _ (List.mem_singleton.2 rfl)
    · exact List.mem_append_left _ (h.rowsListed other hother)
  · intro set hset other hother
    obtain ⟨hmem, hid⟩ := mem_rowsOf.1 hother
    obtain rfl | hmem := hrows other hmem
    · exact hdeclared set hset hid.symm
    · exact h.declared set hset other (mem_rowsOf.2 ⟨hmem, hid⟩)
  · intro set hset hlive
    have hcounts := h.counts set hset hlive
    have hupdate := rowsOf_swap set.id row oldKey st.inventory
    constructor
    · refine Eq.trans (congrArg (List.map InventoryRow.chunkIndex) hupdate) ?_
      exact Eq.trans (Table.map_key_update fun _ => rfl) hcounts.indexes
    · refine Eq.trans hcounts.bytes
        (congrArg List.sum (Eq.trans ?_ (congrArg (List.map InventoryRow.plaintextSizeBytes) hupdate.symm)))
      rw [Table.update, List.map_map]
      apply List.map_congr_left
      intro old hold
      show old.plaintextSizeBytes = (if row.isAt oldKey old then row.repaired old else old).plaintextSizeBytes
      split
      · rename_i hat
        have hsame := hat
        simp only [InventoryRow.isAt, Bool.and_eq_true, decide_eq_true_eq] at hsame
        obtain ⟨⟨hid, hindex⟩, -⟩ := hsame
        have hold' := h.declared set hset old hold
        rw [InventoryRow.repaired_eq hat]
        unfold InventoryRow.Declared at hold'
        rw [hindex] at hold'
        exact hold'.size_eq (hdeclared set hset ((mem_rowsOf.1 hold).2.symm.trans hid))
      · rfl
  · intro set hset hstatus
    refine StoredSet.Finished.mono ?_ ?_ ?_ (h.complete set hset hstatus) rfl rfl rfl
    · exact fun _ hrow => List.mem_append_left _ hrow
    · exact fun _ hobject => hobject
    · exact fun _ hentry => hentry

theorem StoredSet.becomes_completed {set : StoredSet} (hstatus : set.status = .uploading) (descriptor : StoredDescriptor)
    (now : Nat) : set.Becomes (set.completed descriptor now) :=
  ⟨rfl, rfl, fun h => (nomatch h), fun _ => .inl hstatus, fun _ => Nat.le_refl _, fun _ _ => rfl⟩

theorem Sound.complete_set (h : Sound env st) {backupId : Text} {descriptor : StoredDescriptor}
    {chunks : List StoredChunk} (hchunks : ∀ set ∈ st.sets, set.id = backupId → set.status = .uploading →
      set.uploadedChunks = set.descriptor.archive.chunkCount ∧ set.VerifiedWith env st chunks) (i now : Nat) :
    Sound env (st.apply i (.complete backupId descriptor now chunks)) := by
  have hbecomes : ∀ set, StoredSet.isAt backupId .uploading set = true → set.Becomes (set.completed descriptor now) := by
    intro set hat
    simp only [StoredSet.isAt, Bool.and_eq_true, decide_eq_true_eq] at hat
    exact StoredSet.becomes_completed hat.2 descriptor now
  refine h.refit (h.keyed.update fun _ => rfl) rfl rfl (fun _ hrow => hrow) (fun set' hset' => ⟨rfl, ?_⟩)
    (fun set' hset' hstatus => ?_)
  · obtain ⟨set, hset, rfl⟩ := Table.mem_update.1 hset'
    refine ⟨set, hset, ?_⟩
    cases hat : StoredSet.isAt backupId .uploading set with
    | false => exact ⟨.refl set, rfl⟩
    | true => exact ⟨hbecomes set hat, rfl⟩
  · obtain ⟨set, hset, rfl⟩ := Table.mem_update.1 hset'
    cases hat : StoredSet.isAt backupId .uploading set with
    | false =>
      rw [hat] at hstatus
      refine StoredSet.Finished.mono ?_ ?_ ?_ (h.complete set hset hstatus) rfl rfl rfl
      · exact fun _ hrow => hrow
      · exact fun _ hobject => hobject
      · exact fun _ hentry => List.mem_append_left _ hentry
    | true =>
      simp only [StoredSet.isAt, Bool.and_eq_true, decide_eq_true_eq] at hat
      obtain ⟨hfull, hwith⟩ := hchunks set hset hat.1 hat.2
      refine ⟨hfull, chunks, ?_, ⟨hwith.indexes, hwith.holds, hwith.length, hwith.digest⟩⟩
      exact List.mem_append_right _ (List.mem_singleton.2 (by rw [← hat.1]; rfl))

theorem Sound.deleteSets (h : Sound env st) (ids : List Text) : Sound env (st.deleteSets ids) := by
  have hsets : ∀ set' ∈ (st.deleteSets ids).sets, set' ∈ st.sets ∧ set'.id ∉ ids := by
    intro set' hset'
    obtain ⟨hmem, hids⟩ := Table.mem_delete.1 hset'
    exact ⟨hmem, by simpa using hids⟩
  refine h.refit h.keyed.delete rfl rfl (fun row hrow => (Table.mem_delete.1 hrow).1) (fun set' hset' => ?_)
    (fun set' hset' hstatus => ?_)
  · obtain ⟨hmem, hids⟩ := hsets set' hset'
    exact ⟨rowsOf_delete hids st.inventory, set', hmem, .refl set', rfl⟩
  · refine StoredSet.Finished.mono ?_ ?_ ?_ (h.complete set' (hsets set' hset').1 hstatus) rfl rfl rfl
    · exact fun _ hrow => hrow
    · exact fun _ hobject => hobject
    · exact fun _ hentry => hentry

/-- A step that leaves the tables of the sets and of their chunks as they are. -/
theorem Sound.frame (h : Sound env st) (hsets : st'.sets = st.sets) (hinventory : st'.inventory = st.inventory)
    (hcreated : st'.created = st.created) (hlisted : st'.listed = st.listed)
    (hobjects : ∀ object ∈ st.objects, object ∈ st'.objects) (hverified : st'.verified = st.verified) : Sound env st' := by
  refine h.refit (hsets ▸ h.keyed) hcreated hlisted (fun _ hrow => hinventory ▸ hrow) (fun set hset => ?_)
    (fun set hset hstatus => ?_)
  · exact ⟨by rw [hinventory], set, hsets ▸ hset, .refl set, rfl⟩
  · exact (h.complete set (hsets ▸ hset) hstatus).mono (fun _ hrow => hlisted ▸ hrow) hobjects
      (fun _ hentry => hverified ▸ hentry) rfl rfl rfl

theorem Sound.createBackupSet (h : Sound env st) {backupId : Text} {descriptor : StoredDescriptor}
    {retentionHours : Option Nat} (hs : st.createBackupSet env backupId descriptor retentionHours = some st') :
    Sound env st' ∧ Evolves st st' := by
  unfold Store.createBackupSet at hs
  split at hs
  · cases hs
  · rename_i hours _
    obtain ⟨hguard, rfl⟩ : ¬ (backupId ∈ st.created ∨ env.maxBackupBytes < descriptor.archive.sizeBytes ∨
        env.maxBackupChunks < descriptor.archive.chunkCount) ∧ _ = st' := by
      split at hs
      · cases hs
      · rename_i hguard
        exact ⟨hguard, Option.some.inj hs⟩
    have hfresh : backupId ∉ st.created := fun hmem => hguard (.inl hmem)
    have hnew : rowsOf backupId st.inventory = [] := List.filter_eq_nil_iff.2 fun row hrow => by
      simp only [decide_eq_true_eq]
      rintro rfl
      exact hfresh (h.rowsCreated row hrow)
    have hsets : ∀ set ∈ st.sets ++ [newSet backupId descriptor hours st.clock],
        set ∈ st.sets ∨ set = newSet backupId descriptor hours st.clock := fun set hset =>
      (List.mem_append.1 hset).imp_right List.mem_singleton.1
    constructor
    · constructor
      · refine h.keyed.append fun set hset => ?_
        rintro hid
        exact hfresh (show (newSet backupId descriptor hours st.clock).id ∈ st.created from hid ▸ h.created set hset)
      · intro set hset
        obtain hset | rfl := hsets set hset
        · exact List.mem_append_left _ (h.created set hset)
        · exact List.mem_append_right _ (List.mem_singleton.2 rfl)
      · exact fun row hrow => List.mem_append_left _ (h.rowsCreated row hrow)
      · exact h.rowsListed
      · intro set hset row hrow
        obtain hset | rfl := hsets set hset
        · exact h.declared set hset row hrow
        · rw [show (newSet backupId descriptor hours st.clock).id = backupId from rfl, hnew] at hrow
          cases hrow
      · intro set hset hlive
        obtain hset | rfl := hsets set hset
        · exact h.counts set hset hlive
        · constructor
          · exact congrArg (List.map InventoryRow.chunkIndex) hnew
          · exact (congrArg (fun rows => (List.map InventoryRow.plaintextSizeBytes rows).sum) hnew).symm
      · intro set hset hstatus
        obtain hset | rfl := hsets set hset
        · refine StoredSet.Finished.mono ?_ ?_ ?_ (h.complete set hset hstatus) rfl rfl rfl
          · exact fun _ hrow => hrow
          · exact fun _ hobject => hobject
          · exact fun _ hentry => hentry
        · cases hstatus
    · refine ⟨fun _ hid => List.mem_append_left _ hid, fun _ hrow => hrow, fun _ hobject => hobject, ?_⟩
      intro set hset hid
      obtain hset | rfl := hsets set hset
      · exact ⟨set, hset, .refl set⟩
      · exact absurd hid hfresh

/-! ## Effects -/

/-- What a request knows of the set that it read. -/
structure Store.Read (st : Store) (backup : StoredSet) : Prop where
  created : backup.id ∈ st.created
  sets : ∀ set ∈ st.sets, set.id = backup.id → backup.Becomes set

/-- What a request knows of the chunk that it brings. -/
structure Store.Expects (st : Store) (backupId : Text) (index sizeBytes : Nat) (sha256 : Text) : Prop where
  created : backupId ∈ st.created
  sets : ∀ set ∈ st.sets, set.id = backupId → set.descriptor.Declares index sizeBytes sha256

/-- What an effect needs to keep the invariant. -/
def Effect.Fits (env : LaneEnv) (st : Store) : Effect → Prop
  | .insertChunk row uploadedBytes uploadedChunks _ => st.Extends row uploadedBytes uploadedChunks
  | .swapKey row _ => st.Expects row.backupId row.chunkIndex row.plaintextSizeBytes row.plaintextSha256
  | .complete backupId _ _ chunks => ∀ set ∈ st.sets, set.id = backupId → set.status = .uploading →
      set.uploadedChunks = set.descriptor.archive.chunkCount ∧ set.VerifiedWith env st chunks
  | _ => True

/-- The updates after which a set is no longer live, or stays as it was. -/
theorem becomes_dead {set set' : StoredSet} (hid : set'.id = set.id) (hdescriptor : set'.descriptor = set.descriptor)
    (hstatus : set'.status = .failed ∨ set'.status = .expired) : set.Becomes set' := by
  have hdead : ¬ set'.Live := by
    rintro (h | h) <;> rw [h] at hstatus <;> obtain hstatus | hstatus := hstatus <;> cases hstatus
  exact ⟨hid, hdescriptor, fun h => absurd (.inl h) hdead, fun h => absurd h hdead, fun h => absurd h hdead,
    fun h => absurd h hdead⟩

theorem becomes_leased (leaseExpiresAt now : Nat) (set : StoredSet) : set.Becomes (set.leased leaseExpiresAt now) :=
  ⟨rfl, rfl, fun h => h, fun h => h, fun _ => Nat.le_refl _, fun _ _ => rfl⟩

theorem Sound.apply (h : Sound env st) (i : Nat) {effect : Effect} (hfits : effect.Fits env st) :
    Sound env (st.apply i effect) := by
  cases effect with
  | quiet => exact h
  | buildKey key => exact h.frame rfl rfl rfl rfl (fun _ hobject => hobject) rfl
  | putObject key bytes => exact h.frame rfl rfl rfl rfl (fun _ hobject => List.mem_append_left _ hobject) rfl
  | deleteObject key => exact h.frame rfl rfl rfl rfl (fun _ hobject => hobject) rfl
  | insertChunk row uploadedBytes uploadedChunks now => exact h.insertChunk hfits i now
  | swapKey row oldKey => exact h.swapKey hfits.created hfits.sets i
  | complete backupId descriptor now chunks => exact h.complete_set hfits i now
  | markFailed backupId now =>
    exact h.updateStored (fun set _ _ => ⟨becomes_dead rfl rfl (.inl rfl), rfl, nofun⟩) fun _ => rfl
  | expireSets ids now =>
    exact h.updateStored (fun set _ _ => ⟨becomes_dead rfl rfl (.inr rfl), rfl, nofun⟩) fun _ => rfl
  | failSets ids now =>
    exact h.updateStored (fun set _ _ => ⟨becomes_dead rfl rfl (.inl rfl), rfl, nofun⟩) fun _ => rfl
  | deleteSets ids => exact h.deleteSets ids
  | touchLease backupId leaseExpiresAt =>
    exact h.updateStored (fun set _ _ => ⟨becomes_leased _ _ set, rfl, fun hstatus => hstatus⟩) fun _ => rfl
  | setRuntime runtime => exact h.frame rfl rfl rfl rfl (fun _ hobject => hobject) rfl

theorem Sound.evolves (h : Sound env st) (i : Nat) {effect : Effect} (hfits : effect.Fits env st) :
    Evolves st (st.apply i effect) := by
  have same : ∀ set ∈ st.sets, ∃ set' ∈ st.sets, set'.Becomes set := fun set hset => ⟨set, hset, .refl set⟩
  cases effect with
  | quiet => exact .of_sets same rfl (fun _ hrow => hrow) fun _ hobject => hobject
  | buildKey key => exact .of_sets same rfl (fun _ hrow => hrow) fun _ hobject => hobject
  | putObject key bytes => exact .of_sets same rfl (fun _ hrow => hrow) fun _ hobject => List.mem_append_left _ hobject
  | deleteObject key => exact .of_sets same rfl (fun _ hrow => hrow) fun _ hobject => hobject
  | insertChunk row uploadedBytes uploadedChunks now => exact evolves_insertChunk h hfits i now
  | swapKey row oldKey => exact .of_sets same rfl (fun _ hrow => List.mem_append_left _ hrow) fun _ hobject => hobject
  | complete backupId descriptor now chunks =>
    refine .of_sets (evolves_updateStored fun set _ hat => ?_) rfl (fun _ hrow => hrow) fun _ hobject => hobject
    simp only [StoredSet.isAt, Bool.and_eq_true, decide_eq_true_eq] at hat
    exact StoredSet.becomes_completed hat.2 descriptor now
  | markFailed backupId now =>
    exact .of_sets (evolves_updateStored fun set _ _ => becomes_dead rfl rfl (.inl rfl)) rfl (fun _ hrow => hrow)
      fun _ hobject => hobject
  | expireSets ids now =>
    exact .of_sets (evolves_updateStored fun set _ _ => becomes_dead rfl rfl (.inr rfl)) rfl (fun _ hrow => hrow)
      fun _ hobject => hobject
  | failSets ids now =>
    exact .of_sets (evolves_updateStored fun set _ _ => becomes_dead rfl rfl (.inl rfl)) rfl (fun _ hrow => hrow)
      fun _ hobject => hobject
  | deleteSets ids =>
    exact .of_sets (fun set hset => same set (Table.mem_delete.1 hset).1) rfl (fun _ hrow => hrow)
      fun _ hobject => hobject
  | touchLease backupId leaseExpiresAt =>
    exact .of_sets (evolves_updateStored fun set _ _ => becomes_leased _ _ set) rfl (fun _ hrow => hrow)
      fun _ hobject => hobject
  | setRuntime runtime => exact .of_sets same rfl (fun _ hrow => hrow) fun _ hobject => hobject

theorem StoredSet.Becomes.trans {a b c : StoredSet} (hab : a.Becomes b) (hbc : b.Becomes c) : a.Becomes c where
  id := hbc.id.trans hab.id
  descriptor := hbc.descriptor.trans hab.descriptor
  uploading := fun h => hab.uploading (hbc.uploading h)
  live := fun h => hab.live (hbc.live h)
  chunks := fun h => Nat.le_trans (hab.chunks (hbc.live h)) (hbc.chunks h)
  bytes := fun h heq => by
    have hle := hab.chunks (hbc.live h)
    have hle' := hbc.chunks h
    have hmid : c.uploadedChunks = b.uploadedChunks := by omega
    rw [hbc.bytes h hmid, hab.bytes (hbc.live h) (by omega)]

theorem Store.Read.mono (h : Evolves st st') {backup : StoredSet} (hread : st.Read backup) : st'.Read backup where
  created := h.created _ hread.created
  sets := by
    intro set' hset' hid
    obtain ⟨set, hset, hbecomes⟩ := h.sets set' hset' (hid ▸ hread.created)
    exact (hread.sets set hset (hbecomes.id.symm.trans hid)).trans hbecomes

theorem Store.Expects.mono (h : Evolves st st') {backupId : Text} {index sizeBytes : Nat} {sha256 : Text}
    (hexpects : st.Expects backupId index sizeBytes sha256) : st'.Expects backupId index sizeBytes sha256 where
  created := h.created _ hexpects.created
  sets := by
    intro set' hset' hid
    obtain ⟨set, hset, hbecomes⟩ := h.sets set' hset' (hid ▸ hexpects.created)
    rw [hbecomes.descriptor]
    exact hexpects.sets set hset (hbecomes.id.symm.trans hid)

theorem Sound.read (h : Sound env st) {backupId : Text} {backup : StoredSet}
    (hload : loadSet backupId st.sets = some backup) : st.Read backup ∧ backup.id = backupId := by
  obtain ⟨hmem, hid⟩ := Table.lookup_some hload
  refine ⟨⟨h.created backup hmem, fun set hset hsame => ?_⟩, hid⟩
  rw [h.keyed.eq_of_key hset hmem hsame]
  exact .refl backup

end

end Lane
end Recovery
end Adg
