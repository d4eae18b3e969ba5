import AdgLang.BackupInventory
/-!
# InventoryRun — what the requests of the backup lane keep

What each request knows of the tables at each of its stages (`Call.Ok`) stays true while other requests run, and each
step of a request does only what the inventory accounts for (`Call.step_ok`).  So the inventory accounts for the sets in
every state that the requests reach together (`accounts_runs`).
-/
namespace Adg
namespace Recovery
namespace Lane

open Control (BeginBody BeginStage)

section

variable {env : LaneEnv} {st st' : Store}

/-! ## Requests -/

abbrev Store.Brings (env : LaneEnv) (st : Store) (request : UploadRequest) : Prop :=
  st.Expects request.backupId request.chunkIndex request.rawBody.length (env.sha256 request.rawBody)

/-- What an upload knows at its stages. -/
def UploadStage.Ok (env : LaneEnv) (st : Store) (request : UploadRequest) : UploadStage → Prop
  | .finding backup _ => st.Read backup ∧ backup.id = request.backupId
  | .reading .. | .replacing .. | .swapping .. => st.Brings env request
  | .putting backup .. | .inserting backup .. =>
    st.Read backup ∧ backup.id = request.backupId ∧ request.chunkIndex = backup.uploadedChunks ∧ st.Brings env request
  | _ => True

/-- The set that a completion read has all of its rows. -/
structure Store.Ready (st : Store) (backupId : Text) (backup : StoredSet) : Prop where
  read : st.Read backup
  id : backup.id = backupId
  chunks : backup.uploadedChunks = backup.descriptor.archive.chunkCount

/-- The chunks that a completion has read, and the rows of the page that it is on.  While the set is uploading they are
its first rows. -/
structure Store.Pages (st : Store) (backupId : Text) (backup : StoredSet) (chunks : List StoredChunk)
    (rows : List InventoryRow) : Prop where
  indexes : ∀ set ∈ st.sets, set.id = backupId → set.status = .uploading →
    chunks.map (fun chunk => chunk.row.chunkIndex) ++ rows.map InventoryRow.chunkIndex =
      List.range (chunks.length + rows.length) ∧ chunks.length + rows.length ≤ backup.descriptor.archive.chunkCount
  holds : st.Holds backupId chunks
  rows : ∀ row ∈ rows, row ∈ st.listed ∧ row.backupId = backupId

/-- The digest of the chunks is the archive's. -/
structure Store.Checked (env : LaneEnv) (st : Store) (backupId : Text) (backup : StoredSet) (chunks : List StoredChunk) :
    Prop where
  indexes : ∀ set ∈ st.sets, set.id = backupId → set.status = .uploading →
    chunks.map (fun chunk => chunk.row.chunkIndex) = List.range backup.descriptor.archive.chunkCount
  holds : st.Holds backupId chunks
  length : (chunks.flatMap StoredChunk.bytes).length = backup.descriptor.archive.sizeBytes
  digest : env.sha256 (chunks.flatMap StoredChunk.bytes) = backup.descriptor.archive.sha256

def CompleteStage.Ok (env : LaneEnv) (st : Store) (backupId : Text) : CompleteStage → Prop
  | .checking backup .. => st.Ready backupId backup
  | .paging backup _ chunks => st.Ready backupId backup ∧ st.Pages backupId backup chunks []
  | .fetching backup _ chunks row rows => st.Ready backupId backup ∧ st.Pages backupId backup chunks (row :: rows)
  | .finishing backup _ chunks => st.Ready backupId backup ∧ st.Checked env backupId backup chunks
  | _ => True

def Call.Ok (env : LaneEnv) (st : Store) : Call → Prop
  | .upload request stage => stage.Ok env st request
  | .complete backupId _ stage => stage.Ok env st backupId
  | _ => True

theorem Evolves.uploading (h : Evolves st st') {backupId : Text} (hcreated : backupId ∈ st.created) {P : Prop}
    (hold : ∀ set ∈ st.sets, set.id = backupId → set.status = .uploading → P) :
    ∀ set ∈ st'.sets, set.id = backupId → set.status = .uploading → P := by
  intro set' hset' hid hstatus
  obtain ⟨set, hset, hbecomes⟩ := h.sets set' hset' (hid ▸ hcreated)
  exact hold set hset (hbecomes.id.symm.trans hid) (hbecomes.uploading hstatus)

theorem Store.Ready.mono (h : Evolves st st') {backupId : Text} {backup : StoredSet} (hready : st.Ready backupId backup) :
    st'.Ready backupId backup :=
  ⟨hready.read.mono h, hready.id, hready.chunks⟩

theorem Store.Ready.created {backupId : Text} {backup : StoredSet} (h : st.Ready backupId backup) :
    backupId ∈ st.created :=
  h.id ▸ h.read.created

theorem Call.Ok.mono (h : Evolves st st') {call : Call} (hok : call.Ok env st) : call.Ok env st' := by
  cases call with
  | upload request stage =>
    cases stage with
    | finding backup now => exact ⟨hok.1.mono h, hok.2⟩
    | reading backup now existing => exact Store.Expects.mono h hok
    | replacing backup now existing key => exact Store.Expects.mono h hok
    | swapping backup now existing key => exact Store.Expects.mono h hok
    | putting backup now key => exact ⟨hok.1.mono h, hok.2.1, hok.2.2.1, hok.2.2.2.mono h⟩
    | inserting backup now key => exact ⟨hok.1.mono h, hok.2.1, hok.2.2.1, hok.2.2.2.mono h⟩
    | _ => trivial
  | complete backupId body stage =>
    have pages : ∀ {backup : StoredSet} {chunks : List StoredChunk} {rows : List InventoryRow},
        st.Ready backupId backup ∧ st.Pages backupId backup chunks rows →
        st'.Ready backupId backup ∧ st'.Pages backupId backup chunks rows := fun ⟨hready, hpages⟩ =>
      ⟨hready.mono h, h.uploading hready.created hpages.indexes, hpages.holds.mono h.listed h.objects,
        fun row hrow => (hpages.rows row hrow).imp_left (h.listed row)⟩
    cases stage with
    | checking backup now metadata => exact Store.Ready.mono h hok
    | paging backup now chunks => exact pages hok
    | fetching backup now chunks row rows => exact pages hok
    | finishing backup now chunks =>
      obtain ⟨hready, hchecked⟩ := hok
      exact ⟨hready.mono h, h.uploading hready.created hchecked.indexes, hchecked.holds.mono h.listed h.objects,
        hchecked.length, hchecked.digest⟩
    | _ => trivial
  | _ => trivial

theorem newChunkChecks_ok {request : UploadRequest} {backup : StoredSet}
    (h : newChunkChecks env request backup = .ok ()) : request.chunkIndex = backup.uploadedChunks ∧
      backup.descriptor.Declares request.chunkIndex request.rawBody.length (env.sha256 request.rawBody) := by
  unfold newChunkChecks at h
  split at h
  · cases h
  · rename_i hindex
    split at h
    · cases h
    · split at h
      · cases h
      · rename_i expected hexpected
        split at h
        · cases h
        · rename_i hdeclared
          refine ⟨Classical.not_not.1 hindex, expected, hexpected, ?_, ?_⟩
          · exact Classical.not_not.1 fun hsize => hdeclared (.inl hsize)
          · exact Classical.not_not.1 fun hhash => hdeclared (.inr hhash)

theorem uploadChecks_ok {request : UploadRequest} {now : Nat} {backup : StoredSet}
    (h : uploadChecks env request now st.sets = .ok backup) :
    loadSet request.backupId st.sets = some backup ∧ backup.status = .uploading := by
  unfold uploadChecks ensureUploadableBackup at h
  split at h
  · cases h
  · split at h
    · cases h
    · rename_i loaded hload
      split at h
      · cases h
      · rename_i hupload
        have hstatus : loaded.status = .uploading := by
          by_contra hne
          rw [if_pos hne] at hupload
          cases hupload
        split at h
        · cases h
        · split at h
          · cases h
          · obtain rfl := Except.ok.inj h
            exact ⟨hload, hstatus⟩

theorem completeChecks_ok {backupId : Text} {body : CompleteBody} {now : Nat} {backup : StoredSet}
    (h : completeChecks backupId body now st.sets = .ok backup) : loadSet backupId st.sets = some backup ∧
      backup.uploadedChunks = backup.descriptor.archive.chunkCount := by
  unfold completeChecks at h
  split at h
  · cases h
  · rename_i loaded hload
    split at h
    · cases h
    · split at h
      · cases h
      · split at h
        · cases h
        · rename_i hchunks
          split at h
          · cases h
          · obtain rfl := Except.ok.inj h
            exact ⟨hload, Classical.not_not.1 hchunks⟩

/-- The rows of a page go on where the rows before it end. -/
theorem page_indexes {backupId : Text} {inventory : List InventoryRow} {count : Nat}
    (h : (rowsOf backupId inventory).map InventoryRow.chunkIndex = List.range count) {offset limit : Nat}
    (hle : offset ≤ count) :
    List.range offset ++ (loadBackupChunkPage backupId offset limit inventory).map InventoryRow.chunkIndex =
        List.range (offset + (loadBackupChunkPage backupId offset limit inventory).length) ∧
      offset + (loadBackupChunkPage backupId offset limit inventory).length ≤ count := by
  have hsorted : (rowsOf backupId inventory).Pairwise (fun a b => a.chunkIndex ≤ b.chunkIndex) := by
    have hrange : ((rowsOf backupId inventory).map InventoryRow.chunkIndex).Pairwise (· ≤ ·) := by
      rw [h]
      exact List.pairwise_le_range
    exact List.pairwise_map.1 hrange
  have hmap : (loadBackupChunkPage backupId offset limit inventory).map InventoryRow.chunkIndex =
      ((List.range count).drop offset).take limit := by
    unfold loadBackupChunkPage
    rw [hsorted.insertionSort_eq, List.map_take, List.map_drop, h]
  have hlength : (loadBackupChunkPage backupId offset limit inventory).length = min limit (count - offset) := by
    have := congrArg List.length hmap
    rwa [List.length_map, List.length_take, List.length_drop, List.length_range] at this
  refine ⟨?_, by omega⟩
  calc List.range offset ++ (loadBackupChunkPage backupId offset limit inventory).map InventoryRow.chunkIndex
      = (List.range count).take offset ++ ((List.range count).drop offset).take limit := by
        rw [hmap, List.take_range, Nat.min_eq_left hle]
    _ = List.range (min (offset + limit) count) := by rw [← List.take_add, List.take_range]
    _ = List.range (offset + (loadBackupChunkPage backupId offset limit inventory).length) := by
        rw [hlength]
        congr 1
        omega

/-! ## Steps -/

/-- A write that goes through, fails or gets lost. -/
theorem write_fits {σ : Type} (Ok : σ → Prop) {effect : Effect} {next threw : σ} (hfits : effect.Fits env st)
    (hnext : Ok next) (hthrew : Ok threw) : ∀ answer : Answer,
      (answer.write effect next threw).1.Fits env st ∧ Ok (answer.write effect next threw).2
  | .ok => ⟨hfits, hnext⟩
  | .failed => ⟨trivial, hthrew⟩
  | .lost => ⟨hfits, hthrew⟩

/-- What a row that was found says about the chunk that is brought. -/
theorem Sound.brings (h : Sound env st) {request : UploadRequest} {existing : InventoryRow}
    (hfind : findChunk request.backupId request.chunkIndex st.inventory = some existing)
    (hsize : existing.plaintextSizeBytes = request.rawBody.length)
    (hhash : existing.plaintextSha256 = env.sha256 request.rawBody) : st.Brings env request := by
  obtain ⟨hmem, hid, hindex⟩ := findChunk_some hfind
  refine ⟨hid ▸ h.rowsCreated existing hmem, fun set hset hsame => ?_⟩
  have hdeclared := h.declared set hset existing (mem_rowsOf.2 ⟨hmem, hid.trans hsame.symm⟩)
  rwa [InventoryRow.Declared, hindex, hsize, hhash] at hdeclared

/-- An insert that the constraints accept. -/
theorem Store.extends_of_accepts {request : UploadRequest} {backup : StoredSet} {key : ChunkKey} {now : Nat}
    (hread : st.Read backup) (hid : backup.id = request.backupId) (hindex : request.chunkIndex = backup.uploadedChunks)
    (hbrings : st.Brings env request) (haccepts : st.accepts (request.row env key now) = true) :
    st.Extends (request.row env key now) (backup.uploadedBytes + request.rawBody.length) (backup.uploadedChunks + 1) where
  accepts := haccepts
  created := hbrings.created
  declared := hbrings.sets
  chunks := congrArg (· + 1) hindex.symm
  read := by
    intro set hset hsame hlive
    have hbecomes := hread.sets set hset (hsame.trans hid.symm)
    constructor
    · show request.chunkIndex ≤ set.uploadedChunks
      rw [hindex]
      exact hbecomes.chunks hlive
    · intro hchunks
      rw [hbecomes.bytes hlive (hchunks.trans hindex)]
      rfl

theorem UploadStage.step_ok (h : Sound env st) {input : Input} {request : UploadRequest} {stage : UploadStage}
    {step : Effect × UploadStage} (hok : stage.Ok env st request) (hs : stage.step env st input request = some step) :
    step.1.Fits env st ∧ step.2.Ok env st request := by
  cases stage with
  | loading =>
    simp only [UploadStage.step] at hs
    split at hs
    · cases hs
      exact ⟨trivial, trivial⟩
    · rename_i backup hchecks
      cases hs
      exact ⟨trivial, h.read (uploadChecks_ok hchecks).1⟩
  | finding backup now =>
    simp only [UploadStage.step] at hs
    split at hs
    · rename_i existing hfind
      split at hs
      · cases hs
        exact ⟨trivial, trivial⟩
      · rename_i hsame
        cases hs
        have hsize := Classical.not_not.1 fun hne => hsame (.inl hne)
        have hhash := Classical.not_not.1 fun hne => hsame (.inr hne)
        exact ⟨trivial, h.brings hfind hsize hhash⟩
    · split at hs
      · cases hs
        exact ⟨trivial, trivial⟩
      · rename_i hchecks
        cases hs
        obtain ⟨hread, hid⟩ := hok
        obtain ⟨hindex, hdeclares⟩ := newChunkChecks_ok hchecks
        refine ⟨trivial, hread, hid, hindex, hid ▸ hread.created, fun set hset hsame => ?_⟩
        rw [(hread.sets set hset (hsame.trans hid.symm)).descriptor]
        exact hdeclares
  | reading backup now existing =>
    simp only [UploadStage.step] at hs
    split at hs
    · cases hs
    · split at hs
      · cases hs
        exact ⟨trivial, trivial⟩
      · cases hs
        exact ⟨trivial, hok⟩
  | replacing backup now existing key =>
    obtain rfl := Option.some.inj hs
    refine write_fits (UploadStage.Ok env st request) ?_ ?_ ?_ _
    exacts [trivial, hok, trivial]
  | swapping backup now existing key =>
    simp only [UploadStage.step] at hs
    split at hs
    · obtain rfl := Option.some.inj hs
      refine write_fits (UploadStage.Ok env st request) ?_ ?_ ?_ _
      exacts [hok, trivial, trivial]
    · obtain rfl := Option.some.inj hs
      refine write_fits (UploadStage.Ok env st request) ?_ ?_ ?_ _
      exacts [trivial, trivial, trivial]
  | removing oldKey response =>
    obtain rfl := Option.some.inj hs
    refine write_fits (UploadStage.Ok env st request) ?_ ?_ ?_ _
    exacts [trivial, trivial, trivial]
  | putting backup now key =>
    obtain rfl := Option.some.inj hs
    refine write_fits (UploadStage.Ok env st request) ?_ ?_ ?_ _
    exacts [trivial, hok, trivial]
  | inserting backup now key =>
    obtain ⟨hread, hid, hindex, hbrings⟩ := hok
    simp only [UploadStage.step] at hs
    split at hs
    · rename_i haccepts
      obtain rfl := Option.some.inj hs
      refine write_fits (UploadStage.Ok env st request) ?_ ?_ ?_ _
      exacts [Store.extends_of_accepts hread hid hindex hbrings haccepts, trivial, trivial]
    · cases hs
      exact ⟨trivial, trivial⟩
  | discarding key error =>
    obtain rfl := Option.some.inj hs
    refine write_fits (UploadStage.Ok env st request) ?_ ?_ ?_ _
    exacts [trivial, trivial, trivial]
  | returned response => cases hs
  | threw error => cases hs

/-- The stage after a chunk or a page. -/
theorem nextChunk_ok {backupId : Text} {backup : StoredSet} {now : Nat} {chunks : List StoredChunk}
    {rows : List InventoryRow} (hready : st.Ready backupId backup) (hpages : st.Pages backupId backup chunks rows) :
    (nextChunk env backupId backup now chunks rows).Ok env st backupId := by
  cases rows with
  | cons row rows =>
    simp only [nextChunk]
    split
    · exact ⟨hready, hpages⟩
    · trivial
  | nil =>
    simp only [nextChunk]
    split
    · exact ⟨hready, hpages⟩
    · rename_i hfull
      split
      · trivial
      · rename_i hdigest
        refine ⟨hready, fun set hset hid hstatus => ?_, hpages.holds, ?_, ?_⟩
        · obtain ⟨hindexes, hle⟩ := hpages.indexes set hset hid hstatus
          rw [List.map_nil, List.append_nil, List.length_nil, Nat.add_zero] at hindexes
          rw [List.length_nil] at hle
          rw [hindexes]
          congr 1
          omega
        · exact Classical.not_not.1 fun hne => hdigest (.inl hne)
        · exact Classical.not_not.1 fun hne => hdigest (.inr hne)

/-- While the set is uploading, a page goes on where the chunks end. -/
theorem Sound.page (h : Sound env st) {backupId : Text} {backup : StoredSet} {chunks : List StoredChunk}
    (hready : st.Ready backupId backup) (hpages : st.Pages backupId backup chunks []) (limit : Nat) :
    st.Pages backupId backup chunks (loadBackupChunkPage backupId chunks.length limit st.inventory) where
  indexes := by
    intro set hset hid hstatus
    obtain ⟨hindexes, hle⟩ := hpages.indexes set hset hid hstatus
    rw [List.map_nil, List.append_nil, List.length_nil, Nat.add_zero] at hindexes
    rw [List.length_nil] at hle
    have hbecomes := hready.read.sets set hset (hid.trans hready.id.symm)
    have hrows := (h.counts set hset (.inl hstatus)).indexes
    have hcount : set.uploadedChunks = backup.descriptor.archive.chunkCount := by
      have hmost := h.chunks_le hset (.inl hstatus)
      have hleast := hbecomes.chunks (.inl hstatus)
      rw [hbecomes.descriptor] at hmost
      rw [hready.chunks] at hleast
      omega
    rw [hid, hcount] at hrows
    rw [hindexes]
    exact page_indexes hrows hle
  holds := hpages.holds
  rows := by
    intro row hrow
    have hmem : row ∈ rowsOf backupId st.inventory :=
      (List.mem_insertionSort _).1 (List.mem_of_mem_drop (List.mem_of_mem_take hrow))
    obtain ⟨hinventory, hid⟩ := mem_rowsOf.1 hmem
    exact ⟨h.rowsListed row hinventory, hid⟩

theorem Store.finds_some {key : ChunkKey} {bytes : List UInt8} (h : st.finds key (some bytes) = true) :
    (key, bytes) ∈ st.objects := by
  simpa [Store.finds] using h

theorem chunkContents_ok {row : InventoryRow} {read : Option (List UInt8)} {bytes : List UInt8}
    (h : chunkContents env row read = .ok bytes) : read = some bytes := by
  unfold chunkContents at h
  split at h
  · cases h
  · split at h
    · cases h
    · rw [Except.ok.inj h]

theorem CompleteStage.step_ok (h : Sound env st) {input : Input} {backupId : Text} {body : CompleteBody}
    {stage : CompleteStage} {step : Effect × CompleteStage} (hok : stage.Ok env st backupId)
    (hprune : ∀ {prune : PruneStage} {step : Effect × PruneStage}, prune.step env st input = some step → step.1.Fits env st)
    (hs : stage.step env st input backupId body = some step) : step.1.Fits env st ∧ step.2.Ok env st backupId := by
  cases stage with
  | loading =>
    simp only [CompleteStage.step] at hs
    split at hs
    · cases hs
      exact ⟨trivial, trivial⟩
    · rename_i backup hchecks
      cases hs
      obtain ⟨hload, hchunks⟩ := completeChecks_ok hchecks
      obtain ⟨hread, hid⟩ := h.read hload
      exact ⟨trivial, hread, hid, hchunks⟩
  | checking backup now metadata =>
    simp only [CompleteStage.step] at hs
    split at hs
    · cases hs
      exact ⟨trivial, trivial⟩
    · split at hs
      · cases hs
        exact ⟨trivial, trivial⟩
      · cases hs
        exact ⟨trivial, hok⟩
      · cases hs
        refine ⟨trivial, hok, fun set _ _ _ => ⟨rfl, Nat.zero_le _⟩, ?_, ?_⟩
        · exact fun _ hchunk => nomatch hchunk
        · exact fun _ hrow => nomatch hrow
  | paging backup now chunks =>
    obtain ⟨hready, hpages⟩ := hok
    simp only [CompleteStage.step] at hs
    split at hs
    · cases hs
      exact ⟨trivial, trivial⟩
    · have hpage := h.page hready hpages 32
      split at hs
      · cases hs
        exact ⟨trivial, trivial⟩
      · rename_i row rows hrows
        cases hs
        rw [hrows] at hpage
        exact ⟨trivial, nextChunk_ok hready hpage⟩
  | fetching backup now chunks row rows =>
    obtain ⟨hready, hpages⟩ := hok
    simp only [CompleteStage.step] at hs
    split at hs
    · cases hs
      exact ⟨trivial, trivial⟩
    · split at hs
      · cases hs
      · rename_i hfinds
        split at hs
        · cases hs
          exact ⟨trivial, trivial⟩
        · rename_i bytes hbytes
          cases hs
          rw [chunkContents_ok hbytes] at hfinds
          have hobject : (row.kvKey, bytes) ∈ st.objects := Store.finds_some (by simpa using hfinds)
          obtain ⟨hrow, hrows⟩ := List.forall_mem_cons.1 hpages.rows
          refine ⟨trivial, nextChunk_ok hready ⟨fun set hset hid hstatus => ?_, fun chunk hchunk => ?_, hrows⟩⟩
          · obtain ⟨hindexes, hle⟩ := hpages.indexes set hset hid hstatus
            simp only [List.map_append, List.map_cons, List.map_nil, List.length_append, List.length_cons,
              List.length_nil, List.append_assoc, List.singleton_append] at hindexes hle ⊢
            rw [hindexes]
            exact ⟨by congr 1; omega, by omega⟩
          · obtain hchunk | hchunk := List.mem_append.1 hchunk
            · exact hpages.holds chunk hchunk
            · obtain rfl := List.mem_singleton.1 hchunk
              exact ⟨hrow.1, hrow.2, hobject⟩
  | finishing backup now chunks =>
    obtain ⟨hready, hchecked⟩ := hok
    simp only [CompleteStage.step] at hs
    split at hs
    · obtain rfl := Option.some.inj hs
      refine write_fits (CompleteStage.Ok env st backupId) ?_ ?_ ?_ _
      rotate_left
      · trivial
      · trivial
      intro set hset hid hstatus
      have hbecomes := hready.read.sets set hset (hid.trans hready.id.symm)
      have hmost := h.chunks_le hset (.inl hstatus)
      have hleast := hbecomes.chunks (.inl hstatus)
      have hdescriptor := hbecomes.descriptor
      rw [hready.chunks, ← hdescriptor] at hleast
      refine ⟨Nat.le_antisymm hmost hleast, ?_, ?_, ?_, ?_⟩
      · rw [hdescriptor, hchecked.indexes set hset hid hstatus]
      · exact hid ▸ hchecked.holds
      · rw [hdescriptor, hchecked.length]
      · rw [hdescriptor, hchecked.digest]
    · obtain rfl := Option.some.inj hs
      refine write_fits (CompleteStage.Ok env st backupId) ?_ ?_ ?_ _
      exacts [trivial, trivial, trivial]
  | failing now error =>
    obtain rfl := Option.some.inj hs
    refine write_fits (CompleteStage.Ok env st backupId) ?_ ?_ ?_ _
    exacts [trivial, trivial, trivial]
  | clearing error =>
    cases hs
    exact ⟨trivial, trivial⟩
  | deleting keys error =>
    cases keys with
    | nil =>
      cases hs
      exact ⟨trivial, trivial⟩
    | cons key keys =>
      obtain rfl := Option.some.inj hs
      refine write_fits (CompleteStage.Ok env st backupId) ?_ ?_ ?_ _
      exacts [trivial, trivial, trivial]
  | pruning prune =>
    obtain ⟨step, hstep, rfl⟩ := Option.map_eq_some_iff.1 hs
    exact ⟨hprune hstep, trivial⟩
  | threw error => cases hs

/-- A step of the pruning changes no counters and no rows. -/
theorem PruneStage.step_fits {input : Input} {prune : PruneStage} {step : Effect × PruneStage}
    (hs : prune.step env st input = some step) : step.1.Fits env st := by
  have write : ∀ {effect : Effect} {next failed : PruneStage}, effect.Fits env st →
      (input.answer.write effect next failed).1.Fits env st := fun hfits =>
    (write_fits (fun _ => True) hfits trivial trivial input.answer).1
  cases prune with
  | readingRuntime now =>
    cases hs
    trivial
  | readingRows now runtime =>
    cases hs
    trivial
  | readingStale now deleteIds latestKept =>
    cases hs
    trivial
  | expiring now deleteIds staleDeleteIds latestKept =>
    simp only [PruneStage.step] at hs
    split at hs
    · cases hs
      trivial
    · obtain rfl := Option.some.inj hs
      apply write
      trivial
  | failing now deleteIds staleDeleteIds latestKept =>
    simp only [PruneStage.step] at hs
    split at hs
    · cases hs
      trivial
    · obtain rfl := Option.some.inj hs
      apply write
      trivial
  | clearing pending confirmed latestKept =>
    cases pending with
    | cons backupId pending =>
      cases hs
      trivial
    | nil =>
      cases confirmed with
      | nil =>
        cases hs
        trivial
      | cons id confirmed =>
        obtain rfl := Option.some.inj hs
        apply write
        trivial
  | deleting backupId keys deleted pending confirmed latestKept =>
    cases keys with
    | nil =>
      cases hs
      trivial
    | cons key keys =>
      obtain rfl := Option.some.inj hs
      apply write
      trivial
  | returned latestKept => cases hs
  | threw => cases hs

/-- The effects of the requests that read and lease backups. -/
def Effect.IsLease : Effect → Prop
  | .quiet | .touchLease .. | .setRuntime _ => True
  | _ => False

theorem Effect.IsLease.fits {effect : Effect} (h : effect.IsLease) : effect.Fits env st := by
  cases effect with
  | quiet | touchLease | setRuntime => trivial
  | _ => cases h

theorem write_isLease {σ : Type} {effect : Effect} (h : effect.IsLease) (next threw : σ) :
    ∀ answer : Answer, (answer.write effect next threw).1.IsLease
  | .ok => h
  | .failed => trivial
  | .lost => h

theorem LatestStage.step_isLease {input : Input} {stage : LatestStage} {step : Effect × LatestStage}
    (hs : stage.step env st input = some step) : step.1.IsLease := by
  cases stage with
  | loading =>
    simp only [LatestStage.step] at hs
    split at hs <;> cases hs <;> trivial
  | checking ids backup metadata backups =>
    simp only [LatestStage.step] at hs
    split at hs
    · cases hs
      trivial
    · cases hs
      trivial
    · split at hs <;> cases hs <;> trivial
  | touching ids leaseExpiresAt =>
    cases ids with
    | nil =>
      cases hs
      trivial
    | cons backupId ids =>
      obtain rfl := Option.some.inj hs
      apply write_isLease
      trivial
  | returned => cases hs
  | threw error => cases hs

theorem ChunkStage.step_isLease {input : Input} {backupId : Text} {chunkIndex : Nat} {stage : ChunkStage}
    {step : Effect × ChunkStage} (hs : stage.step env st input backupId chunkIndex = some step) : step.1.IsLease := by
  cases stage with
  | loading =>
    simp only [ChunkStage.step] at hs
    split at hs
    · cases hs
      trivial
    · split at hs
      · cases hs
        trivial
      · split at hs <;> cases hs <;> trivial
  | finding backup =>
    simp only [ChunkStage.step] at hs
    split at hs <;> cases hs <;> trivial
  | reading backup row =>
    simp only [ChunkStage.step] at hs
    split at hs
    · cases hs
    · split at hs
      · cases hs
        trivial
      · split at hs <;> cases hs <;> trivial
  | touching bytes leaseExpiresAt =>
    obtain rfl := Option.some.inj hs
    apply write_isLease
    trivial
  | returned bytes => cases hs
  | threw error => cases hs

theorem beginStep_isLease {input : Input} {body : BeginBody} {stage : BeginStage} {step : Effect × BeginStage}
    (hs : beginStep env st input body stage = some step) : step.1.IsLease := by
  cases stage with
  | reading =>
    cases hs
    trivial
  | loading runtime =>
    cases hs
    trivial
  | prolonging runtime leaseExpiresAt =>
    simp only [beginStep] at hs
    split at hs
    · obtain rfl := Option.some.inj hs
      apply write_isLease
      trivial
    · obtain rfl := Option.some.inj hs
      apply write_isLease
      trivial
  | starting runtime active leaseExpiresAt =>
    simp only [beginStep] at hs
    split at hs
    · obtain rfl := Option.some.inj hs
      apply write_isLease
      trivial
    · cases hs
      trivial
  | touching began leaseExpiresAt =>
    obtain rfl := Option.some.inj hs
    apply write_isLease
    trivial
  | rereading began =>
    cases hs
    trivial
  | returned began runtime => cases hs
  | threw error => cases hs

/-- **A step of a request** does what the inventory accounts for and goes on with what it knows. -/
theorem Call.step_ok (h : Sound env st) {input : Input} {call : Call} {step : Effect × Call} (hok : call.Ok env st)
    (hs : call.step env st input = some step) : step.1.Fits env st ∧ step.2.Ok env st := by
  cases call with
  | upload request stage =>
    obtain ⟨step, hstep, rfl⟩ := Option.map_eq_some_iff.1 hs
    exact UploadStage.step_ok h hok hstep
  | complete backupId body stage =>
    obtain ⟨step, hstep, rfl⟩ := Option.map_eq_some_iff.1 hs
    exact CompleteStage.step_ok h hok PruneStage.step_fits hstep
  | prune stage =>
    obtain ⟨step, hstep, rfl⟩ := Option.map_eq_some_iff.1 hs
    exact ⟨PruneStage.step_fits hstep, trivial⟩
  | latest stage =>
    obtain ⟨step, hstep, rfl⟩ := Option.map_eq_some_iff.1 hs
    exact ⟨(LatestStage.step_isLease hstep).fits, trivial⟩
  | chunk backupId chunkIndex stage =>
    obtain ⟨step, hstep, rfl⟩ := Option.map_eq_some_iff.1 hs
    exact ⟨(ChunkStage.step_isLease hstep).fits, trivial⟩
  | begin body stage =>
    obtain ⟨step, hstep, rfl⟩ := Option.map_eq_some_iff.1 hs
    exact ⟨(beginStep_isLease hstep).fits, trivial⟩

/-! ## Runs -/

/-- The invariant of the lane. -/
structure World.Sound (env : LaneEnv) (w : World) : Prop where
  store : Lane.Sound env w.store
  calls : ∀ call ∈ w.calls, call.Ok env w.store

theorem Call.ok_stopped (call : Call) : call.stopped.Ok env st := by
  cases call <;> trivial

theorem Request.ok_call (now : Nat) (request : Request) : (request.call now).Ok env st := by
  cases request <;> trivial

/-- A change of what the inventory does not depend on. -/
theorem World.Sound.frame {w : World} (h : w.Sound env) (hsound : Lane.Sound env st')
    (hevolves : Evolves w.store st') : World.Sound env { w with store := st' } :=
  ⟨hsound, fun call hcall => (h.calls call hcall).mono hevolves⟩

theorem World.Sound.act {w w' : World} {a : Action} (h : w.Sound env) (hs : w.act env a = some w') : w'.Sound env := by
  have same : ∀ set ∈ w.store.sets, ∃ set' ∈ w.store.sets, set'.Becomes set := fun set hset => ⟨set, hset, .refl set⟩
  cases a with
  | createBackupSet backupId descriptor retentionHours =>
    obtain ⟨store, hstore, rfl⟩ := Option.map_eq_some_iff.1 hs
    obtain ⟨hsound, hevolves⟩ := h.store.createBackupSet hstore
    exact h.frame hsound hevolves
  | request request =>
    obtain rfl := Option.some.inj hs
    refine ⟨h.store, fun call hcall => ?_⟩
    obtain hcall | hcall := List.mem_append.1 hcall
    · exact h.calls call hcall
    · obtain rfl := List.mem_singleton.1 hcall
      exact request.ok_call _
  | advance i input =>
    obtain ⟨call, effect, next, hcall, hstep, -, rfl⟩ := advance_cases hs
    obtain ⟨hfits, hnext⟩ := call.step_ok h.store (h.calls call (List.mem_of_getElem? hcall)) hstep
    have hevolves := h.store.evolves i hfits
    refine ⟨h.store.apply i hfits, fun other hother => ?_⟩
    obtain hother | rfl := List.mem_or_eq_of_mem_set hother
    · exact (h.calls other hother).mono hevolves
    · exact hnext.mono hevolves
  | stop i =>
    obtain ⟨call, -, rfl⟩ := Option.map_eq_some_iff.1 hs
    refine ⟨h.store, fun other hother => ?_⟩
    obtain hother | rfl := List.mem_or_eq_of_mem_set hother
    · exact h.calls other hother
    · exact call.ok_stopped
  | completeRecovery targetGeneration =>
    obtain rfl := Option.some.inj hs
    exact h.frame (h.store.frame rfl rfl rfl rfl (fun _ hobject => hobject) rfl)
      (.of_sets same rfl (fun _ hrow => hrow) fun _ hobject => hobject)
  | tick ms =>
    obtain rfl := Option.some.inj hs
    exact h.frame (h.store.frame rfl rfl rfl rfl (fun _ hobject => hobject) rfl)
      (.of_sets same rfl (fun _ hrow => hrow) fun _ hobject => hobject)

theorem Sound.accounts (h : Sound env st) : st.Accounts env where
  uploading := fun set hset hstatus => ⟨h.counts set hset (.inl hstatus), h.declared set hset⟩
  complete := fun set hset hstatus => by
    obtain ⟨hchunks, hverified⟩ := h.complete set hset hstatus
    exact ⟨hchunks ▸ (h.counts set hset (.inr hstatus)).indexes, hverified⟩

end

/-- **The inventory accounts for the sets in every run.**  However the requests overlap, fail or lose their answers, the
counters of a set that is uploading are those of its rows and its rows are the declared ones, and a set that is complete
has all its rows and was verified with its archive. -/
theorem accounts_runs (env : LaneEnv) (clock : Nat) {w : World} (hrun : (lane env).Reaches (.start clock) w) :
    w.store.Accounts env := by
  have hsound : w.Sound env := hrun.invariant ⟨.start env clock, fun _ hcall => nomatch hcall⟩
    fun _ _ _ h _ hs => h.act hs
  exact hsound.store.accounts

/-- SHA-256 on the chunks `a` and `b` and on their archive `ab`. -/
def sampleHash (bytes : List UInt8) : Text :=
  if bytes = [97] then "ca978112ca1bbdcafac231b39a23dc4da786eff8147c4e72b9807785afee48bb".toList
  else if bytes = [98] then "3e23e8160039594a33894f6564e1b1348bbd7a0088d42c4acb73eeaed59c009d".toList
  else if bytes = [97, 98] then "fb8e20fc2e4c3f248c60c39bd652f3c1347298bb977b8b4d5903b85055620603".toList
  else []

def sampleEnv : LaneEnv where
  toRetentionEnv := .default
  maxBackupChunks := 4096
  maxChunkBytes := 786432
  backupRestoreLeaseMs := 60 * 60 * 1000
  sha256 := sampleHash

def sampleDescriptor : StoredDescriptor where
  archive := ⟨2, 2, sampleHash [97, 98]⟩
  chunks := [⟨0, 1, sampleHash [97]⟩, ⟨1, 1, sampleHash [98]⟩]
  snapshotCoverage := ⟨1, 5⟩
  chunks_index := rfl
  chunks_size := rfl
  chunkCount_pos := by decide

def sampleId : Text := "10000000-0000-4000-8000-00000000000a".toList

/-- An access that goes through, with what it needs from the outside. -/
def answered (i : Nat) (bytes : Option (List UInt8)) (uuid : String) : Action := .advance i ⟨.ok, bytes, uuid.toList⟩

/-- Two uploads of the first chunk that race, and one of the second. -/
def racingUploads : List Action := [.createBackupSet sampleId sampleDescriptor none,
  .request (.uploadBackupChunk ⟨sampleId, 0, [97]⟩), .request (.uploadBackupChunk ⟨sampleId, 0, [97]⟩),
  answered 0 none "", answered 1 none "", answered 0 none "u", answered 1 none "v", answered 0 none "",
  answered 1 none "", answered 1 none "", answered 0 none "", answered 0 none "",
  .request (.uploadBackupChunk ⟨sampleId, 1, [98]⟩), answered 2 none "", answered 2 none "w", answered 2 none "",
  answered 2 none ""]

/-- A completion up to the end of its checks, with what it finds of the second chunk. -/
def verification (i : Nat) (second : Option (List UInt8)) : List Action :=
  [.request (.completeBackupSet sampleId ⟨some 2, some 2, none⟩), answered i none "", answered i none "",
    answered i none "", answered i none "", answered i (some [97]) "", answered i second ""]

/-- A completion up to its update of the set. -/
def completion (i : Nat) : List Action := verification i (some [98]) ++ [answered i none ""]

theorem accounts_runs_completed : ∃ w, (lane sampleEnv).run (.start 1000) (racingUploads ++ completion 3) = some w ∧
    w.store.sets.map StoredSet.status = [.complete] ∧ w.store.deleted = [⟨sampleId, 0, "u".toList⟩] ∧
    w.store.Accounts sampleEnv := by
  have hshows : ((lane sampleEnv).run (.start 1000) (racingUploads ++ completion 3)).any (fun w =>
      decide (w.store.sets.map StoredSet.status = [.complete]) &&
        decide (w.store.deleted = [⟨sampleId, 0, "u".toList⟩])) = true := by decide +kernel
  obtain ⟨w, hw, hshows⟩ := (Option.any_eq_true _ _).1 hshows
  simp only [Bool.and_eq_true, decide_eq_true_eq] at hshows
  exact ⟨w, hw, hshows.1, hshows.2,
    accounts_runs sampleEnv 1000 (Machine.steps_of_run hw (Machine.runMeets_true _ _))⟩

end Lane
end Recovery
end Adg
