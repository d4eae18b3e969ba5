import AdgLang.InventoryRun
/-!
# BackupDeletions — which objects the requests delete

A key of the object store is held by the upload that built it, then in the inventory, and then doomed: by a repair that
replaced it, by an upload that could not store its row, or because its set is dead, that is failed, expired or gone.
`StepKeys` says what one step of a request does with the keys that it holds and with those that it dooms.
-/
namespace Adg
namespace Recovery
namespace Lane

open Control (BeginBody BeginStage)

/-! ## Steps that find what their requests left -/

def PruneStage.Finds (st : Store) (input : Input) : PruneStage → Prop
  | .failing _ _ staleDeleteIds _ =>
    input.answer = .ok → ∀ set ∈ st.sets, set.id ∈ staleDeleteIds → set.status ≠ .complete
  | _ => True

/-- Where a request fails a set, the set is not complete; the answers of a repair and of an insert are not lost. -/
def Call.Finds (env : LaneEnv) (st : Store) (input : Input) : Call → Prop
  | .upload request (.swapping _ now existing key) =>
    input.answer = .lost → st.inventory.any ((request.row env key now).isAt existing.kvKey) = false
  | .upload request (.inserting _ now key) => input.answer = .lost → st.accepts (request.row env key now) = false
  | .complete backupId _ (.failing ..) =>
    input.answer = .ok → ∀ set ∈ st.sets, set.id = backupId → set.status ≠ .complete
  | .complete _ _ (.pruning stage) => stage.Finds st input
  | .prune stage => stage.Finds st input
  | _ => True

/-! ## Keys in the hands of requests -/

/-- The key that an upload has built and not stored. -/
def UploadStage.held : UploadStage → Option ChunkKey
  | .replacing _ _ _ key | .swapping _ _ _ key | .putting _ _ key | .inserting _ _ key => some key
  | _ => none

def UploadStage.doomed : UploadStage → List ChunkKey
  | .removing oldKey _ => [oldKey]
  | .discarding key _ => [key]
  | _ => []

def PruneStage.doomed : PruneStage → List ChunkKey
  | .deleting _ keys .. => keys
  | _ => []

def CompleteStage.doomed : CompleteStage → List ChunkKey
  | .deleting keys _ => keys
  | .pruning prune => prune.doomed
  | _ => []

def Call.held : Call → Option ChunkKey
  | .upload _ stage => stage.held
  | _ => none

/-- The keys whose objects a request is going to delete. -/
def Call.doomed : Call → List ChunkKey
  | .upload _ stage => stage.doomed
  | .complete _ _ stage => stage.doomed
  | .prune stage => stage.doomed
  | _ => []

/-- The row that an effect puts into the inventory. -/
def Effect.row : Effect → Option InventoryRow
  | .insertChunk row .. => some row
  | .swapKey row _ => some row
  | _ => none

/-! ## What requests know of the sets -/

/-- A set that was given out and is failed, expired or gone. -/
def Store.Dead (st : Store) (backupId : Text) : Prop :=
  backupId ∈ st.created ∧ ∀ set ∈ st.sets, set.id = backupId → ¬ set.Live

/-- A set that was complete. -/
def Store.Past (st : Store) (backupId : Text) : Prop :=
  backupId ∈ st.created ∧ ∀ set ∈ st.sets, set.id = backupId → set.status ≠ .uploading

def PruneStage.Knows (st : Store) : PruneStage → Prop
  | .readingStale _ deleteIds _ => ∀ id ∈ deleteIds, st.Past id
  | .expiring _ deleteIds staleDeleteIds _ => (∀ id ∈ deleteIds, st.Past id) ∧ ∀ id ∈ staleDeleteIds, id ∈ st.created
  | .failing _ deleteIds staleDeleteIds _ => (∀ id ∈ deleteIds, st.Dead id) ∧ ∀ id ∈ staleDeleteIds, id ∈ st.created
  | .clearing pending confirmed _ => ∀ id ∈ pending ++ confirmed, st.Dead id
  | .deleting backupId _ _ pending confirmed _ => ∀ id ∈ backupId :: (pending ++ confirmed), st.Dead id
  | _ => True

def CompleteStage.Knows (st : Store) (backupId : Text) : CompleteStage → Prop
  | .checking .. | .paging .. | .fetching .. | .finishing .. | .failing .. => backupId ∈ st.created
  | .clearing _ => st.Dead backupId
  | .pruning prune => prune.Knows st
  | _ => True

def Call.Knows (st : Store) : Call → Prop
  | .upload request stage => ∀ key ∈ stage.held, key.backupId = request.backupId ∧ key.chunkIndex = request.chunkIndex
  | .complete backupId _ stage => stage.Knows st backupId
  | .prune stage => stage.Knows st
  | _ => True

section

variable {env : LaneEnv} {st st' : Store}

theorem Store.Dead.mono (h : Evolves st st') {backupId : Text} (hdead : st.Dead backupId) : st'.Dead backupId := by
  refine ⟨h.created _ hdead.1, fun set' hset' hid hlive => ?_⟩
  obtain ⟨set, hset, hbecomes⟩ := h.sets set' hset' (hid ▸ hdead.1)
  exact hdead.2 set hset (hbecomes.id.symm.trans hid) (hbecomes.live hlive)

theorem Store.Past.mono (h : Evolves st st') {backupId : Text} (hpast : st.Past backupId) : st'.Past backupId := by
  refine ⟨h.created _ hpast.1, fun set' hset' hid hstatus => ?_⟩
  obtain ⟨set, hset, hbecomes⟩ := h.sets set' hset' (hid ▸ hpast.1)
  exact hpast.2 set hset (hbecomes.id.symm.trans hid) (hbecomes.uploading hstatus)

theorem PruneStage.Knows.mono (h : Evolves st st') {prune : PruneStage} (hknows : prune.Knows st) : prune.Knows st' := by
  cases prune with
  | readingStale now deleteIds latestKept => exact fun id hid => (hknows id hid).mono h
  | expiring now deleteIds staleDeleteIds latestKept =>
    exact ⟨fun id hid => (hknows.1 id hid).mono h, fun id hid => h.created id (hknows.2 id hid)⟩
  | failing now deleteIds staleDeleteIds latestKept =>
    exact ⟨fun id hid => (hknows.1 id hid).mono h, fun id hid => h.created id (hknows.2 id hid)⟩
  | clearing pending confirmed latestKept => exact fun id hid => (hknows id hid).mono h
  | deleting backupId keys deleted pending confirmed latestKept => exact fun id hid => (hknows id hid).mono h
  | _ => trivial

theorem Call.Knows.mono (h : Evolves st st') {call : Call} (hknows : call.Knows st) : call.Knows st' := by
  cases call with
  | upload request stage => exact hknows
  | complete backupId body stage =>
    cases stage with
    | checking backup now metadata => exact h.created _ hknows
    | paging backup now chunks => exact h.created _ hknows
    | fetching backup now chunks row rows => exact h.created _ hknows
    | finishing backup now chunks => exact h.created _ hknows
    | failing now error => exact h.created _ hknows
    | clearing error => exact Store.Dead.mono h hknows
    | pruning prune => exact PruneStage.Knows.mono h hknows
    | _ => trivial
  | prune stage => exact PruneStage.Knows.mono h hknows
  | _ => trivial

/-- An update after which the sets that it concerned are not live. -/
theorem Store.dead_update {p : StoredSet → Bool} {f : StoredSet → StoredSet} {backupId : Text}
    (hcreated : backupId ∈ st.created) (hdead : ∀ set, ¬ (f set).Live)
    (hp : ∀ set ∈ st.sets, set.id = backupId → set.Live → p set = true) : (updateStored p f st).Dead backupId := by
  refine ⟨hcreated, fun set' hset' hsame hlive => ?_⟩
  obtain ⟨set, hset, rfl⟩ := Table.mem_update.1 hset'
  cases hat : p set with
  | true =>
    rw [hat] at hlive
    exact hdead set hlive
  | false =>
    rw [hat] at hsame hlive
    exact Bool.false_ne_true (hat.symm.trans (hp set hset hsame hlive))

theorem not_live_fail (now : Nat) (set : StoredSet) : ¬ (set.fail now).Live := by
  rintro (h | h) <;> cases h

theorem not_live_expire (now : Nat) (set : StoredSet) : ¬ (set.expire now).Live := by
  rintro (h | h) <;> cases h

/-! ## What a step knows -/

theorem Sound.past_of_complete (h : Sound env st) {set : BackupSet} (hset : set ∈ completeRows st.backupSets) :
    st.Past set.id := by
  obtain ⟨hmem, hstatus, -⟩ := mem_completeRows.1 hset
  obtain ⟨stored, hstored, rfl⟩ := List.mem_map.1 hmem
  refine ⟨h.created stored hstored, fun other hother hid => ?_⟩
  rw [h.keyed.eq_of_key hother hstored hid, show stored.status = .complete from hstatus]
  exact nofun

/-- A write of which the stage after it is known. -/
theorem write_knows {σ : Type} (Knows : Store → σ → Prop) {effect : Effect} {next threw : σ} (i : Nat)
    {answer : Answer} (hnext : answer = .ok → Knows (st.apply i effect) next) (hthrew : ∀ st, Knows st threw) :
    Knows (st.apply i (answer.write effect next threw).1) (answer.write effect next threw).2 := by
  cases answer with
  | ok => exact hnext rfl
  | failed => exact hthrew _
  | lost => exact hthrew _

theorem PruneStage.step_knows (h : Sound env st) (i : Nat) {input : Input} {prune : PruneStage}
    {step : Effect × PruneStage} (hfinds : prune.Finds st input) (hknows : prune.Knows st)
    (hs : prune.step env st input = some step) : step.2.Knows (st.apply i step.1) := by
  cases prune with
  | readingRuntime now =>
    cases hs
    trivial
  | readingRows now runtime =>
    cases hs
    intro id hid
    obtain ⟨set, hset, rfl⟩ := List.mem_map.1 hid
    exact h.past_of_complete (List.mem_filter.1 hset).1
  | readingStale now deleteIds latestKept =>
    cases hs
    refine ⟨hknows, fun id hid => ?_⟩
    obtain ⟨set, hset, rfl⟩ := List.mem_map.1 (List.mem_filter.1 hid).1
    obtain ⟨stored, hstored, rfl⟩ := List.mem_map.1 (List.mem_filter.1 hset).1
    exact h.created stored hstored
  | expiring now deleteIds staleDeleteIds latestKept =>
    obtain ⟨hpast, hcreated⟩ := hknows
    simp only [PruneStage.step] at hs
    split at hs
    · rename_i hnil
      cases hs
      refine ⟨fun id hid => ?_, hcreated⟩
      rw [hnil] at hid
      cases hid
    · obtain rfl := Option.some.inj hs
      refine write_knows PruneStage.Knows i ?_ ?_
      rotate_left
      · exact fun _ => trivial
      refine fun _ => ⟨fun id hid => ?_, hcreated⟩
      refine Store.dead_update (hpast id hid).1 (not_live_expire now) fun set hset hsame hlive => ?_
      rw [hsame, decide_eq_true hid, Bool.true_and, decide_eq_true_eq]
      exact hlive.resolve_left ((hpast id hid).2 set hset hsame)
  | failing now deleteIds staleDeleteIds latestKept =>
    obtain ⟨hdead, hcreated⟩ := hknows
    simp only [PruneStage.step] at hs
    split at hs
    · rename_i hnil
      cases hs
      intro id hid
      rw [hnil, List.append_nil, List.append_nil] at hid
      exact hdead id hid
    · obtain rfl := Option.some.inj hs
      refine write_knows PruneStage.Knows i ?_ ?_
      rotate_left
      · exact fun _ => trivial
      intro hanswer id hid
      rw [List.append_nil] at hid
      obtain hid | hid := List.mem_append.1 hid
      · refine (hdead id hid).mono (h.evolves i ?_)
        trivial
      · refine Store.dead_update (hcreated id hid) (not_live_fail now) fun set hset hsame hlive => ?_
        rw [hsame, decide_eq_true hid, Bool.true_and, decide_eq_true_eq]
        exact hlive.resolve_right (hfinds hanswer set hset (hsame ▸ hid))
  | clearing pending confirmed latestKept =>
    cases pending with
    | cons backupId pending =>
      cases hs
      exact hknows
    | nil =>
      cases confirmed with
      | nil =>
        cases hs
        trivial
      | cons id confirmed =>
        obtain rfl := Option.some.inj hs
        refine write_knows PruneStage.Knows i ?_ ?_
        · exact fun _ => trivial
        · exact fun _ => trivial
  | deleting backupId keys deleted pending confirmed latestKept =>
    cases keys with
    | nil =>
      cases hs
      intro id hid
      cases deleted with
      | true =>
        refine hknows id ?_
        simp only [if_true, List.mem_append, List.mem_cons] at hid ⊢
        tauto
      | false => exact hknows id (List.mem_cons_of_mem _ hid)
    | cons key keys =>
      obtain rfl := Option.some.inj hs
      cases hanswer : input.answer <;> exact hknows
  | returned latestKept => cases hs
  | threw => cases hs

theorem CompleteStage.step_knows (h : Sound env st) (i : Nat) {input : Input} {backupId : Text} {body : CompleteBody}
    {stage : CompleteStage} {step : Effect × CompleteStage}
    (hfinds : (Call.complete backupId body stage).Finds env st input) (hknows : stage.Knows st backupId)
    (hs : stage.step env st input backupId body = some step) : step.2.Knows (st.apply i step.1) backupId := by
  have next : ∀ {backup : StoredSet} {now : Nat} {chunks : List StoredChunk} {rows : List InventoryRow},
      backupId ∈ st.created → (nextChunk env backupId backup now chunks rows).Knows st backupId := by
    intro backup now chunks rows hcreated
    cases rows with
    | cons row rows =>
      simp only [nextChunk]
      split <;> exact hcreated
    | nil =>
      simp only [nextChunk]
      split
      · exact hcreated
      · split <;> exact hcreated
  cases stage with
  | loading =>
    simp only [CompleteStage.step] at hs
    split at hs
    · cases hs
      trivial
    · rename_i backup hchecks
      cases hs
      obtain ⟨hread, hid⟩ := h.read (completeChecks_ok hchecks).1
      exact (hid ▸ hread.created : backupId ∈ st.created)
  | checking backup now metadata =>
    simp only [CompleteStage.step] at hs
    split at hs
    · cases hs
      exact hknows
    · split at hs <;> cases hs <;> exact hknows
  | paging backup now chunks =>
    simp only [CompleteStage.step] at hs
    split at hs
    · cases hs
      exact hknows
    · split at hs
      · cases hs
        exact hknows
      · rename_i row rows _
        cases hs
        show (nextChunk env backupId backup now chunks (row :: rows)).Knows st backupId
        exact next hknows
  | fetching backup now chunks row rows =>
    simp only [CompleteStage.step] at hs
    split at hs
    · cases hs
      exact hknows
    · split at hs
      · cases hs
      · split at hs
        · cases hs
          exact hknows
        · cases hs
          exact next hknows
  | finishing backup now chunks =>
    simp only [CompleteStage.step] at hs
    split at hs
    · obtain rfl := Option.some.inj hs
      refine write_knows (fun st stage => CompleteStage.Knows st backupId stage) i ?_ ?_
      · exact fun _ => trivial
      · exact fun _ => trivial
    · obtain rfl := Option.some.inj hs
      refine write_knows (fun st stage => CompleteStage.Knows st backupId stage) i ?_ ?_
      · exact fun _ => trivial
      · exact fun _ => trivial
  | failing now error =>
    obtain rfl := Option.some.inj hs
    refine write_knows (fun st stage => CompleteStage.Knows st backupId stage) i ?_ ?_
    · intro hanswer
      refine Store.dead_update hknows (not_live_fail now) fun set hset hsame hlive => ?_
      rw [StoredSet.isAt, decide_eq_true hsame, Bool.true_and, decide_eq_true_eq]
      exact hlive.resolve_right (hfinds hanswer set hset hsame)
    · exact fun _ => trivial
  | clearing error =>
    cases hs
    trivial
  | deleting keys error =>
    cases keys with
    | nil =>
      cases hs
      trivial
    | cons key keys =>
      obtain rfl := Option.some.inj hs
      refine write_knows (fun st stage => CompleteStage.Knows st backupId stage) i ?_ ?_
      · exact fun _ => trivial
      · exact fun _ => trivial
  | pruning prune =>
    obtain ⟨step, hstep, rfl⟩ := Option.map_eq_some_iff.1 hs
    exact PruneStage.step_knows h i hfinds hknows hstep
  | threw error => cases hs

/-- The key of an upload stays the one that it has built. -/
theorem UploadStage.step_held {input : Input} {request : UploadRequest} {stage : UploadStage}
    {step : Effect × UploadStage} (hs : stage.step env st input request = some step) {key : ChunkKey}
    (hheld : step.2.held = some key) :
    (stage.held = some key ∧ step.1.row = none) ∨
      (step.1 = .buildKey key ∧ key.backupId = request.backupId ∧ key.chunkIndex = request.chunkIndex) := by
  cases stage with
  | loading =>
    simp only [UploadStage.step] at hs
    split at hs <;> cases hs <;> cases hheld
  | finding backup now =>
    simp only [UploadStage.step] at hs
    split at hs
    · split at hs <;> cases hs <;> cases hheld
    · split at hs <;> cases hs <;> cases hheld
      exact .inr ⟨rfl, rfl, rfl⟩
  | reading backup now existing =>
    simp only [UploadStage.step] at hs
    split at hs
    · cases hs
    · split at hs <;> cases hs <;> cases hheld
      exact .inr ⟨rfl, rfl, rfl⟩
  | replacing backup now existing built =>
    obtain rfl := Option.some.inj hs
    cases hanswer : input.answer <;> rw [hanswer] at hheld <;> cases hheld
    exact .inl ⟨rfl, rfl⟩
  | putting backup now built =>
    obtain rfl := Option.some.inj hs
    cases hanswer : input.answer <;> rw [hanswer] at hheld <;> cases hheld
    exact .inl ⟨rfl, rfl⟩
  | swapping backup now existing built =>
    simp only [UploadStage.step] at hs
    split at hs
    · obtain rfl := Option.some.inj hs
      cases hanswer : input.answer <;> rw [hanswer] at hheld <;> cases hheld
    · obtain rfl := Option.some.inj hs
      cases hanswer : input.answer <;> rw [hanswer] at hheld <;> cases hheld
  | removing oldKey response =>
    obtain rfl := Option.some.inj hs
    cases hanswer : input.answer <;> rw [hanswer] at hheld <;> cases hheld
  | inserting backup now built =>
    simp only [UploadStage.step] at hs
    split at hs
    · obtain rfl := Option.some.inj hs
      cases hanswer : input.answer <;> rw [hanswer] at hheld <;> cases hheld
    · cases hs
      cases hheld
  | discarding built error =>
    obtain rfl := Option.some.inj hs
    cases hanswer : input.answer <;> rw [hanswer] at hheld <;> cases hheld
  | returned response => cases hs
  | threw error => cases hs

theorem Call.step_knows (h : Sound env st) (i : Nat) {input : Input} {call : Call} {step : Effect × Call}
    (hfinds : call.Finds env st input) (hknows : call.Knows st) (hs : call.step env st input = some step) :
    step.2.Knows (st.apply i step.1) := by
  cases call with
  | upload request stage =>
    obtain ⟨step, hstep, rfl⟩ := Option.map_eq_some_iff.1 hs
    intro key hkey
    obtain ⟨hheld, -⟩ | ⟨-, hplace⟩ := UploadStage.step_held hstep hkey
    · exact hknows key hheld
    · exact hplace
  | complete backupId body stage =>
    obtain ⟨step, hstep, rfl⟩ := Option.map_eq_some_iff.1 hs
    exact CompleteStage.step_knows h i hfinds hknows hstep
  | prune stage =>
    obtain ⟨step, hstep, rfl⟩ := Option.map_eq_some_iff.1 hs
    exact PruneStage.step_knows h i hfinds hknows hstep
  | latest stage =>
    obtain ⟨step, hstep, rfl⟩ := Option.map_eq_some_iff.1 hs
    trivial
  | chunk backupId chunkIndex stage =>
    obtain ⟨step, hstep, rfl⟩ := Option.map_eq_some_iff.1 hs
    trivial
  | begin body stage =>
    obtain ⟨step, hstep, rfl⟩ := Option.map_eq_some_iff.1 hs
    trivial

/-! ## The way of a key -/

/-- What a step does with the keys of its request: the key that it held and those that it was going to delete. -/
structure StepKeys (st : Store) (held : Option ChunkKey) (doomed : List ChunkKey) (effect : Effect)
    (held' : Option ChunkKey) (doomed' : List ChunkKey) : Prop where
  lists : ∀ row ∈ effect.row, held = some row.kvKey ∧ held' = none ∧ row.kvKey.backupId = row.backupId ∧
    row.kvKey.chunkIndex = row.chunkIndex
  keeps : ∀ key ∈ held', held = some key ∨ effect = .buildKey key
  dooms : ∀ key ∈ doomed', key ∈ doomed ∨ (held = some key ∧ held' = none ∧ effect.row = none) ∨
    (∃ row, effect = .swapKey row key ∧ ∃ old ∈ st.inventory, row.isAt key old = true) ∨
    ∃ row ∈ st.inventory, row.kvKey = key ∧ st.Dead row.backupId
  deletes : ∀ key, effect = .deleteObject key → key ∈ doomed

/-- A step that neither stores nor deletes a key. -/
theorem StepKeys.of_quiet {held held' : Option ChunkKey} {doomed doomed' : List ChunkKey} {effect : Effect}
    (hrow : effect.row = none) (hdelete : ∀ key, effect ≠ .deleteObject key)
    (hheld : ∀ key ∈ held', held = some key ∨ effect = .buildKey key)
    (hdoomed : ∀ key ∈ doomed', key ∈ doomed ∨ (held = some key ∧ held' = none)) :
    StepKeys st held doomed effect held' doomed' where
  lists := fun row h => by
    rw [hrow] at h
    cases h
  keeps := hheld
  dooms := fun key hkey => (hdoomed key hkey).imp_right fun h => .inl ⟨h.1, h.2, hrow⟩
  deletes := fun key h => absurd h (hdelete key)

/-- A step that deletes an object. -/
theorem StepKeys.of_delete {doomed doomed' : List ChunkKey} {key : ChunkKey} (hkey : key ∈ doomed)
    (hdoomed : ∀ other ∈ doomed', other ∈ doomed) : StepKeys st none doomed (.deleteObject key) none doomed' where
  lists := nofun
  keeps := nofun
  dooms := fun other h => .inl (hdoomed other h)
  deletes := fun other h => by
    cases h
    exact hkey

theorem write_keys {σ : Type} {held : Option ChunkKey} {doomed : List ChunkKey} (held' : σ → Option ChunkKey)
    (doomed' : σ → List ChunkKey) {effect : Effect} {next threw : σ} {answer : Answer}
    (hok : StepKeys st held doomed effect (held' next) (doomed' next))
    (hfailed : StepKeys st held doomed .quiet (held' threw) (doomed' threw))
    (hlost : answer = .lost → StepKeys st held doomed effect (held' threw) (doomed' threw)) :
    StepKeys st held doomed (answer.write effect next threw).1 (held' (answer.write effect next threw).2)
      (doomed' (answer.write effect next threw).2) := by
  cases answer with
  | ok => exact hok
  | failed => exact hfailed
  | lost => exact hlost rfl

theorem mem_objectKeys {backupId : Text} {inventory : List InventoryRow} {key : ChunkKey}
    (h : key ∈ objectKeys env backupId inventory) : ∃ row ∈ inventory, row.kvKey = key ∧ row.backupId = backupId := by
  obtain ⟨row, hrow, rfl⟩ := List.mem_map.1 h
  have hmem : row ∈ rowsOf backupId inventory :=
    (List.mem_insertionSort _).1 (List.mem_of_mem_drop (List.mem_of_mem_take hrow))
  exact ⟨row, (mem_rowsOf.1 hmem).1, rfl, (mem_rowsOf.1 hmem).2⟩

/-- The listing of the keys of a dead set. -/
theorem StepKeys.of_objectKeys {doomed : List ChunkKey} {backupId : Text} (hdead : st.Dead backupId) :
    StepKeys st none doomed .quiet none (objectKeys env backupId st.inventory) where
  lists := nofun
  keeps := nofun
  dooms := fun key hkey => by
    obtain ⟨row, hrow, hsame, rfl⟩ := mem_objectKeys hkey
    exact .inr (.inr (.inr ⟨row, hrow, hsame, hdead⟩))
  deletes := nofun

theorem StepKeys.nothing {doomed : List ChunkKey} {effect : Effect} (hrow : effect.row = none)
    (hdelete : ∀ key, effect ≠ .deleteObject key) : StepKeys st none doomed effect none [] :=
  .of_quiet hrow hdelete (fun _ h => nomatch h) fun _ h => nomatch h

theorem PruneStage.step_keys {input : Input} {prune : PruneStage} {step : Effect × PruneStage}
    (hknows : prune.Knows st) (hs : prune.step env st input = some step) :
    StepKeys st none prune.doomed step.1 none step.2.doomed := by
  cases prune with
  | readingRuntime now =>
    cases hs
    exact .nothing rfl (by rintro _ ⟨⟩)
  | readingRows now runtime =>
    cases hs
    exact .nothing rfl (by rintro _ ⟨⟩)
  | readingStale now deleteIds latestKept =>
    cases hs
    exact .nothing rfl (by rintro _ ⟨⟩)
  | expiring now deleteIds staleDeleteIds latestKept =>
    simp only [PruneStage.step] at hs
    split at hs
    · cases hs
      exact .nothing rfl (by rintro _ ⟨⟩)
    · obtain rfl := Option.some.inj hs
      exact write_keys (fun _ => none) PruneStage.doomed (.nothing rfl (by rintro _ ⟨⟩)) (.nothing rfl (by rintro _ ⟨⟩))
        fun _ => .nothing rfl (by rintro _ ⟨⟩)
  | failing now deleteIds staleDeleteIds latestKept =>
    simp only [PruneStage.step] at hs
    split at hs
    · cases hs
      exact .nothing rfl (by rintro _ ⟨⟩)
    · obtain rfl := Option.some.inj hs
      exact write_keys (fun _ => none) PruneStage.doomed (.nothing rfl (by rintro _ ⟨⟩)) (.nothing rfl (by rintro _ ⟨⟩))
        fun _ => .nothing rfl (by rintro _ ⟨⟩)
  | clearing pending confirmed latestKept =>
    cases pending with
    | cons backupId pending =>
      cases hs
      exact .of_objectKeys (hknows backupId List.mem_cons_self)
    | nil =>
      cases confirmed with
      | nil =>
        cases hs
        exact .nothing rfl (by rintro _ ⟨⟩)
      | cons id confirmed =>
        obtain rfl := Option.some.inj hs
        exact write_keys (fun _ => none) PruneStage.doomed (.nothing rfl (by rintro _ ⟨⟩)) (.nothing rfl (by rintro _ ⟨⟩))
          fun _ => .nothing rfl (by rintro _ ⟨⟩)
  | deleting backupId keys deleted pending confirmed latestKept =>
    cases keys with
    | nil =>
      cases hs
      exact .nothing rfl (by rintro _ ⟨⟩)
    | cons key keys =>
      obtain rfl := Option.some.inj hs
      have hdeletes : StepKeys st none (key :: keys) (.deleteObject key) none keys :=
        .of_delete List.mem_cons_self fun _ h => List.mem_cons_of_mem _ h
      exact write_keys (fun _ => none) PruneStage.doomed hdeletes
        (.of_quiet rfl (by rintro _ ⟨⟩) (by rintro _ ⟨⟩) fun _ h => .inl (List.mem_cons_of_mem _ h)) fun _ => hdeletes
  | returned latestKept => cases hs
  | threw => cases hs

theorem CompleteStage.step_keys {input : Input} {backupId : Text} {body : CompleteBody} {stage : CompleteStage}
    {step : Effect × CompleteStage} (hknows : stage.Knows st backupId)
    (hs : stage.step env st input backupId body = some step) :
    StepKeys st none stage.doomed step.1 none step.2.doomed := by
  have next : ∀ {backup : StoredSet} {now : Nat} {chunks : List StoredChunk} {rows : List InventoryRow},
      (nextChunk env backupId backup now chunks rows).doomed = [] := by
    intro backup now chunks rows
    cases rows with
    | cons row rows =>
      simp only [nextChunk]
      split <;> rfl
    | nil =>
      simp only [nextChunk]
      split
      · rfl
      · split <;> rfl
  cases stage with
  | loading =>
    simp only [CompleteStage.step] at hs
    split at hs <;> cases hs <;> exact .nothing rfl (by rintro _ ⟨⟩)
  | checking backup now metadata =>
    simp only [CompleteStage.step] at hs
    split at hs
    · cases hs
      exact .nothing rfl (by rintro _ ⟨⟩)
    · split at hs <;> cases hs <;> exact .nothing rfl (by rintro _ ⟨⟩)
  | paging backup now chunks =>
    simp only [CompleteStage.step] at hs
    split at hs
    · cases hs
      exact .nothing rfl (by rintro _ ⟨⟩)
    · split at hs
      · cases hs
        exact .nothing rfl (by rintro _ ⟨⟩)
      · cases hs
        rw [next]
        exact .nothing rfl (by rintro _ ⟨⟩)
  | fetching backup now chunks row rows =>
    simp only [CompleteStage.step] at hs
    split at hs
    · cases hs
      exact .nothing rfl (by rintro _ ⟨⟩)
    · split at hs
      · cases hs
      · split at hs
        · cases hs
          exact .nothing rfl (by rintro _ ⟨⟩)
        · cases hs
          rw [next]
          exact .nothing rfl (by rintro _ ⟨⟩)
  | finishing backup now chunks =>
    simp only [CompleteStage.step] at hs
    split at hs
    · obtain rfl := Option.some.inj hs
      exact write_keys (fun _ => none) CompleteStage.doomed (.nothing rfl (by rintro _ ⟨⟩)) (.nothing rfl (by rintro _ ⟨⟩))
        fun _ => .nothing rfl (by rintro _ ⟨⟩)
    · obtain rfl := Option.some.inj hs
      exact write_keys (fun _ => none) CompleteStage.doomed (.nothing rfl (by rintro _ ⟨⟩)) (.nothing rfl (by rintro _ ⟨⟩))
        fun _ => .nothing rfl (by rintro _ ⟨⟩)
  | failing now error =>
    obtain rfl := Option.some.inj hs
    exact write_keys (fun _ => none) CompleteStage.doomed (.nothing rfl (by rintro _ ⟨⟩)) (.nothing rfl (by rintro _ ⟨⟩))
      fun _ => .nothing rfl (by rintro _ ⟨⟩)
  | clearing error =>
    cases hs
    exact .of_objectKeys hknows
  | deleting keys error =>
    cases keys with
    | nil =>
      cases hs
      exact .nothing rfl (by rintro _ ⟨⟩)
    | cons key keys =>
      obtain rfl := Option.some.inj hs
      have hdeletes : StepKeys st none (key :: keys) (.deleteObject key) none keys :=
        .of_delete List.mem_cons_self fun _ h => List.mem_cons_of_mem _ h
      exact write_keys (fun _ => none) CompleteStage.doomed hdeletes
        (.of_quiet rfl (by rintro _ ⟨⟩) (by rintro _ ⟨⟩) fun _ h => .inl (List.mem_cons_of_mem _ h)) fun _ => hdeletes
  | pruning prune =>
    obtain ⟨step, hstep, rfl⟩ := Option.map_eq_some_iff.1 hs
    exact PruneStage.step_keys hknows hstep
  | threw error => cases hs

theorem UploadStage.step_keys {input : Input} {request : UploadRequest} {stage : UploadStage}
    {step : Effect × UploadStage} (hfinds : (Call.upload request stage).Finds env st input)
    (hknows : ∀ key ∈ stage.held, key.backupId = request.backupId ∧ key.chunkIndex = request.chunkIndex)
    (hs : stage.step env st input request = some step) :
    StepKeys st stage.held stage.doomed step.1 step.2.held step.2.doomed := by
  cases stage with
  | loading =>
    simp only [UploadStage.step] at hs
    split at hs <;> cases hs <;> exact .nothing rfl (by rintro _ ⟨⟩)
  | finding backup now =>
    simp only [UploadStage.step] at hs
    split at hs
    · split at hs <;> cases hs <;> exact .nothing rfl (by rintro _ ⟨⟩)
    · split at hs
      · cases hs
        exact .nothing rfl (by rintro _ ⟨⟩)
      · cases hs
        exact .of_quiet rfl (by rintro _ ⟨⟩) (fun key hkey => .inr (congrArg Effect.buildKey (Option.some.inj hkey))) (by rintro _ ⟨⟩)
  | reading backup now existing =>
    simp only [UploadStage.step] at hs
    split at hs
    · cases hs
    · split at hs
      · cases hs
        exact .nothing rfl (by rintro _ ⟨⟩)
      · cases hs
        exact .of_quiet rfl (by rintro _ ⟨⟩) (fun key hkey => .inr (congrArg Effect.buildKey (Option.some.inj hkey))) (by rintro _ ⟨⟩)
  | replacing backup now existing key =>
    obtain rfl := Option.some.inj hs
    exact write_keys UploadStage.held UploadStage.doomed (.of_quiet rfl (by rintro _ ⟨⟩) (fun _ h => .inl h) (by rintro _ ⟨⟩))
      (.of_quiet rfl (by rintro _ ⟨⟩) (by rintro _ ⟨⟩) (by rintro _ ⟨⟩)) fun _ => .of_quiet rfl (by rintro _ ⟨⟩) (by rintro _ ⟨⟩) (by rintro _ ⟨⟩)
  | putting backup now key =>
    obtain rfl := Option.some.inj hs
    exact write_keys UploadStage.held UploadStage.doomed (.of_quiet rfl (by rintro _ ⟨⟩) (fun _ h => .inl h) (by rintro _ ⟨⟩))
      (.of_quiet rfl (by rintro _ ⟨⟩) (by rintro _ ⟨⟩) (by rintro _ ⟨⟩)) fun _ => .of_quiet rfl (by rintro _ ⟨⟩) (by rintro _ ⟨⟩) (by rintro _ ⟨⟩)
  | swapping backup now existing key =>
    have hdiscard : StepKeys st (some key) [] .quiet none [key] :=
      .of_quiet rfl (by rintro _ ⟨⟩) (by rintro _ ⟨⟩) fun other h => .inr ⟨congrArg some (List.mem_singleton.1 h).symm, rfl⟩
    simp only [UploadStage.step] at hs
    split at hs
    · rename_i hany
      obtain ⟨old, hold, hat⟩ := List.any_eq_true.1 hany
      obtain rfl := Option.some.inj hs
      refine write_keys UploadStage.held UploadStage.doomed ?_ hdiscard fun hlost => ?_
      rotate_left
      · rw [hfinds hlost] at hany
        cases hany
      constructor
      · intro row hrow
        obtain rfl := Option.some.inj hrow
        exact ⟨rfl, rfl, hknows key rfl⟩
      · exact (by rintro _ ⟨⟩)
      · intro oldKey hkey
        obtain rfl := List.mem_singleton.1 hkey
        exact .inr (.inr (.inl ⟨_, rfl, old, hold, hat⟩))
      · exact (by rintro _ ⟨⟩)
    · obtain rfl := Option.some.inj hs
      exact write_keys UploadStage.held UploadStage.doomed hdiscard hdiscard fun _ => hdiscard
  | removing oldKey response =>
    have hdeletes : StepKeys st none [oldKey] (.deleteObject oldKey) none [] :=
      .of_delete (List.mem_singleton.2 rfl) (by rintro _ ⟨⟩)
    obtain rfl := Option.some.inj hs
    exact write_keys UploadStage.held UploadStage.doomed hdeletes (.nothing rfl (by rintro _ ⟨⟩)) fun _ => hdeletes
  | inserting backup now key =>
    have hdiscard : StepKeys st (some key) [] .quiet none [key] :=
      .of_quiet rfl (by rintro _ ⟨⟩) (by rintro _ ⟨⟩) fun other h => .inr ⟨congrArg some (List.mem_singleton.1 h).symm, rfl⟩
    simp only [UploadStage.step] at hs
    split at hs
    · rename_i haccepts
      obtain rfl := Option.some.inj hs
      refine write_keys UploadStage.held UploadStage.doomed ?_ hdiscard fun hlost => ?_
      rotate_left
      · rw [hfinds hlost] at haccepts
        cases haccepts
      constructor
      · intro row hrow
        obtain rfl := Option.some.inj hrow
        exact ⟨rfl, rfl, hknows key rfl⟩
      · exact (by rintro _ ⟨⟩)
      · exact (by rintro _ ⟨⟩)
      · exact (by rintro _ ⟨⟩)
    · cases hs
      exact hdiscard
  | discarding key error =>
    have hdeletes : StepKeys st none [key] (.deleteObject key) none [] := .of_delete (List.mem_singleton.2 rfl) (by rintro _ ⟨⟩)
    obtain rfl := Option.some.inj hs
    exact write_keys UploadStage.held UploadStage.doomed hdeletes (.nothing rfl (by rintro _ ⟨⟩)) fun _ => hdeletes
  | returned response => cases hs
  | threw error => cases hs

theorem StepKeys.of_isLease {effect : Effect} (h : effect.IsLease) : StepKeys st none [] effect none [] := by
  cases effect with
  | quiet | touchLease | setRuntime => exact .nothing rfl (by rintro _ ⟨⟩)
  | _ => cases h

theorem Call.step_keys {input : Input} {call : Call} {step : Effect × Call} (hfinds : call.Finds env st input)
    (hknows : call.Knows st) (hs : call.step env st input = some step) :
    StepKeys st call.held call.doomed step.1 step.2.held step.2.doomed := by
  cases call with
  | upload request stage =>
    obtain ⟨step, hstep, rfl⟩ := Option.map_eq_some_iff.1 hs
    exact UploadStage.step_keys hfinds hknows hstep
  | complete backupId body stage =>
    obtain ⟨step, hstep, rfl⟩ := Option.map_eq_some_iff.1 hs
    exact CompleteStage.step_keys hknows hstep
  | prune stage =>
    obtain ⟨step, hstep, rfl⟩ := Option.map_eq_some_iff.1 hs
    exact PruneStage.step_keys hknows hstep
  | latest stage =>
    obtain ⟨step, hstep, rfl⟩ := Option.map_eq_some_iff.1 hs
    exact .of_isLease (LatestStage.step_isLease hstep)
  | chunk backupId chunkIndex stage =>
    obtain ⟨step, hstep, rfl⟩ := Option.map_eq_some_iff.1 hs
    exact .of_isLease (ChunkStage.step_isLease hstep)
  | begin body stage =>
    obtain ⟨step, hstep, rfl⟩ := Option.map_eq_some_iff.1 hs
    exact .of_isLease (beginStep_isLease hstep)

end

end Lane
end Recovery
end Adg
