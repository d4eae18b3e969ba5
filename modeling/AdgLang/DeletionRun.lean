import AdgLang.BackupDeletions
/-!
# DeletionRun — no object of a complete backup is deleted

A key that is spent is never put back into the inventory of a live set (`World.Spent`).  `completeBackupSet` deletes the
objects of a set that it could not verify even if another request has completed the set (`not_intact`), and pruning those
of a stale upload likewise.  The runs in which the set is not complete there, and in which no answer of an insert or a
repair is lost, delete no object of a complete set (`intact_runs`).
-/
namespace Adg
namespace Recovery
namespace Lane

/-- No object that the inventory of a complete set lists has been deleted. -/
def Store.Intact (st : Store) : Prop :=
  ∀ set ∈ st.sets, set.status = .complete → ∀ row ∈ rowsOf set.id st.inventory, row.kvKey ∉ st.deleted

/-- The condition on a step of the lane. -/
def Meets (env : LaneEnv) (w : World) : Action → Prop
  | .advance i input => ∀ call ∈ w.calls[i]?, call.Finds env w.store input
  | _ => True

/-- A key that no live set will list: its set is dead, or it is in nobody's hands. -/
structure World.Spent (w : World) (key : ChunkKey) : Prop where
  built : key ∈ w.store.built.map Prod.fst
  spent : w.store.Dead key.backupId ∨
    (∀ row ∈ w.store.inventory, row.kvKey ≠ key) ∧ ∀ call ∈ w.calls, call.held ≠ some key

structure World.Guarded (env : LaneEnv) (w : World) : Prop where
  sound : w.Sound env
  knows : ∀ call ∈ w.calls, call.Knows w.store
  rowKeys : ∀ row ∈ w.store.inventory,
    row.kvKey.backupId = row.backupId ∧ row.kvKey.chunkIndex = row.chunkIndex
  rowBuilt : ∀ row ∈ w.store.inventory, row.kvKey ∈ w.store.built.map Prod.fst
  built : Table.Keyed Prod.fst w.store.built
  held : ∀ i call, w.calls[i]? = some call → ∀ key ∈ call.held,
    (key, i) ∈ w.store.built ∧ ∀ row ∈ w.store.inventory, row.kvKey ≠ key
  doomed : ∀ call ∈ w.calls, ∀ key ∈ call.doomed, w.Spent key
  deleted : ∀ key ∈ w.store.deleted, w.Spent key

section

variable {env : LaneEnv} {w : World}

/-- The keys in the inventory of a live set are not spent. -/
theorem World.Guarded.not_spent (h : w.Guarded env) {set : StoredSet} (hset : set ∈ w.store.sets) (hlive : set.Live)
    {row : InventoryRow} (hrow : row ∈ rowsOf set.id w.store.inventory) : ¬ w.Spent row.kvKey := by
  intro hspent
  obtain ⟨hmem, hid⟩ := mem_rowsOf.1 hrow
  obtain hdead | ⟨hunlisted, -⟩ := hspent.spent
  · exact hdead.2 set hset (hid.symm.trans (h.rowKeys row hmem).1.symm) hlive
  · exact hunlisted row hmem rfl

/-- **No object of a complete set has been deleted.** -/
theorem World.Guarded.intact (h : w.Guarded env) : w.store.Intact :=
  fun _ hset hstatus row hrow hdeleted => h.not_spent hset (.inr hstatus) hrow (h.deleted row.kvKey hdeleted)

theorem World.Guarded.start (env : LaneEnv) (clock : Nat) : (World.start clock).Guarded env where
  sound := ⟨.start env clock, fun _ hcall => nomatch hcall⟩
  knows := fun _ hcall => nomatch hcall
  rowKeys := fun _ hrow => nomatch hrow
  rowBuilt := fun _ hrow => nomatch hrow
  built := List.nodup_nil
  held := fun _ _ hcall => nomatch hcall
  doomed := fun _ hcall => nomatch hcall
  deleted := fun _ hkey => nomatch hkey

theorem mem_apply_inventory {st : Store} {i : Nat} {effect : Effect} {row : InventoryRow}
    (h : row ∈ (st.apply i effect).inventory) : effect.row = some row ∨ row ∈ st.inventory := by
  cases effect with
  | insertChunk new uploadedBytes uploadedChunks now =>
    exact (List.mem_append.1 h).symm.imp (fun h => congrArg some (List.mem_singleton.1 h).symm) fun h => h
  | swapKey new oldKey =>
    obtain ⟨old, hold, rfl⟩ := Table.mem_update.1 h
    cases hat : new.isAt oldKey old with
    | false => exact .inr hold
    | true => exact .inl (congrArg some (InventoryRow.repaired_eq hat).symm)
  | deleteSets ids => exact .inr (Table.mem_delete.1 h).1
  | _ => exact .inr h

theorem mem_apply_built {st : Store} {i : Nat} {effect : Effect} {entry : ChunkKey × Nat} (h : entry ∈ st.built) :
    entry ∈ (st.apply i effect).built := by
  cases effect with
  | buildKey key => exact List.mem_append_left _ h
  | _ => exact h

/-! ## One step of a request -/

/-- A step of request `i` from `call` to `next` in a lane that is guarded. -/
structure Advances (env : LaneEnv) (w : World) (i : Nat) (call : Call) (effect : Effect) (next : Call) : Prop where
  guarded : w.Guarded env
  reads : w.calls[i]? = some call
  allows : w.store.allows effect = true
  evolves : Evolves w.store (w.store.apply i effect)
  keys : StepKeys w.store call.held call.doomed effect next.held next.doomed

variable {i : Nat} {call next : Call} {effect : Effect}

abbrev World.after (w : World) (i : Nat) (effect : Effect) (next : Call) : World :=
  ⟨w.store.apply i effect, w.calls.set i next⟩

theorem Advances.mem (h : Advances env w i call effect next) : call ∈ w.calls := List.mem_of_getElem? h.reads

/-- The requests after the step: the one that took it, and the others. -/
theorem Advances.cases_call (h : Advances env w i call effect next) {j : Nat} {other : Call}
    (hother : (w.calls.set i next)[j]? = some other) : j = i ∧ other = next ∨ j ≠ i ∧ w.calls[j]? = some other := by
  by_cases hj : j = i
  · subst hj
    rw [List.getElem?_set_self (List.getElem?_eq_some_iff.1 h.reads).1] at hother
    exact .inl ⟨rfl, (Option.some.inj hother).symm⟩
  · rw [List.getElem?_set_ne (Ne.symm hj)] at hother
    exact .inr ⟨hj, hother⟩

/-- Two requests never hold one key. -/
theorem Advances.owner (h : Advances env w i call effect next) {j : Nat} {other : Call} {key : ChunkKey}
    (hother : w.calls[j]? = some other) (hheld : other.held = some key) (hcall : call.held = some key) : j = i := by
  have heq := h.guarded.built.eq_of_key (h.guarded.held j other hother key hheld).1
    (h.guarded.held i call h.reads key hcall).1 rfl
  exact (Prod.mk.inj heq).2

theorem Advances.built_not_new (h : Advances env w i call effect next) {key : ChunkKey}
    (hbuilt : key ∈ w.store.built.map Prod.fst) : effect ≠ .buildKey key := by
  rintro rfl
  have hallows := h.allows
  rw [Store.allows, decide_eq_true_eq] at hallows
  exact hallows hbuilt

theorem Advances.mem_built (_h : Advances env w i call effect next) {key : ChunkKey}
    (hbuilt : key ∈ w.store.built.map Prod.fst) : key ∈ (w.after i effect next).store.built.map Prod.fst := by
  obtain ⟨entry, hentry, rfl⟩ := List.mem_map.1 hbuilt
  exact List.mem_map_of_mem (mem_apply_built hentry)

/-- A key that is spent stays so. -/
theorem Advances.spent (h : Advances env w i call effect next) {key : ChunkKey} (hspent : w.Spent key) :
    (w.after i effect next).Spent key where
  built := h.mem_built hspent.built
  spent := by
    obtain hdead | ⟨hunlisted, hfree⟩ := hspent.spent
    · exact .inl (hdead.mono h.evolves)
    · refine .inr ⟨fun row hrow hsame => ?_, fun other hother hheld => ?_⟩
      · obtain hnew | hold := mem_apply_inventory hrow
        · exact hfree call h.mem (hsame ▸ (h.keys.lists row hnew).1)
        · exact hunlisted row hold hsame
      · obtain hother | rfl := List.mem_or_eq_of_mem_set hother
        · exact hfree other hother hheld
        · obtain hsame | hbuilds := h.keys.keeps key hheld
          · exact hfree call h.mem hsame
          · exact h.built_not_new hspent.built hbuilds

/-- The key that an upload gives up is spent: nobody else holds it. -/
theorem Advances.spent_of_held (h : Advances env w i call effect next) {key : ChunkKey} (hheld : call.held = some key)
    (hnone : next.held = none) (hrow : effect.row = none) : (w.after i effect next).Spent key := by
  obtain ⟨hbuilt, hunlisted⟩ := h.guarded.held i call h.reads key hheld
  refine ⟨h.mem_built (List.mem_map_of_mem hbuilt), .inr ⟨fun row hmem heq => ?_, fun other hother hsame => ?_⟩⟩
  · obtain hnew | hold := mem_apply_inventory hmem
    · rw [hrow] at hnew
      cases hnew
    · exact hunlisted row hold heq
  · obtain ⟨j, hj⟩ := List.mem_iff_getElem?.1 hother
    obtain ⟨-, rfl⟩ | ⟨hne, hj⟩ := h.cases_call hj
    · rw [hnone] at hsame
      cases hsame
    · exact hne (h.owner hj hsame hheld)

/-- The key that a repair has replaced is spent: it was in one row of the inventory, and nobody held it. -/
theorem Advances.spent_of_swap {row old : InventoryRow} {key : ChunkKey}
    (h : Advances env w i call (.swapKey row key) next) (hold : old ∈ w.store.inventory)
    (hat : row.isAt key old = true) : (w.after i (.swapKey row key) next).Spent key := by
  obtain ⟨hheld, hnone, -⟩ := h.keys.lists row rfl
  simp only [InventoryRow.isAt, Bool.and_eq_true, decide_eq_true_eq] at hat
  obtain ⟨⟨hid, hindex⟩, hkey⟩ := hat
  refine ⟨hkey ▸ h.guarded.rowBuilt old hold, .inr ⟨fun other hother heq => ?_, fun other hother hsame => ?_⟩⟩
  · obtain ⟨x, hx, rfl⟩ := Table.mem_update.1 hother
    cases hatx : row.isAt key x with
    | true =>
      rw [hatx] at heq
      have heq : row.kvKey = key := heq
      exact (h.guarded.held i call h.reads row.kvKey hheld).2 old hold (hkey.trans heq.symm)
    | false =>
      rw [hatx] at heq
      have heq : x.kvKey = key := heq
      have hplace := h.guarded.rowKeys x hx
      have hplace' := h.guarded.rowKeys old hold
      rw [heq] at hplace
      rw [hkey] at hplace'
      have hatx' : row.isAt key x = true := by
        simp only [InventoryRow.isAt, Bool.and_eq_true, decide_eq_true_eq]
        exact ⟨⟨hplace.1.symm.trans (hplace'.1.trans hid), hplace.2.symm.trans (hplace'.2.trans hindex)⟩, heq⟩
      exact Bool.false_ne_true (hatx.symm.trans hatx')
  · obtain hother | rfl := List.mem_or_eq_of_mem_set hother
    · obtain ⟨j, hj⟩ := List.mem_iff_getElem?.1 hother
      exact (h.guarded.held j other hj key hsame).2 old hold hkey
    · rw [hnone] at hsame
      cases hsame

theorem Advances.doomed (h : Advances env w i call effect next) {key : ChunkKey} (hkey : key ∈ next.doomed) :
    (w.after i effect next).Spent key := by
  obtain hdoomed | ⟨hheld, hnone, hrow⟩ | ⟨row, rfl, old, hold, hat⟩ | ⟨row, hrow, rfl, hdead⟩ := h.keys.dooms key hkey
  · exact h.spent (h.guarded.doomed call h.mem key hdoomed)
  · exact h.spent_of_held hheld hnone hrow
  · exact h.spent_of_swap hold hat
  · refine h.spent ⟨h.guarded.rowBuilt row hrow, .inl ?_⟩
    rw [(h.guarded.rowKeys row hrow).1]
    exact hdead

theorem Advances.held (h : Advances env w i call effect next) {j : Nat} {other : Call}
    (hother : (w.after i effect next).calls[j]? = some other) {key : ChunkKey} (hheld : other.held = some key) :
    (key, j) ∈ (w.after i effect next).store.built ∧
      ∀ row ∈ (w.after i effect next).store.inventory, row.kvKey ≠ key := by
  obtain ⟨rfl, rfl⟩ | ⟨hj, hother⟩ := h.cases_call hother
  · obtain hsame | hbuilds := h.keys.keeps key hheld
    · obtain ⟨hbuilt, hunlisted⟩ := h.guarded.held j call h.reads key hsame
      refine ⟨mem_apply_built hbuilt, fun row hrow heq => ?_⟩
      obtain hnew | hold := mem_apply_inventory hrow
      · exact Option.some_ne_none key (hheld.symm.trans (h.keys.lists row hnew).2.1)
      · exact hunlisted row hold heq
    · subst hbuilds
      refine ⟨List.mem_append_right _ (List.mem_singleton.2 rfl), fun row hrow heq => ?_⟩
      exact h.built_not_new (heq ▸ h.guarded.rowBuilt row hrow) rfl
  · obtain ⟨hbuilt, hunlisted⟩ := h.guarded.held j other hother key hheld
    refine ⟨mem_apply_built hbuilt, fun row hrow heq => ?_⟩
    obtain hnew | hold := mem_apply_inventory hrow
    · exact hj (h.owner hother hheld (heq ▸ (h.keys.lists row hnew).1))
    · exact hunlisted row hold heq

/-- **A step of a request keeps the keys apart.** -/
theorem World.Guarded.advance {w' : World} {input : Input} (h : w.Guarded env)
    (hmeets : ∀ call ∈ w.calls[i]?, call.Finds env w.store input) (hs : w.advance env i input = some w') :
    w'.Guarded env := by
  have hsound : w'.Sound env := h.sound.act (a := .advance i input) hs
  obtain ⟨call, effect, next, hcall, hstep, hallows, rfl⟩ := advance_cases hs
  have hmem : call ∈ w.calls := List.mem_of_getElem? hcall
  have hfinds := hmeets call hcall
  have hstays : Advances env w i call effect next :=
    ⟨h, hcall, hallows, h.sound.store.evolves i (call.step_ok h.sound.store (h.sound.calls call hmem) hstep).1,
      call.step_keys hfinds (h.knows call hmem) hstep⟩
  have hknows := call.step_knows h.sound.store i hfinds (h.knows call hmem) hstep
  constructor
  · exact hsound
  · intro other hother
    obtain hother | rfl := List.mem_or_eq_of_mem_set hother
    · exact (h.knows other hother).mono hstays.evolves
    · exact hknows
  · intro row hrow
    obtain hnew | hold := mem_apply_inventory hrow
    · exact (hstays.keys.lists row hnew).2.2
    · exact h.rowKeys row hold
  · intro row hrow
    obtain hnew | hold := mem_apply_inventory hrow
    · have hheld := (hstays.keys.lists row hnew).1
      exact hstays.mem_built (List.mem_map_of_mem (h.held i call hcall row.kvKey hheld).1)
    · exact hstays.mem_built (h.rowBuilt row hold)
  · cases effect with
    | buildKey key =>
      refine h.built.append fun entry hentry hsame => ?_
      have hsame : entry.1 = key := hsame
      exact hstays.built_not_new (hsame ▸ List.mem_map_of_mem hentry) rfl
    | _ => exact h.built
  · exact fun j other hother key hheld => hstays.held hother hheld
  · intro other hother key hkey
    obtain hother | rfl := List.mem_or_eq_of_mem_set hother
    · exact hstays.spent (h.doomed other hother key hkey)
    · exact hstays.doomed hkey
  · intro key hkey
    cases effect with
    | deleteObject deleted =>
      obtain hkey | hkey := List.mem_append.1 hkey
      · exact hstays.spent (h.deleted key hkey)
      · obtain rfl := List.mem_singleton.1 hkey
        exact hstays.spent (h.doomed call hmem key (hstays.keys.deletes key rfl))
    | _ => exact hstays.spent (h.deleted key hkey)

/-! ## Other steps -/

/-- The requests and the sets change, and no key is taken in hand. -/
theorem World.Guarded.frame {w' : World} (h : w.Guarded env) (hsound : w'.Sound env)
    (hevolves : Evolves w.store w'.store) (hinventory : w'.store.inventory = w.store.inventory)
    (hbuilt : w'.store.built = w.store.built) (hdeleted : w'.store.deleted = w.store.deleted)
    (hcalls : ∀ (j : Nat) (call : Call), w'.calls[j]? = some call → w.calls[j]? = some call ∨
      call.Knows w'.store ∧ call.held = none ∧ call.doomed = []) : w'.Guarded env := by
  have hmem : ∀ call ∈ w'.calls, call ∈ w.calls ∨ call.Knows w'.store ∧ call.held = none ∧ call.doomed = [] := by
    intro call hcall
    obtain ⟨j, hj⟩ := List.mem_iff_getElem?.1 hcall
    exact (hcalls j call hj).imp_left List.mem_of_getElem?
  have hspent : ∀ {key : ChunkKey}, w.Spent key → w'.Spent key := by
    intro key hspent
    refine ⟨hbuilt ▸ hspent.built, hspent.spent.imp (fun hdead => hdead.mono hevolves) fun hfree => ?_⟩
    refine ⟨hinventory ▸ hfree.1, fun call hcall hheld => ?_⟩
    obtain hcall | ⟨-, hnone, -⟩ := hmem call hcall
    · exact hfree.2 call hcall hheld
    · rw [hnone] at hheld
      cases hheld
  constructor
  · exact hsound
  · intro call hcall
    obtain hcall | ⟨hknows, -⟩ := hmem call hcall
    · exact (h.knows call hcall).mono hevolves
    · exact hknows
  · rw [hinventory]
    exact h.rowKeys
  · rw [hinventory, hbuilt]
    exact h.rowBuilt
  · rw [hbuilt]
    exact h.built
  · intro j call hcall key hheld
    rw [hinventory, hbuilt]
    obtain hcall | ⟨-, hnone, -⟩ := hcalls j call hcall
    · exact h.held j call hcall key hheld
    · rw [hnone] at hheld
      cases hheld
  · intro call hcall key hkey
    obtain hcall | ⟨-, -, hnil⟩ := hmem call hcall
    · exact hspent (h.doomed call hcall key hkey)
    · rw [hnil] at hkey
      cases hkey
  · intro key hkey
    rw [hdeleted] at hkey
    exact hspent (h.deleted key hkey)

theorem Call.stopped_idle (st : Store) (call : Call) :
    call.stopped.Knows st ∧ call.stopped.held = none ∧ call.stopped.doomed = [] := by
  cases call with
  | upload request stage => exact ⟨nofun, rfl, rfl⟩
  | _ => exact ⟨trivial, rfl, rfl⟩

theorem Request.call_idle (st : Store) (now : Nat) (request : Request) :
    (request.call now).Knows st ∧ (request.call now).held = none ∧ (request.call now).doomed = [] := by
  cases request with
  | uploadBackupChunk request => exact ⟨nofun, rfl, rfl⟩
  | _ => exact ⟨trivial, rfl, rfl⟩

theorem World.Guarded.act {w' : World} {a : Action} (h : w.Guarded env) (hmeets : Meets env w a)
    (hs : w.act env a = some w') : w'.Guarded env := by
  have hsound := h.sound.act hs
  have sets : ∀ set ∈ w.store.sets, ∃ set' ∈ w.store.sets, set'.Becomes set := fun set hset => ⟨set, hset, .refl set⟩
  have same : Evolves w.store w.store := .of_sets sets rfl (fun _ hrow => hrow) fun _ hobject => hobject
  cases a with
  | createBackupSet backupId descriptor retentionHours =>
    obtain ⟨store, hstore, rfl⟩ := Option.map_eq_some_iff.1 hs
    have hevolves := (h.sound.store.createBackupSet hstore).2
    have hframe : store.inventory = w.store.inventory ∧ store.built = w.store.built ∧
        store.deleted = w.store.deleted := by
      unfold Store.createBackupSet at hstore
      split at hstore
      · cases hstore
      · split at hstore <;> cases hstore
        exact ⟨rfl, rfl, rfl⟩
    exact h.frame hsound hevolves hframe.1 hframe.2.1 hframe.2.2 fun _ _ hcall => .inl hcall
  | request request =>
    obtain rfl := Option.some.inj hs
    refine h.frame hsound same rfl rfl rfl fun j call hcall => ?_
    by_cases hj : j < w.calls.length
    · rw [List.getElem?_append_left hj] at hcall
      exact .inl hcall
    · rw [List.getElem?_append_right (Nat.le_of_not_lt hj)] at hcall
      obtain rfl := List.mem_singleton.1 (List.mem_of_getElem? hcall)
      exact .inr (request.call_idle _ _)
  | advance i input => exact h.advance hmeets hs
  | stop i =>
    obtain ⟨call, -, rfl⟩ := Option.map_eq_some_iff.1 hs
    refine h.frame hsound same rfl rfl rfl fun j other hother => ?_
    by_cases hj : i = j
    · subst hj
      obtain rfl : other = call.stopped := by
        rw [List.getElem?_set] at hother
        simp only [if_true] at hother
        split at hother
        · exact (Option.some.inj hother).symm
        · cases hother
      exact .inr (call.stopped_idle _)
    · rw [List.getElem?_set_ne hj] at hother
      exact .inl hother
  | completeRecovery targetGeneration =>
    obtain rfl := Option.some.inj hs
    exact h.frame hsound (.of_sets sets rfl (fun _ hrow => hrow) fun _ hobject => hobject) rfl rfl rfl
      fun _ _ hcall => .inl hcall
  | tick ms =>
    obtain rfl := Option.some.inj hs
    exact h.frame hsound (.of_sets sets rfl (fun _ hrow => hrow) fun _ hobject => hobject) rfl rfl rfl
      fun _ _ hcall => .inl hcall

/-- **No object of a complete set is deleted** in a run of the lane whose steps meet the condition: a completion that
could not verify its set, and a pruning of stale uploads, do not fail a set that is complete, and the answer of a repair
or of an insert is not lost. -/
theorem intact_runs (clock : Nat) (hrun : (lane env).Steps (Meets env) (.start clock) w) : w.store.Intact := by
  have hguarded : w.Guarded env := hrun.invariant (.start env clock) fun _ _ _ h hmeets hs => h.act hmeets hs
  exact hguarded.intact

end

instance (st : Store) (input : Input) (stage : PruneStage) : Decidable (stage.Finds st input) :=
  match stage with
  | .failing _ _ staleDeleteIds _ => inferInstanceAs (Decidable
      (input.answer = .ok → ∀ set ∈ st.sets, set.id ∈ staleDeleteIds → set.status ≠ .complete))
  | .readingRuntime _ | .readingRows .. | .readingStale .. | .expiring .. | .clearing .. | .deleting .. | .returned _
  | .threw => .isTrue trivial

instance (env : LaneEnv) (st : Store) (input : Input) (request : UploadRequest) (stage : UploadStage) :
    Decidable ((Call.upload request stage).Finds env st input) :=
  match stage with
  | .swapping _ now existing key => inferInstanceAs (Decidable
      (input.answer = .lost → st.inventory.any ((request.row env key now).isAt existing.kvKey) = false))
  | .inserting _ now key =>
    inferInstanceAs (Decidable (input.answer = .lost → st.accepts (request.row env key now) = false))
  | .loading | .finding .. | .reading .. | .replacing .. | .removing .. | .putting .. | .discarding .. | .returned _
  | .threw _ => .isTrue trivial

instance (env : LaneEnv) (st : Store) (input : Input) (backupId : Text) (body : CompleteBody) (stage : CompleteStage) :
    Decidable ((Call.complete backupId body stage).Finds env st input) :=
  match stage with
  | .failing _ _ => inferInstanceAs (Decidable
      (input.answer = .ok → ∀ set ∈ st.sets, set.id = backupId → set.status ≠ .complete))
  | .pruning stage => inferInstanceAs (Decidable (stage.Finds st input))
  | .loading | .checking .. | .paging .. | .fetching .. | .finishing .. | .clearing _ | .deleting .. | .threw _ =>
    .isTrue trivial

instance (env : LaneEnv) (st : Store) (input : Input) (call : Call) : Decidable (call.Finds env st input) :=
  match call with
  | .upload request stage => inferInstanceAs (Decidable ((Call.upload request stage).Finds env st input))
  | .complete backupId body stage => inferInstanceAs (Decidable ((Call.complete backupId body stage).Finds env st input))
  | .prune stage => inferInstanceAs (Decidable (stage.Finds st input))
  | .latest _ | .chunk .. | .begin .. => .isTrue trivial

instance (env : LaneEnv) (w : World) (a : Action) : Decidable (Meets env w a) :=
  match a with
  | .advance i input => inferInstanceAs (Decidable (∀ call ∈ w.calls[i]?, call.Finds env w.store input))
  | .createBackupSet .. | .request _ | .stop _ | .completeRecovery _ | .tick _ => .isTrue trivial

/-- An upload of the first chunk again, whose read of the store finds nothing. -/
def repair (i : Nat) : List Action := [.request (.uploadBackupChunk ⟨sampleId, 0, [97]⟩), answered i none "",
  answered i none "", answered i none "x", answered i none "", answered i none "", answered i none ""]

/-- The set is completed after a repair, and its first object has been replaced. -/
theorem intact_runs_repaired : ∃ w,
    (lane sampleEnv).run (.start 1000) (racingUploads ++ repair 3 ++ completion 4) = some w ∧
      w.store.sets.map StoredSet.status = [.complete] ∧
      w.store.deleted = [⟨sampleId, 0, "u".toList⟩, ⟨sampleId, 0, "v".toList⟩] ∧ w.store.Intact := by
  have hmeets : (lane sampleEnv).runMeets (Meets sampleEnv) (.start 1000) (racingUploads ++ repair 3 ++ completion 4) := by
    decide +kernel
  have hshows : ((lane sampleEnv).run (.start 1000) (racingUploads ++ repair 3 ++ completion 4)).any (fun w =>
      decide (w.store.sets.map StoredSet.status = [.complete]) &&
        decide (w.store.deleted = [⟨sampleId, 0, "u".toList⟩, ⟨sampleId, 0, "v".toList⟩])) = true := by decide +kernel
  obtain ⟨w, hw, hshows⟩ := (Option.any_eq_true _ _).1 hshows
  simp only [Bool.and_eq_true, decide_eq_true_eq] at hshows
  exact ⟨w, hw, hshows.1, hshows.2, intact_runs 1000 (Machine.steps_of_run hw hmeets)⟩

instance (st : Store) : Decidable st.Intact := inferInstanceAs (Decidable (∀ set ∈ st.sets, set.status = .complete →
  ∀ row ∈ rowsOf set.id st.inventory, row.kvKey ∉ st.deleted))

/-- Two completions, of which the second does not find the second chunk and goes on after the first has completed the
set. -/
def twoCompletions : List Action := racingUploads ++ verification 3 (some [98]) ++ verification 4 none ++
  [answered 3 none "", answered 4 none "", answered 4 none "", answered 4 none ""]

/-- **A completion deletes the objects of the set that another one has completed.** -/
theorem not_intact : ¬ ∀ w, (lane sampleEnv).Reaches (.start 1000) w → w.store.Intact := by
  have hbroken : ((lane sampleEnv).run (.start 1000) twoCompletions).any (fun w => decide (¬ w.store.Intact)) = true := by
    decide +kernel
  obtain ⟨w, hw, hbroken⟩ := (Option.any_eq_true _ _).1 hbroken
  exact fun h => of_decide_eq_true hbroken (h w (Machine.steps_of_run hw (Machine.runMeets_true _ _)))

end Lane
end Recovery
end Adg
