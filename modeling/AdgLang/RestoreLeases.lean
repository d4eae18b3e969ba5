import AdgLang.DeletionRun
/-!
# RestoreLeases — backups that are leased or being restored

`pruneExpiredBackups` reads the leases and the runtime first and expires the sets that it did not keep later, by their
ids.  A lease that is taken in between does not stop it (`not_spares`).  The runs in which the sets that are expired are
not protected by then, and in which `beginRecovery` names a set that is still complete, keep every set complete while it
is leased or being restored and delete none of its objects (`spares_runs`).
-/
namespace Adg
namespace Recovery
namespace Lane

open Control (BeginBody BeginStage)

/-- A set with an unexpired restore lease, or the backup of the active recovery. -/
def Store.Protects (st : Store) (set : StoredSet) : Prop :=
  set.toBackupSet.isLeased st.clock = true ∨ st.runtime.isRestoring set.toBackupSet = true

/-- Every protected set is complete, and its objects are there. -/
def Store.Safe (st : Store) : Prop :=
  ∀ set ∈ st.sets, st.Protects set → set.status = .complete ∧
    ∀ row ∈ rowsOf set.id st.inventory, row.kvKey ∉ st.deleted

/-- A step that leaves the protected sets complete and deletes none of their objects. -/
def Store.Spares (st st' : Store) : Prop :=
  ∀ set ∈ st.sets, st.Protects set → (∃ set' ∈ st'.sets, set'.id = set.id ∧ set'.status = .complete) ∧
    ∀ row ∈ rowsOf set.id st.inventory, row.kvKey ∉ st'.deleted

/-! ## Steps that regard the leases -/

def PruneStage.Regards (st : Store) (input : Input) : PruneStage → Prop
  | .expiring _ deleteIds _ _ =>
    input.answer ≠ .failed → ∀ set ∈ st.sets, set.id ∈ deleteIds → set.status = .complete → ¬ st.Protects set
  | _ => True

/-- A pruning expires no set that is protected by then, and a recovery begins with a set that is complete by then. -/
def Call.Regards (st : Store) (input : Input) : Call → Prop
  | .complete _ _ (.pruning stage) => stage.Regards st input
  | .prune stage => stage.Regards st input
  | .begin _ (.starting _ active _) =>
    input.answer ≠ .failed → ∀ set ∈ st.sets, set.id = active.backupId → set.status = .complete
  | _ => True

/-- The condition on a step of the lane, with the one under which no object of a complete set is deleted. -/
def Heeds (env : LaneEnv) (w : World) (a : Action) : Prop :=
  Meets env w a ∧ match a with
    | .advance i input => ∀ call ∈ w.calls[i]?, call.Regards w.store input
    | _ => True

/-- What an effect needs to leave the protected sets alone. -/
def Effect.Regards (st : Store) : Effect → Prop
  | .expireSets ids _ => ∀ set ∈ st.sets, set.id ∈ ids → set.status = .complete → ¬ st.Protects set
  | .deleteSets ids => ∀ id ∈ ids, st.Dead id
  | .setRuntime runtime => (∀ id ∈ runtime.restoreBackupId, id ∈ st.created) ∧
    ∀ set ∈ st.sets, runtime.isRestoring set.toBackupSet = true →
      st.runtime.isRestoring set.toBackupSet = true ∨ set.status = .complete
  | _ => True

section

variable {env : LaneEnv} {st : Store} {w : World}

theorem write_regards {σ : Type} {effect : Effect} {next threw : σ} {answer : Answer}
    (h : answer ≠ .failed → effect.Regards st) : (answer.write effect next threw).1.Regards st := by
  cases answer with
  | ok => exact h nofun
  | failed => trivial
  | lost => exact h nofun

theorem UploadStage.step_regards {input : Input} {request : UploadRequest} {stage : UploadStage}
    {step : Effect × UploadStage} (hs : stage.step env st input request = some step) : step.1.Regards st := by
  revert hs
  fun_cases UploadStage.step env st input request stage <;> intro hs <;> cases hs
  all_goals first
    | trivial
    | exact write_regards fun _ => trivial

theorem PruneStage.step_regards {input : Input} {prune : PruneStage} {step : Effect × PruneStage}
    (hregards : prune.Regards st input) (hknows : prune.Knows st) (hs : prune.step env st input = some step) :
    step.1.Regards st := by
  cases prune with
  | readingRuntime now =>
    cases hs
    trivial
  | readingRows now runtime =>
    cases hs
    trivial
  | readingStale now deleteIds latestKept =>
    cases hs
    trivial
  | expiring now deleteIds staleDeleteIds latestKept =>
    simp only [PruneStage.step] at hs
    split at hs
    · cases hs
      trivial
    · obtain rfl := Option.some.inj hs
      exact write_regards hregards
  | failing now deleteIds staleDeleteIds latestKept =>
    simp only [PruneStage.step] at hs
    split at hs
    · cases hs
      trivial
    · obtain rfl := Option.some.inj hs
      exact write_regards fun _ => trivial
  | clearing pending confirmed latestKept =>
    cases pending with
    | cons backupId pending =>
      cases hs
      trivial
    | nil =>
      cases confirmed with
      | nil =>
        cases hs
        trivial
      | cons id confirmed =>
        obtain rfl := Option.some.inj hs
        exact write_regards fun _ => hknows
  | deleting backupId keys deleted pending confirmed latestKept =>
    cases keys with
    | nil =>
      cases hs
      trivial
    | cons key keys =>
      obtain rfl := Option.some.inj hs
      exact write_regards fun _ => trivial
  | returned latestKept => cases hs
  | threw => cases hs

theorem CompleteStage.step_regards {input : Input} {backupId : Text} {body : CompleteBody} {stage : CompleteStage}
    {step : Effect × CompleteStage}
    (hprune : ∀ prune, stage = .pruning prune → prune.Regards st input ∧ prune.Knows st)
    (hs : stage.step env st input backupId body = some step) : step.1.Regards st := by
  revert hs
  fun_cases CompleteStage.step env st input backupId body stage with
  | case20 prune =>
    intro hs
    obtain ⟨step, hstep, rfl⟩ := Option.map_eq_some_iff.1 hs
    obtain ⟨hregards, hknows⟩ := hprune prune rfl
    exact PruneStage.step_regards hregards hknows hstep
  | _ =>
    intro hs
    cases hs <;> first
      | trivial
      | exact write_regards fun _ => trivial

theorem beginStep_regards {input : Input} {body : BeginBody} {stage : BeginStage} {step : Effect × BeginStage}
    (hcreated : ∀ set ∈ st.sets, set.id ∈ st.created) (hrestoring : ∀ id ∈ st.runtime.restoreBackupId, id ∈ st.created)
    (hregards : (Call.begin body stage).Regards st input) (hs : beginStep env st input body stage = some step) :
    step.1.Regards st := by
  cases stage with
  | prolonging runtime leaseExpiresAt =>
    simp only [beginStep] at hs
    split at hs
    · obtain rfl := Option.some.inj hs
      exact write_regards fun _ => ⟨hrestoring, fun _ _ h => .inl h⟩
    · obtain rfl := Option.some.inj hs
      exact write_regards fun _ => trivial
  | starting runtime active leaseExpiresAt =>
    simp only [beginStep] at hs
    split at hs
    · rename_i hfound
      obtain rfl := Option.some.inj hs
      refine write_regards fun hanswer => ⟨fun id hid => ?_, fun set hset hrestores => ?_⟩
      · obtain ⟨set, hload⟩ := Option.isSome_iff_exists.1 hfound
        obtain ⟨hmem, hsame⟩ := Table.lookup_some hload
        rw [← Option.some.inj hid, ← hsame]
        exact hcreated set hmem
      · refine .inr (hregards hanswer set hset ?_)
        simp only [RecoveryRuntime.isRestoring, Bool.and_eq_true, decide_eq_true_eq] at hrestores
        exact (Option.some.inj hrestores.2).symm
    · cases hs
      trivial
  | touching began leaseExpiresAt =>
    obtain rfl := Option.some.inj hs
    exact write_regards fun _ => trivial
  | returned began runtime => cases hs
  | threw error => cases hs
  | _ =>
    cases hs
    trivial

theorem LatestStage.step_regards {input : Input} {stage : LatestStage} {step : Effect × LatestStage}
    (hs : stage.step env st input = some step) : step.1.Regards st := by
  revert hs
  fun_cases LatestStage.step env st input stage <;> intro hs <;> cases hs
  all_goals first
    | trivial
    | exact write_regards fun _ => trivial

theorem ChunkStage.step_regards {input : Input} {backupId : Text} {chunkIndex : Nat} {stage : ChunkStage}
    {step : Effect × ChunkStage} (hs : stage.step env st input backupId chunkIndex = some step) :
    step.1.Regards st := by
  revert hs
  fun_cases ChunkStage.step env st input backupId chunkIndex stage <;> intro hs <;> cases hs
  all_goals first
    | trivial
    | exact write_regards fun _ => trivial

theorem Call.step_regards (hcreated : ∀ set ∈ st.sets, set.id ∈ st.created)
    (hrestoring : ∀ id ∈ st.runtime.restoreBackupId, id ∈ st.created) {input : Input} {call : Call}
    {step : Effect × Call} (hregards : call.Regards st input) (hknows : call.Knows st)
    (hs : call.step env st input = some step) : step.1.Regards st := by
  cases call with
  | upload request stage =>
    obtain ⟨step, hstep, rfl⟩ := Option.map_eq_some_iff.1 hs
    exact UploadStage.step_regards hstep
  | complete backupId body stage =>
    obtain ⟨step, hstep, rfl⟩ := Option.map_eq_some_iff.1 hs
    refine CompleteStage.step_regards (fun prune hprune => ?_) hstep
    subst hprune
    exact ⟨hregards, hknows⟩
  | prune stage =>
    obtain ⟨step, hstep, rfl⟩ := Option.map_eq_some_iff.1 hs
    refine PruneStage.step_regards ?_ hknows hstep
    exact hregards
  | latest stage =>
    obtain ⟨step, hstep, rfl⟩ := Option.map_eq_some_iff.1 hs
    exact LatestStage.step_regards hstep
  | chunk backupId chunkIndex stage =>
    obtain ⟨step, hstep, rfl⟩ := Option.map_eq_some_iff.1 hs
    exact ChunkStage.step_regards hstep
  | begin body stage =>
    obtain ⟨step, hstep, rfl⟩ := Option.map_eq_some_iff.1 hs
    exact beginStep_regards hcreated hrestoring hregards hstep

/-! ## Protected sets -/

/-- Every protected set is complete, and the active recovery names a set that was given out. -/
structure Store.Shields (st : Store) : Prop where
  restoring : ∀ id ∈ st.runtime.restoreBackupId, id ∈ st.created
  complete : ∀ set ∈ st.sets, st.Protects set → set.status = .complete

/-- An update that concerns sets that are uploading leaves the protected ones as they are. -/
theorem Store.Shields.uploading (h : st.Shields) {p : StoredSet → Bool} {f : StoredSet → StoredSet}
    (hp : ∀ set, p set = true → set.status = .uploading) (hf : ∀ set, (f set).id = set.id ∧
      (f set).restoreLeaseExpiresAt = set.restoreLeaseExpiresAt) :
    (updateStored p f st).Shields ∧ ∀ set ∈ st.sets, st.Protects set → set ∈ (updateStored p f st).sets := by
  have hkept : ∀ set ∈ st.sets, st.Protects set → p set = false := by
    intro set hset hprotects
    cases hat : p set with
    | false => rfl
    | true =>
      have hcomplete := h.complete set hset hprotects
      rw [hp set hat] at hcomplete
      cases hcomplete
  refine ⟨⟨h.restoring, fun set' hset' hprotects => ?_⟩, fun set hset hprotects => ?_⟩
  · obtain ⟨set, hset, rfl⟩ := Table.mem_update.1 hset'
    cases hat : p set with
    | false =>
      rw [hat] at hprotects
      exact h.complete set hset hprotects
    | true =>
      rw [hat] at hprotects
      have hbefore : st.Protects set := by
        simp only [Store.Protects, BackupSet.isLeased, RecoveryRuntime.isRestoring, StoredSet.toBackupSet, if_true, hf,
          Lane.updateStored] at hprotects ⊢
        exact hprotects
      rw [hkept set hset hbefore] at hat
      cases hat
  · refine Table.mem_update.2 ⟨set, hset, ?_⟩
    rw [hkept set hset hprotects]
    rfl

/-- The protected sets are there, and complete, in a later store. -/
def Store.Keeps (st st' : Store) : Prop :=
  ∀ set ∈ st.sets, st.Protects set → ∃ set' ∈ st'.sets, set'.id = set.id ∧ set'.status = .complete

theorem Store.Shields.keeps (h : st.Shields) {st' : Store}
    (hkept : ∀ set ∈ st.sets, st.Protects set → set ∈ st'.sets) : st.Keeps st' :=
  fun set hset hprotects => ⟨set, hkept set hset hprotects, rfl, h.complete set hset hprotects⟩

/-- **An effect that regards the protected sets** leaves them complete, and protects no other set. -/
theorem Store.Shields.apply (h : st.Shields) {effect : Effect} (hregards : effect.Regards st) (i : Nat) :
    (st.apply i effect).Shields ∧ st.Keeps (st.apply i effect) := by
  have same : st.Keeps st := h.keeps fun _ hset _ => hset
  have sized : ∀ {p : StoredSet → Bool} {f : StoredSet → StoredSet},
      (∀ set, p set = true → set.status = .uploading) → (∀ set, (f set).id = set.id ∧
        (f set).restoreLeaseExpiresAt = set.restoreLeaseExpiresAt) →
      (updateStored p f st).Shields ∧ st.Keeps (updateStored p f st) := fun hp hf =>
    ⟨(h.uploading hp hf).1, h.keeps (h.uploading hp hf).2⟩
  have isAt : ∀ (backupId : Text) (set : StoredSet), StoredSet.isAt backupId .uploading set = true →
      set.status = .uploading := by
    intro backupId set hat
    simp only [StoredSet.isAt, Bool.and_eq_true, decide_eq_true_eq] at hat
    exact hat.2
  cases effect with
  | quiet => exact ⟨h, same⟩
  | buildKey key => exact ⟨⟨h.restoring, h.complete⟩, same⟩
  | putObject key bytes => exact ⟨⟨h.restoring, h.complete⟩, same⟩
  | deleteObject key => exact ⟨⟨h.restoring, h.complete⟩, same⟩
  | swapKey row oldKey => exact ⟨⟨h.restoring, h.complete⟩, same⟩
  | insertChunk row uploadedBytes uploadedChunks now =>
    obtain ⟨hshields, hkeeps⟩ := sized (f := StoredSet.counted uploadedBytes uploadedChunks now) (isAt row.backupId)
      fun _ => ⟨rfl, rfl⟩
    exact ⟨⟨hshields.restoring, hshields.complete⟩, hkeeps⟩
  | complete backupId descriptor now chunks =>
    obtain ⟨hshields, hkeeps⟩ := sized (f := StoredSet.completed descriptor now) (isAt backupId) fun _ => ⟨rfl, rfl⟩
    exact ⟨⟨hshields.restoring, hshields.complete⟩, hkeeps⟩
  | markFailed backupId now => exact sized (isAt backupId) fun _ => ⟨rfl, rfl⟩
  | failSets ids now =>
    refine sized (fun set hat => ?_) fun _ => ⟨rfl, rfl⟩
    simp only [Bool.and_eq_true, decide_eq_true_eq] at hat
    exact hat.2
  | expireSets ids now =>
    have hkept : ∀ set ∈ st.sets, st.Protects set →
        (decide (set.id ∈ ids) && decide (set.status = .complete)) = false := by
      intro set hset hprotects
      by_contra hat
      simp only [Bool.not_eq_false, Bool.and_eq_true, decide_eq_true_eq] at hat
      exact hregards set hset hat.1 hat.2 hprotects
    refine ⟨⟨h.restoring, fun set' hset' hprotects => ?_⟩, h.keeps fun set hset hprotects => ?_⟩
    · obtain ⟨set, hset, rfl⟩ := Table.mem_update.1 hset'
      cases hat : decide (set.id ∈ ids) && decide (set.status = .complete) with
      | false =>
        rw [hat] at hprotects
        exact h.complete set hset hprotects
      | true =>
        rw [hat] at hprotects
        have hbefore : st.Protects set := hprotects
        rw [hkept set hset hbefore] at hat
        cases hat
    · refine Table.mem_update.2 ⟨set, hset, ?_⟩
      rw [hkept set hset hprotects]
      rfl
  | deleteSets ids =>
    refine ⟨⟨fun id hid => ?_, fun set hset hprotects => ?_⟩, h.keeps fun set hset hprotects => ?_⟩
    · exact h.restoring id (Option.mem_filter_iff.1 hid).1
    · refine h.complete set (Table.mem_delete.1 hset).1 (hprotects.imp_right fun hrestores => ?_)
      simp only [RecoveryRuntime.isRestoring, Bool.and_eq_true, decide_eq_true_eq] at hrestores ⊢
      exact ⟨hrestores.1, (Option.mem_filter_iff.1 hrestores.2).1⟩
    · refine Table.mem_delete.2 ⟨hset, ?_⟩
      rw [decide_eq_false_iff_not]
      exact fun hid => (hregards set.id hid).2 set hset rfl (.inr (h.complete set hset hprotects))
  | touchLease backupId leaseExpiresAt =>
    refine ⟨⟨h.restoring, fun set' hset' hprotects => ?_⟩, fun set hset hprotects => ?_⟩
    · obtain ⟨set, hset, rfl⟩ := Table.mem_update.1 hset'
      cases hat : StoredSet.isAt backupId .complete set with
      | false =>
        rw [hat] at hprotects
        exact h.complete set hset hprotects
      | true =>
        simp only [StoredSet.isAt, Bool.and_eq_true, decide_eq_true_eq] at hat
        exact hat.2
    · refine ⟨_, Table.mem_update.2 ⟨set, hset, rfl⟩, ?_⟩
      have hcomplete := h.complete set hset hprotects
      split <;> exact ⟨rfl, hcomplete⟩
  | setRuntime runtime =>
    refine ⟨⟨hregards.1, fun set hset hprotects => ?_⟩, same⟩
    obtain hleased | hrestores := hprotects
    · exact h.complete set hset (.inl hleased)
    · obtain hbefore | hcomplete := hregards.2 set hset hrestores
      · exact h.complete set hset (.inr hbefore)
      · exact hcomplete

/-! ## Runs -/

structure World.Shielded (env : LaneEnv) (w : World) : Prop where
  guarded : w.Guarded env
  shields : w.store.Shields

theorem World.Shielded.safe (h : w.Shielded env) : w.store.Safe := fun set hset hprotects =>
  ⟨h.shields.complete set hset hprotects,
    h.guarded.intact set hset (h.shields.complete set hset hprotects)⟩

/-- The protected sets are kept, and every key whose object was deleted since is spent. -/
theorem World.Shielded.spares {w' : World} (h : w.Shielded env) (hkeeps : w.store.Keeps w'.store)
    (hdeleted : ∀ key ∈ w'.store.deleted, w.Spent key) : w.store.Spares w'.store := by
  intro set hset hprotects
  refine ⟨hkeeps set hset hprotects, fun row hrow hkey => ?_⟩
  exact h.guarded.not_spent hset (.inr (h.shields.complete set hset hprotects)) hrow (hdeleted _ hkey)

theorem World.Shielded.act {w' : World} {a : Action} (h : w.Shielded env) (hheeds : Heeds env w a)
    (hs : w.act env a = some w') : w'.Shielded env ∧ w.store.Spares w'.store := by
  have hguarded : w'.Guarded env := h.guarded.act hheeds.1 hs
  have same : w.store.Keeps w.store := h.shields.keeps fun _ hset _ => hset
  have spares : w.store.Keeps w'.store → w'.store.deleted = w.store.deleted → w.store.Spares w'.store :=
    fun hkeeps hdeleted => h.spares hkeeps fun key hkey => h.guarded.deleted key (hdeleted ▸ hkey)
  cases a with
  | createBackupSet backupId descriptor retentionHours =>
    obtain ⟨store, hstore, rfl⟩ := Option.map_eq_some_iff.1 hs
    unfold Store.createBackupSet at hstore
    split at hstore
    · cases hstore
    · split at hstore
      · cases hstore
      · rename_i hguard
        obtain rfl := Option.some.inj hstore
        refine ⟨⟨hguarded, fun id hid => List.mem_append_left _ (h.shields.restoring id hid), fun set hset hprotects => ?_⟩,
          spares (h.shields.keeps fun set hset _ => List.mem_append_left _ hset) rfl⟩
        obtain hset | hset := List.mem_append.1 hset
        · exact h.shields.complete set hset hprotects
        · -- no recovery names a set that is new
          obtain rfl := List.mem_singleton.1 hset
          obtain hleased | hrestores := hprotects
          · cases hleased
          · simp only [RecoveryRuntime.isRestoring, Bool.and_eq_true, decide_eq_true_eq] at hrestores
            exact absurd (.inl (h.shields.restoring _ hrestores.2)) hguard
  | request request =>
    obtain rfl := Option.some.inj hs
    exact ⟨⟨hguarded, h.shields⟩, spares same rfl⟩
  | stop i =>
    obtain ⟨call, -, rfl⟩ := Option.map_eq_some_iff.1 hs
    exact ⟨⟨hguarded, h.shields⟩, spares same rfl⟩
  | completeRecovery targetGeneration =>
    obtain rfl := Option.some.inj hs
    refine ⟨⟨hguarded, nofun, fun set hset hprotects => ?_⟩, spares (h.shields.keeps fun _ hset _ => hset) rfl⟩
    obtain hleased | hrestores := hprotects
    · exact h.shields.complete set hset (.inl hleased)
    · cases hrestores
  | tick ms =>
    obtain rfl := Option.some.inj hs
    refine ⟨⟨hguarded, h.shields.restoring, fun set hset hprotects => ?_⟩,
      spares (h.shields.keeps fun _ hset _ => hset) rfl⟩
    refine h.shields.complete set hset (hprotects.imp_left fun hleased => ?_)
    obtain ⟨lease, hlease, hlater⟩ := (Option.any_eq_true _ _).1 hleased
    rw [decide_eq_true_eq] at hlater
    have hlater : w.store.clock + ms < lease := hlater
    exact (Option.any_eq_true _ _).2 ⟨lease, hlease, decide_eq_true (by omega)⟩
  | advance i input =>
    obtain ⟨call, effect, next, hcall, hstep, -, rfl⟩ := advance_cases hs
    have hmem : call ∈ w.calls := List.mem_of_getElem? hcall
    have hregards : effect.Regards w.store := Call.step_regards h.guarded.sound.store.created h.shields.restoring
      (hheeds.2 call hcall) (h.guarded.knows call hmem) hstep
    have hkeys : StepKeys w.store call.held call.doomed effect next.held next.doomed :=
      call.step_keys (hheeds.1 call hcall) (h.guarded.knows call hmem) hstep
    obtain ⟨hshields, hkeeps⟩ := h.shields.apply hregards i
    refine ⟨⟨hguarded, hshields⟩, h.spares hkeeps fun key hkey => ?_⟩
    cases effect with
    | deleteObject deleted =>
      obtain hkey | hkey := List.mem_append.1 hkey
      · exact h.guarded.deleted key hkey
      · obtain rfl := List.mem_singleton.1 hkey
        exact h.guarded.doomed call hmem key (hkeys.deletes key rfl)
    | _ => exact h.guarded.deleted key hkey

/-- **The protected sets stay complete, with their objects**, in every state of a run whose steps heed the leases, and at
every such step from there. -/
theorem spares_runs (clock : Nat) (hrun : (lane env).Steps (Heeds env) (.start clock) w) :
    w.store.Safe ∧ ∀ a w', Heeds env w a → (lane env).step w a = some w' → w.store.Spares w'.store := by
  have hshielded : w.Shielded env := hrun.invariant
    ⟨.start env clock, ⟨fun _ hid => (nomatch hid), fun _ hset => nomatch hset⟩⟩ fun _ _ _ h hheeds hs => (h.act hheeds hs).1
  exact ⟨hshielded.safe, fun a w' hheeds hs => (hshielded.act hheeds hs).2⟩

end

instance (st : Store) (set : StoredSet) : Decidable (st.Protects set) :=
  inferInstanceAs (Decidable (set.toBackupSet.isLeased st.clock = true ∨ st.runtime.isRestoring set.toBackupSet = true))

instance (st : Store) : Decidable st.Safe := inferInstanceAs (Decidable (∀ set ∈ st.sets, st.Protects set →
  set.status = .complete ∧ ∀ row ∈ rowsOf set.id st.inventory, row.kvKey ∉ st.deleted))

instance (st : Store) (input : Input) (stage : PruneStage) : Decidable (stage.Regards st input) :=
  match stage with
  | .expiring _ deleteIds _ _ => inferInstanceAs (Decidable (input.answer ≠ .failed →
      ∀ set ∈ st.sets, set.id ∈ deleteIds → set.status = .complete → ¬ st.Protects set))
  | .readingRuntime _ | .readingRows .. | .readingStale .. | .failing .. | .clearing .. | .deleting .. | .returned _
  | .threw => .isTrue trivial

instance (st : Store) (input : Input) (backupId : Text) (body : CompleteBody) (stage : CompleteStage) :
    Decidable ((Call.complete backupId body stage).Regards st input) :=
  match stage with
  | .pruning stage => inferInstanceAs (Decidable (stage.Regards st input))
  | .loading | .checking .. | .paging .. | .fetching .. | .finishing .. | .failing .. | .clearing _ | .deleting ..
  | .threw _ => .isTrue trivial

instance (st : Store) (input : Input) (body : BeginBody) (stage : BeginStage) :
    Decidable ((Call.begin body stage).Regards st input) :=
  match stage with
  | .starting _ active _ => inferInstanceAs (Decidable (input.answer ≠ .failed →
      ∀ set ∈ st.sets, set.id = active.backupId → set.status = .complete))
  | .reading | .loading _ | .prolonging .. | .touching .. | .rereading _ | .returned .. | .threw _ => .isTrue trivial

instance (st : Store) (input : Input) (call : Call) : Decidable (call.Regards st input) :=
  match call with
  | .complete backupId body stage => inferInstanceAs (Decidable ((Call.complete backupId body stage).Regards st input))
  | .prune stage => inferInstanceAs (Decidable (stage.Regards st input))
  | .begin body stage => inferInstanceAs (Decidable ((Call.begin body stage).Regards st input))
  | .upload .. | .latest _ | .chunk .. => .isTrue trivial

instance (env : LaneEnv) (w : World) (a : Action) : Decidable (Heeds env w a) :=
  match a with
  | .advance i input => inferInstanceAs (Decidable (Meets env w (.advance i input) ∧
      ∀ call ∈ w.calls[i]?, call.Regards w.store input))
  | .createBackupSet backupId descriptor hours =>
    inferInstanceAs (Decidable (Meets env w (.createBackupSet backupId descriptor hours) ∧ True))
  | .request request => inferInstanceAs (Decidable (Meets env w (.request request) ∧ True))
  | .stop i => inferInstanceAs (Decidable (Meets env w (.stop i) ∧ True))
  | .completeRecovery generation => inferInstanceAs (Decidable (Meets env w (.completeRecovery generation) ∧ True))
  | .tick ms => inferInstanceAs (Decidable (Meets env w (.tick ms) ∧ True))

/-- A complete backup, eight days old. -/
def oldBackup : List Action := racingUploads ++ completion 3 ++ [.stop 3, .tick (8 * 24 * hourMs)]

/-- A request that leases the latest backup. -/
def leasing (i : Nat) : List Action :=
  [.request .fetchLatestBackup, answered i none "", answered i none "", answered i none "", answered i none ""]

/-- A pruning up to its update of the sets that it has not kept. -/
def pruning (i : Nat) : List Action :=
  [.request .pruneExpiredBackups, answered i none "", answered i none "", answered i none ""]

/-- A pruning that comes after the lease. -/
def leasedBackup : List Action := oldBackup ++ leasing 4 ++ pruning 5 ++ [answered 5 none "", answered 5 none ""]

theorem spares_runs_leased : ∃ w, (lane sampleEnv).run (.start 1000) leasedBackup = some w ∧
    (w.store.sets.map fun set => (set.status, decide (w.store.Protects set))) = [(.complete, true)] ∧ w.store.Safe := by
  have hmeets : (lane sampleEnv).runMeets (Heeds sampleEnv) (.start 1000) leasedBackup := by decide +kernel
  have hshows : ((lane sampleEnv).run (.start 1000) leasedBackup).any (fun w =>
      decide ((w.store.sets.map fun set => (set.status, decide (w.store.Protects set))) = [(.complete, true)])) = true := by
    decide +kernel
  obtain ⟨w, hw, hshows⟩ := (Option.any_eq_true _ _).1 hshows
  exact ⟨w, hw, of_decide_eq_true hshows, (spares_runs 1000 (Machine.steps_of_run hw hmeets)).1⟩

/-- A lease that is taken between the reads of a pruning and its update. -/
def expiredBackup : List Action := oldBackup ++ pruning 4 ++ leasing 5 ++ [answered 4 none ""]

/-- **A pruning expires a backup that has been leased in the meantime.** -/
theorem not_spares : ¬ ∀ w, (lane sampleEnv).Reaches (.start 1000) w →
    w.store.Safe ∧ ∀ a w', (lane sampleEnv).step w a = some w' → w.store.Spares w'.store := by
  have hbroken : ((lane sampleEnv).run (.start 1000) expiredBackup).any (fun w => decide (¬ w.store.Safe)) = true := by
    decide +kernel
  obtain ⟨w, hw, hbroken⟩ := (Option.any_eq_true _ _).1 hbroken
  exact fun h => of_decide_eq_true hbroken (h w (Machine.steps_of_run hw (Machine.runMeets_true _ _))).1

end Lane
end Recovery
end Adg
