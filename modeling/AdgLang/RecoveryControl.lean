import AdgLang.Machine
import AdgLang.RecoveryBackups
/-!
# RecoveryControl — overlapping requests that begin and complete recoveries

`beginRecovery` and `completeRecovery` read the row of `cpoly_recovery_runtime`, wait, and update it without looking at
it again.  What the updates did is logged, and the log is compared with the recoveries one after the other
(`sequential`): the row is what the log leads to (`World.Sequential`).  Along the runs in which every such update finds
the row that its request read this holds, and an update that finds another row breaks it (`sequential_runs`).
-/
namespace Adg
namespace Recovery
namespace Control

/-! ## Recoveries one after the other -/

/-- A recovery in progress. -/
structure Active where
  recoveryId : Text
  backupId : Text
  snapshot : Coverage
deriving DecidableEq

/-- The generation that was declared ready last, and the recovery in progress. -/
structure Phase where
  generation : Nat
  active : Option Active
deriving DecidableEq

inductive Event
  | began (active : Active)
  | prolonged (recoveryId : Text)
  | ended (recoveryId : Text)
deriving DecidableEq

def Event.isEnded : Event → Bool
  | .ended _ => true
  | _ => false

/-- A recovery begins where none is in progress, and one in progress is prolonged or ended. -/
def Phase.step (p : Phase) : Event → Option Phase
  | .began active => if p.active = none then some { p with active := some active } else none
  | .prolonged recoveryId => if p.active.map Active.recoveryId = some recoveryId then some p else none
  | .ended recoveryId =>
    if p.active.map Active.recoveryId = some recoveryId then some ⟨p.generation + 1, none⟩ else none

def sequential : Machine Phase Event := ⟨Phase.step⟩

/-- **The generation counts the recoveries that ended.** -/
theorem generation_run : ∀ {events : List Event} {p q : Phase}, sequential.run p events = some q →
    q.generation = p.generation + events.countP Event.isEnded
  | [], p, q, h => by
    obtain rfl := Option.some.inj h
    rfl
  | event :: events, p, q, h => by
    simp only [Machine.run] at h
    split at h
    · cases h
    · rename_i r hr
      have hrest := generation_run h
      have hstep : r.generation = p.generation + if event.isEnded then 1 else 0 := by
        cases event with
        | began active =>
          obtain ⟨-, hr⟩ := Option.ite_none_right_eq_some.1 hr
          obtain rfl := Option.some.inj hr
          rfl
        | prolonged recoveryId =>
          obtain ⟨-, hr⟩ := Option.ite_none_right_eq_some.1 hr
          obtain rfl := Option.some.inj hr
          rfl
        | ended recoveryId =>
          obtain ⟨-, hr⟩ := Option.ite_none_right_eq_some.1 hr
          obtain rfl := Option.some.inj hr
          rfl
      rw [List.countP_cons, hrest, hstep]
      omega

theorem run_snoc {events : List Event} {event : Event} {p q : Phase} (h : sequential.run p events = some q) :
    sequential.run p (events ++ [event]) = q.step event := by
  induction events generalizing p with
  | nil =>
    obtain rfl := Option.some.inj h
    simp only [List.nil_append, Machine.run, sequential]
    cases p.step event <;> rfl
  | cons e events ih =>
    simp only [Machine.run, List.cons_append] at h ⊢
    split at h
    · cases h
    · exact ih h

/-- The phase that a row stands for. -/
def phaseOf (runtime : RecoveryRuntime) : Phase where
  generation := runtime.readyGeneration
  active := match runtime.state, runtime.recoveryId, runtime.restoreBackupId, runtime.restoreSnapshot with
    | .recovering, some recoveryId, some backupId, some snapshot => some ⟨recoveryId, backupId, snapshot⟩
    | _, _, _, _ => none

/-! ## Requests -/

structure RouteError where
  message : Text
  status : Nat
deriving DecidableEq

/-- What a request throws. -/
inductive ControlError
  | route (error : RouteError)
  /-- The database or the replay failed, or the request was stopped. -/
  | failed
deriving DecidableEq

/-- `normalizeRecoverySnapshotCoverage`, of numbers that are no negative integers or missing. -/
def normalizeRecoverySnapshotCoverage (generation watermark : Option Nat) (fieldPrefix : Text) : Except ControlError Coverage :=
  match generation, watermark with
  | some (generation + 1), some watermark => .ok ⟨generation + 1, watermark⟩
  | some (_ + 1), none => .error (.route ⟨fieldPrefix ++ ".watermark is invalid.".toList, 400⟩)
  | _, _ => .error (.route ⟨fieldPrefix ++ ".generation is invalid.".toList, 400⟩)

structure BeginBody where
  backupId : Text
  snapshotGeneration : Option Nat
  snapshotWatermark : Option Nat
deriving DecidableEq

structure CompleteBody where
  recoveryId : Option Text
  backupId : Option Text
  snapshotGeneration : Option Nat
  snapshotWatermark : Option Nat
deriving DecidableEq

/-- Where a call of `beginRecovery` stands; it waits on the database before each stage. -/
inductive BeginStage
  | reading
  | loading (runtime : RecoveryRuntime)
  | prolonging (runtime : RecoveryRuntime) (leaseExpiresAt : Nat)
  | starting (runtime : RecoveryRuntime) (active : Active) (leaseExpiresAt : Nat)
  /-- The row was updated; a call that began a recovery says which. -/
  | touching (began : Option Active) (leaseExpiresAt : Nat)
  | rereading (began : Option Active)
  | returned (began : Option Active) (runtime : RecoveryRuntime)
  | threw (error : ControlError)
deriving DecidableEq

structure BeginCall where
  body : BeginBody
  stage : BeginStage
deriving DecidableEq

/-- Where a call of `completeRecovery` stands. -/
inductive CompleteStage
  | reading
  | loading (runtime : RecoveryRuntime) (snapshot : Coverage)
  | replaying (runtime : RecoveryRuntime) (snapshot : Coverage)
  | counting (runtime : RecoveryRuntime) (snapshot coverage : Coverage)
  | finishing (runtime : RecoveryRuntime)
  | touching (read : RecoveryRuntime)
  | rereading (read : RecoveryRuntime)
  | returned (read runtime : RecoveryRuntime)
  | threw (error : ControlError)
deriving DecidableEq

structure CompleteCall where
  body : CompleteBody
  stage : CompleteStage
deriving DecidableEq

/-! ## Updates of the row -/

/-- The update at the end of `beginRecovery`: all columns are written, from the row that was read. -/
def begunRow (read : RecoveryRuntime) (active : Active) (leaseExpiresAt : Nat) : RecoveryRuntime where
  state := .recovering
  readyGeneration := read.readyGeneration
  targetGeneration := some (read.readyGeneration + 1)
  recoveryId := some active.recoveryId
  restoreBackupId := some active.backupId
  restoreSnapshot := some active.snapshot
  restoreLeaseExpiresAt := some leaseExpiresAt

/-- The `WHERE` of the update that prolongs a recovery. -/
def prolongGuard (read row : RecoveryRuntime) : Bool :=
  decide (row.state = .recovering) && decide (row.recoveryId = read.recoveryId) && read.recoveryId.isSome

structure World where
  backups : List BackupSet
  runtime : RecoveryRuntime
  begins : List BeginCall
  completes : List CompleteCall
  /-- What the updates of the row were meant to do, in their order. -/
  log : List Event
deriving DecidableEq

def World.start (backups : List BackupSet) : World := ⟨backups, .initial, [], [], []⟩

def World.setBegin (w : World) (i : Nat) (c : BeginCall) (stage : BeginStage) : World :=
  { w with begins := w.begins.set i { c with stage := stage } }

def World.setComplete (w : World) (i : Nat) (c : CompleteCall) (stage : CompleteStage) : World :=
  { w with completes := w.completes.set i { c with stage := stage } }

/-- The checks of `beginRecovery` on the row and the set that it read. -/
def beginChecks (env : RetentionEnv) (body : BeginBody) (now : Nat) (recoveryId : Text) (runtime : RecoveryRuntime)
    (sets : List BackupSet) : BeginStage :=
  match loadBackupSet body.backupId sets with
  | none => .threw (.route ⟨"CPOLY backup was not found.".toList, 404⟩)
  | some backup =>
    if backup.status ≠ .complete then .threw (.route ⟨"Backup is not complete.".toList, 409⟩)
    else match normalizeRecoverySnapshotCoverage (body.snapshotGeneration.or (some backup.snapshot.generation))
        (body.snapshotWatermark.or (some backup.snapshot.receiptSeq)) "snapshot".toList with
      | .error error => .threw error
      | .ok snapshot =>
        if snapshot ≠ backup.snapshot then
          .threw (.route ⟨"Requested recovery snapshot did not match the selected backup.".toList, 409⟩)
        else if runtime.state = .recovering then
          if runtime.restoreBackupId = some body.backupId ∧ runtime.restoreSnapshot = some snapshot then
            .prolonging runtime (now + env.recoveryLeaseMs)
          else .threw (.route ⟨"Another recovery generation is already in progress.".toList, 409⟩)
        else .starting runtime ⟨recoveryId, body.backupId, snapshot⟩ (now + env.recoveryLeaseMs)

/-- The checks of `completeRecovery` on the row that it read. -/
def completeChecks (body : CompleteBody) (runtime : RecoveryRuntime) : CompleteStage :=
  if runtime.state ≠ .recovering then .threw (.route ⟨"No recovery generation is in progress.".toList, 409⟩)
  else if body.recoveryId ≠ none ∧ body.recoveryId ≠ runtime.recoveryId then
    .threw (.route ⟨"Recovery ID did not match the active run.".toList, 409⟩)
  else if body.backupId ≠ none ∧ body.backupId ≠ runtime.restoreBackupId then
    .threw (.route ⟨"Backup ID did not match the active recovery.".toList, 409⟩)
  else match normalizeRecoverySnapshotCoverage (body.snapshotGeneration.or (runtime.restoreSnapshot.map (fun s => s.generation)))
      (body.snapshotWatermark.or (runtime.restoreSnapshot.map (fun s => s.receiptSeq))) "snapshot".toList with
    | .error error => .threw error
    | .ok snapshot =>
      if runtime.restoreSnapshot ≠ some snapshot then
        .threw (.route ⟨"Recovery completion snapshot did not match the active run.".toList, 409⟩)
      else .loading runtime snapshot

/-- The check of the backup set. -/
def descriptorCheck (runtime : RecoveryRuntime) (snapshot : Coverage) (sets : List BackupSet) : CompleteStage :=
  match runtime.restoreBackupId.bind (fun backupId => loadBackupSet backupId sets) with
  | none => .threw (.route ⟨"CPOLY backup was not found.".toList, 404⟩)
  | some backup =>
    if backup.snapshot ≠ snapshot then
      .threw (.route ⟨"Recovery backup descriptor no longer matches the active snapshot.".toList, 409⟩)
    else .replaying runtime snapshot

/-- The checks after the replay, on the number of outstanding entries and the coverage that PostgreSQL reports. -/
def verifyChecks (runtime : RecoveryRuntime) (snapshot coverage : Coverage) (outstanding : Nat) : CompleteStage :=
  if 0 < outstanding then .threw (.route ⟨"Recovery replay has not yet reached a ready state.".toList, 409⟩)
  else if runtime.targetGeneration ≠ some coverage.generation ∨ coverage.receiptSeq < snapshot.receiptSeq then
    .threw (.route ⟨"PostgreSQL recovery verification watermark was invalid.".toList, 409⟩)
  else .finishing runtime

/-! ## Steps -/

/-- The next database access of a call of `beginRecovery`, at time `now`, with the identifier `crypto.randomUUID` gives. -/
def BeginCall.step (env : RetentionEnv) (now : Nat) (recoveryId : Text) (w : World) (i : Nat) (c : BeginCall) :
    Option World :=
  match c.stage with
  | .reading => some (w.setBegin i c (.loading w.runtime))
  | .loading runtime => some (w.setBegin i c (beginChecks env c.body now recoveryId runtime w.backups))
  | .prolonging runtime leaseExpiresAt =>
    if prolongGuard runtime w.runtime then
      some { w.setBegin i c (.touching none leaseExpiresAt) with
        runtime := { w.runtime with restoreLeaseExpiresAt := some leaseExpiresAt }
        log := w.log ++ [.prolonged (runtime.recoveryId.getD [])] }
    else some (w.setBegin i c (.touching none leaseExpiresAt))
  | .starting runtime active leaseExpiresAt =>
    some { w.setBegin i c (.touching (some active) leaseExpiresAt) with
      runtime := begunRow runtime active leaseExpiresAt
      log := w.log ++ [.began active] }
  | .touching began leaseExpiresAt => some { w.setBegin i c (.rereading began) with
      backups := touchBackupRestoreLease c.body.backupId leaseExpiresAt now w.backups }
  | .rereading began => some (w.setBegin i c (.returned began w.runtime))
  | .returned .. | .threw _ => none

/-- The next step of a call of `completeRecovery`, at time `now`, with the coverage that the replay returns and the number
of entries that are counted. -/
def CompleteCall.step (now : Nat) (coverage : Coverage) (outstanding : Nat) (w : World) (i : Nat) (c : CompleteCall) :
    Option World :=
  match c.stage with
  | .reading => some (w.setComplete i c (completeChecks c.body w.runtime))
  | .loading runtime snapshot => some (w.setComplete i c (descriptorCheck runtime snapshot w.backups))
  | .replaying runtime snapshot => some (w.setComplete i c (.counting runtime snapshot coverage))
  | .counting runtime snapshot coverage => some (w.setComplete i c (verifyChecks runtime snapshot coverage outstanding))
  | .finishing runtime => match runtime.targetGeneration with
    | none => some (w.setComplete i c (.threw .failed))
    | some targetGeneration => some { w.setComplete i c (.touching runtime) with
        runtime := w.runtime.ready targetGeneration
        log := w.log ++ [.ended (runtime.recoveryId.getD [])] }
  | .touching runtime => some { w.setComplete i c (.rereading runtime) with
      backups := match runtime.restoreBackupId with
        | none => w.backups
        | some backupId => touchBackupRestoreLease backupId now now w.backups }
  | .rereading read => some (w.setComplete i c (.returned read w.runtime))
  | .returned .. | .threw _ => none

inductive Action
  | beginRecovery (body : BeginBody)
  | completeRecovery (body : CompleteBody)
  | advanceBegin (i now : Nat) (recoveryId : Text)
  | advanceComplete (i now : Nat) (coverage : Coverage) (outstanding : Nat)
  /-- A request is stopped, or one of its calls fails; the call may have gone through. -/
  | stopBegin (i : Nat)
  | stopComplete (i : Nat)

def World.act (env : RetentionEnv) (w : World) : Action → Option World
  | .beginRecovery body => some { w with begins := w.begins ++ [⟨body, .reading⟩] }
  | .completeRecovery body => some { w with completes := w.completes ++ [⟨body, .reading⟩] }
  | .advanceBegin i now recoveryId => (w.begins[i]?).bind (fun c => c.step env now recoveryId w i)
  | .advanceComplete i now coverage outstanding => (w.completes[i]?).bind (fun c => c.step now coverage outstanding w i)
  | .stopBegin i => (w.begins[i]?).map (fun c => w.setBegin i c (.threw .failed))
  | .stopComplete i => (w.completes[i]?).map (fun c => w.setComplete i c (.threw .failed))

def controlling (env : RetentionEnv) : Machine World Action := ⟨World.act env⟩

/-! ## The requests in sequence -/

/-- The recovery that a call has begun. -/
def BeginStage.began : BeginStage → Option Active
  | .touching began _ | .rereading began | .returned began _ => began
  | _ => none

/-- The recovery that a call has ended. -/
def CompleteStage.ended : CompleteStage → Option Text
  | .touching read | .rereading read | .returned read _ => read.recoveryId
  | _ => none

/-- **The row is what the recoveries lead to, one after the other**: a recovery begins where none is in progress, a call
ends the one that it read, and the generation counts those that ended. -/
structure World.Sequential (w : World) : Prop where
  refines : sequential.run (phaseOf .initial) w.log = some (phaseOf w.runtime)
  generation : w.runtime.readyGeneration = 1 + w.log.countP Event.isEnded
  begins : ∀ c ∈ w.begins, ∀ active ∈ c.stage.began, .began active ∈ w.log
  completes : ∀ c ∈ w.completes, ∀ recoveryId ∈ c.stage.ended, .ended recoveryId ∈ w.log

/-- The update of a `beginRecovery`, which no `WHERE` guards, finds the row that was read. -/
def BeginStage.Finds (row : RecoveryRuntime) : BeginStage → Prop
  | .starting read _ _ => row.state = .ready ∧ row.readyGeneration = read.readyGeneration
  | _ => True

/-- The update of a `completeRecovery` finds the recovery that was read. -/
def CompleteStage.Finds (row : RecoveryRuntime) : CompleteStage → Prop
  | .finishing read => row.state = .recovering ∧ row.recoveryId = read.recoveryId ∧
      row.targetGeneration = read.targetGeneration
  | _ => True

/-- The updates find the row that their requests read. -/
def Meets (w : World) : Action → Prop
  | .advanceBegin i _ _ => ∀ c ∈ w.begins[i]?, c.stage.Finds w.runtime
  | .advanceComplete i _ _ _ => ∀ c ∈ w.completes[i]?, c.stage.Finds w.runtime
  | _ => True

/-! ## What holds in every world -/

/-- A row of a recovery in progress has all its columns. -/
def Whole (runtime : RecoveryRuntime) : Prop :=
  runtime.state = .recovering → ∃ active : Active, runtime.recoveryId = some active.recoveryId ∧
    runtime.restoreBackupId = some active.backupId ∧ runtime.restoreSnapshot = some active.snapshot ∧
    runtime.targetGeneration = some (runtime.readyGeneration + 1)

/-- The row that a call of `completeRecovery` has read and not yet updated. -/
def CompleteStage.read : CompleteStage → Option RecoveryRuntime
  | .loading runtime _ | .replaying runtime _ | .counting runtime _ _ | .finishing runtime => some runtime
  | _ => none

structure Sound (w : World) : Prop where
  sequential : w.Sequential
  whole : Whole w.runtime
  reads : ∀ c ∈ w.completes, ∀ read ∈ c.stage.read, Whole read ∧ read.state = .recovering

theorem Sound.start (backups : List BackupSet) : Sound (.start backups) where
  sequential := {
    refines := rfl
    generation := rfl
    begins := fun _ h => by cases h
    completes := fun _ h => by cases h }
  whole := nofun
  reads := fun _ h => by cases h

theorem active_of_whole {runtime : RecoveryRuntime} {active : Active} (hstate : runtime.state = .recovering)
    (hid : runtime.recoveryId = some active.recoveryId) (hbackup : runtime.restoreBackupId = some active.backupId)
    (hsnapshot : runtime.restoreSnapshot = some active.snapshot) : (phaseOf runtime).active = some active := by
  unfold phaseOf
  rw [hstate, hid, hbackup, hsnapshot]

theorem active_eq_none_iff {runtime : RecoveryRuntime} (h : Whole runtime) :
    (phaseOf runtime).active = none ↔ runtime.state = .ready := by
  cases hstate : runtime.state with
  | ready => simp [phaseOf, hstate]
  | recovering =>
    obtain ⟨active, hid, hbackup, hsnapshot, -⟩ := h hstate
    simp [active_of_whole hstate hid hbackup hsnapshot]

/-- The recovery of a row goes by its identifier. -/
theorem active_map_iff {runtime : RecoveryRuntime} (h : Whole runtime) {recoveryId : Text} :
    (phaseOf runtime).active.map Active.recoveryId = some recoveryId ↔
      runtime.state = .recovering ∧ runtime.recoveryId = some recoveryId := by
  cases hstate : runtime.state with
  | ready => simp [phaseOf, hstate]
  | recovering =>
    obtain ⟨active, hid, hbackup, hsnapshot, -⟩ := h hstate
    simp [active_of_whole hstate hid hbackup hsnapshot, hid]

/-! ## Updates -/

/-- **The update of a `beginRecovery`** goes on in sequence exactly if the row is ready and of the generation read. -/
theorem began_iff {runtime read : RecoveryRuntime} (active : Active) (leaseExpiresAt : Nat) (h : Whole runtime) :
    (phaseOf runtime).step (.began active) = some (phaseOf (begunRow read active leaseExpiresAt)) ↔
      runtime.state = .ready ∧ runtime.readyGeneration = read.readyGeneration := by
  have hphase : phaseOf (begunRow read active leaseExpiresAt) = ⟨read.readyGeneration, some active⟩ := rfl
  simp only [Phase.step, hphase]
  by_cases hready : runtime.state = .ready
  · rw [if_pos ((active_eq_none_iff h).2 hready)]
    simp [hready, phaseOf]
  · rw [if_neg fun hnone => hready ((active_eq_none_iff h).1 hnone)]
    simp [hready]

/-- **The update of a `completeRecovery`** goes on in sequence exactly if the row still is of the recovery read. -/
theorem ended_iff {runtime read : RecoveryRuntime} {targetGeneration : Nat} (h : Whole runtime) (hread : Whole read)
    (hstate : read.state = .recovering) (htarget : read.targetGeneration = some targetGeneration) :
    (phaseOf runtime).step (.ended (read.recoveryId.getD [])) = some (phaseOf (runtime.ready targetGeneration)) ↔
      runtime.state = .recovering ∧ runtime.recoveryId = read.recoveryId ∧
        runtime.targetGeneration = read.targetGeneration := by
  have hphase : phaseOf (runtime.ready targetGeneration) = ⟨targetGeneration, none⟩ := rfl
  obtain ⟨active, hid, -, -, -⟩ := hread hstate
  simp only [Phase.step, hphase, hid, Option.getD_some, htarget]
  by_cases hsame : runtime.state = .recovering ∧ runtime.recoveryId = some active.recoveryId
  · obtain ⟨-, -, -, -, htargets⟩ := h hsame.1
    rw [if_pos ((active_map_iff h).2 hsame), htargets]
    simp [hsame, phaseOf]
  · rw [if_neg fun hactive => hsame ((active_map_iff h).1 hactive)]
    simp only [reduceCtorEq, false_iff]
    exact fun hall => hsame ⟨hall.1, hall.2.1⟩

/-- **The update that prolongs a recovery** is guarded, and changes no phase. -/
theorem prolonged_step {runtime read : RecoveryRuntime} (leaseExpiresAt : Nat) (h : Whole runtime)
    (hguard : prolongGuard read runtime = true) :
    (phaseOf runtime).step (.prolonged (read.recoveryId.getD [])) =
      some (phaseOf { runtime with restoreLeaseExpiresAt := some leaseExpiresAt }) := by
  simp only [prolongGuard, Bool.and_eq_true, decide_eq_true_eq] at hguard
  obtain ⟨⟨hstate, hid⟩, hsome⟩ := hguard
  obtain ⟨recoveryId, hread⟩ := Option.isSome_iff_exists.1 hsome
  have hphase : phaseOf { runtime with restoreLeaseExpiresAt := some leaseExpiresAt } = phaseOf runtime := rfl
  simp only [Phase.step, hphase, hread, Option.getD_some]
  rw [if_pos ((active_map_iff h).2 ⟨hstate, hid.trans hread⟩)]

/-! ## Steps of the world -/

theorem Sound.setBegin {w : World} {i : Nat} {c : BeginCall} {stage : BeginStage} (h : Sound w)
    (hbegan : ∀ active ∈ stage.began, .began active ∈ w.log) : Sound (w.setBegin i c stage) where
  sequential := {
    refines := h.sequential.refines
    generation := h.sequential.generation
    begins := fun d hd => by
      obtain hd | rfl := List.mem_or_eq_of_mem_set hd
      · exact h.sequential.begins d hd
      · exact hbegan
    completes := h.sequential.completes }
  whole := h.whole
  reads := h.reads

theorem Sound.setComplete {w : World} {i : Nat} {c : CompleteCall} {stage : CompleteStage} (h : Sound w)
    (hended : ∀ recoveryId ∈ stage.ended, .ended recoveryId ∈ w.log)
    (hread : ∀ read ∈ stage.read, Whole read ∧ read.state = .recovering) : Sound (w.setComplete i c stage) where
  sequential := {
    refines := h.sequential.refines
    generation := h.sequential.generation
    begins := h.sequential.begins
    completes := fun d hd => by
      obtain hd | rfl := List.mem_or_eq_of_mem_set hd
      · exact h.sequential.completes d hd
      · exact hended }
  whole := h.whole
  reads := fun d hd => by
    obtain hd | rfl := List.mem_or_eq_of_mem_set hd
    · exact h.reads d hd
    · exact hread

/-- An update of the row that goes on in sequence, before the call that made it moves on. -/
theorem Sound.update {w : World} {runtime : RecoveryRuntime} {event : Event} (h : Sound w)
    (hstep : (phaseOf w.runtime).step event = some (phaseOf runtime)) (hwhole : Whole runtime) :
    Sound { w with runtime := runtime, log := w.log ++ [event] } where
  sequential := by
    have hrun : Control.sequential.run (phaseOf .initial) (w.log ++ [event]) = some (phaseOf runtime) := by
      rw [run_snoc h.sequential.refines, hstep]
    exact {
      refines := hrun
      generation := generation_run hrun
      begins := fun c hc active ha => List.mem_append_left _ (h.sequential.begins c hc active ha)
      completes := fun c hc recoveryId hr => List.mem_append_left _ (h.sequential.completes c hc recoveryId hr) }
  whole := hwhole
  reads := h.reads

theorem Sound.setBackups {w : World} {backups : List BackupSet} (h : Sound w) : Sound { w with backups := backups } :=
  ⟨⟨h.sequential.refines, h.sequential.generation, h.sequential.begins, h.sequential.completes⟩, h.whole, h.reads⟩

theorem began_beginChecks {env : RetentionEnv} {body : BeginBody} {now : Nat} {recoveryId : Text}
    {runtime : RecoveryRuntime} {sets : List BackupSet} :
    (beginChecks env body now recoveryId runtime sets).began = none := by
  unfold beginChecks
  repeat' split
  all_goals rfl

/-- What a call of `completeRecovery` goes on with has passed its checks. -/
theorem completeChecks_stage (body : CompleteBody) (runtime : RecoveryRuntime) :
    (completeChecks body runtime).ended = none ∧
      ∀ read ∈ (completeChecks body runtime).read, read = runtime ∧ runtime.state = .recovering := by
  unfold completeChecks
  by_cases hstate : runtime.state ≠ .recovering
  · rw [if_pos hstate]
    exact ⟨rfl, fun _ hr => by cases hr⟩
  · rw [if_neg hstate]
    repeat' split
    all_goals refine ⟨rfl, fun read hr => ?_⟩
    all_goals cases hr
    exact ⟨rfl, not_not.1 hstate⟩

theorem descriptorCheck_stage (runtime : RecoveryRuntime) (snapshot : Coverage) (sets : List BackupSet) :
    (descriptorCheck runtime snapshot sets).ended = none ∧
      ∀ read ∈ (descriptorCheck runtime snapshot sets).read, read = runtime := by
  unfold descriptorCheck
  repeat' split
  all_goals refine ⟨rfl, fun read hr => ?_⟩
  all_goals cases hr
  rfl

theorem verifyChecks_stage (runtime : RecoveryRuntime) (snapshot coverage : Coverage) (outstanding : Nat) :
    (verifyChecks runtime snapshot coverage outstanding).ended = none ∧
      ∀ read ∈ (verifyChecks runtime snapshot coverage outstanding).read, read = runtime := by
  unfold verifyChecks
  repeat' split
  all_goals refine ⟨rfl, fun read hr => ?_⟩
  all_goals cases hr
  rfl

theorem whole_begunRow (read : RecoveryRuntime) (active : Active) (leaseExpiresAt : Nat) :
    Whole (begunRow read active leaseExpiresAt) := fun _ => ⟨active, rfl, rfl, rfl, rfl⟩

/-- **A step of `beginRecovery`** keeps what holds, where its update finds the row that it read, and only there. -/
theorem Sound.begin {env : RetentionEnv} {now : Nat} {recoveryId : Text} {w w' : World} {i : Nat} {c : BeginCall}
    (h : Sound w) (hc : w.begins[i]? = some c) (hs : c.step env now recoveryId w i = some w') :
    (Meets w (.advanceBegin i now recoveryId) → Sound w') ∧
      (w'.Sequential → Meets w (.advanceBegin i now recoveryId)) := by
  have hmem := List.mem_of_getElem? hc
  have harmless : (∀ read active leaseExpiresAt, c.stage ≠ .starting read active leaseExpiresAt) →
      Meets w (.advanceBegin i now recoveryId) := fun hstage d hd => by
    obtain rfl := Option.some.inj (hc.symm.trans hd)
    unfold BeginStage.Finds
    split
    · rename_i read active leaseExpiresAt hd
      exact absurd hd (hstage read active leaseExpiresAt)
    · trivial
  have quiet : (∀ read active leaseExpiresAt, c.stage ≠ .starting read active leaseExpiresAt) → Sound w' →
      (Meets w (.advanceBegin i now recoveryId) → Sound w') ∧
        (w'.Sequential → Meets w (.advanceBegin i now recoveryId)) :=
    fun hstage hsound => ⟨fun _ => hsound, fun _ => harmless hstage⟩
  cases hstage : c.stage with
  | reading =>
    simp only [BeginCall.step, hstage, Option.some.injEq] at hs
    subst hs
    exact quiet (by rw [hstage]; nofun) (h.setBegin nofun)
  | loading runtime =>
    simp only [BeginCall.step, hstage, Option.some.injEq] at hs
    subst hs
    exact quiet (by rw [hstage]; nofun) (h.setBegin (by rw [began_beginChecks]; nofun))
  | prolonging runtime leaseExpiresAt =>
    simp only [BeginCall.step, hstage] at hs
    split at hs
    · rename_i hguard
      obtain rfl := Option.some.inj hs
      have hupdate := h.update (prolonged_step leaseExpiresAt h.whole hguard) h.whole
      exact quiet (by rw [hstage]; nofun) (hupdate.setBegin nofun)
    · obtain rfl := Option.some.inj hs
      exact quiet (by rw [hstage]; nofun) (h.setBegin nofun)
  | starting read active leaseExpiresAt =>
    simp only [BeginCall.step, hstage, Option.some.injEq] at hs
    subst hs
    have hmeets : Meets w (.advanceBegin i now recoveryId) ↔
        w.runtime.state = .ready ∧ w.runtime.readyGeneration = read.readyGeneration := by
      constructor
      · intro hm
        have hfinds := hm c hc
        rw [hstage] at hfinds
        exact hfinds
      · intro hm d hd
        obtain rfl := Option.some.inj (hc.symm.trans hd)
        rw [hstage]
        exact hm
    rw [hmeets, ← began_iff active leaseExpiresAt h.whole]
    refine ⟨fun hstep => ?_, fun hseq => ?_⟩
    · refine (h.update hstep (whole_begunRow read active leaseExpiresAt)).setBegin fun x hx => ?_
      obtain rfl := Option.some.inj hx
      exact List.mem_append_right _ (List.mem_singleton.2 rfl)
    · exact (run_snoc h.sequential.refines).symm.trans hseq.refines
  | touching began leaseExpiresAt =>
    simp only [BeginCall.step, hstage, Option.some.injEq] at hs
    subst hs
    refine quiet (by rw [hstage]; nofun) (h.setBegin fun active ha => ?_).setBackups
    exact h.sequential.begins c hmem active (by rw [hstage]; exact ha)
  | rereading began =>
    simp only [BeginCall.step, hstage, Option.some.injEq] at hs
    subst hs
    refine quiet (by rw [hstage]; nofun) (h.setBegin fun active ha => ?_)
    exact h.sequential.begins c hmem active (by rw [hstage]; exact ha)
  | returned began runtime => simp [BeginCall.step, hstage] at hs
  | threw error => simp [BeginCall.step, hstage] at hs

/-- **A step of `completeRecovery`** keeps what holds, where its update finds the recovery that it read, and only there. -/
theorem Sound.complete {now outstanding : Nat} {coverage : Coverage} {w w' : World} {i : Nat} {c : CompleteCall}
    (h : Sound w) (hc : w.completes[i]? = some c) (hs : c.step now coverage outstanding w i = some w') :
    (Meets w (.advanceComplete i now coverage outstanding) → Sound w') ∧
      (w'.Sequential → Meets w (.advanceComplete i now coverage outstanding)) := by
  have hmem := List.mem_of_getElem? hc
  have quiet : (∀ read, c.stage ≠ .finishing read) → Sound w' →
      (Meets w (.advanceComplete i now coverage outstanding) → Sound w') ∧
        (w'.Sequential → Meets w (.advanceComplete i now coverage outstanding)) := fun hstage hsound =>
    ⟨fun _ => hsound, fun _ d hd => by
      obtain rfl := Option.some.inj (hc.symm.trans hd)
      unfold CompleteStage.Finds
      split
      · rename_i read hd
        exact absurd hd (hstage read)
      · trivial⟩
  cases hstage : c.stage with
  | reading =>
    simp only [CompleteCall.step, hstage, Option.some.injEq] at hs
    subst hs
    obtain ⟨hended, hread⟩ := completeChecks_stage c.body w.runtime
    refine quiet (by rw [hstage]; nofun) (h.setComplete (by rw [hended]; nofun) fun read hr => ?_)
    obtain ⟨rfl, hstate⟩ := hread read hr
    exact ⟨h.whole, hstate⟩
  | loading runtime snapshot =>
    simp only [CompleteCall.step, hstage, Option.some.injEq] at hs
    subst hs
    obtain ⟨hended, hread⟩ := descriptorCheck_stage runtime snapshot w.backups
    refine quiet (by rw [hstage]; nofun) (h.setComplete (by rw [hended]; nofun) fun read hr => ?_)
    obtain rfl := hread read hr
    exact h.reads c hmem read (by rw [hstage]; rfl)
  | replaying runtime snapshot =>
    simp only [CompleteCall.step, hstage, Option.some.injEq] at hs
    subst hs
    refine quiet (by rw [hstage]; nofun) (h.setComplete nofun fun read hr => ?_)
    exact h.reads c hmem read (by rw [hstage]; exact hr)
  | counting runtime snapshot coverage =>
    simp only [CompleteCall.step, hstage, Option.some.injEq] at hs
    subst hs
    obtain ⟨hended, hread⟩ := verifyChecks_stage runtime snapshot coverage outstanding
    refine quiet (by rw [hstage]; nofun) (h.setComplete (by rw [hended]; nofun) fun read hr => ?_)
    obtain rfl := hread read hr
    exact h.reads c hmem read (by rw [hstage]; rfl)
  | finishing read =>
    obtain ⟨hwhole, hstate⟩ := h.reads c hmem read (by rw [hstage]; rfl)
    obtain ⟨active, hid, -, -, htarget⟩ := hwhole hstate
    simp only [CompleteCall.step, hstage, htarget, Option.some.injEq] at hs
    subst hs
    have hmeets : Meets w (.advanceComplete i now coverage outstanding) ↔ w.runtime.state = .recovering ∧
        w.runtime.recoveryId = read.recoveryId ∧ w.runtime.targetGeneration = read.targetGeneration := by
      constructor
      · intro hm
        have hfinds := hm c hc
        rw [hstage] at hfinds
        exact hfinds
      · intro hm d hd
        obtain rfl := Option.some.inj (hc.symm.trans hd)
        rw [hstage]
        exact hm
    rw [hmeets, ← ended_iff h.whole hwhole hstate htarget]
    refine ⟨fun hstep => ?_, fun hseq => ?_⟩
    · refine (h.update hstep nofun).setComplete (fun recoveryId hr => ?_) nofun
      have hr : read.recoveryId = some recoveryId := hr
      rw [hr]
      exact List.mem_append_right _ (List.mem_singleton.2 rfl)
    · exact (run_snoc h.sequential.refines).symm.trans hseq.refines
  | touching read =>
    simp only [CompleteCall.step, hstage, Option.some.injEq] at hs
    subst hs
    refine quiet (by rw [hstage]; nofun) (h.setComplete (fun recoveryId hr => ?_) fun _ hr => by cases hr).setBackups
    exact h.sequential.completes c hmem recoveryId (by rw [hstage]; exact hr)
  | rereading read =>
    simp only [CompleteCall.step, hstage, Option.some.injEq] at hs
    subst hs
    refine quiet (by rw [hstage]; nofun) (h.setComplete (fun recoveryId hr => ?_) nofun)
    exact h.sequential.completes c hmem recoveryId (by rw [hstage]; exact hr)
  | returned read runtime => simp [CompleteCall.step, hstage] at hs
  | threw error => simp [CompleteCall.step, hstage] at hs

theorem Sound.act {env : RetentionEnv} {w w' : World} {a : Action} (h : Sound w) (hs : w.act env a = some w') :
    (Meets w a → Sound w') ∧ (w'.Sequential → Meets w a) := by
  cases a with
  | beginRecovery body =>
    obtain rfl := Option.some.inj hs
    refine ⟨fun _ => ⟨⟨h.sequential.refines, h.sequential.generation, fun c hc active ha => ?_, h.sequential.completes⟩,
      h.whole, h.reads⟩, fun _ => trivial⟩
    rcases List.mem_append.1 hc with hc | hc
    · exact h.sequential.begins c hc active ha
    · obtain rfl := List.mem_singleton.1 hc
      cases ha
  | completeRecovery body =>
    obtain rfl := Option.some.inj hs
    refine ⟨fun _ => ⟨⟨h.sequential.refines, h.sequential.generation, h.sequential.begins, fun c hc recoveryId hr => ?_⟩,
      h.whole, fun c hc read hr => ?_⟩, fun _ => trivial⟩
    · rcases List.mem_append.1 hc with hc | hc
      · exact h.sequential.completes c hc recoveryId hr
      · obtain rfl := List.mem_singleton.1 hc
        cases hr
    · rcases List.mem_append.1 hc with hc | hc
      · exact h.reads c hc read hr
      · obtain rfl := List.mem_singleton.1 hc
        cases hr
  | advanceBegin i now recoveryId =>
    obtain ⟨c, hc, hs⟩ := Option.bind_eq_some_iff.1 hs
    exact h.begin hc hs
  | advanceComplete i now coverage outstanding =>
    obtain ⟨c, hc, hs⟩ := Option.bind_eq_some_iff.1 hs
    exact h.complete hc hs
  | stopBegin i =>
    obtain ⟨c, hc, rfl⟩ := Option.map_eq_some_iff.1 hs
    exact ⟨fun _ => h.setBegin nofun, fun _ => trivial⟩
  | stopComplete i =>
    obtain ⟨c, hc, rfl⟩ := Option.map_eq_some_iff.1 hs
    exact ⟨fun _ => h.setComplete nofun (fun _ hr => by cases hr), fun _ => trivial⟩

/-- **The recoveries go one after the other** in every state of a run whose updates find the row that their requests read,
and a step whose update finds another row ends that. -/
theorem sequential_runs {env : RetentionEnv} {backups : List BackupSet} {w : World}
    (hrun : (controlling env).Steps Meets (.start backups) w) :
    w.Sequential ∧ ∀ a w', (controlling env).step w a = some w' → (w'.Sequential ↔ Meets w a) := by
  have hsound : Sound w := hrun.invariant (.start backups) fun _ _ _ h hmeets hs => (h.act hs).1 hmeets
  exact ⟨hsound.sequential, fun a w' hs => ⟨(hsound.act hs).2, fun hmeets => ((hsound.act hs).1 hmeets).sequential⟩⟩

instance (row : RecoveryRuntime) (stage : BeginStage) : Decidable (stage.Finds row) :=
  match stage with
  | .starting read _ _ =>
    inferInstanceAs (Decidable (row.state = .ready ∧ row.readyGeneration = read.readyGeneration))
  | .reading | .loading _ | .prolonging .. | .touching .. | .rereading _ | .returned .. | .threw _ => .isTrue trivial

instance (row : RecoveryRuntime) (stage : CompleteStage) : Decidable (stage.Finds row) :=
  match stage with
  | .finishing read => inferInstanceAs (Decidable (row.state = .recovering ∧ row.recoveryId = read.recoveryId ∧
      row.targetGeneration = read.targetGeneration))
  | .reading | .loading .. | .replaying .. | .counting .. | .touching _ | .rereading _ | .returned .. | .threw _ =>
    .isTrue trivial

instance (w : World) (a : Action) : Decidable (Meets w a) :=
  match a with
  | .advanceBegin i _ _ => inferInstanceAs (Decidable (∀ c ∈ w.begins[i]?, c.stage.Finds w.runtime))
  | .advanceComplete i _ _ _ => inferInstanceAs (Decidable (∀ c ∈ w.completes[i]?, c.stage.Finds w.runtime))
  | .beginRecovery _ | .completeRecovery _ | .stopBegin _ | .stopComplete _ => .isTrue trivial

/-- A complete backup. -/
def completeBackup (id : Text) (receiptSeq : Nat) : BackupSet where
  id := id
  status := .complete
  createdAt := 0
  updatedAt := 0
  expiresAt := 7 * 24 * hourMs
  descriptor := ⟨[10], ⟨1, receiptSeq⟩⟩
  totalSizeBytes := some 10
  uploadedBytes := 10
  uploadedChunks := 1
  completedAt := some 1
  verifiedAt := some 1
  restoreLeaseExpiresAt := none

def olderId : Text := "10000000-0000-4000-8000-00000000000a".toList

def newerId : Text := "10000000-0000-4000-8000-00000000000b".toList

def twoBackups : World := .start [completeBackup olderId 3, completeBackup newerId 5]

/-- Two requests begin recoveries from two backups. -/
def twoBegins : List Action := [.beginRecovery ⟨olderId, none, none⟩, .beginRecovery ⟨newerId, none, none⟩]

/-- The first begins its recovery, the second is refused, and the recovery is completed. -/
def inSequence : List Action := twoBegins ++ [.advanceBegin 0 10 "a".toList, .advanceBegin 0 10 "a".toList,
  .advanceBegin 0 10 "a".toList, .advanceBegin 1 11 "b".toList, .advanceBegin 1 11 "b".toList,
  .completeRecovery ⟨some "a".toList, none, none, none⟩, .advanceComplete 0 12 ⟨0, 0⟩ 0, .advanceComplete 0 12 ⟨0, 0⟩ 0,
  .advanceComplete 0 12 ⟨2, 3⟩ 0, .advanceComplete 0 12 ⟨0, 0⟩ 0, .advanceComplete 0 13 ⟨0, 0⟩ 0]

theorem sequential_runs_inSequence :
    ∃ w, (controlling .default).run twoBackups inSequence = some w ∧
      w.log = [.began ⟨"a".toList, olderId, ⟨1, 3⟩⟩, .ended "a".toList] ∧
      w.begins.map BeginCall.stage = [.touching (some ⟨"a".toList, olderId, ⟨1, 3⟩⟩) (10 + RetentionEnv.default.recoveryLeaseMs),
        .threw (.route ⟨"Another recovery generation is already in progress.".toList, 409⟩)] ∧ w.Sequential := by
  have hmeets : (controlling .default).runMeets Meets twoBackups inSequence := by decide +kernel
  have hshows : ((controlling .default).run twoBackups inSequence).any (fun w =>
      decide (w.log = [.began ⟨"a".toList, olderId, ⟨1, 3⟩⟩, .ended "a".toList]) &&
        decide (w.begins.map BeginCall.stage =
          [.touching (some ⟨"a".toList, olderId, ⟨1, 3⟩⟩) (10 + RetentionEnv.default.recoveryLeaseMs),
            .threw (.route ⟨"Another recovery generation is already in progress.".toList, 409⟩)])) = true := by
    decide +kernel
  obtain ⟨w, hw, hshows⟩ := (Option.any_eq_true _ _).1 hshows
  simp only [Bool.and_eq_true, decide_eq_true_eq] at hshows
  exact ⟨w, hw, hshows.1, hshows.2, (sequential_runs (Machine.steps_of_run hw hmeets)).1⟩

/-- Both read the row before either updates it. -/
def bothBegin : List Action := twoBegins ++ [.advanceBegin 0 10 "a".toList, .advanceBegin 1 10 "b".toList,
  .advanceBegin 0 10 "a".toList, .advanceBegin 1 10 "b".toList, .advanceBegin 0 10 "a".toList,
  .advanceBegin 1 10 "b".toList]

/-- **The second request overwrites the recovery that the first has begun.** -/
theorem not_sequential : ¬ ∀ w, (controlling .default).Reaches twoBackups w → w.Sequential := by
  have hover : ((controlling .default).run twoBackups bothBegin).any
      (fun w => decide (sequential.run (phaseOf .initial) w.log ≠ some (phaseOf w.runtime))) = true := by decide +kernel
  obtain ⟨w, hw, hover⟩ := (Option.any_eq_true _ _).1 hover
  exact fun h => of_decide_eq_true hover (h w (Machine.steps_of_run hw (Machine.runMeets_true _ _))).refines

end Control
end Recovery
end Adg
