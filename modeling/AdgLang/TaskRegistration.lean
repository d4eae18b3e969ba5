import AdgLang.PacketRoots
import AdgLang.ReissueRun
/-!
# TaskRegistration — packets become tasks, once

`ensureConsensusTask` of `consensus-store.js` with its two halves, over the consensus tables and the columns of
`task_versions` that registration alone writes.  What a registration leaves is found by every later one
(`Bound.step`), which is accepted exactly when it writes the metric policy alike.
-/
namespace Adg
namespace Consensus

open Js Protocol

/-- A SHA-256 digest in hexadecimal digits. -/
abbrev Digest := { s : Str // s.length = 64 }

/-- A packet that `validatePacket` accepts. -/
abbrev Packet := { p : Document // validatePacket p.1 = .ok () }

def Packet.property (packet : Packet) (key : String) : Value := packet.1.1.property key

def Packet.metricPolicy (packet : Packet) : Value := packet.property "metricPolicy"

/-- A field of a packet that validation found to be a string. -/
def Packet.textField (packet : Packet) (key : String) : Str :=
  match packet.property key with
  | .string s => s
  | _ => []

def Packet.taskVersion (packet : Packet) : Number :=
  match packet.property "taskVersion" with
  | .number n => n
  | _ => .nan

structure TaskIdentity where
  id : Text
  taskId : Str
  taskVersion : Number
  packetId : Str
  holdoutId : Str
  packetMerkleRoot : Digest
  guidelineVersion : Str
  dataVersion : Str
  protocolVersion : Str
deriving DecidableEq

/-- The characters of a string that has no surrogates. -/
def characters (s : Str) : Text := s.map (fun u => Char.ofNat u.toNat)

def taskVersionIdentity (packet : Packet) (packetMerkleRoot : Digest) : TaskIdentity where
  id := characters (packet.textField "taskId" ++ str ":v" ++ packet.taskVersion.toText)
  taskId := packet.textField "taskId"
  taskVersion := packet.taskVersion
  packetId := packet.textField "packetId"
  holdoutId := packet.textField "holdoutId"
  packetMerkleRoot := packetMerkleRoot
  guidelineVersion := packet.textField "guidelineVersion"
  dataVersion := packet.textField "dataVersion"
  protocolVersion := packet.textField "protocolVersion"

/-! ## The tables -/

/-- The columns of a row of `task_versions` that its registration writes and no later statement does. -/
structure EvidenceRow extends TaskIdentity where
  metricPolicyJson : Str
deriving DecidableEq

/-- Two rows that the keys of `task_versions` do not let stand together: the primary key, `(task_id, task_version)` and
`packet_id`. -/
def EvidenceRow.clashes (row r : EvidenceRow) : Bool :=
  decide (r.id = row.id) || decide ((r.taskId, r.taskVersion) = (row.taskId, row.taskVersion)) ||
    decide (r.packetId = row.packetId)

/-- The rows of `task_versions`, under its keys. -/
structure EvidenceTable where
  rows : List EvidenceRow
  ids : Table.Keyed (fun r : EvidenceRow => r.id) rows
  versions : Table.Keyed (fun r : EvidenceRow => (r.taskId, r.taskVersion)) rows
  packets : Table.Keyed (fun r : EvidenceRow => r.packetId) rows

def EvidenceTable.empty : EvidenceTable := ⟨[], List.nodup_nil, List.nodup_nil, List.nodup_nil⟩

/-- `INSERT OR IGNORE INTO task_versions`. -/
def EvidenceTable.insert (t : EvidenceTable) (row : EvidenceRow) : EvidenceTable where
  rows := insertOrIgnore row.clashes row t.rows
  ids := keyed_insertOrIgnore t.ids (fun r _ hr => by simp [EvidenceRow.clashes, show r.id = row.id from hr])
  versions := keyed_insertOrIgnore t.versions (fun r _ hr => by
    simp only [EvidenceRow.clashes, hr, decide_true, Bool.or_true, Bool.true_or])
  packets := keyed_insertOrIgnore t.packets (fun r _ hr => by
    simp only [EvidenceRow.clashes, show r.packetId = row.packetId from hr, decide_true, Bool.or_true])

/-- The consensus store, with the evidence that its tasks are bound to. -/
structure Registry where
  world : World
  evidence : EvidenceTable

/-- `getConsensusTask`, of the columns that a registration compares. -/
def Registry.binding (r : Registry) (taskVersionId : Text) : Option EvidenceRow :=
  Table.lookup (fun row => row.id) taskVersionId r.evidence.rows

/-- `SELECT id, packet_merkle_root FROM task_versions WHERE packet_id = ?`. -/
def Registry.packetBinding (r : Registry) (packetId : Str) : Option EvidenceRow :=
  Table.lookup (fun row => row.packetId) packetId r.evidence.rows

/-! ## `ensureConsensusTask` -/

/-- The columns of `taskVersionIdentity` that are compared; the row was read by its id. -/
def EvidenceRow.hasIdentity (task : EvidenceRow) (identity : TaskIdentity) : Bool :=
  decide (task.taskId = identity.taskId) && decide (task.taskVersion = identity.taskVersion) &&
    decide (task.packetId = identity.packetId) && decide (task.holdoutId = identity.holdoutId) &&
    decide (task.packetMerkleRoot = identity.packetMerkleRoot) &&
    decide (task.guidelineVersion = identity.guidelineVersion) && decide (task.dataVersion = identity.dataVersion) &&
    decide (task.protocolVersion = identity.protocolVersion)

/-- `consensusTaskMatches`; a stored policy that is no JSON text makes it throw. -/
def consensusTaskMatches (task : Option EvidenceRow) (identity : TaskIdentity) (metricPolicy : Value) :
    Except StoreError Bool :=
  match task with
  | none => .ok false
  | some task =>
    if task.hasIdentity identity then
      match parse task.metricPolicyJson with
      | none => .error (.error "SyntaxError".toList)
      | some stored => .ok (decide (stored.text = metricPolicy.text))
    else .ok false

def taskConflict : StoreError :=
  .consensusConflict "Task identity is already bound to different versioned evidence.".toList

def packetConflict : StoreError :=
  .consensusConflict "Packet identity is already bound to different versioned evidence.".toList

/-- The checks of `prepareConsensusTaskRegistration` and the row that its first statement inserts. -/
def prepareConsensusTaskRegistration (r : Registry) (packet : Packet) (packetRoot : Digest) :
    Except StoreError EvidenceRow := do
  let identity := taskVersionIdentity packet packetRoot
  let idBinding := r.binding identity.id
  if idBinding.isSome then
    if !(← consensusTaskMatches idBinding identity packet.metricPolicy) then throw taskConflict
  if (r.packetBinding identity.packetId).any (fun row => decide (row.id ≠ identity.id) ||
      decide (row.packetMerkleRoot ≠ identity.packetMerkleRoot)) then
    throw packetConflict
  return { identity with metricPolicyJson := packet.metricPolicy.text }

/-- The batch of a registration.  Where the task is not inserted and none has its id, the round has no task to refer to
and all is rolled back. -/
def Registry.batch (r : Registry) (row : EvidenceRow) (now : Nat) : Except StoreError Registry :=
  if r.evidence.rows.any row.clashes && !r.world.db.tasks.any (fun t => decide (t.id = row.id)) then .error .database
  else .ok { world := { r.world with db := r.world.db.register row.id now }, evidence := r.evidence.insert row }

/-- A task as it is returned: the columns of its evidence and those of its state. -/
abbrev RegisteredTask := Option EvidenceRow × Option TaskRow

def assertConsensusTaskRegistration (r : Registry) (packet : Packet) (packetRoot : Digest) :
    Except StoreError RegisteredTask := do
  let identity := taskVersionIdentity packet packetRoot
  let task := r.binding identity.id
  if !(← consensusTaskMatches task identity packet.metricPolicy) then throw taskConflict
  return (task, r.world.db.task identity.id)

/-- What the call returns or throws, and the store it leaves. -/
def ensureConsensusTask (r : Registry) (packet : Packet) (packetRoot : Digest) (now : Nat) :
    Except StoreError RegisteredTask × Registry :=
  match prepareConsensusTaskRegistration r packet packetRoot with
  | .error e => (.error e, r)
  | .ok row =>
    match r.batch row now with
    | .error e => (.error e, r)
    | .ok r' => (assertConsensusTaskRegistration r' packet packetRoot, r')

/-- A registration, or a step of the store calls that move tasks. -/
inductive RegistryAction
  | ensure (packet : Packet) (packetRoot : Digest) (now : Nat)
  | consensus (action : Action)

def Registry.step (r : Registry) : RegistryAction → Option Registry
  | .ensure packet packetRoot now => some (ensureConsensusTask r packet packetRoot now).2
  | .consensus action => (r.world.step action).map (fun world => { r with world := world })

def registry : Machine Registry RegistryAction := ⟨Registry.step⟩

/-! ## What a registration leaves -/

theorem hasIdentity_iff {row : EvidenceRow} {identity : TaskIdentity} (hid : row.id = identity.id) :
    row.hasIdentity identity = true ↔ row.toTaskIdentity = identity := by
  obtain ⟨⟨_, _, _, _, _, _, _, _, _⟩, _⟩ := row
  obtain ⟨_, _, _, _, _, _, _, _, _⟩ := identity
  simp only [EvidenceRow.hasIdentity, Bool.and_eq_true, decide_eq_true_eq, TaskIdentity.mk.injEq, and_assoc] at hid ⊢
  exact ⟨fun h => ⟨hid, h⟩, fun h => h.2⟩

/-- The evidence of `identity` stands in the tables, with a policy that is written again as `policyText`. -/
structure Registry.Bound (r : Registry) (identity : TaskIdentity) (policyText : Str) : Prop where
  row : ∃ row, r.binding identity.id = some row ∧ row.toTaskIdentity = identity ∧
    ∃ stored, parse row.metricPolicyJson = some stored ∧ stored.text = policyText
  task : ∃ t ∈ r.world.db.tasks, t.id = identity.id
  round : ∃ x ∈ r.world.db.rounds, x.id = consensusRoundId identity.id 1 ∨
    (x.taskVersionId = identity.id ∧ x.roundNumber = 1)
  event : ∃ e ∈ r.world.db.events, e.id = initialEventId identity.id ∨ e.idempotencyKey = initialEventId identity.id

theorem matches_found {found : Option EvidenceRow} {identity : TaskIdentity} {policy : Value}
    (hid : ∀ row, found = some row → row.id = identity.id) (h : consensusTaskMatches found identity policy = .ok true) :
    ∃ row, found = some row ∧ row.toTaskIdentity = identity ∧
      ∃ stored, parse row.metricPolicyJson = some stored ∧ stored.text = policy.text := by
  cases found with
  | none => cases h
  | some row =>
    rw [consensusTaskMatches] at h
    split at h
    · rename_i hidentity
      split at h
      · cases h
      · rename_i stored hstored
        exact ⟨row, rfl, (hasIdentity_iff (hid row rfl)).1 hidentity, stored, hstored,
          of_decide_eq_true (Except.ok.inj h)⟩
    · cases h

theorem matches_spec {r : Registry} {identity : TaskIdentity} {policy : Value}
    (h : consensusTaskMatches (r.binding identity.id) identity policy = .ok true) :
    ∃ row, r.binding identity.id = some row ∧ row.toTaskIdentity = identity ∧
      ∃ stored, parse row.metricPolicyJson = some stored ∧ stored.text = policy.text :=
  matches_found (fun _ hrow => (Table.lookup_some hrow).2) h

theorem assert_spec {r : Registry} {packet : Packet} {root : Digest} {task : RegisteredTask}
    (h : assertConsensusTaskRegistration r packet root = .ok task) :
    consensusTaskMatches (r.binding (taskVersionIdentity packet root).id) (taskVersionIdentity packet root)
      packet.metricPolicy = .ok true := by
  simp only [assertConsensusTaskRegistration, bind, Except.bind] at h
  split at h
  · cases h
  · rename_i found hfound
    cases found with
    | true => exact hfound
    | false => cases h

theorem exists_insertOrIgnore {ρ : Type} {conflict : ρ → Bool} {row : ρ} {t : List ρ} {P : ρ → Prop}
    (hself : conflict row = true) (h : ∀ x, conflict x = true → P x) : ∃ x ∈ insertOrIgnore conflict row t, P x := by
  unfold insertOrIgnore
  split
  · rename_i hany
    obtain ⟨x, hx, hconflict⟩ := List.any_eq_true.1 hany
    exact ⟨x, hx, h x hconflict⟩
  · exact ⟨row, by simp, h row hself⟩

/-- The statements of a registration insert their rows or find others in their place. -/
theorem register_stands (db : Db) (id : Text) (now : Nat) :
    (∃ t ∈ (db.register id now).tasks, t.id = id) ∧
      (∃ x ∈ (db.register id now).rounds, x.id = consensusRoundId id 1 ∨ (x.taskVersionId = id ∧ x.roundNumber = 1)) ∧
      ∃ e ∈ (db.register id now).events, e.id = initialEventId id ∨ e.idempotencyKey = initialEventId id := by
  refine ⟨exists_insertOrIgnore ?_ ?_, exists_insertOrIgnore ?_ ?_, exists_insertOrIgnore ?_ ?_⟩ <;> simp

/-- Statements whose rows stand change nothing. -/
theorem register_eq_self {db : Db} {id : Text} {now : Nat} (htask : ∃ t ∈ db.tasks, t.id = id)
    (hround : ∃ x ∈ db.rounds, x.id = consensusRoundId id 1 ∨ (x.taskVersionId = id ∧ x.roundNumber = 1))
    (hevent : ∃ e ∈ db.events, e.id = initialEventId id ∨ e.idempotencyKey = initialEventId id) :
    db.register id now = db := by
  simp only [Db.register, insertOrIgnore]
  rw [if_pos (by simpa using htask), if_pos (by simpa using hround), if_pos (by simpa using hevent)]

theorem Registry.batch_eq {r r' : Registry} {row : EvidenceRow} {now : Nat} (h : r.batch row now = .ok r') :
    r' = { world := { r.world with db := r.world.db.register row.id now }, evidence := r.evidence.insert row } := by
  unfold Registry.batch at h
  split at h
  · cases h
  · exact (Except.ok.inj h).symm

theorem prepare_spec {r : Registry} {packet : Packet} {root : Digest} {row : EvidenceRow}
    (h : prepareConsensusTaskRegistration r packet root = .ok row) :
    row = { taskVersionIdentity packet root with metricPolicyJson := packet.metricPolicy.text } := by
  simp only [prepareConsensusTaskRegistration, bind, Except.bind] at h
  split at h
  · split at h
    · cases h
    · split at h
      · cases h
      · split at h
        · cases h
        · exact (Except.ok.inj h).symm
  · split at h
    · cases h
    · exact (Except.ok.inj h).symm

/-- **A call that returns leaves its evidence bound.** -/
theorem bound_of_ensure {r : Registry} {packet : Packet} {root : Digest} {now : Nat} {task : RegisteredTask}
    (h : (ensureConsensusTask r packet root now).1 = .ok task) :
    (ensureConsensusTask r packet root now).2.Bound (taskVersionIdentity packet root) packet.metricPolicy.text := by
  unfold ensureConsensusTask at h ⊢
  cases hrow : prepareConsensusTaskRegistration r packet root with
  | error e => rw [hrow] at h; cases h
  | ok row =>
    simp only [hrow] at h ⊢
    cases hbatch : r.batch row now with
    | error e => rw [hbatch] at h; cases h
    | ok r' =>
      simp only [hbatch] at h ⊢
      have hid : row.id = (taskVersionIdentity packet root).id := by rw [prepare_spec hrow]
      have hstands := register_stands r.world.db row.id now
      rw [hid] at hstands
      have hr' := Registry.batch_eq hbatch
      rw [hid] at hr'
      have hdb : r'.world.db = r.world.db.register (taskVersionIdentity packet root).id now := by rw [hr']
      exact ⟨matches_spec (assert_spec h), hdb ▸ hstands.1, hdb ▸ hstands.2.1, hdb ▸ hstands.2.2⟩

/-! ## Later steps keep it -/

/-- The rows of `db`, as later statements leave them. -/
structure Db.Kept (db db' : Db) : Prop where
  tasks : ∀ t ∈ db.tasks, ∃ t' ∈ db'.tasks, t'.id = t.id
  rounds : ∀ x ∈ db.rounds, ∃ x' ∈ db'.rounds, x'.id = x.id ∧ x'.taskVersionId = x.taskVersionId ∧
    x'.roundNumber = x.roundNumber
  events : ∀ e ∈ db.events, e ∈ db'.events

theorem Db.Kept.refl (db : Db) : db.Kept db :=
  ⟨fun t ht => ⟨t, ht, rfl⟩, fun x hx => ⟨x, hx, rfl, rfl, rfl⟩, fun _ he => he⟩

theorem exists_update {ρ : Type} {p : ρ → Bool} {f : ρ → ρ} {t : List ρ} {P : ρ → ρ → Prop} (hf : ∀ x, P x (f x))
    (hid : ∀ x, P x x) {x : ρ} (hx : x ∈ t) : ∃ y ∈ Table.update p f t, P x y := by
  refine ⟨if p x then f x else x, Table.mem_update.2 ⟨x, hx, rfl⟩, ?_⟩
  split
  · exact hf x
  · exact hid x

theorem Db.Kept.transitionBatch {now : Nat} {uuid : Text} {db db' : Db} {task : TaskRow} {tr : Transition}
    {events : List EventRow} {changes : Nat × Nat}
    (h : transitionBatch now uuid db task tr = some (db', events, changes)) : db.Kept db' := by
  have htasks : ∀ (q : TaskRow → Bool) (eventId : Text) (n : Nat), ∀ t ∈ db.tasks,
      ∃ t' ∈ Table.update q (tr.applyTo eventId n) db.tasks, t'.id = t.id :=
    fun q eventId n t ht => exists_update (f := tr.applyTo eventId n) (P := fun a b => b.id = a.id) (fun _ => rfl) (fun _ => rfl) ht
  simp only [Consensus.transitionBatch] at h
  split at h
  · split at h
    · simp only [Option.some.injEq, Prod.mk.injEq] at h
      obtain ⟨rfl, -, -⟩ := h
      exact ⟨htasks _ _ _, (Db.Kept.refl db).rounds, fun e he => List.mem_append_left _ he⟩
    · cases h
  · simp only [Option.some.injEq, Prod.mk.injEq] at h
    obtain ⟨rfl, -, -⟩ := h
    exact ⟨htasks _ _ _, (Db.Kept.refl db).rounds, fun _ he => he⟩

theorem Db.Kept.transitionStep {now : Nat} {uuid : Text} {db db' : Db} {c c' : TransitionCall}
    (h : c.step now uuid db = some (db', c')) : db.Kept db' := by
  unfold TransitionCall.step at h
  split at h
  · split at h
    · simp only [Option.some.injEq, Prod.mk.injEq] at h
      exact h.1 ▸ .refl db
    · split at h <;> simp only [Option.some.injEq, Prod.mk.injEq] at h <;> exact h.1 ▸ .refl db
  · split at h
    · simp only [Option.some.injEq, Prod.mk.injEq] at h
      exact h.1 ▸ .refl db
    · rename_i hb
      simp only [Option.some.injEq, Prod.mk.injEq] at h
      exact h.1 ▸ .transitionBatch hb
  · split at h <;> simp only [Option.some.injEq, Prod.mk.injEq] at h <;> exact h.1 ▸ .refl db
  · simp only [Option.some.injEq, Prod.mk.injEq] at h
    exact h.1 ▸ .refl db
  · cases h
  · cases h

theorem kept_leaveRound (id : Text) {f : RoundRow → RoundRow} (hf : Leaves f) (hid : ∀ x, (f x).id = x.id)
    {rounds : List RoundRow} {x : RoundRow} (hx : x ∈ rounds) : ∃ x' ∈ leaveRound id f rounds,
      x'.id = x.id ∧ x'.taskVersionId = x.taskVersionId ∧ x'.roundNumber = x.roundNumber :=
  exists_update (f := f) (P := fun a b => b.id = a.id ∧ b.taskVersionId = a.taskVersionId ∧ b.roundNumber = a.roundNumber)
    (fun x => ⟨hid x, hf.task x, hf.number x⟩) (fun _ => ⟨rfl, rfl, rfl⟩) hx

theorem Db.Kept.worldStep {w w' : World} {a : Action} (hs : w.step a = some w') : w.db.Kept w'.db := by
  cases a with
  | call task tr =>
    simp only [World.step, Option.some.injEq] at hs
    subst hs; exact .refl _
  | advance i now uuid =>
    simp only [World.step] at hs
    split at hs
    · cases hs
    obtain ⟨⟨db, c'⟩, hstep, rfl⟩ := Option.map_eq_some_iff.1 hs
    exact .transitionStep hstep
  | abandon i =>
    simp only [World.step] at hs
    split at hs
    · cases hs
    obtain ⟨c', -, rfl⟩ := Option.map_eq_some_iff.1 hs
    exact .refl _
  | reissue task reason actor =>
    simp only [World.step, Option.some.injEq] at hs
    subst hs; exact .refl _
  | advanceReissue i now =>
    simp only [World.step] at hs
    split at hs
    · cases hs
    rename_i c hci
    obtain ⟨⟨db, calls, c'⟩, hstep, rfl⟩ := Option.map_eq_some_iff.1 hs
    obtain ⟨hdb | ⟨currentRound, reissued, -, -, hdb⟩, -⟩ := ReissueCall.step_spec hstep
    · subst hdb; exact .refl _
    · subst hdb
      refine ⟨fun t ht => ?_, fun x hx => ?_, fun _ he => he⟩
      · exact exists_update (f := fun row => { row with currentRound := nextRoundNumber reissued, updatedAt := now })
          (P := fun a b => b.id = a.id) (fun _ => rfl) (fun _ => rfl) ht
      · obtain ⟨x', hx', hkeys⟩ := kept_leaveRound currentRound.id (leaves_supersede c.reason now) (fun _ => rfl) hx
        exact ⟨x', List.mem_append_left _ hx', hkeys⟩
  | closeRound id now =>
    simp only [World.step, Option.some.injEq] at hs
    subst hs
    exact ⟨(Db.Kept.refl _).tasks, fun x hx => kept_leaveRound id (leaves_close now) (fun _ => rfl) hx, fun _ he => he⟩

theorem Db.Kept.register (db : Db) (id : Text) (now : Nat) : db.Kept (db.register id now) :=
  ⟨fun t ht => ⟨t, subset_insertOrIgnore ht, rfl⟩, fun x hx => ⟨x, subset_insertOrIgnore hx, rfl, rfl, rfl⟩,
    fun _ he => subset_insertOrIgnore he⟩

/-- The row of an id stays the row of that id. -/
theorem lookup_insert {t : EvidenceTable} {row row' : EvidenceRow} {id : Text}
    (h : Table.lookup (fun r : EvidenceRow => r.id) id t.rows = some row) :
    Table.lookup (fun r : EvidenceRow => r.id) id (t.insert row').rows = some row := by
  obtain ⟨hmem, hid⟩ := Table.lookup_some h
  exact (t.insert row').ids.lookup_eq_some_iff.2 ⟨subset_insertOrIgnore hmem, hid⟩

theorem Registry.Bound.kept {r r' : Registry} {identity : TaskIdentity} {policyText : Str}
    (h : r.Bound identity policyText) (hbinding : ∀ row, r.binding identity.id = some row →
      r'.binding identity.id = some row) (hdb : r.world.db.Kept r'.world.db) : r'.Bound identity policyText := by
  obtain ⟨⟨row, hrow, hidentity⟩, ⟨t, ht, hid⟩, ⟨x, hx, hround⟩, ⟨e, he, hevent⟩⟩ := h
  obtain ⟨t', ht', hid'⟩ := hdb.tasks t ht
  obtain ⟨x', hx', hxid, hxtask, hxnumber⟩ := hdb.rounds x hx
  exact ⟨⟨row, hbinding row hrow, hidentity⟩, ⟨t', ht', hid'.trans hid⟩,
    ⟨x', hx', by rwa [hxid, hxtask, hxnumber]⟩, ⟨e, hdb.events e he, hevent⟩⟩

/-- **Whatever runs later, the evidence stays bound.** -/
theorem Registry.Bound.step {r r' : Registry} {a : RegistryAction} {identity : TaskIdentity} {policyText : Str}
    (h : r.Bound identity policyText) (hs : r.step a = some r') : r'.Bound identity policyText := by
  cases a with
  | ensure packet root now =>
    obtain rfl := Option.some.inj hs
    unfold ensureConsensusTask
    cases prepareConsensusTaskRegistration r packet root with
    | error e => exact h
    | ok row =>
      cases hbatch : r.batch row now with
      | error e =>
        simp only [hbatch]
        exact h
      | ok r' =>
        simp only [hbatch]
        obtain rfl := Registry.batch_eq hbatch
        exact h.kept (fun _ hrow => lookup_insert hrow) (.register _ _ _)
  | consensus action =>
    obtain ⟨world, hstep, rfl⟩ := Option.map_eq_some_iff.1 hs
    exact h.kept (fun _ hrow => hrow) (.worldStep hstep)

/-! ## Registering again -/

/-- What the comparison finds where evidence of that id is bound. -/
theorem Registry.Bound.matches {r : Registry} {identity : TaskIdentity} {policyText : Str}
    (h : r.Bound identity policyText) {identity' : TaskIdentity} (hid : identity'.id = identity.id) (policy : Value) :
    consensusTaskMatches (r.binding identity'.id) identity' policy =
      .ok (decide (identity' = identity) && decide (policyText = policy.text)) := by
  obtain ⟨row, hrow, rfl, stored, hstored, rfl⟩ := h.row
  rw [hid, hrow, consensusTaskMatches]
  split
  · rename_i hidentity
    rw [hstored, (hasIdentity_iff hid.symm).1 hidentity, decide_eq_true (p := identity' = identity') rfl, Bool.true_and]
  · rename_i hidentity
    rw [decide_eq_false (fun heq => hidentity ((hasIdentity_iff hid.symm).2 heq.symm)), Bool.false_and]

theorem Registry.Bound.isSome_binding {r : Registry} {identity : TaskIdentity} {policyText : Str}
    (h : r.Bound identity policyText) : (r.binding identity.id).isSome = true := by
  obtain ⟨row, hrow, -⟩ := h.row
  rw [hrow]
  rfl

/-- Other evidence of that task and version is refused. -/
theorem ensure_of_other {r : Registry} {identity : TaskIdentity} {policyText : Str} (h : r.Bound identity policyText)
    {packet : Packet} {root : Digest} (now : Nat) (hid : (taskVersionIdentity packet root).id = identity.id)
    (hother : taskVersionIdentity packet root ≠ identity ∨ policyText ≠ packet.metricPolicy.text) :
    ensureConsensusTask r packet root now = (.error taskConflict, r) := by
  have hmatches := h.matches hid packet.metricPolicy
  have hfalse : (decide (taskVersionIdentity packet root = identity) &&
      decide (policyText = packet.metricPolicy.text)) = false := by
    rcases hother with hother | hother
    · rw [decide_eq_false hother, Bool.false_and]
    · rw [decide_eq_false hother, Bool.and_false]
  have hsome := h.isSome_binding
  rw [← hid] at hsome
  rw [hfalse] at hmatches
  simp only [ensureConsensusTask, prepareConsensusTaskRegistration, bind, Except.bind, hsome, hmatches]
  rfl

/-- A row that clashes with one that stands is ignored. -/
theorem insert_eq_self {t : EvidenceTable} {row r : EvidenceRow} (hr : r ∈ t.rows) (hclash : row.clashes r = true) :
    t.insert row = t := by
  have hrows : insertOrIgnore row.clashes row t.rows = t.rows := if_pos (List.any_eq_true.2 ⟨r, hr, hclash⟩)
  obtain ⟨rows, _, _, _⟩ := t
  simp only [EvidenceTable.insert, EvidenceTable.mk.injEq]
  exact hrows

/-- The same evidence is found, and nothing is written. -/
theorem ensure_of_same {r : Registry} {packet : Packet} {root : Digest}
    (h : r.Bound (taskVersionIdentity packet root) packet.metricPolicy.text) (now : Nat) :
    ∃ task, ensureConsensusTask r packet root now = (.ok task, r) := by
  have hmatches := h.matches rfl packet.metricPolicy
  rw [decide_eq_true (p := taskVersionIdentity packet root = _) rfl,
    decide_eq_true (p := packet.metricPolicy.text = _) rfl, Bool.and_self] at hmatches
  obtain ⟨row, hrow, hidentity, -⟩ := h.row
  obtain ⟨hmem, hid⟩ := Table.lookup_some hrow
  have hpacket : r.packetBinding (taskVersionIdentity packet root).packetId = some row :=
    r.evidence.packets.lookup_eq_some_iff.2 ⟨hmem, by rw [← hidentity]⟩
  have hprepare : prepareConsensusTaskRegistration r packet root =
      .ok { taskVersionIdentity packet root with metricPolicyJson := packet.metricPolicy.text } := by
    have hroot := congrArg TaskIdentity.packetMerkleRoot hidentity
    have hsame : ¬ (r.packetBinding (taskVersionIdentity packet root).packetId).any (fun row =>
        decide (row.id ≠ (taskVersionIdentity packet root).id) ||
          decide (row.packetMerkleRoot ≠ (taskVersionIdentity packet root).packetMerkleRoot)) = true := by
      simp [hpacket, hid, hroot]
    simp only [prepareConsensusTaskRegistration, bind, Except.bind, h.isSome_binding, hmatches, hsame]
    rfl
  have hbatch : r.batch { taskVersionIdentity packet root with metricPolicyJson := packet.metricPolicy.text } now =
      .ok r := by
    have htask : r.world.db.tasks.any (fun t => decide (t.id = (taskVersionIdentity packet root).id)) = true := by
      simpa using h.task
    rw [Registry.batch, htask, Bool.not_true, Bool.and_false, if_neg Bool.false_ne_true,
      register_eq_self h.task h.round h.event, insert_eq_self hmem]
    rw [EvidenceRow.clashes, decide_eq_true (show row.id = _ from hid), Bool.true_or, Bool.true_or]
  refine ⟨(r.binding (taskVersionIdentity packet root).id, r.world.db.task (taskVersionIdentity packet root).id), ?_⟩
  simp only [ensureConsensusTask, hprepare, hbatch, assertConsensusTaskRegistration, bind, Except.bind, hmatches]
  rfl

/-- The metric policies of two packets are the same JSON value, their keys in the same order at every level. -/
def SamePolicyOrder (p q : Packet) : Prop := p.metricPolicy.reread = q.metricPolicy.reread

theorem metricPolicy_json (p : Packet) : p.metricPolicy.Json := by
  obtain ⟨properties, hproperties⟩ := (accepted_of_validatePacket p.2).metricPolicy
  exact p.1.2.property_json (by rw [hproperties]; nofun)

/-- **Evidence that is bound is accepted again exactly where its metric policy is written alike.** -/
theorem ensure_again_iff (r₀ : Registry) (p : Packet) (root : Digest) (now : Nat) (task : RegisteredTask)
    (hregistered : (ensureConsensusTask r₀ p root now).1 = .ok task) (r : Registry)
    (hrun : registry.Reaches (ensureConsensusTask r₀ p root now).2 r) (q : Packet) (root' : Digest) (now' : Nat) :
    (taskVersionIdentity q root' = taskVersionIdentity p root →
        ((∃ task', ensureConsensusTask r q root' now' = (.ok task', r)) ↔ SamePolicyOrder p q)) ∧
      (q.textField "taskId" = p.textField "taskId" → q.taskVersion = p.taskVersion → root' ≠ root →
        ensureConsensusTask r q root' now' = (.error taskConflict, r)) := by
  have hbound : r.Bound (taskVersionIdentity p root) p.metricPolicy.text :=
    hrun.invariant (I := fun r => r.Bound (taskVersionIdentity p root) p.metricPolicy.text)
      (bound_of_ensure hregistered) (fun _ _ _ hx _ hs => hx.step hs)
  refine ⟨fun hidentity => ?_, fun htask hversion hroot => ?_⟩
  · rw [SamePolicyOrder, ← Value.text_eq_iff (metricPolicy_json p) (metricPolicy_json q)]
    constructor
    · rintro ⟨task', htask'⟩
      by_contra hother
      have hrefused := ensure_of_other hbound now' (congrArg TaskIdentity.id hidentity) (Or.inr hother)
      rw [htask'] at hrefused
      cases (Prod.mk.inj hrefused).1
    · intro htext
      rw [← hidentity, htext] at hbound
      exact ensure_of_same hbound now'
  · refine ensure_of_other hbound now' ?_ (Or.inl (fun heq => hroot (congrArg TaskIdentity.packetMerkleRoot heq)))
    simp only [taskVersionIdentity, htask, hversion]

/-! Two packets of one word whose policies differ in the order of their keys. -/

def emptyRegistry : Registry := ⟨⟨⟨[], [], [], []⟩, [], []⟩, .empty⟩

def zeroDigest : Digest := ⟨List.replicate 64 (unit '0'), rfl⟩

def schemaFirst : Packet :=
  ⟨⟨oneWordPacket fullAgreement [], ⟨by decide +kernel, by decide +kernel⟩⟩, by decide +kernel⟩

def metricsFirstPolicy : Value :=
  .object [(str "metrics", .array []), (str "schema", .string (str "adg-iaa-policy-v1")),
    (str "minimumRawAgreement", .number (Number.ofNat 1)), (str "minimumDefinedKappa", .number (Number.ofNat 1))]

def metricsFirst : Packet :=
  ⟨⟨oneWordPacket metricsFirstPolicy [], ⟨by decide +kernel, by decide +kernel⟩⟩, by decide +kernel⟩

theorem ensure_again_schemaFirst : ∃ task r, ensureConsensusTask r schemaFirst zeroDigest 1 = (.ok task, r) := by
  have hsome : (ensureConsensusTask emptyRegistry schemaFirst zeroDigest 0).1.toOption.isSome = true := by
    decide +kernel
  cases htask : (ensureConsensusTask emptyRegistry schemaFirst zeroDigest 0).1 with
  | error e =>
    rw [htask] at hsome
    cases hsome
  | ok task =>
    have h := (ensure_again_iff emptyRegistry schemaFirst zeroDigest 0 task htask _ .refl schemaFirst zeroDigest 1).1 rfl
    obtain ⟨task', htask'⟩ := h.2 rfl
    exact ⟨task', _, htask'⟩

/-- Two packets with one root, of which the second is refused. -/
theorem ensure_not_again :
    ¬ ∀ (p q : Packet) (root : Digest) (now now' : Nat) (task : RegisteredTask),
      packetPreimage p.1.1 = packetPreimage q.1.1 → taskVersionIdentity q root = taskVersionIdentity p root →
      (ensureConsensusTask emptyRegistry p root now).1 = .ok task →
      ∃ task', ensureConsensusTask (ensureConsensusTask emptyRegistry p root now).2 q root now' =
        (.ok task', (ensureConsensusTask emptyRegistry p root now).2) := by
  intro h
  have hsome : (ensureConsensusTask emptyRegistry schemaFirst zeroDigest 0).1.toOption.isSome = true := by
    decide +kernel
  cases htask : (ensureConsensusTask emptyRegistry schemaFirst zeroDigest 0).1 with
  | error e =>
    rw [htask] at hsome
    cases hsome
  | ok task =>
    obtain ⟨task', htask'⟩ := h schemaFirst metricsFirst zeroDigest 0 1 task (by decide +kernel) (by decide +kernel) htask
    have hnone : (ensureConsensusTask (ensureConsensusTask emptyRegistry schemaFirst zeroDigest 0).2 metricsFirst
        zeroDigest 1).1.toOption.isSome = false := by decide +kernel
    rw [htask'] at hnone
    cases hnone

end Consensus
end Adg
