import AdgLang.PortalHandlers
/-!
# PortalRuns — the portal's world, and the round that a submission joins

Any number of requests against one database, from an empty one on (`portalWorld`); what held wherever a command was run
is read off the log (`portal_log`).  A submission that commits joins the live round of its task, in the runs in which no
batch is run after the deadline of its round was handled (`submission_live`).
-/
namespace Adg
namespace Portal

open Js Consensus

abbrev PortalState := Interleaved Outside Write Store PortalError Request

/-- Requests, each advancing one statement at a time, and stopping for good anywhere. -/
def portalWorld (env : Env) : Machine PortalState (Interleaved.Action Outside Request) :=
  Interleaved.machine portal (handle env)

/-- The portal before its first request. -/
def portalStart : PortalState := Interleaved.start .empty

theorem Store.Sound.empty : Store.empty.Sound where
  keys := by decide +kernel
  tasks := fun _ h => absurd h List.not_mem_nil
  events := fun _ h => absurd h List.not_mem_nil
  submissions := fun _ h => absurd h List.not_mem_nil
  finals := fun _ h => absurd h List.not_mem_nil
  appeals := fun _ h => absurd h List.not_mem_nil
  outbox := fun _ h => absurd h List.not_mem_nil

/-- A run of the portal whose commands are all run where `C` holds. -/
abbrev PortalRun (env : Env) (C : Outside → Write → Store → Prop) (w : PortalState) : Prop :=
  (portalWorld env).Steps (Interleaved.Allows C) portalStart w

/-- A run without a condition. -/
theorem portalRun_of_reaches {env : Env} {w : PortalState} (hrun : (portalWorld env).Reaches portalStart w) :
    PortalRun env (fun _ _ _ => True) w := by
  refine hrun.mono (fun _ a _ => ?_)
  cases a with
  | start request => trivial
  | advance i x => exact fun _ _ _ _ => trivial
  | stop i => trivial

section Runs

variable {env : Env} {C : Outside → Write → Store → Prop} {w : PortalState}

/-- **What held wherever a command was run**, for an invariant that the commands keep where they commit. -/
theorem portal_log {I : Store → Prop} (h₀ : I .empty)
    (hstep : ∀ x c s s', s.Sound → c.Fact s → C x c s → c.apply x.uuid.1 s = some s' → s'.Sound → s.Grows s' → I s → I s')
    (hrun : PortalRun env C w) : w.store.Sound ∧ I w.store ∧ ∀ e ∈ w.log, e.before.Sound ∧ e.command.Fact e.before ∧
      C e.input e.command e.before ∧ I e.before := by
  have hexec : ∀ x c s, s.Sound → c.Fact s → C x c s → I s → I (c.exec x s) := by
    intro x c s h hfact hC hi
    have hsound := Write.keeps x c s h hfact
    have hg := c.exec_grows x h.keys
    obtain ⟨hsame, -⟩ | ⟨s', happly, -, hexec, -⟩ := c.exec_cases x s
    · rw [hsame]
      exact hi
    · rw [hexec] at hsound hg ⊢
      exact hstep x c s s' h hfact hC happly hsound hg hi
  have h := Discipline.log_spec (D := portal) (handle_obeys env) Store.Sound.empty h₀ hexec hrun
  exact ⟨h.1.1, h.2⟩

/-- The same without an invariant of its own. -/
theorem portal_facts (hrun : PortalRun env C w) :
    w.store.Sound ∧ ∀ e ∈ w.log, e.before.Sound ∧ e.command.Fact e.before ∧ C e.input e.command e.before := by
  obtain ⟨hsound, -, hlog⟩ := portal_log (I := fun _ => True) trivial
    (fun _ _ _ _ _ _ _ _ _ _ _ => trivial) hrun
  exact ⟨hsound, fun e he => ⟨(hlog e he).1, (hlog e he).2.1, (hlog e he).2.2.1⟩⟩

end Runs

/-! ## Schedules

A schedule is played with identifiers that count its statements. -/

def sampleUuidText (n : Nat) : Text :=
  [n / 100 % 10, n / 10 % 10, n % 10].map Nat.digitChar ++ "00000-0000-4000-8000-000000000000".toList

theorem isUuid_sample (n : Nat) : isUuid (sampleUuidText n) = true := by
  have hrest : ("00000-0000-4000-8000-000000000000".toList.zip (uuidPattern.drop 3)).all (fun p => p.2 p.1) = true := by
    decide +kernel
  have hdigit : ∀ k : Fin 10, isHexDigit (Nat.digitChar k.1) = true := by decide +kernel
  have hsplit : isUuid (sampleUuidText n) = (isHexDigit (Nat.digitChar (n / 100 % 10)) &&
      (isHexDigit (Nat.digitChar (n / 10 % 10)) && (isHexDigit (Nat.digitChar (n % 10)) &&
        ("00000-0000-4000-8000-000000000000".toList.zip (uuidPattern.drop 3)).all (fun p => p.2 p.1)))) := rfl
  rw [hsplit, hrest, hdigit ⟨n / 100 % 10, by omega⟩, hdigit ⟨n / 10 % 10, by omega⟩, hdigit ⟨n % 10, by omega⟩]
  rfl

def sampleUuid (n : Nat) : Uuid := ⟨sampleUuidText n, isUuid_sample n⟩

/-- A request comes in, the program of a request makes its next accesses, or the object store refuses one of them. -/
inductive Part
  | request (r : Request)
  | go (i n : Nat)
  | refuse (i n : Nat)

def play : Nat → List Part → List (Interleaved.Action Outside Request)
  | _, [] => []
  | k, .request r :: parts => .start r :: play k parts
  | k, .go i n :: parts => (List.range n).map (fun j => .advance i ⟨sampleUuid (k + j), none⟩) ++ play (k + n) parts
  | k, .refuse i n :: parts =>
    (List.range n).map (fun j => .advance i ⟨sampleUuid (k + j), some "refused".toList⟩) ++ play (k + n) parts

theorem reaches_play (env : Env) (parts : List Part) {p : PortalState → Bool}
    (h : ((portalWorld env).run portalStart (play 0 parts)).any p = true) :
    ∃ w, (portalWorld env).Reaches portalStart w ∧ p w = true := by
  obtain ⟨w, hw, hp⟩ := (Option.any_eq_true _ _).1 h
  exact ⟨w, Machine.steps_of_run hw (Machine.runMeets_true _ _), hp⟩

theorem run_play (env : Env) (C : Outside → Write → Store → Prop) (parts : List Part) {p : PortalState → Bool}
    (hmeets : (portalWorld env).runMeets (Interleaved.Allows C) portalStart (play 0 parts))
    (h : ((portalWorld env).run portalStart (play 0 parts)).any p = true) : ∃ w, PortalRun env C w ∧ p w = true := by
  obtain ⟨w, hw, hp⟩ := (Option.any_eq_true _ _).1 h
  exact ⟨w, Machine.steps_of_run hw hmeets, hp⟩

/-- The annotations of every packet agree, and all packets have one root. -/
def sampleEnv : Env where
  computePacketMerkleRoot := fun _ => zeroDigest
  agreementPassed := fun _ _ _ => some true
  archiveMode := .d1
  manifestText := fun _ => []
  immutableManifestSha256 := fun _ => zeroDigest

def sampleAccount (name : String) : Account := ⟨name.toList, some name.toList, false⟩

def submits (name : String) (artifact : Artifact) : Request :=
  .submission (sampleAccount name) ⟨schemaFirst, artifact, true, true⟩

def annotates (name : String) (slot : Slot) : Request := submits name (.annotated ⟨slot, name.toList⟩)

/-- The identifier that the submission of J1 draws for its receipt in `approvedTask`. -/
def primaryReceipt : Text := sampleUuidText 76

/-- The identifier of the event that approves the task in `approvedTask`. -/
def approvalEvent : Text := sampleUuidText 117

/-- A, B, J1 and J2 submit, one after the other, and J2 agrees. -/
def approvedTask : List Part :=
  [.request (annotates "a" .a), .go 0 30, .request (annotates "b" .b), .go 1 32,
    .request (submits "c" (.adjudication "a".toList "b".toList "root".toList (some 0))), .go 2 31,
    .request (submits "d" (.ratification .agree primaryReceipt "root".toList)), .go 3 33]

/-! ## The live round -/

/-- The round of the row is the current one of its task, it is open, and the task admits the role. -/
def Store.JoinsLive (s : Store) (row : Submission) : Prop :=
  ∃ t ∈ s.tasks, t.id = row.taskVersionId ∧ t.state ∈ row.role.allowedStates ∧
    ∃ r ∈ s.rounds, r.id = row.roundId ∧ r.taskVersionId = t.id ∧ r.roundNumber = t.currentRound ∧ r.status = .opened

instance (s : Store) (row : Submission) : Decidable (s.JoinsLive row) :=
  inferInstanceAs (Decidable (∃ t ∈ s.tasks, t.id = row.taskVersionId ∧ t.state ∈ row.role.allowedStates ∧
    ∃ r ∈ s.rounds, r.id = row.roundId ∧ r.taskVersionId = t.id ∧ r.roundNumber = t.currentRound ∧ r.status = .opened))

/-- No submission is written after the deadline of its round was handled. -/
def BeforeDeadline (_ : Outside) (w : Write) (s : Store) : Prop :=
  match w with
  | .submit b => ¬ s.Expired b.row.roundId
  | _ => True

instance (x : Outside) (w : Write) (s : Store) : Decidable (BeforeDeadline x w s) := by
  unfold BeforeDeadline Store.Expired
  split <;> infer_instance

/-- **A submission that commits joins the live round of its task.** -/
theorem submission_live {env : Env} {w : PortalState} (hrun : PortalRun env BeforeDeadline w) :
    ∀ e ∈ w.log, ∀ b, e.command = .submit b → e.command.committed e.input e.before = true → e.before.JoinsLive b.row := by
  intro e he b hb hcommitted
  obtain ⟨hsound, hfact, hbefore⟩ := (portal_facts hrun).2 e he
  rw [hb] at hfact hcommitted hbefore
  have hadmits : e.before.Admits b := hfact
  obtain ⟨-, hnot⟩ | ⟨s', happly, hkeys, -, -⟩ := (Write.submit b).exec_cases e.input e.before
  · exact absurd (hnot.symm.trans hcommitted) (by simp)
  · obtain rfl := Option.some.inj happly
    obtain ⟨t, ht, r, hr, hid, htask, hnumber, hopened, hstate⟩ | hexpired | hfilled := hadmits.admitted
    · obtain ⟨-, htask', -⟩ := hsound.round_inj ⟨r, hr, rfl, rfl, rfl⟩ hadmits.round (.inl hid)
      exact ⟨t, ht, htask.symm.trans htask', hstate, r, hr, hid, htask, hnumber, hopened⟩
    · exact absurd hexpired hbefore
    · exact absurd hfilled (hadmits.vacant hsound hkeys)

/-- A committed submission, and whether it joins the live round. -/
def joinsLive (e : Ran Outside Write Store) : Option Bool :=
  match e.command with
  | .submit b => if e.command.committed e.input e.before then some (decide (e.before.JoinsLive b.row)) else none
  | _ => none

/-- A and B submit, one after the other. -/
theorem submission_live_annotations : ∃ w, PortalRun sampleEnv BeforeDeadline w ∧
    w.log.filterMap joinsLive = [true, true] ∧ ∀ e ∈ w.log, ∀ b, e.command = .submit b →
      e.command.committed e.input e.before = true → e.before.JoinsLive b.row := by
  obtain ⟨w, hrun, hp⟩ := run_play sampleEnv BeforeDeadline
    [.request (annotates "a" .a), .go 0 30, .request (annotates "b" .b), .go 1 32]
    (p := fun w => decide (w.log.filterMap joinsLive = [true, true])) (by decide +kernel) (by decide +kernel)
  exact ⟨w, hrun, of_decide_eq_true hp, submission_live hrun⟩

/-- B reads the round before its deadline is handled and submits after it was reissued. -/
def lateSubmission : List Part :=
  [.request (annotates "a" .a), .go 0 30, .request (.clock roundDeadlineMs), .go 1 1, .request (annotates "b" .b),
    .go 2 17, .request .expiredRounds, .go 3 32, .go 2 1]

theorem submission_not_live :
    ¬ ∀ (env : Env) (w : PortalState), (portalWorld env).Reaches portalStart w → ∀ e ∈ w.log, ∀ b,
      e.command = .submit b → e.command.committed e.input e.before = true → e.before.JoinsLive b.row := by
  intro h
  obtain ⟨w, hrun, hp⟩ := reaches_play sampleEnv lateSubmission
    (p := fun w => w.log.any (fun e => decide (joinsLive e = some false))) (by decide +kernel)
  obtain ⟨e, he, hmisses⟩ := List.any_eq_true.1 hp
  have hmisses : joinsLive e = some false := of_decide_eq_true hmisses
  unfold joinsLive at hmisses
  split at hmisses
  · rename_i b hb
    split at hmisses
    · rename_i hcommitted
      exact absurd (h sampleEnv w hrun e he b hb hcommitted) (of_decide_eq_false (Option.some.inj hmisses))
    · cases hmisses
  · cases hmisses

end Portal
end Adg
