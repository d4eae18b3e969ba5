import AdgLang.Courses
import AdgLang.PortalCatalogue
/-!
# PortalCourses — only the worker delivers

The commands of a delivery are run by `processEvidenceOutbox` alone: one lemma per function that every other handler's
commands are ordinary ones (`handle_ordinary`).  A delivery in the modes 'r2' and 'azure' always comes to its end
(`deliverEvidence_comes`).
-/
namespace Adg
namespace Portal

open Js Consensus

/-- The commands of a delivery. -/
def Write.isDelivery : Write → Bool
  | .sending .. | .deliveredHere .. | .delivered .. | .undelivered .. | .putBlob .. => true
  | _ => false

abbrev Ordinary {α : Type} (p : Call α) : Prop := p.Only (fun w => w.isDelivery = false)

open Program (Only)

section Calls

variable {α : Type}

theorem required_ordinary (o : Option α) : Ordinary (required o) := by cases o <;> trivial

theorem ofExcept_ordinary (r : Except StoreError α) : Ordinary (ofExcept r) := by cases r <;> trivial

theorem ignoreConflict_ordinary (e : PortalError) : Ordinary (ignoreConflict e) := by
  unfold ignoreConflict
  split <;> trivial

theorem answerConflict_ordinary (e : PortalError) : Ordinary (answerConflict e : Call α) := by
  unfold answerConflict
  split <;> trivial

theorem transitionConsensusTask_ordinary (task : TaskRow) (tr : Transition) : Ordinary (transitionConsensusTask task tr) := by
  refine .bind (ofExcept_ordinary _) (fun _ => .bind .read (fun isLogged => ?_))
  cases isLogged with
  | true => exact Only.read
  | false =>
    refine .bind (.perform rfl) (fun changes => ?_)
    cases changes with
    | none => trivial
    | some changes =>
      by_cases hone : changes = (1, 1)
      · simp only [hone, if_true]
        exact .read
      · simp only [hone, if_false]
        exact .bind .read (fun _ => .bind .throwIf (fun _ => .read))

theorem createReissuedRound_ordinary (task : TaskRow) (reason : ReissueReason) (actor : Option Actor) :
    Ordinary (createReissuedRound task reason actor) := by
  refine .bind .throwIf (fun _ => .bind .read (fun currentRound => ?_))
  cases currentRound with
  | none => trivial
  | some currentRound =>
    refine .bind (transitionConsensusTask_ordinary _ _) (fun _ => .bind (required_ordinary _) (fun _ => ?_))
    refine .bind (.perform rfl) (fun changes => ?_)
    cases changes with
    | none => trivial
    | some changes =>
      refine .bind .throwIf (fun _ => .bind .read (fun _ => .bind (required_ordinary _) (fun _ => ?_)))
      exact transitionConsensusTask_ordinary _ _

theorem ensureTaskStateEvidence_ordinary (task : Option Task) : Ordinary (ensureTaskStateEvidence task) := by
  cases task with
  | none => trivial
  | some task =>
    refine .bind .read (fun found => ?_)
    cases found with
    | true => trivial
    | false =>
      refine .bind .read (fun event => ?_)
      cases event with
      | none => trivial
      | some event => exact .bind .input (fun _ => .bind .read (fun _ => .perform rfl))

theorem reissueAfter_ordinary (task : Option Task) (reason : ReissueReason) (actor : Option Actor) :
    Ordinary (reissueAfter task reason actor) :=
  .bind (ensureTaskStateEvidence_ordinary _) (fun _ => .bind (required_ordinary _) (fun _ =>
    .bind (createReissuedRound_ordinary _ _ _) (fun _ => .bind (ensureTaskStateEvidence_ordinary _) (fun _ => trivial))))

theorem reconcileIndependentReview_ordinary (env : Env) (task : Task) (round : RoundRow) :
    Ordinary (reconcileIndependentReview env task round) := by
  refine .bind .read (fun rows => ?_)
  by_cases hlength : rows.length = 2
  · simp only [hlength, if_true]
    refine .bind (required_ordinary _) (fun a => .bind (required_ordinary _) (fun b => ?_))
    refine .bind (.bind (.perform rfl) (fun _ => .bind .read (fun _ => .throwIf))) (fun _ => ?_)
    split
    · exact .bind (required_ordinary _) (fun _ => .bind (transitionConsensusTask_ordinary _ _)
        (fun _ => ensureTaskStateEvidence_ordinary _))
    · trivial
  · simp only [hlength, if_false]
    trivial

theorem reconcileDiscussion_ordinary (task : Task) (round : RoundRow) : Ordinary (reconcileDiscussion task round) := by
  refine .bind .read (fun row => ?_)
  cases row with
  | none => trivial
  | some primary =>
    dsimp only
    split
    · refine .bind (required_ordinary _) (fun novelCount => .bind (transitionConsensusTask_ordinary _ _) (fun _ => ?_))
      split
      · exact .bind (reissueAfter_ordinary _ _ _) (fun _ => trivial)
      · exact ensureTaskStateEvidence_ordinary _
    · trivial

theorem reconcileFinalReview_ordinary (task : Task) (round : RoundRow) : Ordinary (reconcileFinalReview task round) := by
  refine .bind .read (fun row => ?_)
  cases row with
  | none => trivial
  | some secondary =>
    dsimp only
    split
    · refine .bind .read (fun _ => .bind (transitionConsensusTask_ordinary _ _) (fun _ => ?_))
      split
      · exact .bind (.perform rfl) (fun _ => ensureTaskStateEvidence_ordinary _)
      · exact .bind (reissueAfter_ordinary _ _ _) (fun _ => trivial)
    · trivial

theorem reconcileConsensusTask_ordinary (env : Env) (taskVersionId : Text) :
    Ordinary (reconcileConsensusTask env taskVersionId) := by
  refine .bind .read (fun task => ?_)
  cases task with
  | none => trivial
  | some task =>
    refine .bind .read (fun round => ?_)
    cases round with
    | none => trivial
    | some round =>
      refine .bind (.handle ?_ ignoreConflict_ordinary) (fun _ => .read)
      split
      · exact reconcileIndependentReview_ordinary _ _ _
      · exact reconcileDiscussion_ordinary _ _
      · exact reconcileFinalReview_ordinary _ _
      · trivial

theorem ensureConsensusTask_ordinary (packet : Packet) (packetRoot : Digest) (now : Nat) :
    Ordinary (ensureConsensusTask packet packetRoot now) := by
  refine .bind ?_ (fun _ => .bind (.perform rfl) (fun _ => .bind .throwIf (fun _ => ?_)))
  · exact .bind .read (fun _ => .bind (ofExcept_ordinary _) (fun _ => .bind .throwIf (fun _ => .bind .read (fun _ =>
      .bind .throwIf (fun _ => trivial)))))
  · exact .bind .read (fun _ => .bind (ofExcept_ordinary _) (fun _ => .bind .throwIf (fun _ => required_ordinary _)))

end Calls

/-! ## Requests -/

theorem validateBinding_ordinary (artifact : Artifact) (taskVersionId roundId : Text) :
    Ordinary (validateBinding artifact taskVersionId roundId) := by
  cases artifact with
  | annotated root => trivial
  | adjudication annotationA annotationB root novelDecisions => exact .bind .read (fun _ => .bind .throwIf (fun _ => .throwIf))
  | ratification decision primaryReceiptId root => exact .bind .read (fun _ => .throwIf)

theorem validateConsensusEligibility_ordinary (account : Account) (artifact : Artifact) (holdoutId : Str) (task : Task)
    (round : Option RoundRow) : Ordinary (validateConsensusEligibility account artifact holdoutId task round) := by
  cases round with
  | none => trivial
  | some round =>
    refine .bind .throwIf (fun _ => .bind .throwIf (fun _ => .bind .read (fun _ => .bind .throwIf (fun _ => ?_))))
    exact .bind .read (fun _ => .bind .throwIf (fun _ => .bind (validateBinding_ordinary _ _ _) (fun _ => trivial)))

theorem requiredRepositoryTaskAssignment_ordinary (account : Account) (role : Role) (taskVersionId : Text)
    (round : Option RoundRow) : Ordinary (requiredRepositoryTaskAssignment account role taskVersionId round) := by
  refine .bind .read (fun catalog => ?_)
  cases catalog with
  | none => trivial
  | some catalog =>
    exact .bind .throwIf (fun _ => .bind (required_ordinary _) (fun _ => .bind .read (fun _ => .bind .throwIf (fun _ => trivial))))

theorem receiveSubmission_ordinary (env : Env) (account : Account) (c : Contribution) :
    Ordinary (receiveSubmission env account c) := by
  refine .bind .throwIf (fun _ => .bind .throwIf (fun _ => .bind .read (fun _ => .bind .throwIf (fun _ => ?_))))
  refine .bind .read (fun _ => .bind .throwIf (fun _ => .bind .throwIf (fun _ => .bind .throwIf (fun _ => ?_))))
  refine .bind .read (fun _ => .bind .throwIf (fun _ => .bind .read (fun _ => .bind .throwIf (fun _ => ?_))))
  refine .bind .read (fun _ => .bind (.handle (ensureConsensusTask_ordinary _ _ _) answerConflict_ordinary) (fun task => ?_))
  refine .bind .read (fun _ => .bind (requiredRepositoryTaskAssignment_ordinary _ _ _ _) (fun _ => ?_))
  refine .bind (validateConsensusEligibility_ordinary _ _ _ _ _) (fun _ => .bind .input (fun _ => .bind .input (fun _ => ?_)))
  refine .bind .input (fun _ => .bind .read (fun _ => .bind (.perform rfl) (fun report => ?_)))
  cases report with
  | none => trivial
  | some isWhole =>
    refine .bind .throwIf (fun _ => ?_)
    split
    · refine .bind (.handle ?_ ignoreConflict_ordinary) (fun _ => ?_)
      · exact .bind (transitionConsensusTask_ordinary _ _) (fun _ => ensureTaskStateEvidence_ordinary _)
      · exact .bind (reconcileConsensusTask_ordinary _ _) (fun _ => trivial)
    · exact .bind (reconcileConsensusTask_ordinary _ _) (fun _ => trivial)

/-- The items of a loop, each with its own handler of errors. -/
theorem each_ordinary {β : Type} {items : List β} {p : β → Call Unit} (h : ∀ b ∈ items, Ordinary (p b)) :
    Ordinary (Program.each items (fun b => tryCatch (p b) ignoreError)) :=
  .each (fun b hb => .handle (h b hb) (fun _ => trivial))

theorem processExpiredConsensusRounds_ordinary (env : Env) : Ordinary (processExpiredConsensusRounds env) := by
  refine .bind .read (fun _ => .bind (each_ordinary (fun t _ => ?_)) (fun _ => .bind .read (fun _ => ?_)))
  · exact .bind (reconcileConsensusTask_ordinary _ _) (fun _ => trivial)
  refine .bind (each_ordinary (fun t _ => .bind .read (fun _ => ensureTaskStateEvidence_ordinary _))) (fun _ => ?_)
  refine .bind .read (fun _ => .bind .read (fun _ => each_ordinary (fun t _ => ?_)))
  refine .bind .read (fun _ => .bind (required_ordinary _) (fun _ => .bind .read (fun _ => .bind (required_ordinary _) ?_)))
  exact fun _ => .bind (transitionConsensusTask_ordinary _ _) (fun _ => .bind (reissueAfter_ordinary _ _ _) (fun _ => trivial))

theorem reissueConsensusTask_ordinary (taskVersionId : Text) (reason : ReissueReason) (actor : Actor) :
    Ordinary (reissueConsensusTask taskVersionId reason actor) := by
  refine .bind .read (fun task => ?_)
  cases task with
  | none => trivial
  | some task =>
    exact .bind (.handle (createReissuedRound_ordinary _ _ _) answerConflict_ordinary)
      (fun _ => ensureTaskStateEvidence_ordinary _)

theorem createConsensusAppeal_ordinary (account : Account) (finalReceiptId : Text) :
    Ordinary (createConsensusAppeal account finalReceiptId) := by
  refine .bind .throwIf (fun _ => .bind .read (fun final => ?_))
  cases final with
  | none => trivial
  | some final =>
    refine .bind .throwIf (fun _ => .bind .read (fun _ => .bind .throwIf (fun _ => .bind .read (fun _ => ?_))))
    refine .bind .throwIf (fun _ => .bind .input (fun _ => .bind .read (fun _ => .bind (.perform rfl) (fun _ => ?_))))
    exact .bind .throwIf (fun _ => .throwIf)

theorem reviewConsensusAppeal_ordinary (appealId : Text) (accepts : Bool) (subjectHash : Option Text) :
    Ordinary (reviewConsensusAppeal appealId accepts subjectHash) := by
  refine .bind .read (fun appeal => ?_)
  cases appeal with
  | none => trivial
  | some appeal =>
    refine .bind .read (fun found => ?_)
    cases found.filter (fun t => decide (t.state = .approved)) with
    | none => trivial
    | some task =>
      refine .bind (.perform rfl) (fun _ => .bind .throwIf (fun _ => ?_))
      cases accepts with
      | false => trivial
      | true =>
        exact .bind (.perform rfl) (fun _ => .bind (transitionConsensusTask_ordinary _ _)
          (fun _ => .bind (reissueAfter_ordinary _ _ _) (fun _ => trivial)))

theorem orConflict_ordinary {α : Type} (e : PortalError) : Ordinary (orConflict e : Call (Option α)) := by
  unfold orConflict
  split <;> trivial

theorem attemptPublishTask_ordinary (taskVersionId : Text) : Ordinary (attemptPublishTask taskVersionId) := by
  refine .bind .read (fun task => ?_)
  cases task with
  | none => trivial
  | some task =>
    refine .bind .read (fun now => ?_)
    split
    · refine .bind .read (fun pending => ?_)
      cases pending with
      | true => trivial
      | false =>
        refine .bind .read (fun final => ?_)
        cases final with
        | none => trivial
        | some final =>
          refine .bind .read (fun receipt => ?_)
          cases receipt with
          | none => trivial
          | some receipt =>
            refine .bind .read (fun _ => .bind (.handle ?_ orConflict_ordinary) (fun published => ?_))
            · exact .bind (transitionConsensusTask_ordinary _ _) (fun _ => trivial)
            · cases published with
              | none => trivial
              | some task => exact .bind (.perform rfl) (fun _ => ensureTaskStateEvidence_ordinary _)
    · trivial

theorem processPublishableTasks_ordinary : Ordinary processPublishableTasks :=
  .bind .read (fun _ => .bind .read (fun _ => each_ordinary (fun t _ => attemptPublishTask_ordinary t.id)))

theorem receiveRepositoryReceipt_ordinary (row : RepositoryReceipt) : Ordinary (receiveRepositoryReceipt row) := by
  refine .bind .read (fun found => ?_)
  cases found with
  | none => trivial
  | some found =>
    refine .bind (.perform rfl) (fun _ => .bind .throwIf (fun _ => .bind .read (fun _ => .bind .throwIf (fun _ => ?_))))
    exact attemptPublishTask_ordinary _

theorem acceptEvidenceRepositoryReceipt_ordinary (row : EvidenceReceipt) : Ordinary (acceptEvidenceRepositoryReceipt row) :=
  .bind .read (fun _ => .bind .throwIf (fun _ => .bind (.perform rfl) (fun _ => .throwIf)))

theorem acceptTaskStateRepositoryReceipt_ordinary (row : StateReceipt) :
    Ordinary (acceptTaskStateRepositoryReceipt row) := by
  refine .bind .throwIf (fun _ => .bind .read (fun found => ?_))
  cases found with
  | none => trivial
  | some found =>
    refine .bind .throwIf (fun _ => .bind .read (fun existing => .bind .throwIf (fun _ => ?_)))
    cases existing with
    | none => exact .bind (.perform rfl) (fun _ => .bind .throwIf (fun _ => .perform rfl))
    | some existing => exact .perform rfl

theorem claimRepositoryEvidence_ordinary (nonce : Text) (maxItems : Nat) :
    Ordinary (claimRepositoryEvidence nonce maxItems) := by
  refine .bind .read (fun now => .bind (.perform rfl) (fun rows => ?_))
  split
  · exact .bind .read (fun _ => .bind (.perform rfl) (fun _ => .perform rfl))
  · trivial

theorem assignRepositoryTask_ordinary (taskVersionId : Text) (role : Role) (emailHash : Text) (user : Option Text) :
    Ordinary (assignRepositoryTask taskVersionId role emailHash user) := by
  refine .bind .read (fun found => ?_)
  cases found.filter RepositoryTaskContext.isActive with
  | none => trivial
  | some context =>
    refine .bind .throwIf (fun _ => .bind .read (fun _ => .bind .throwIf (fun _ => .bind .read (fun existing => ?_))))
    refine .bind .throwIf (fun _ => .bind .read (fun _ => ?_))
    cases existing with
    | none => exact .bind .input (fun _ => .bind (.perform rfl) (fun _ => .throwIf))
    | some row => exact .bind (.perform rfl) (fun _ => .bind .throwIf (fun _ => .throwIf))

theorem repositoryTaskPayload_ordinary (userId : Text) (context : RepositoryTaskContext) (assignment : Assignment) :
    Ordinary (repositoryTaskPayload userId context assignment) := by
  unfold repositoryTaskPayload
  split
  · exact .bind .read (fun _ => .bind .throwIf (fun _ => .perform rfl))
  · refine .bind .read (fun row => ?_)
    cases row with
    | none => trivial
    | some row => exact .perform rfl
  · exact .perform rfl

theorem claimRepositoryTask_ordinary (account : Account) (taskVersionId : Text) :
    Ordinary (claimRepositoryTask account taskVersionId) := by
  unfold claimRepositoryTask
  split
  · trivial
  refine .bind .read (fun found => ?_)
  cases found.filter RepositoryTaskContext.isActive with
  | none => trivial
  | some context =>
    refine .bind .throwIf (fun _ => .bind .throwIf (fun _ => .bind .read (fun assignments => .bind .throwIf (fun _ => ?_))))
    refine .bind .read (fun _ => .bind .throwIf (fun _ => .bind .read (fun _ => ?_)))
    cases assignments.head? with
    | none =>
      refine .bind (.bind .throwIf (fun _ => .bind .read (fun occupied => ?_))) (fun _ => repositoryTaskPayload_ordinary _ _ _)
      split
      · trivial
      · exact .bind .input (fun _ => .bind (.perform rfl) (fun _ => .bind .throwIf (fun _ => .bind .read (fun _ =>
          required_ordinary _))))
    | some assignment =>
      show Ordinary (if _ then _ else _)
      split
      · refine .bind ?_ (fun _ => repositoryTaskPayload_ordinary _ _ _)
        exact .bind (.perform rfl) (fun _ => .bind .throwIf (fun _ => .bind .throwIf (fun _ => trivial)))
      · exact repositoryTaskPayload_ordinary _ _ _

theorem loadRepositoryTask_ordinary (account : Account) (taskVersionId : Text) :
    Ordinary (loadRepositoryTask account taskVersionId) := by
  refine .bind .read (fun found => ?_)
  cases found.filter RepositoryTaskContext.isActive with
  | none => trivial
  | some context =>
    refine .bind .throwIf (fun _ => .bind .read (fun assignment => ?_))
    cases assignment with
    | none => trivial
    | some assignment => exact repositoryTaskPayload_ordinary _ _ _

theorem getCompletedResults_ordinary (account : Account) (receiptId : Text) :
    Ordinary (getCompletedResults account receiptId) := by
  refine .bind .throwIf (fun _ => .bind .read (fun source => ?_))
  cases source with
  | none => trivial
  | some source => exact .bind (.perform rfl) (fun _ => .bind .read (fun _ => .perform rfl))

theorem prepareSyncItem_ordinary (env : Env) (repository : Str) (m : Manifest) :
    Ordinary (prepareSyncItem env repository m) := by
  refine .bind .read (fun _ => .bind .throwIf (fun _ => .bind .throwIf (fun _ => .bind .throwIf (fun _ => ?_))))
  refine .bind .throwIf (fun _ => ?_)
  split
  · refine .bind ?_ (fun _ => trivial)
    exact .bind .read (fun _ => .bind (ofExcept_ordinary _) (fun _ => .bind .throwIf (fun _ => .bind .read (fun _ =>
      .bind .throwIf (fun _ => trivial)))))
  · trivial

theorem prepareSyncItems_ordinary (env : Env) (repository : Str) : ∀ manifests : List Manifest,
    Ordinary (prepareSyncItems env repository manifests)
  | [] => trivial
  | m :: manifests => .bind (prepareSyncItem_ordinary env repository m) (fun _ =>
      .bind (prepareSyncItems_ordinary env repository manifests) (fun _ => trivial))

theorem syncRepositoryTasks_ordinary (env : Env) (envelope : SyncEnvelope) : Ordinary (syncRepositoryTasks env envelope) := by
  refine .bind .read (fun seen => ?_)
  split
  · trivial
  split
  · trivial
  refine .bind .read (fun _ => .bind (prepareSyncItems_ordinary _ _ _) (fun _ => .bind (.perform rfl) (fun _ => ?_)))
  refine .bind .throwIf (fun _ => .each (fun m _ => .bind ?_ (fun _ => .throwIf)))
  exact .bind .read (fun _ => .bind (ofExcept_ordinary _) (fun _ => .bind .throwIf (fun _ => required_ordinary _)))

/-- **Only the worker delivers.** -/
theorem handle_ordinary (env : Env) {r : Request} (hr : r ≠ .evidenceOutbox) : Ordinary (handle env r) := by
  cases r with
  | evidenceOutbox => exact absurd rfl hr
  | submission account contribution => exact receiveSubmission_ordinary _ _ _
  | reissue taskVersionId reason actor => exact reissueConsensusTask_ordinary _ _ _
  | appeal account finalReceiptId => exact createConsensusAppeal_ordinary _ _
  | review appealId accepts subjectHash => exact reviewConsensusAppeal_ordinary _ _ _
  | repositoryReceipt row => exact receiveRepositoryReceipt_ordinary _
  | evidenceReceipt row => exact acceptEvidenceRepositoryReceipt_ordinary _
  | stateReceipt row => exact acceptTaskStateRepositoryReceipt_ordinary _
  | evidenceClaim nonce maxItems => exact claimRepositoryEvidence_ordinary _ _
  | assignment taskVersionId role emailHash user => exact assignRepositoryTask_ordinary _ _ _ _
  | claim account taskVersionId => exact claimRepositoryTask_ordinary _ _
  | load account taskVersionId => exact loadRepositoryTask_ordinary _ _
  | results account receiptId => exact getCompletedResults_ordinary _ _
  | sync envelope => exact syncRepositoryTasks_ordinary _ _
  | expiredRounds => exact processExpiredConsensusRounds_ordinary _
  | publishableTasks => exact processPublishableTasks_ordinary
  | clock time => exact Only.perform rfl

/-! ## The worker -/

/-- The commands that end a delivery to the object store. -/
def Write.ends (id : Text) : Write → Prop
  | .delivered id' => id' = id
  | .undelivered id' _ _ _ _ => id' = id
  | _ => False

theorem putEvidenceBlob_returns (env : Env) (scope : EvidenceScope) (fileName : Text) :
    (putEvidenceBlob env scope fileName).Returns := by
  unfold putEvidenceBlob
  split
  · trivial
  · intro x s
    show Program.Returns (Program.bind (.done x) _)
    rw [Program.bind]
    split
    · trivial
    · exact fun _ _ => trivial

theorem putBlobs_returns (env : Env) (item : OutboxRow) : (putBlobs env item).Returns := by
  refine Program.Returns.bind ?_ (fun message => ?_)
  · unfold putIdentityBlob
    split
    · trivial
    · exact putEvidenceBlob_returns env _ _
  · cases message with
    | some message => trivial
    | none => exact putEvidenceBlob_returns env _ _

theorem deliverEvidence_comes (env : Env) (item : OutboxRow) : (deliverEvidence env item).Comes (Write.ends item.id) := by
  refine .of_returns (putBlobs_returns env item) (fun message => ?_)
  cases message with
  | none => exact .now rfl
  | some message => exact .later (fun _ _ => .now rfl)

/-- How a worker goes on from a command: where it takes a row it comes to the end of its delivery, and only in the mode
'd1' does it end one without the object store. -/
def Delivers (env : Env) (r : Request) (w : Write) (_ : Outside) (s : Store) (rest : Call Unit) : Prop :=
  match w with
  | .sending id _ => r = .evidenceOutbox ∧
      (Table.changes (fun o : OutboxRow => decide (o.id = id) && decide (o.status = .pending)) s.outbox = 1 →
        env.archiveMode ≠ .d1 → rest.Comes (Write.ends id))
  | .deliveredHere _ => env.archiveMode = .d1
  | _ => True

/-- The statements of a delivery but the first. -/
def Write.isSending : Write → Bool
  | .sending .. => true
  | _ => false

theorem deliverEvidence_only (env : Env) (item : OutboxRow) :
    (deliverEvidence env item).Only (fun w => w.isSending = false ∧ ∀ id, w ≠ .deliveredHere id) := by
  have hblob : ∀ scope fileName, (putEvidenceBlob env scope fileName).Only
      (fun w => w.isSending = false ∧ ∀ id, w ≠ .deliveredHere id) := by
    intro scope fileName
    unfold putEvidenceBlob
    split
    · trivial
    · refine .bind .input (fun x => ?_)
      split
      · trivial
      · exact .perform ⟨rfl, nofun⟩
  refine .bind (.bind ?_ (fun message => ?_)) (fun message => ?_)
  · unfold putIdentityBlob
    split
    · trivial
    · exact hblob _ _
  · cases message with
    | some message => trivial
    | none => exact hblob _ _
  · cases message with
    | none => exact .perform ⟨rfl, nofun⟩
    | some message => exact .bind .read (fun _ => .perform ⟨rfl, nofun⟩)

theorem delivers_of_quiet {env : Env} {w : Write} {x : Outside} {s : Store} {rest : Call Unit}
    (hw : w.isSending = false ∧ ∀ id, w ≠ .deliveredHere id) : Delivers env .evidenceOutbox w x s rest := by
  cases w with
  | sending id nextAttemptAt => cases hw.1
  | deliveredHere id => exact absurd rfl (hw.2 id)
  | _ => trivial

/-- One item of the worker's loop. -/
theorem item_delivers (env : Env) (item : OutboxRow) (nextAttemptAt : Nat) (rest : Unit → Call Unit) :
    ((Program.perform (Write.sending item.id nextAttemptAt) (fun _ s =>
      Table.changes (fun r : OutboxRow => decide (r.id = item.id) && decide (r.status = .pending)) s.outbox)).bind
        (fun changes => if changes = 1 then
          if env.archiveMode = .d1 then Program.perform (.deliveredHere item.id) (fun _ _ => ()) else deliverEvidence env item
        else pure ()) : Call Unit).Always (fun w x s q => Delivers env .evidenceOutbox w x s (q.bind rest)) := by
  refine fun x s => ⟨fun w hw => ?_, ?_⟩
  · obtain rfl := Option.some.inj hw
    refine ⟨rfl, fun hone hmode => ?_⟩
    show Program.Comes _ (Program.bind (if _ then if _ then _ else _ else _) rest)
    rw [if_pos hone, if_neg hmode]
    exact (deliverEvidence_comes env item).bind
  · show Program.Always _ (if _ then if _ then _ else _ else _)
    split
    · split
      · rename_i hmode
        intro x s
        refine ⟨fun w hw => ?_, trivial⟩
        obtain rfl := Option.some.inj hw
        exact hmode
      · exact (deliverEvidence_only env item).always (fun w x s q (hw : w.isSending = false ∧ _) => delivers_of_quiet hw)
    · trivial

theorem processEvidenceOutbox_delivers (env : Env) :
    (processEvidenceOutbox env).Always (Delivers env .evidenceOutbox) := by
  refine Program.Always.bind .read (fun now => Program.Always.bind .read (fun items => ?_))
  exact Program.Always.each (fun item _ rest => item_delivers env item _ rest)

/-- **What is always so of every handler.** -/
theorem handle_delivers (env : Env) (r : Request) : (handle env r).Always (Delivers env r) := by
  by_cases hr : r = .evidenceOutbox
  · subst hr
    exact processEvidenceOutbox_delivers env
  · refine (handle_ordinary env hr).always (fun w x s q hw => ?_)
    cases w with
    | sending id nextAttemptAt => cases hw
    | deliveredHere id => cases hw
    | _ => trivial

end Portal
end Adg
