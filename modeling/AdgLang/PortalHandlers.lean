import AdgLang.PortalObeys
/-!
# PortalHandlers — every handler obeys

The rest of the handlers: the rounds and their deadlines, appeals, receipts and publication, the outbox, the catalogue
and what accounts are shown; then all of them together (`handle_obeys`).
-/
namespace Adg
namespace Portal

open Js Consensus

open Program (Obeys)

/-! ## Rounds -/

theorem ignoreError_obeys (e : PortalError) : (ignoreError e).Obeys portal (fun _ => True) (fun _ _ => True) :=
  fun _ _ _ => trivial

/-- The items of a loop, each with its own handler of errors. -/
theorem each_obeys {β : Type} {items : List β} {p : β → Call Unit}
    (h : ∀ b ∈ items, (p b).Obeys portal (fun _ => True) (fun _ _ => True)) {P : Store → Prop} :
    (Program.each items (fun b => tryCatch (p b) ignoreError)).Obeys portal P (fun _ _ => True) :=
  (Obeys.each (P := fun _ => True) (fun b hb =>
    Obeys.handle .true ignoreError_obeys (h b hb) (fun _ _ _ => trivial))).weaken (fun _ _ _ => trivial)

theorem expireRound_obeys (taskVersionId : Text) :
    (expireRound taskVersionId).Obeys portal (fun _ => True) (fun _ _ => True) := by
  unfold expireRound
  refine Obeys.call .true (getConsensusTask_obeys taskVersionId) (fun _ _ _ => trivial)
    (fun found => obeys_required (fun task htask => ?_))
  subst htask
  have hP : portal.Stable (fun s => True ∧ s.Found taskVersionId (some task)) :=
    stable_of_grows (fun _ _ hg h => ⟨trivial, h.2.grows hg⟩)
  refine Obeys.call hP (getCurrentConsensusRound_obeys task.toTaskRow) (fun _ _ _ => trivial)
    (fun found => obeys_required (fun round hround => ?_))
  subst hround
  refine Obeys.bind (fun moved => ?_) ((transitionConsensusTask_obeys task.toTaskRow _).weaken
    (fun s _ hs => ⟨(hs.1.2 task rfl).1, .expiry round (hs.2 round rfl).1⟩))
  refine Obeys.bind (Q := fun _ _ => True) (fun _ => ?_) (reissueAfter_obeys moved task.id _ none)
  exact fun _ _ _ => trivial

theorem processExpiredConsensusRounds_obeys (env : Env) :
    (processExpiredConsensusRounds env).Obeys portal (fun _ => True) (fun _ _ => True) := by
  unfold processExpiredConsensusRounds
  refine Obeys.bind_query .true (fun active => ?_)
  refine Obeys.bind (Q := fun _ _ => True) (fun _ => ?_) (each_obeys (fun t _ => ?_))
  · refine Obeys.bind_query .true (fun missing => ?_)
    refine Obeys.bind (Q := fun _ _ => True) (fun _ => ?_) (each_obeys (fun t _ => ?_))
    · refine Obeys.bind_query .true (fun now => Obeys.bind_query .true (fun expired => ?_))
      exact each_obeys (fun t _ => expireRound_obeys t.id)
    · exact Obeys.bind (fun found => ensureTaskStateEvidence_obeys t.id found) (getConsensusTask_obeys t.id)
  · refine Obeys.bind (Q := fun _ _ => True) (fun _ => ?_) (reconcileConsensusTask_obeys env t.id)
    exact fun _ _ _ => trivial

theorem reissueConsensusTask_obeys (taskVersionId : Text) (reason : ReissueReason) (actor : Actor) :
    (reissueConsensusTask taskVersionId reason actor).Obeys portal (fun _ => True) (fun _ _ => True) := by
  unfold reissueConsensusTask
  refine Obeys.call .true (getConsensusTask_obeys taskVersionId) (fun _ _ _ => trivial) (fun found => ?_)
  cases found with
  | none => trivial
  | some task =>
    refine Obeys.bind (fun updated => ensureTaskStateEvidence_obeys task.id updated)
      (Obeys.handle .true (fun e => answerConflict_obeys e)
        ((createReissuedRound_obeys task.toTaskRow reason (some actor)).weaken (fun s _ hs => (hs.2 task rfl).1))
        (fun _ _ _ => trivial))

/-! ## Appeals -/

theorem createConsensusAppeal_obeys (account : Account) (finalReceiptId : Text) :
    (createConsensusAppeal account finalReceiptId).Obeys portal (fun _ => True) (fun _ _ => True) := by
  refine Obeys.bind_throwIf (fun _ => Obeys.bind_query .true (fun found => ?_))
  cases found with
  | none => trivial
  | some found =>
    refine Obeys.bind_throwIf (fun _ => Obeys.bind_query .true (fun now => Obeys.bind_throwIf (fun _ => ?_)))
    refine Obeys.bind_query .true (fun _ => Obeys.bind_throwIf (fun _ => Obeys.bind_input .true (fun x => ?_)))
    refine Obeys.bind_query .true (fun createdAt => ?_)
    refine Obeys.bind (Q := fun _ _ => True) (fun _ => ?_) (Obeys.perform (fun _ _ _ => trivial) (fun _ => .true)
      (fun _ _ _ _ _ => trivial))
    exact Obeys.bind_throwIf (fun _ => Obeys.throwIf (fun _ _ _ _ => trivial))

/-- Keys of tables that no statement of the batch writes stand. -/
theorem Store.Keys.ofResult {s s' : Store} (h : s.Keys) (hr : s'.ResultKeys)
    (hsame : s' = { s with finals := s'.finals, appeals := s'.appeals }) : s'.Keys := by
  rw [hsame] at hr ⊢
  exact ⟨{ h.consensus with }, { h.participation with }, hr, { h.outbox with }, { h.assignment with }⟩

/-- A decision about an appeal commits. -/
theorem decideAppeal_exec {x : Outside} {id : Text} {decision : AppealStatus} {s : Store} (h : s.Keys) :
    (Write.decideAppeal id decision).exec x s = { s with
      appeals := Table.update (fun a => decide (a.id = id) && a.isPending) (fun a => { a with status := decision })
        s.appeals } := by
  have hkeys : Store.Keys { s with
      appeals := Table.update (fun a => decide (a.id = id) && a.isPending) (fun a => { a with status := decision })
        s.appeals } :=
    h.ofResult { h.result with
      appeals := h.result.appeals.update (fun _ => rfl)
      appellants := h.result.appellants.update (fun _ => rfl) } rfl
  rw [Write.exec, Write.commit]
  simp only [Write.apply, hkeys, if_true]

/-- So does a revocation: it leaves fewer active results. -/
theorem revokeFinal_exec {x : Outside} {primaryReceiptId : Text} {s : Store} (h : s.Keys) :
    (Write.revokeFinal primaryReceiptId).exec x s = { s with
      finals := Table.update (fun f => decide (f.primaryReceiptId = primaryReceiptId) && f.isActive)
        (fun f => { f with status := .revoked }) s.finals } := by
  have hkeys : Store.Keys { s with
      finals := Table.update (fun f => decide (f.primaryReceiptId = primaryReceiptId) && f.isActive)
        (fun f => { f with status := .revoked }) s.finals } := by
    refine h.ofResult { h.result with
      finals := h.result.finals.update (fun _ => rfl)
      oneActive := ?_ } rfl
    exact h.result.oneActive.sublist ((Table.filter_update_sublist (fun _ => rfl) s.finals).map FinalResult.taskVersionId)
  rw [Write.exec, Write.commit]
  simp only [Write.apply, hkeys, if_true]

/-- What is known where an accepted appeal is followed up. -/
def FollowsUp (s : Store) (appeal : Appeal) (task : Task) : Prop :=
  s.Accepted appeal ∧ s.Seen task.toTaskRow

theorem FollowsUp.stable (appeal : Appeal) (task : Task) : portal.Stable (fun s => FollowsUp s appeal task) :=
  stable_of_grows (fun _ _ hg h => ⟨h.1.grows hg, h.2.grows hg⟩)

theorem revoked_exec {x : Outside} {appeal : Appeal} {s : Store} (h : s.Sound) (ha : s.Accepted appeal) :
    ((Write.revokeFinal appeal.finalReceiptId).exec x s).Revoked appeal.finalReceiptId := by
  obtain ⟨a, hmem, haa, -⟩ := ha
  obtain ⟨f, hf, hprimary, -, -, hstatus⟩ := h.appeals a hmem
  have hid : f.primaryReceiptId = appeal.finalReceiptId := hprimary.trans haa.final
  rw [revokeFinal_exec h.keys]
  by_cases hactive : f.status = .active
  · exact ⟨_, Table.mem_update.2 ⟨f, hf, (if_pos (by simp [hid, FinalResult.isActive, hactive])).symm⟩, hid, rfl⟩
  · exact ⟨f, Table.mem_update.2 ⟨f, hf, (if_neg (by simp [FinalResult.isActive, hactive])).symm⟩, hid,
      hstatus.resolve_left hactive⟩

theorem escalateAppeal_obeys (appeal : Appeal) (task : Task) (subjectHash : Option Text) (hstate : task.state = .approved)
    (htask : appeal.taskVersionId = task.id) : (escalateAppeal appeal task subjectHash).Obeys portal
      (fun s => FollowsUp s appeal task) (fun _ _ => True) := by
  refine Obeys.bind_perform (FollowsUp.stable appeal task) (fun _ s => s.Revoked appeal.finalReceiptId)
    (fun _ => stable_of_grows (fun _ _ hg h => h.grows hg)) (fun s _ hs => ⟨appeal, hs.1, rfl⟩)
    (fun x s hi hs _ => revoked_exec hi hs.1) (fun _ => ?_)
  refine Obeys.bind (fun moved => ?_) ((transitionConsensusTask_obeys task.toTaskRow _).weaken
    (fun s _ hs => ⟨hs.1.2, .appealEscalation appeal subjectHash hstate hs.1.1 htask hs.2⟩))
  refine Obeys.bind (Q := fun _ _ => True) (fun _ => ?_) (reissueAfter_obeys moved task.id _ _)
  exact fun _ _ _ => trivial

/-- An appeal that was read. -/
def Filed (s : Store) (appealId : Text) (found : Option Appeal) : Prop :=
  ∀ a, found = some a → a.id = appealId ∧ ∃ a' ∈ s.appeals, AppealGrows a a'

theorem Filed.stable (appealId : Text) (found : Option Appeal) : portal.Stable (fun s => Filed s appealId found) :=
  stable_of_grows (fun s s' hg h a ha => by
    obtain ⟨hid, a', ha', haa⟩ := h a ha
    obtain ⟨a'', ha'', haa'⟩ := hg.appeals a' ha'
    exact ⟨hid, a'', ha'', haa.trans _ _ _ haa'⟩)

/-- A decision that reports a row accepted the appeal that was read. -/
theorem accepted_exec {x : Outside} {appealId : Text} {appeal : Appeal} {s : Store} (h : s.Sound)
    (hfiled : Filed s appealId (some appeal))
    (hone : Table.changes (fun a => decide (a.id = appealId) && a.isPending) s.appeals = 1) :
    ((Write.decideAppeal appealId .accepted).exec x s).Accepted appeal := by
  obtain ⟨hid, a', ha', haa⟩ := hfiled appeal rfl
  have hpending : ∃ b ∈ s.appeals, (decide (b.id = appealId) && b.isPending) = true :=
    List.countP_pos_iff.1 (by rw [Table.changes] at hone; omega)
  obtain ⟨b, hb, hb'⟩ := hpending
  have hkeys : b.id = appealId ∧ b.status = .pending := by simpa [Appeal.isPending] using hb'
  obtain rfl : b = a' := h.keys.result.appeals.eq_of_key hb ha' (hkeys.1.trans (hid.symm.trans haa.id.symm))
  rw [decideAppeal_exec h.keys]
  refine ⟨_, Table.mem_update.2 ⟨b, hb, (if_pos hb').symm⟩, ⟨haa.id, haa.task, haa.round, haa.final, fun hne => ?_⟩, rfl⟩
  exact absurd ((haa.decided hne).symm.trans hkeys.2) hne

theorem reviewConsensusAppeal_obeys (appealId : Text) (accepts : Bool) (subjectHash : Option Text) :
    (reviewConsensusAppeal appealId accepts subjectHash).Obeys portal (fun _ => True) (fun _ _ => True) := by
  refine Obeys.bind_read .true (fun found s => Filed s appealId found) (fun found => Filed.stable appealId found)
    (fun s _ _ a ha => ?_) (fun found => ?_)
  · obtain ⟨hlookup, -⟩ := Option.filter_eq_some_iff.1 ha
    obtain ⟨hmem, hid⟩ := Table.lookup_some hlookup
    exact ⟨hid, a, hmem, .refl a⟩
  cases found with
  | none => trivial
  | some appeal =>
    have hP : portal.Stable (fun s => True ∧ Filed s appealId (some appeal)) := Discipline.Stable.true.and (Filed.stable _ _)
    refine Obeys.call hP (getConsensusTask_obeys appeal.taskVersionId) (fun _ _ _ => trivial) (fun found => ?_)
    cases htask : found.filter (fun t => decide (t.state = .approved)) with
    | none => trivial
    | some task =>
      obtain ⟨rfl, hstate⟩ := Option.filter_eq_some_iff.1 htask
      refine Obeys.extract (c := task.id = appeal.taskVersionId) (fun s _ hs => (hs.2 task rfl).2.1) (fun hid => ?_)
      refine Obeys.weaken (P := fun s => Filed s appealId (some appeal) ∧ s.Seen task.toTaskRow) ?_
        (fun s _ hs => ⟨hs.1.2, (hs.2 task rfl).1⟩)
      have hread : portal.Stable (fun s => Filed s appealId (some appeal) ∧ s.Seen task.toTaskRow) :=
        (Filed.stable _ _).and (stable_of_grows (fun _ _ hg h => h.grows hg))
      refine Obeys.bind_perform hread (fun reviewed s => reviewed = 1 → accepts = true → s.Accepted appeal)
        (fun reviewed => stable_of_grows (fun _ _ hg h h1 h2 => (h h1 h2).grows hg)) (fun _ _ _ => trivial) ?_
        (fun reviewed => Obeys.bind_throwIf (fun hone => ?_))
      · intro x s hi hs _ hone haccepts
        subst haccepts
        exact accepted_exec hi hs.1 hone
      · cases accepts with
        | false => exact fun _ _ _ => trivial
        | true =>
          exact (escalateAppeal_obeys appeal task subjectHash (by simpa using hstate) hid.symm).weaken
            (fun s _ hs => ⟨hs.2 (by simpa using hone) rfl, hs.1.2⟩)

/-! ## Receipts and publication -/

/-- The active final result of the task that `attemptPublishTask` found. -/
def IsActiveFinal (s : Store) (task : Task) (found : Option FinalResult) : Prop :=
  ∀ f, found = some f → (∃ f' ∈ s.finals, FinalGrows f f') ∧ f.taskVersionId = task.id ∧ f.status = .active ∧
    task.activeFinalReceiptId = some f.primaryReceiptId

theorem IsActiveFinal.grows {s s' : Store} {task : Task} {found : Option FinalResult} (hg : s.Grows s')
    (h : IsActiveFinal s task found) : IsActiveFinal s' task found := by
  intro f hf
  obtain ⟨⟨f', hf', hff⟩, hrest⟩ := h f hf
  obtain ⟨f'', hf'', hff'⟩ := hg.finals f' hf'
  exact ⟨⟨f'', hf'', hff.trans _ _ _ hff'⟩, hrest⟩

/-- The receipt of the repository for a final result that it found. -/
def IsReceiptOf (s : Store) (task : Task) (final : FinalResult) (found : Option RepositoryReceipt) : Prop :=
  ∀ r, found = some r → r ∈ s.receipts ∧ r.taskVersionId = task.id ∧ r.roundId = final.roundId ∧
    r.finalMerkleRoot = final.finalMerkleRoot

/-- What is known where a task is published. -/
structure Publishable (s : Store) (task : Task) (final : FinalResult) (receipt : RepositoryReceipt) (guardAt : Nat) :
    Prop where
  seen : s.Seen task.toTaskRow
  isFinal : IsActiveFinal s task (some final)
  isReceipt : IsReceiptOf s task final (some receipt)
  passed : guardAt ≤ s.clock

theorem Publishable.legit {s : Store} {task : Task} {final : FinalResult} {receipt : RepositoryReceipt} {guardAt : Nat}
    (h : Publishable s task final receipt guardAt) (hstate : task.state = .approved) {taskVersionId : Text}
    (hid : task.id = taskVersionId) : s.Legit task.toTaskRow (publication taskVersionId final receipt guardAt) := by
  obtain ⟨hstands, htask, hactive, hfinal⟩ := h.isFinal final rfl
  obtain ⟨hreceipt, hreceipttask, hround, hroot⟩ := h.isReceipt receipt rfl
  exact .publication taskVersionId final receipt guardAt hstate hid.symm hstands htask hactive hfinal hreceipt
    hreceipttask hround hroot h.passed

theorem attemptPublishTask_obeys (taskVersionId : Text) :
    (attemptPublishTask taskVersionId).Obeys portal (fun _ => True) (fun _ _ => True) := by
  unfold attemptPublishTask
  refine Obeys.call .true (getConsensusTask_obeys taskVersionId) (fun _ _ _ => trivial) (fun found => ?_)
  cases found with
  | none => exact fun _ _ _ => trivial
  | some task =>
    refine Obeys.extract (c := task.id = taskVersionId) (fun s _ hs => (hs.2 task rfl).2.1) (fun hid => ?_)
    have hseen : portal.Stable (fun s => s.Seen task.toTaskRow) := stable_of_grows (fun _ _ hg h => h.grows hg)
    refine Obeys.weaken (P := fun s => s.Seen task.toTaskRow) ?_ (fun s _ hs => (hs.2 task rfl).1)
    refine Obeys.bind_query hseen (fun now => ?_)
    by_cases hpublishable : task.isPublishable now = true
    · have hstate : task.state = .approved := by
        simp only [Task.isPublishable, Bool.and_eq_true, decide_eq_true_eq] at hpublishable
        exact hpublishable.1.1
      simp only [hpublishable, if_true]
      refine Obeys.bind_query hseen (fun isPending => ?_)
      cases isPending with
      | true => exact fun _ _ _ => trivial
      | false =>
        refine Obeys.bind_read hseen (fun found s => IsActiveFinal s task found)
          (fun found => stable_of_grows (fun _ _ hg h => h.grows hg)) (fun s _ _ f hf => ?_) (fun found => ?_)
        · have hkeys := List.find?_some hf
          simp only [FinalResult.isActive, Bool.and_eq_true, decide_eq_true_eq] at hkeys
          exact ⟨⟨f, List.mem_of_find?_eq_some hf, .refl f⟩, hkeys.1.1.trans hid.symm, hkeys.1.2, hkeys.2.symm⟩
        cases found with
        | none => exact fun _ _ _ => trivial
        | some final =>
          have hfinal : portal.Stable (fun s => s.Seen task.toTaskRow ∧ IsActiveFinal s task (some final)) :=
            hseen.and (stable_of_grows (fun _ _ hg h => h.grows hg))
          have hmay : ∀ found, portal.Stable (fun s => IsReceiptOf s task final found) :=
            fun found => stable_of_grows (fun _ _ hg h r hr => ⟨hg.receipts (h r hr).1, (h r hr).2⟩)
          refine Obeys.bind_read hfinal (fun found s => IsReceiptOf s task final found) hmay (fun s _ _ r hr => ?_)
            (fun found => ?_)
          · have hkeys := List.find?_some hr
            simp only [Bool.and_eq_true, decide_eq_true_eq] at hkeys
            exact ⟨List.mem_of_find?_eq_some hr, hkeys.1.1.trans hid.symm, hkeys.1.2, hkeys.2⟩
          cases found with
          | none => exact fun _ _ _ => trivial
          | some receipt =>
            refine Obeys.bind_read (hfinal.and (hmay _)) (fun guardAt s => guardAt ≤ s.clock)
              (fun guardAt => stable_of_grows (fun _ _ hg h => h.trans hg.clock)) (fun s _ _ => le_refl _)
              (fun guardAt => ?_)
            refine Obeys.bind (Q := fun published s => ∀ moved, published = some moved → s.Found task.id moved)
              (fun published => ?_) (Obeys.handle (F := fun _ => True) .true (fun e => ?_) ?_ (fun _ _ _ => trivial))
            · cases published with
              | none => exact fun _ _ _ => trivial
              | some moved =>
                have hmoved : portal.Stable (fun s => s.Found task.id moved) := stable_of_grows (fun _ _ hg h => h.grows hg)
                exact Obeys.bind (Q := fun _ s => s.Found task.id moved) (fun _ => ensureTaskStateEvidence_obeys task.id moved)
                  (Obeys.perform (fun _ _ _ => trivial) (fun _ => hmoved)
                    (fun x s hi hs hf => hmoved x _ s hi hf (hs moved rfl)))
            · unfold orConflict
              split
              · rintro _ _ _ _ ⟨⟩
              · trivial
            · refine Obeys.bind (fun moved => ?_)
                ((transitionConsensusTask_obeys task.toTaskRow _).weaken (fun s _ hs => ⟨hs.1.1.1, ?_⟩))
              · rintro s _ hs moved' hmoved
                obtain rfl := Option.some.inj hmoved
                exact hs
              · exact Publishable.legit ⟨hs.1.1.1, hs.1.1.2, hs.1.2, hs.2⟩ hstate hid
    · simp only [hpublishable]
      exact fun _ _ _ => trivial

theorem processPublishableTasks_obeys : processPublishableTasks.Obeys portal (fun _ => True) (fun _ _ => True) := by
  refine Obeys.bind_query .true (fun now => Obeys.bind_query .true (fun due => ?_))
  exact each_obeys (fun t _ => attemptPublishTask_obeys t.id)

/-- What a receipt of the repository was matched with. -/
def Matched (s : Store) (row : RepositoryReceipt) (found : Option (EventRow × FinalResult)) : Prop :=
  ∀ p, found = some p → (p.1 ∈ s.events ∧ p.1.id = row.nonce ∧ p.1.taskVersionId = row.taskVersionId ∧
      p.1.roundId = some row.roundId ∧ p.1.toState = .approved) ∧
    s.HasFinal p.2.primaryReceiptId row.taskVersionId row.roundId row.finalMerkleRoot

theorem receiveRepositoryReceipt_obeys (row : RepositoryReceipt) :
    (receiveRepositoryReceipt row).Obeys portal (fun _ => True) (fun _ _ => True) := by
  have hmatched : ∀ found, portal.Stable (fun s => Matched s row found) := fun found =>
    stable_of_grows (fun _ _ hg h p hp => ⟨⟨hg.events (h p hp).1.1, (h p hp).1.2⟩, (h p hp).2.grows hg⟩)
  refine Obeys.bind_read .true (fun found s => Matched s row found) hmatched (fun s _ _ p hp => ?_) (fun found => ?_)
  · obtain ⟨e, he, hp⟩ := Option.bind_eq_some_iff.1 hp
    obtain ⟨f, hf, rfl⟩ := Option.map_eq_some_iff.1 hp
    have hevent := List.find?_some he
    have hfinal := List.find?_some hf
    simp only [Bool.and_eq_true, decide_eq_true_eq] at hevent hfinal
    refine ⟨⟨List.mem_of_find?_eq_some he, hevent.1.1.1, hevent.1.1.2, hevent.1.2, hevent.2⟩, f, List.mem_of_find?_eq_some hf, rfl,
      hfinal.1.1.1.trans hevent.1.1.2, ?_, hfinal.1.2⟩
    exact Option.some.inj (hfinal.1.1.2.trans hevent.1.2)
  · cases found with
    | none => trivial
    | some p =>
      refine Obeys.bind (Q := fun _ _ => True) (fun committed => Obeys.bind_throwIf (fun _ => ?_))
        (Obeys.perform (fun s _ hs => ⟨⟨p.1, (hs.2 p rfl).1⟩, (hs.2 p rfl).2⟩) (fun _ => .true)
          (fun _ _ _ _ _ => trivial))
      exact Obeys.bind_query .true (fun _ => Obeys.bind_throwIf (fun _ => attemptPublishTask_obeys row.taskVersionId))

theorem acceptEvidenceRepositoryReceipt_obeys (row : EvidenceReceipt) :
    (acceptEvidenceRepositoryReceipt row).Obeys portal (fun _ => True) (fun _ _ => True) := by
  refine Obeys.bind_query .true (fun found => Obeys.bind_throwIf (fun _ => ?_))
  exact Obeys.bind (Q := fun _ _ => True) (fun committed => Obeys.throwIf (fun _ _ _ _ => trivial))
    (Obeys.perform (fun _ _ _ => trivial) (fun _ => .true) (fun _ _ _ _ _ => trivial))

theorem acceptTaskStateRepositoryReceipt_obeys (row : StateReceipt) :
    (acceptTaskStateRepositoryReceipt row).Obeys portal (fun _ => True) (fun _ _ => True) := by
  refine Obeys.bind_throwIf (fun happroved => ?_)
  refine Obeys.bind_read .true (fun found s => ∀ p, found = some p → p.2 ∈ s.events ∧ p.2.id = row.eventId)
    (fun found => stable_of_grows (fun _ _ hg h p hp => ⟨hg.events (h p hp).1, (h p hp).2⟩)) (fun s _ _ p hp => ?_)
    (fun found => ?_)
  · obtain ⟨o, ho, hp⟩ := Option.bind_eq_some_iff.1 hp
    obtain ⟨e, he, rfl⟩ := Option.map_eq_some_iff.1 hp
    have hrow := List.find?_some ho
    have hevent := List.find?_some he
    simp only [Bool.and_eq_true, decide_eq_true_eq] at hrow hevent
    exact ⟨List.mem_of_find?_eq_some he, hevent.1.trans hrow.2⟩
  · cases found with
    | none => trivial
    | some p =>
      have hP : portal.Stable (fun s => True ∧ ∀ q, some p = some q → q.2 ∈ s.events ∧ q.2.id = row.eventId) :=
        stable_of_grows (fun _ _ hg h => ⟨trivial, fun q hq => ⟨hg.events (h.2 q hq).1, (h.2 q hq).2⟩⟩)
      have hstored : portal.Stable (fun s => ∃ r ∈ s.stateReceipts, r.eventId = row.eventId) :=
        stable_of_grows (fun _ _ hg ⟨r, hr, heq⟩ => ⟨r, hg.stateReceipts hr, heq⟩)
      have hmay : ∀ existing : Option StateReceipt, portal.Stable (fun s => existing.isSome →
          ∃ r ∈ s.stateReceipts, r.eventId = row.eventId) := fun existing => .imp (fun _ => hstored)
      refine Obeys.bind_throwIf (fun hmatches => Obeys.bind_read hP (fun existing s => existing.isSome →
        ∃ r ∈ s.stateReceipts, r.eventId = row.eventId) hmay (fun s _ _ hsome => ?_)
        (fun existing => Obeys.bind_throwIf (fun _ => ?_)))
      · obtain ⟨r, hr⟩ := Option.isSome_iff_exists.1 hsome
        have hkeys := List.find?_some hr
        simp only [Bool.and_eq_true, decide_eq_true_eq] at hkeys
        exact ⟨r, List.mem_of_find?_eq_some hr, hkeys.2⟩
      have hlast : (Program.perform (.stateAccepted row.taskVersionId row.eventId) (fun _ _ => ()) : Call Unit).Obeys portal
          (fun s => ∃ r ∈ s.stateReceipts, r.eventId = row.eventId) (fun _ _ => True) :=
        Obeys.perform (fun _ _ hs => hs) (fun _ => .true) (fun _ _ _ _ _ => trivial)
      have hstate : p.2.toState = row.toState := by
        simp only [Bool.or_eq_false_iff, decide_eq_false_iff_not, not_not] at hmatches
        exact hmatches.2
      by_cases hnew : existing.isNone = true
      · simp only [hnew, if_true]
        refine Obeys.bind (Q := fun committed s => committed = true → ∃ r ∈ s.stateReceipts, r.eventId = row.eventId)
          (fun committed => Obeys.bind_throwIf (fun hcommitted => hlast.weaken (fun s _ hs => hs (by simpa using hcommitted))))
          (Obeys.perform (fun s _ hs => ⟨p.2, (hs.1.2 p rfl).1, (hs.1.2 p rfl).2, ?_⟩) (fun _ => .imp (fun _ => hstored))
            (fun x s _ _ _ hcommitted => ?_))
        · rw [hstate]
          simpa using happroved
        · show ∃ r ∈ ((Write.stateReceipt row).exec x s).stateReceipts, r.eventId = row.eventId
          obtain ⟨-, hnot⟩ | ⟨s', happly, -, hexec, -⟩ := (Write.stateReceipt row).exec_cases x s
          · exact absurd (hnot.symm.trans hcommitted) (by simp)
          · rw [hexec]
            obtain rfl := Option.some.inj happly
            exact ⟨row, List.mem_append_right _ (List.mem_singleton.2 rfl), rfl⟩
      · simp only [hnew]
        exact hlast.weaken (fun s _ hs => hs.2 (by simpa [Option.isSome_iff_ne_none] using hnew))

/-! ## The outbox -/

theorem claimRepositoryEvidence_obeys (nonce : Text) (maxItems : Nat) :
    (claimRepositoryEvidence nonce maxItems).Obeys portal (fun _ => True) (fun _ _ => True) := by
  have hnow : ∀ now, portal.Stable (fun s => True ∧ now ≤ s.clock) :=
    fun now => stable_of_grows (fun _ _ hg h => ⟨trivial, h.2.trans hg.clock⟩)
  refine Obeys.bind_read .true (fun now s => now ≤ s.clock) (fun now => stable_of_grows (fun _ _ hg h => h.trans hg.clock))
    (fun _ _ _ => le_refl _) (fun now => ?_)
  refine Obeys.bind (Q := fun _ s => True ∧ now ≤ s.clock) (fun rows => ?_)
    (Obeys.perform (fun _ _ _ => ⟨nonce, rfl⟩) (fun _ => hnow now) (fun x s hi hs hf => hnow now x _ s hi hf hs))
  by_cases hnone : rows.length = 0
  · simp only [hnone, if_true]
    refine Obeys.bind_query (hnow now) (fun candidates => ?_)
    refine Obeys.bind (Q := fun _ _ => True) (fun _ => ?_) (Obeys.perform (fun _ _ hs => ⟨⟨nonce, rfl⟩, hs.2⟩)
      (fun _ => .true) (fun _ _ _ _ _ => trivial))
    exact Obeys.perform (fun _ _ _ => ⟨nonce, rfl⟩) (fun _ => .true) (fun _ _ _ _ _ => trivial)
  · simp only [hnone, if_false]
    exact fun _ _ _ => trivial

/-- A row that a worker selected, as it stood. -/
def Store.Selected (s : Store) (item : OutboxRow) : Prop := ∃ o ∈ s.outbox, OutboxGrows item o ∧ s.Releasable o

theorem Store.Selected.stable (item : OutboxRow) : portal.Stable (fun s => s.Selected item) :=
  stable_of_grows (fun s s' hg h => by
    obtain ⟨o, ho, hoo, hrel⟩ := h
    obtain ⟨o', ho', hoo'⟩ := hg.outbox o ho
    exact ⟨o', ho', hoo.trans _ _ _ hoo', (hrel.grows hg).of_grows hoo'⟩)

theorem Store.Selected.deliverable {s : Store} {item : OutboxRow} (h : s.Selected item) : s.Deliverable item.id := by
  obtain ⟨o, ho, hoo, hrel⟩ := h
  exact ⟨o, ho, hoo.id, hrel⟩

/-- A blob that was put stays in the object store. -/
theorem archived_stable (scope : EvidenceScope) (fileName : Text) :
    portal.Stable (fun s => (scope, fileName) ∈ s.archive) := stable_of_grows (fun _ _ hg h => hg.archive h)

theorem putEvidenceBlob_obeys (env : Env) (scope : EvidenceScope) (fileName : Text) :
    (putEvidenceBlob env scope fileName).Obeys portal (fun _ => True)
      (fun refusal s => refusal = none → (scope, fileName) ∈ s.archive) := by
  unfold putEvidenceBlob
  split
  · exact fun _ _ _ => nofun
  · refine Obeys.bind_input .true (fun x => ?_)
    cases hrefusal : x.refusal with
    | some message => exact fun _ _ _ => nofun
    | none =>
      refine Obeys.perform (fun _ _ _ => trivial) (fun _ => .imp (fun _ => archived_stable scope fileName))
        (fun x s hi _ _ _ => ?_)
      show (scope, fileName) ∈ ((Write.putBlob scope fileName).exec x s).archive
      have hkeys : ({ s with archive := s.archive ++ [(scope, fileName)] } : Store).Keys := {
        consensus := { hi.keys.consensus with }
        participation := { hi.keys.participation with }
        result := { hi.keys.result with }
        outbox := { hi.keys.outbox with }
        assignment := { hi.keys.assignment with } }
      rw [Write.exec, Write.commit]
      simp [Write.apply, hkeys]

theorem putIdentityBlob_obeys (env : Env) (item : OutboxRow) :
    (putIdentityBlob env item).Obeys portal (fun _ => True) (fun refusal s => refusal = none →
      ∀ fileName, item.identityBlobName = some fileName → (.identities, fileName) ∈ s.archive) := by
  unfold putIdentityBlob
  split
  · rename_i hnone
    rintro s _ _ _ fileName hname
    rw [hnone] at hname
    cases hname
  · rename_i name hname
    refine (putEvidenceBlob_obeys env .identities name).strengthen (fun refusal s _ h hrefusal fileName hfile => ?_)
    obtain rfl := Option.some.inj (hname.symm.trans hfile)
    exact h hrefusal

theorem putBlobs_obeys (env : Env) (item : OutboxRow) :
    (putBlobs env item).Obeys portal (fun _ => True) (fun refusal s => refusal = none → s.HasBlobs item) := by
  have hidentity : portal.Stable (fun s => ∀ fileName, item.identityBlobName = some fileName →
      (EvidenceScope.identities, fileName) ∈ s.archive) :=
    stable_of_grows (fun _ _ hg h fileName hname => hg.archive (h fileName hname))
  refine Obeys.bind (fun first => ?_) (putIdentityBlob_obeys env item)
  cases first with
  | some message => exact fun _ _ _ => nofun
  | none =>
    refine ((putEvidenceBlob_obeys env .submissions item.publicBlobName).frame hidentity).weaken
      (fun _ _ hs => ⟨trivial, hs rfl⟩) |>.strengthen (fun refusal s _ hs hrefusal => ⟨hs.1 hrefusal, hs.2⟩)

theorem deliverEvidence_obeys (env : Env) (item : OutboxRow) :
    (deliverEvidence env item).Obeys portal (fun s => s.Selected item) (fun _ _ => True) := by
  refine Obeys.call (Store.Selected.stable item) (putBlobs_obeys env item) (fun _ _ _ => trivial) (fun refusal => ?_)
  cases refusal with
  | none =>
    refine Obeys.perform (fun s _ hs => ⟨hs.1.deliverable, ?_⟩) (fun _ => .true) (fun _ _ _ _ _ => trivial)
    obtain ⟨o, ho, hoo, -⟩ := hs.1
    refine ⟨o, ho, hoo.id, ?_, fun fileName hname => (hs.2 rfl).2 fileName (hoo.identity ▸ hname)⟩
    rw [hoo.blob]
    exact (hs.2 rfl).1
  | some message =>
    refine Obeys.weaken (P := fun s => s.Selected item) ?_ (fun _ _ hs => hs.1)
    refine Obeys.bind_query (Store.Selected.stable item) (fun now => Obeys.perform (fun s _ hs => ⟨hs.deliverable, ?_⟩)
      (fun _ => .true) (fun _ _ _ _ _ => trivial))
    split
    · exact .inl rfl
    · exact .inr rfl

theorem processEvidenceOutbox_obeys (env : Env) :
    (processEvidenceOutbox env).Obeys portal (fun _ => True) (fun _ _ => True) := by
  refine Obeys.bind_query .true (fun now => ?_)
  have hselected : ∀ items : List OutboxRow, portal.Stable (fun s => ∀ item ∈ items, s.Selected item) :=
    fun items x w s hi hf h item hitem => Store.Selected.stable item x w s hi hf (h item hitem)
  refine Obeys.bind_read .true (fun items s => ∀ item ∈ items, s.Selected item) hselected (fun s hi _ item hitem => ?_)
    (fun items => ?_)
  · have hrow := (List.mem_insertionSort _).1 (List.mem_of_mem_take hitem)
    obtain ⟨hmem, hpending⟩ := List.mem_filter.1 hrow
    simp only [Bool.and_eq_true, decide_eq_true_eq] at hpending
    exact ⟨item, hmem, .refl item, (hi.outbox item hmem).pending hpending.1⟩
  · have hP : portal.Stable (fun s => True ∧ ∀ item ∈ items, s.Selected item) := Discipline.Stable.true.and (hselected items)
    refine (Obeys.each (fun item hitem => ?_)).strengthen (fun _ _ _ _ => trivial)
    refine Obeys.bind_perform hP (fun _ _ => True) (fun _ => .true) (fun _ _ _ => trivial) (fun _ _ _ _ _ => trivial)
      (fun changes => ?_)
    by_cases hone : changes = 1
    · simp only [hone, if_true]
      by_cases hd1 : env.archiveMode = .d1
      · simp only [hd1, if_true]
        exact Obeys.perform (fun _ _ _ => trivial) (fun _ => hP) (fun x s hi hs hf => hP x _ s hi hf hs.1)
      · simp only [hd1]
        exact (((deliverEvidence_obeys env item).frame hP).weaken (fun s _ hs => ⟨hs.1.2 item hitem, hs.1⟩)).strengthen
          (fun _ _ _ hs => hs.2)
    · simp only [hone, if_false]
      exact fun _ _ hs => hs.1

/-! ## The catalogue -/

/-- The family of a task's context. -/
def InFamily (s : Store) (found : Option RepositoryTaskContext) : Prop :=
  ∀ c, found = some c → s.HasFamily c.taskVersionId c.holdoutId

theorem InFamily.stable (found : Option RepositoryTaskContext) : portal.Stable (fun s => InFamily s found) :=
  stable_of_grows (fun _ _ hg h c hc => (h c hc).grows hg)

theorem repositoryTaskContext_inFamily (s : Store) (taskVersionId : Text) :
    InFamily s (s.repositoryTaskContext taskVersionId) := by
  intro c hc
  obtain ⟨catalog, hcatalog, hc⟩ := Option.bind_eq_some_iff.1 hc
  obtain ⟨task, -, hc⟩ := Option.bind_eq_some_iff.1 hc
  obtain ⟨evidence, hevidence, hc⟩ := Option.bind_eq_some_iff.1 hc
  obtain ⟨round, -, rfl⟩ := Option.map_eq_some_iff.1 hc
  exact ⟨evidence, (Table.lookup_some hevidence).1, (Table.lookup_some hevidence).2.trans (Table.lookup_some hcatalog).2.symm,
    rfl⟩

theorem assignRepositoryTask_obeys (taskVersionId : Text) (role : Role) (emailHash : Text) (user : Option Text) :
    (assignRepositoryTask taskVersionId role emailHash user).Obeys portal (fun _ => True) (fun _ _ => True) := by
  refine Obeys.bind_read .true (fun found s => InFamily s found) (fun found => InFamily.stable found)
    (fun s _ _ => repositoryTaskContext_inFamily s taskVersionId) (fun found => ?_)
  cases hcontext : found.filter RepositoryTaskContext.isActive with
  | none => trivial
  | some context =>
    obtain ⟨rfl, -⟩ := Option.filter_eq_some_iff.1 hcontext
    refine Obeys.weaken (P := fun s => s.HasFamily context.taskVersionId context.holdoutId) ?_
      (fun s _ hs => hs.2 context rfl)
    have hP : portal.Stable (fun s => s.HasFamily context.taskVersionId context.holdoutId) :=
      stable_of_grows (fun _ _ hg h => h.grows hg)
    refine Obeys.bind_throwIf (fun _ => Obeys.bind_query hP (fun conflict => Obeys.bind_throwIf (fun _ => ?_)))
    refine Obeys.bind_query hP (fun existing => Obeys.bind_throwIf (fun _ => Obeys.bind_query hP (fun now => ?_)))
    cases existing with
    | some row =>
      refine Obeys.bind (Q := fun _ _ => True) (fun changes => ?_) (Obeys.perform (fun _ _ _ => trivial) (fun _ => .true)
        (fun _ _ _ _ _ => trivial))
      exact Obeys.bind_throwIf (fun _ => Obeys.throwIf (fun _ _ _ _ => trivial))
    | none =>
      refine Obeys.bind_input hP (fun x => ?_)
      exact Obeys.bind (Q := fun _ _ => True) (fun committed => Obeys.throwIf (fun _ _ _ _ => trivial))
        (Obeys.perform (fun _ _ hs => hs) (fun _ => .true) (fun _ _ _ _ _ => trivial))

/-! ## What accounts are shown -/

/-- An assignment of the task was read. -/
def Held (s : Store) (taskVersionId : Text) (assignment : Assignment) : Prop :=
  assignment.taskVersionId = taskVersionId ∧ ∃ a ∈ s.assignments, AssignmentGrows assignment a

theorem Held.stable (taskVersionId : Text) (assignment : Assignment) :
    portal.Stable (fun s => Held s taskVersionId assignment) :=
  stable_of_grows (fun s s' hg h => by
    obtain ⟨htask, a, ha, haa⟩ := h
    obtain ⟨a', ha', haa'⟩ := hg.assignments a ha
    exact ⟨htask, a', ha', haa.trans _ _ _ haa'⟩)

theorem Held.presents {s : Store} {taskVersionId roundId userId : Text} {assignment : Assignment} {rows : List Submission}
    (h : Held s taskVersionId assignment) (hrole : assignment.role.isIndependent = false)
    (hrows : AllStand s taskVersionId roundId rows) :
    s.Presents ⟨userId, rows.map Submission.receiptId, some assignment.id⟩ := by
  intro receiptId hreceipt
  obtain ⟨p, hp, rfl⟩ := List.mem_map.1 hreceipt
  obtain ⟨⟨p', hp', hpp⟩, htask, -⟩ := hrows p hp
  obtain ⟨hassigned, a, ha, haa⟩ := h
  refine ⟨p', hp', ?_, a, ha, haa.id, ?_, haa.role ▸ hrole⟩
  · rw [hpp]
  · rw [hpp, haa.task, hassigned]
    exact htask.symm

theorem repositoryTaskPayload_obeys (userId : Text) (context : RepositoryTaskContext) (assignment : Assignment) :
    (repositoryTaskPayload userId context assignment).Obeys portal (fun s => Held s context.taskVersionId assignment)
      (fun _ _ => True) := by
  have hrows : ∀ rows, portal.Stable (fun s => AllStand s context.taskVersionId context.roundId rows) :=
    fun rows => stable_of_grows (fun _ _ hg h => h.grows hg)
  unfold repositoryTaskPayload
  split
  · rename_i hrole
    refine Obeys.bind_read (Held.stable _ assignment)
      (fun rows s => AllStand s context.taskVersionId context.roundId rows) hrows (fun s _ _ p hp => ?_)
      (fun rows => Obeys.bind_throwIf (fun _ => ?_))
    · obtain ⟨hmem, htask, hround, -⟩ := mem_independent hp
      exact ⟨⟨p, hmem, rfl⟩, htask, hround⟩
    · exact Obeys.perform (fun s _ hs => hs.1.presents (by rw [hrole]; rfl) hs.2) (fun _ => .true)
        (fun _ _ _ _ _ => trivial)
  · rename_i hrole
    refine Obeys.bind_read (Held.stable _ assignment)
      (fun row s => AllStand s context.taskVersionId context.roundId row.toList) (fun row => hrows row.toList)
      (fun s _ _ p hp => ?_) (fun row => ?_)
    · obtain ⟨hmem, htask, hround, -⟩ := mem_submissionsOf (List.mem_of_getLast? (Option.mem_toList.1 hp))
      exact ⟨⟨p, hmem, rfl⟩, htask, hround⟩
    · cases row with
      | none => trivial
      | some row =>
        refine Obeys.perform (fun s _ hs => ?_) (fun _ => .true) (fun _ _ _ _ _ => trivial)
        have hrows : AllStand s context.taskVersionId context.roundId [row] := hs.2
        exact hs.1.presents (by rw [hrole]; rfl) hrows
  · exact Obeys.perform (fun s _ _ => nofun) (fun _ => .true) (fun _ _ _ _ _ => trivial)

theorem claimNewAssignment_obeys (account : Account) (emailHash : Text) (context : RepositoryTaskContext) (now : Nat) :
    (claimNewAssignment account emailHash context now).Obeys portal
      (fun s => s.HasFamily context.taskVersionId context.holdoutId)
      (fun assignment s => Held s context.taskVersionId assignment) := by
  have hP : portal.Stable (fun s => s.HasFamily context.taskVersionId context.holdoutId) :=
    stable_of_grows (fun _ _ hg h => h.grows hg)
  refine Obeys.bind_throwIf (fun _ => Obeys.bind_query hP (fun occupied => ?_))
  dsimp only
  split
  · trivial
  · rename_i role hrole
    refine Obeys.bind_input hP (fun x => ?_)
    refine Obeys.bind_perform hP (fun committed s => committed = true →
        Held s context.taskVersionId (context.assignment x.uuid.1 role emailHash (some account.userId) .claimed now))
      (fun committed => fun x w s hi hf h hc => Held.stable _ _ x w s hi hf (h hc)) (fun s _ hs => hs) ?_
      (fun committed => Obeys.bind_throwIf (fun hcommitted => ?_))
    · intro y s hi hs hf hc
      obtain ⟨-, hnot⟩ | ⟨s', happly, -, hexec, -⟩ := (Write.insertAssignment (context.assignment x.uuid.1 role emailHash
        (some account.userId) .claimed now)).exec_cases y s
      · exact absurd (hnot.symm.trans hc) (by simp)
      · refine ⟨rfl, _, ?_, .refl _⟩
        show _ ∈ (Write.exec y _ s).assignments
        rw [hexec, ← Option.some.inj happly]
        exact List.mem_append_right _ (List.mem_singleton.2 rfl)
    · refine Obeys.bind_read (P := fun s => Held s context.taskVersionId
          (context.assignment x.uuid.1 role emailHash (some account.userId) .claimed now)) (Held.stable _ _)
        (fun found s => ∀ a, found = some a → Held s context.taskVersionId a) (fun found => ?_) (fun s hi hs a ha => ?_)
        (fun found => ?_) |>.weaken (fun s _ hs => hs.2 (by simpa using hcommitted))
      · exact fun x w s hi hf h a ha => Held.stable _ a x w s hi hf (h a ha)
      · obtain ⟨hmem, hid⟩ := Table.lookup_some ha
        obtain ⟨-, b, hb, hbb⟩ := hs
        obtain rfl := hi.keys.assignment.assignments.eq_of_key hmem hb (hid.trans hbb.id.symm)
        exact ⟨hbb.task, a, hmem, .refl a⟩
      · cases found with
        | none => trivial
        | some a => exact fun s _ hs => hs.2 a rfl

theorem takeAssignment_obeys (account : Account) (taskVersionId : Text) (assignment : Assignment) :
    (takeAssignment account assignment).Obeys portal (fun s => Held s taskVersionId assignment)
      (fun taken s => Held s taskVersionId taken) := by
  refine Obeys.bind_perform (Held.stable _ assignment) (fun _ _ => True) (fun _ => .true) (fun _ _ _ => trivial)
    (fun _ _ _ _ _ => trivial) (fun changes => Obeys.bind_throwIf (fun _ => Obeys.bind_throwIf (fun _ => ?_)))
  rintro s _ ⟨⟨htask, a, ha, haa⟩, -⟩
  exact ⟨htask, a, ha, haa.id, haa.task, haa.round, haa.holdout, haa.role⟩

theorem claimRepositoryTask_obeys (account : Account) (taskVersionId : Text) :
    (claimRepositoryTask account taskVersionId).Obeys portal (fun _ => True) (fun _ _ => True) := by
  unfold claimRepositoryTask
  split
  · trivial
  rename_i emailHash hverified
  refine Obeys.bind_read .true (fun found s => InFamily s found) (fun found => InFamily.stable found)
    (fun s _ _ => repositoryTaskContext_inFamily s taskVersionId) (fun found => ?_)
  cases hcontext : found.filter RepositoryTaskContext.isActive with
  | none => trivial
  | some context =>
    obtain ⟨rfl, -⟩ := Option.filter_eq_some_iff.1 hcontext
    refine Obeys.weaken (P := fun s => s.HasFamily context.taskVersionId context.holdoutId) ?_
      (fun s _ hs => hs.2 context rfl)
    have hP : portal.Stable (fun s => s.HasFamily context.taskVersionId context.holdoutId) :=
      stable_of_grows (fun _ _ hg h => h.grows hg)
    refine Obeys.bind_throwIf (fun _ => Obeys.bind_throwIf (fun _ => ?_))
    refine Obeys.bind_read hP (fun rows s => ∀ a ∈ rows, Held s context.taskVersionId a)
      (fun rows x w s hi hf h a ha => Held.stable _ a x w s hi hf (h a ha)) (fun s _ _ a ha => ?_) (fun rows => ?_)
    · have hrow := (List.mem_insertionSort _).1 (List.mem_of_mem_take ha)
      obtain ⟨hmem, hkeys⟩ := List.mem_filter.1 hrow
      simp only [Bool.and_eq_true, decide_eq_true_eq] at hkeys
      exact ⟨hkeys.1.1.1, a, hmem, .refl a⟩
    · have hheld : portal.Stable (fun s => s.HasFamily context.taskVersionId context.holdoutId ∧
          ∀ a ∈ rows, Held s context.taskVersionId a) :=
        hP.and (fun x w s hi hf h a ha => Held.stable _ a x w s hi hf (h a ha))
      refine Obeys.bind_throwIf (fun _ => Obeys.bind_query hheld (fun conflict => Obeys.bind_throwIf (fun _ => ?_)))
      refine Obeys.bind_query hheld (fun now => ?_)
      cases hhead : rows.head? with
      | none =>
        exact Obeys.bind (fun assignment => repositoryTaskPayload_obeys account.userId context assignment)
          ((claimNewAssignment_obeys account emailHash context now).weaken (fun _ _ hs => hs.1))
      | some assignment =>
        have hmem : assignment ∈ rows := List.mem_of_head? hhead
        dsimp only
        split
        · exact Obeys.bind (fun taken => repositoryTaskPayload_obeys account.userId context taken)
            ((takeAssignment_obeys account context.taskVersionId assignment).weaken (fun _ _ hs => hs.2 assignment hmem))
        · exact (repositoryTaskPayload_obeys account.userId context assignment).weaken
            (fun _ _ hs => hs.2 assignment hmem)

theorem loadRepositoryTask_obeys (account : Account) (taskVersionId : Text) :
    (loadRepositoryTask account taskVersionId).Obeys portal (fun _ => True) (fun _ _ => True) := by
  refine Obeys.bind_query .true (fun found => ?_)
  cases hcontext : found.filter RepositoryTaskContext.isActive with
  | none => trivial
  | some context =>
    refine Obeys.bind_throwIf (fun _ => ?_)
    refine Obeys.bind_read .true (fun found s => ∀ a, found = some a → Held s context.taskVersionId a)
      (fun found x w s hi hf h a ha => Held.stable _ a x w s hi hf (h a ha)) (fun s _ _ a ha => ?_) (fun found => ?_)
    · have hkeys := List.find?_some ha
      simp only [Bool.and_eq_true, decide_eq_true_eq] at hkeys
      exact ⟨hkeys.1.1.1, a, List.mem_of_find?_eq_some ha, .refl a⟩
    · cases found with
      | none => trivial
      | some assignment =>
        exact (repositoryTaskPayload_obeys account.userId context assignment).weaken (fun _ _ hs => hs.2 assignment rfl)

theorem getCompletedResults_obeys (account : Account) (receiptId : Text) :
    (getCompletedResults account receiptId).Obeys portal (fun _ => True) (fun _ _ => True) := by
  refine Obeys.bind_throwIf (fun _ => ?_)
  refine Obeys.bind_read .true (fun found s => ∀ p, found = some p → s.Stands p ∧ p.userId = account.userId)
    (fun found => stable_of_grows (fun _ _ hg h p hp => ⟨(h p hp).1.grows hg, (h p hp).2⟩)) (fun s _ _ p hp => ?_)
    (fun found => ?_)
  · have hkeys := List.find?_some hp
    simp only [Bool.and_eq_true, decide_eq_true_eq] at hkeys
    exact ⟨⟨p, List.mem_of_find?_eq_some hp, rfl⟩, hkeys.2⟩
  · cases found with
    | none => trivial
    | some source =>
      refine Obeys.weaken (P := fun s => s.Stands source ∧ source.userId = account.userId) ?_ (fun s _ hs => hs.2 source rfl)
      have hP : portal.Stable (fun s => s.Stands source ∧ source.userId = account.userId) :=
        stable_of_grows (fun _ _ hg h => ⟨h.1.grows hg, h.2⟩)
      refine Obeys.bind_perform hP (fun _ _ => True) (fun _ => .true) (fun _ _ _ => trivial) (fun _ _ _ _ _ => trivial)
        (fun _ => ?_)
      refine Obeys.bind_read (hP.and .true) (fun rows s => AllStand s source.taskVersionId source.roundId rows)
        (fun rows => stable_of_grows (fun _ _ hg h => h.grows hg)) (fun s _ _ p hp => ?_) (fun rows => ?_)
      · obtain ⟨hmem, hkeys⟩ := List.mem_filter.1 (List.mem_of_mem_take hp)
        simp only [Bool.and_eq_true, decide_eq_true_eq] at hkeys
        exact ⟨⟨p, hmem, rfl⟩, hkeys.1.1, hkeys.1.2⟩
      · refine Obeys.perform (fun s _ hs => ?_) (fun _ => .true) (fun _ _ _ _ _ => trivial)
        intro id hid
        obtain ⟨p, hp, rfl⟩ := List.mem_map.1 hid
        obtain ⟨⟨p', hp', hpp⟩, htask, -⟩ := hs.2 p hp
        obtain ⟨⟨q, hq, hqq⟩, huser⟩ := hs.1.1
        refine ⟨p', hp', ?_, q, hq, ?_, ?_⟩
        · rw [hpp]
        · rw [hqq]
          exact huser
        · rw [hqq, hpp]
          exact htask.symm

/-! ## `syncRepositoryTasks` -/

theorem Store.Prepared.grows {s s' : Store} {item : SyncItem} (hg : s.Grows s') (h : s.Prepared item) :
    s'.Prepared item := by
  unfold Store.Prepared at *
  split at h
  · exact h
  · obtain ⟨r, hr, htask⟩ := h
    obtain ⟨r', hr', hrr⟩ := hg.catalogue r hr
    exact ⟨r', hr', hrr.task.trans htask⟩

theorem prepareConsensusTaskRegistration_obeys (packet : Packet) (packetRoot : Digest) {P : Store → Prop}
    (hP : portal.Stable P) : (prepareConsensusTaskRegistration packet packetRoot).Obeys portal P (fun row s =>
      row = { taskVersionIdentity packet packetRoot with metricPolicyJson := packet.metricPolicy.text } ∧ P s) := by
  refine Obeys.bind_query hP (fun idBinding => obeys_ofExcept (fun isBound _ => Obeys.bind_throwIf (fun _ => ?_)))
  exact Obeys.bind_query hP (fun packetBinding => Obeys.bind_throwIf (fun _ _ _ hs => ⟨rfl, hs⟩))

theorem prepareSyncItem_obeys (env : Env) (repository : Str) (m : Manifest) :
    (prepareSyncItem env repository m).Obeys portal (fun _ => True) (fun item s => s.Prepared item) := by
  refine Obeys.bind_read .true (fun rows s => ∀ r ∈ rows, ∃ r' ∈ s.catalogue, CatalogueGrows r r')
    (fun rows => stable_of_grows (fun s s' hg h r hr => by
      obtain ⟨r', hr', hrr⟩ := h r hr
      obtain ⟨r'', hr'', hrr'⟩ := hg.catalogue r' hr'
      exact ⟨r'', hr'', hrr.trans _ _ _ hrr'⟩))
    (fun s _ _ r hr => ⟨r, (List.mem_filter.1 hr).1, .refl r⟩) (fun rows => ?_)
  refine Obeys.bind_throwIf (fun _ => Obeys.bind_throwIf (fun hsame => Obeys.bind_throwIf (fun hknown => ?_)))
  refine Obeys.bind_throwIf (fun _ => ?_)
  by_cases hactive : m.status = .active
  · simp only [hactive, if_true]
    refine Obeys.bind (fun row => ?_)
      ((prepareConsensusTaskRegistration_obeys m.packet _ (P := fun _ => True) .true).weaken (fun _ _ _ => trivial))
    intro s _ hs
    exact ⟨m.packet, _, hs.1, by rw [hs.1]; rfl, rfl⟩
  · simp only [hactive, if_false]
    intro s _ hs
    have hwithdrawn : m.status = .withdrawn := by
      cases hm : m.status with
      | active => exact absurd hm hactive
      | withdrawn => rfl
    cases hhead : rows.head? with
    | none => simp [hwithdrawn, hhead] at hknown
    | some r =>
      obtain ⟨r', hr', hrr⟩ := hs.2 r (List.mem_of_head? hhead)
      refine ⟨r', hr', hrr.task.trans ?_⟩
      simp only [hhead, Option.any_some, CatalogueRow.differs, Bool.or_eq_false_iff, decide_eq_false_iff_not,
        not_not] at hsame
      exact hsame.1.1.1.1.1.1

theorem prepareSyncItems_obeys (env : Env) (repository : Str) : ∀ manifests : List Manifest,
    (prepareSyncItems env repository manifests).Obeys portal (fun _ => True) (fun items s => ∀ item ∈ items, s.Prepared item)
  | [] => fun _ _ _ _ h => by cases h
  | m :: manifests => by
    have hprepared : ∀ item, portal.Stable (fun s => s.Prepared item) :=
      fun item => stable_of_grows (fun _ _ hg h => h.grows hg)
    refine Obeys.bind (fun item => ?_) (prepareSyncItem_obeys env repository m)
    refine Obeys.bind (fun items => ?_)
      (((prepareSyncItems_obeys env repository manifests).frame (hprepared item)).weaken (fun _ _ hs => ⟨trivial, hs⟩))
    intro s _ hs item' hitem'
    rcases List.mem_cons.1 hitem' with rfl | hitem'
    · exact hs.2
    · exact hs.1 item' hitem'

theorem syncRepositoryTasks_obeys (env : Env) (envelope : SyncEnvelope) :
    (syncRepositoryTasks env envelope).Obeys portal (fun _ => True) (fun _ _ => True) := by
  refine Obeys.bind_query .true (fun seen => ?_)
  split
  · exact fun _ _ _ => trivial
  · split
    · trivial
    · refine Obeys.bind_query .true (fun now => ?_)
      refine Obeys.bind (fun items => ?_) (prepareSyncItems_obeys env envelope.repository envelope.tasks)
      refine Obeys.bind (Q := fun _ _ => True) (fun committed => Obeys.bind_throwIf (fun _ => ?_))
        (Obeys.perform (fun _ _ hs => hs) (fun _ => .true) (fun _ _ _ _ _ => trivial))
      refine Obeys.each (P := fun _ => True) (fun m _ => ?_)
      refine Obeys.bind (fun task => ?_) (assertConsensusTaskRegistration_obeys m.packet _)
      exact Obeys.throwIf (fun _ _ _ _ => trivial)

/-! ## Every request -/

/-- **Every handler runs its commands where their facts hold**, from any tables that are sound. -/
theorem handle_obeys (env : Env) (request : Request) :
    (handle env request).Obeys portal (fun _ => True) (fun _ _ => True) := by
  cases request with
  | submission account contribution => exact receiveSubmission_obeys env account contribution
  | reissue taskVersionId reason actor => exact reissueConsensusTask_obeys taskVersionId reason actor
  | appeal account finalReceiptId => exact createConsensusAppeal_obeys account finalReceiptId
  | review appealId accepts subjectHash => exact reviewConsensusAppeal_obeys appealId accepts subjectHash
  | repositoryReceipt row => exact receiveRepositoryReceipt_obeys row
  | evidenceReceipt row => exact acceptEvidenceRepositoryReceipt_obeys row
  | stateReceipt row => exact acceptTaskStateRepositoryReceipt_obeys row
  | evidenceClaim nonce maxItems => exact claimRepositoryEvidence_obeys nonce maxItems
  | assignment taskVersionId role emailHash user => exact assignRepositoryTask_obeys taskVersionId role emailHash user
  | claim account taskVersionId => exact claimRepositoryTask_obeys account taskVersionId
  | load account taskVersionId => exact loadRepositoryTask_obeys account taskVersionId
  | results account receiptId => exact getCompletedResults_obeys account receiptId
  | sync envelope => exact syncRepositoryTasks_obeys env envelope
  | evidenceOutbox => exact processEvidenceOutbox_obeys env
  | expiredRounds => exact processExpiredConsensusRounds_obeys env
  | publishableTasks => exact processPublishableTasks_obeys
  | clock time => exact Obeys.perform (fun _ _ _ => trivial) (fun _ => .true) (fun _ _ _ _ _ => trivial)

end Portal
end Adg
