import AdgLang.PortalRely
/-!
# PortalObeys — the handlers run their commands where they may

Each call of `consensus-store.js` and each handler of `index.js` obeys the discipline of the portal: one lemma per
function, with what is known of the tables before it and of its value after it.
-/
namespace Adg
namespace Portal

open Js Consensus

open Program (Obeys)

/-! ## The rules at the portal's accesses -/

section Rules

variable {α β : Type} {P : Store → Prop} {R : β → Store → Prop}

theorem obeys_pure {a : α} {Q : α → Store → Prop} (h : ∀ s, s.Sound → P s → Q a s) :
    (pure a : Call α).Obeys portal P Q := h

theorem obeys_throw {e : PortalError} {Q : α → Store → Prop} : (throw e : Call α).Obeys portal P Q := trivial

theorem obeys_required {o : Option α} {k : α → Call β} (hk : ∀ a, o = some a → (k a).Obeys portal P R) :
    ((required o).bind k).Obeys portal P R := by
  cases o with
  | none => trivial
  | some a => exact hk a rfl

theorem obeys_ofExcept {r : Except StoreError α} {k : α → Call β} (hk : ∀ a, r = .ok a → (k a).Obeys portal P R) :
    ((ofExcept r).bind k).Obeys portal P R := by
  cases r with
  | error e => trivial
  | ok a => exact hk a rfl

end Rules

/-! ## `consensus-store.js` -/

theorem task_found {s : Store} (h : s.Sound) (taskVersionId : Text) : s.Found taskVersionId (s.task taskVersionId) := by
  intro task htask
  obtain ⟨t, ht, rfl⟩ := Option.map_eq_some_iff.1 htask
  obtain ⟨hmem, hid⟩ := Table.lookup_some ht
  exact ⟨⟨⟨t, hmem, .refl t⟩, (h.tasks t hmem).backs⟩, hid, (h.tasks t hmem).logged⟩

theorem getConsensusTask_obeys (taskVersionId : Text) :
    (getConsensusTask taskVersionId).Obeys portal (fun _ => True) (fun found s => s.Found taskVersionId found) :=
  Obeys.read (fun _ => stable_of_grows (fun _ _ hg h => h.grows hg)) (fun _ hi _ => task_found hi taskVersionId)

/-- What `getCurrentConsensusRound` found. -/
def IsCurrent (s : Store) (task : TaskRow) (found : Option RoundRow) : Prop :=
  ∀ round, found = some round → s.IsRound round.id task.id task.currentRound ∧ round.roundNumber = task.currentRound

theorem getCurrentConsensusRound_obeys (task : TaskRow) :
    (getCurrentConsensusRound task).Obeys portal (fun _ => True) (fun found s => IsCurrent s task found) := by
  refine Obeys.read (fun _ => stable_of_grows (fun _ _ hg h round hr => ⟨(h round hr).1.grows hg, (h round hr).2⟩))
    (fun s _ _ round hround => ?_)
  have hmem : round ∈ s.rounds := List.mem_of_find?_eq_some hround
  have hkeys := List.find?_some hround
  simp only [Bool.and_eq_true, decide_eq_true_eq] at hkeys
  exact ⟨⟨round, hmem, rfl, hkeys.1, hkeys.2⟩, hkeys.2⟩

theorem transitionConsensusTask_obeys (task : TaskRow) (tr : Transition) :
    (transitionConsensusTask task tr).Obeys portal (fun s => s.Seen task ∧ s.Legit task tr)
      (fun found s => s.Found task.id found) := by
  have hP : portal.Stable (fun s => s.Seen task ∧ s.Legit task tr) :=
    stable_of_grows (fun _ _ hg h => ⟨h.1.grows hg, h.2.grows hg⟩)
  have hreread : (getConsensusTask task.id).Obeys portal (fun s => s.Seen task ∧ s.Legit task tr)
      (fun found s => s.Found task.id found) := (getConsensusTask_obeys task.id).weaken (fun _ _ _ => trivial)
  unfold transitionConsensusTask
  refine obeys_ofExcept (fun _ hok => ?_)
  have hallowed : tr.toState ∈ allowedTransitions task.state := by
    unfold assertConsensusTransition at hok
    split at hok
    · assumption
    · cases hok
  refine Obeys.bind_query hP (fun isLogged => ?_)
  cases isLogged with
  | true => exact hreread
  | false =>
    refine Obeys.bind (Q := fun _ s => s.Seen task ∧ s.Legit task tr) (fun changes => ?_)
      (Obeys.perform (fun s _ hs => ⟨hs.1, hallowed, hs.2⟩) (fun _ => hP)
        (fun x s hi hs hf => hP x (.transition task tr) s hi hf hs))
    cases changes with
    | none => trivial
    | some changes =>
      by_cases hone : changes = (1, 1)
      · simp only [hone, if_true]
        exact hreread
      · simp only [hone, if_false]
        exact Obeys.bind_query hP (fun _ => Obeys.bind_throwIf (fun _ => hreread))

theorem createReissuedRound_obeys (task : TaskRow) (reason : ReissueReason) (actor : Option Actor) :
    (createReissuedRound task reason actor).Obeys portal (fun s => s.Seen task) (fun found s => s.Found task.id found) := by
  have hseen : ∀ t : TaskRow, portal.Stable (fun s => s.Seen t) := fun t => stable_of_grows (fun _ _ hg h => h.grows hg)
  unfold createReissuedRound
  refine Obeys.bind_throwIf (fun hstate => ?_)
  have hleft : task.state = .escalated ∨ task.state = .revoked := or_iff_not_imp_left.2 (by simpa using hstate)
  refine Obeys.call (hseen task) (getCurrentConsensusRound_obeys task) (fun _ _ _ => trivial) (fun found => ?_)
  cases found with
  | none => trivial
  | some currentRound =>
    -- the round that is left is the one that the task's state speaks of
    have hspent : ∀ s, s.Sound → s.Seen task ∧ IsCurrent s task (some currentRound) →
        s.Seen task ∧ s.IsRound currentRound.id task.id task.currentRound ∧
          s.IsRound currentRound.id task.id currentRound.roundNumber ∧ s.Spent currentRound.id := by
      intro s hi hs
      obtain ⟨hround, hnumber⟩ := hs.2 currentRound rfl
      obtain ⟨rid, hrid, hspent⟩ := (Store.backs_escalated hleft).1 hs.1.2
      obtain ⟨rfl, -⟩ := hi.round_inj hrid hround (.inr ⟨rfl, rfl⟩)
      exact ⟨hs.1, hround, hnumber ▸ hround, hspent⟩
    refine Obeys.weaken ?_ hspent
    have hP : portal.Stable (fun s => s.Seen task ∧ s.IsRound currentRound.id task.id task.currentRound ∧
        s.IsRound currentRound.id task.id currentRound.roundNumber ∧ s.Spent currentRound.id) :=
      stable_of_grows (fun _ _ hg h => ⟨h.1.grows hg, h.2.1.grows hg, h.2.2.1.grows hg, h.2.2.2.grows hg⟩)
    refine Obeys.call hP (transitionConsensusTask_obeys task _)
      (fun s hi hs => ⟨hs.1, .reissue _ currentRound hs.2.1⟩) (fun found => obeys_required (fun reissued hfound => ?_))
    subst hfound
    refine Obeys.extract (c := reissued.id = task.id) (fun s _ hs => (hs.2 reissued rfl).2.1) (fun hid => ?_)
    refine Obeys.bind (Q := fun _ _ => True) (fun changes => ?_) (Obeys.perform
      (fun s _ hs => ⟨hid ▸ hs.1.2.2.1, hs.1.2.2.2⟩) (fun _ => .true) (fun _ _ _ _ _ => trivial))
    cases changes with
    | none => trivial
    | some changes =>
      refine Obeys.bind_throwIf (fun _ => ?_)
      refine Obeys.call .true (getConsensusTask_obeys reissued.id) (fun _ _ _ => trivial)
        (fun found => obeys_required (fun refreshed hfound => ?_))
      subst hfound
      refine Obeys.extract (c := refreshed.id = task.id) (fun s _ hs => ((hs.2 refreshed rfl).2.1).trans hid) (fun hid' => ?_)
      rw [← hid']
      exact (transitionConsensusTask_obeys refreshed.toTaskRow _).weaken
        (fun s _ hs => ⟨(hs.2 refreshed rfl).1, .openReview _ _⟩)

theorem ensureTaskStateEvidence_obeys (taskVersionId : Text) (task : Option Task) :
    (ensureTaskStateEvidence task).Obeys portal (fun s => s.Found taskVersionId task) (fun _ _ => True) := by
  cases task with
  | none => exact fun _ _ _ => trivial
  | some task =>
    have hfound : portal.Stable (fun s => s.Found taskVersionId (some task)) := stable_of_grows (fun _ _ hg h => h.grows hg)
    refine Obeys.bind_query hfound (fun found => ?_)
    cases found with
    | true => exact fun _ _ _ => trivial
    | false =>
      have hevent : ∀ event : Option EventRow, portal.Stable (fun s => ∀ e, event = some e →
          e ∈ s.events ∧ e.id = task.lastEventId) :=
        fun event => stable_of_grows (fun _ _ hg h e he => ⟨hg.events (h e he).1, (h e he).2⟩)
      refine Obeys.bind_read hfound (fun event s => ∀ e, event = some e → e ∈ s.events ∧ e.id = task.lastEventId) hevent
        (fun s _ _ e he => Table.lookup_some he) (fun event => ?_)
      have hP := hfound.and (hevent event)
      cases event with
      | none => exact fun _ _ _ => trivial
      | some event =>
        refine Obeys.bind_input hP (fun x => Obeys.bind_query hP (fun now => ?_))
        refine Obeys.perform (fun s hi hs => ?_) (fun _ => .true) (fun _ _ _ _ _ => trivial)
        obtain ⟨he, hid⟩ := hs.2 event rfl
        obtain ⟨⟨⟨t, ht, htt⟩, -⟩, -, e, he', hid', htask, hto⟩ := hs.1 task rfl
        obtain rfl := hi.keys.consensus.events.eq_of_key he he' (hid.trans hid'.symm)
        exact ⟨_, _, task, ⟨t, ht, htt.id⟩, event, he, hid, htask, hto, rfl⟩

/-! ## `reconcileConsensusTask` -/

theorem ignoreConflict_obeys (e : PortalError) : (ignoreConflict e).Obeys portal (fun _ => True) (fun _ _ => True) := by
  unfold ignoreConflict
  split
  · exact fun _ _ _ => trivial
  · trivial

theorem reissueAfter_obeys (task : Option Task) (taskVersionId : Text) (reason : ReissueReason) (actor : Option Actor) :
    (reissueAfter task reason actor).Obeys portal (fun s => s.Found taskVersionId task) (fun _ _ => True) := by
  have hP : portal.Stable (fun s => s.Found taskVersionId task) := stable_of_grows (fun _ _ hg h => h.grows hg)
  refine Obeys.call hP (ensureTaskStateEvidence_obeys taskVersionId task) (fun _ _ hs => hs) (fun _ => ?_)
  refine obeys_required (fun t ht => ?_)
  refine Obeys.bind (fun reissued => ?_)
    ((createReissuedRound_obeys t.toTaskRow reason actor).weaken (fun s _ hs => (hs.1 t ht).1))
  refine Obeys.bind (Q := fun _ _ => True) (fun _ => ?_) (ensureTaskStateEvidence_obeys t.id reissued)
  exact fun _ _ _ => trivial

/-- A submission that was read among the active ones of a round. -/
theorem mem_submissionsOf {s : Store} {taskVersionId roundId : Text} {role : Role} {p : Submission}
    (h : p ∈ s.submissionsOf taskVersionId roundId role) :
    p ∈ s.submissions ∧ p.taskVersionId = taskVersionId ∧ p.roundId = roundId ∧ p.role = role := by
  obtain ⟨hmem, hp⟩ := List.mem_filter.1 h
  simp only [Bool.and_eq_true, decide_eq_true_eq] at hp
  exact ⟨hmem, hp.1.1.1, hp.1.1.2, hp.1.2⟩

theorem mem_independent {s : Store} {taskVersionId roundId : Text} {p : Submission}
    (h : p ∈ s.independent taskVersionId roundId) :
    p ∈ s.submissions ∧ p.taskVersionId = taskVersionId ∧ p.roundId = roundId ∧ (p.role = .a ∨ p.role = .b) := by
  rcases List.mem_append.1 h with h | h
  · obtain ⟨hmem, htask, hround, hrole⟩ := mem_submissionsOf h
    exact ⟨hmem, htask, hround, .inl hrole⟩
  · obtain ⟨hmem, htask, hround, hrole⟩ := mem_submissionsOf h
    exact ⟨hmem, htask, hround, .inr hrole⟩

/-- Submissions of the round stand. -/
def AllStand (s : Store) (taskVersionId roundId : Text) (rows : List Submission) : Prop :=
  ∀ p ∈ rows, s.Stands p ∧ p.taskVersionId = taskVersionId ∧ p.roundId = roundId

theorem AllStand.grows {s s' : Store} {taskVersionId roundId : Text} {rows : List Submission} (hg : s.Grows s')
    (h : AllStand s taskVersionId roundId rows) : AllStand s' taskVersionId roundId rows :=
  fun p hp => ⟨(h p hp).1.grows hg, (h p hp).2⟩

theorem Store.Stands.filled {s : Store} {p : Submission} (h : s.Stands p) : s.Filled p.roundId p.role := by
  obtain ⟨p', hp', hpp⟩ := h
  refine ⟨p', hp', ?_⟩
  rw [hpp]
  exact ⟨rfl, rfl⟩

theorem releaseIndependentEvidence_obeys (taskVersionId roundId : Text) (a b : Submission) (ha : a.role = .a)
    (hb : b.role = .b) : (releaseIndependentEvidence taskVersionId roundId a.receiptId b.receiptId).Obeys portal
      (fun s => (s.Stands a ∧ a.roundId = roundId) ∧ s.Stands b ∧ b.roundId = roundId) (fun _ _ => True) := by
  have hstands : ∀ (s : Store) (p : Submission), s.Stands p → p.roundId = roundId →
      ∃ q ∈ s.submissions, q.receiptId = p.receiptId ∧ q.roundId = roundId ∧ q.role = p.role := by
    rintro s p ⟨q, hq, hpq⟩ hround
    refine ⟨q, hq, ?_⟩
    rw [hpq]
    exact ⟨rfl, hround, rfl⟩
  refine Obeys.bind (Q := fun _ _ => True) (fun _ => ?_) (Obeys.perform (fun s _ hs => ?_) (fun _ => .true)
    (fun _ _ _ _ _ => trivial))
  · exact Obeys.bind_query .true (fun _ => Obeys.throwIf (fun _ _ _ _ => trivial))
  · exact ⟨ha ▸ hstands s a hs.1.1 hs.1.2, hb ▸ hstands s b hs.2.1 hs.2.2⟩

/-- What is known where a task and its round were read. -/
def InRound (s : Store) (task : Task) (round : RoundRow) : Prop :=
  s.Seen task.toTaskRow ∧ s.IsRound round.id task.id task.currentRound

theorem InRound.stable (task : Task) (round : RoundRow) : portal.Stable (fun s => InRound s task round) :=
  stable_of_grows (fun _ _ hg h => ⟨h.1.grows hg, h.2.grows hg⟩)

theorem reconcileIndependentReview_obeys (env : Env) (task : Task) (round : RoundRow)
    (hstate : task.state = .independentReview) : (reconcileIndependentReview env task round).Obeys portal
      (fun s => InRound s task round) (fun _ _ => True) := by
  refine Obeys.bind_read (InRound.stable task round) (fun rows s => AllStand s task.id round.id rows)
    (fun rows => stable_of_grows (fun _ _ hg h => h.grows hg)) (fun s _ _ p hp => ?_) (fun rows => ?_)
  · obtain ⟨hmem, htask, hround, -⟩ := mem_independent hp
    exact ⟨⟨p, hmem, rfl⟩, htask, hround⟩
  by_cases hlength : rows.length = 2
  · simp only [hlength, if_true]
    refine obeys_required (fun a ha => obeys_required (fun b hb => ?_))
    have hP : portal.Stable (fun s => InRound s task round ∧ (s.Stands a ∧ a.roundId = round.id) ∧
        s.Stands b ∧ b.roundId = round.id) :=
      stable_of_grows (fun _ _ hg h => ⟨⟨h.1.1.grows hg, h.1.2.grows hg⟩, ⟨h.2.1.1.grows hg, h.2.1.2⟩,
        h.2.2.1.grows hg, h.2.2.2⟩)
    have hrolea : a.role = .a := by simpa using List.find?_some ha
    have hroleb : b.role = .b := by simpa using List.find?_some hb
    refine Obeys.weaken (P := fun s => InRound s task round ∧ (s.Stands a ∧ a.roundId = round.id) ∧
      s.Stands b ∧ b.roundId = round.id) ?_ (fun s _ hs => ?_)
    · refine Obeys.call hP (releaseIndependentEvidence_obeys task.id round.id a b hrolea hroleb) (fun _ _ hs => hs.2)
        (fun _ => ?_)
      split
      · refine obeys_required (fun passed _ => ?_)
        refine Obeys.bind (fun found => ensureTaskStateEvidence_obeys task.id found)
          ((transitionConsensusTask_obeys task.toTaskRow _).weaken (fun s _ hs => ⟨hs.1.1.1, ?_⟩))
        exact .quorum round a b passed hstate hs.1.1.2 (hs.1.2.1.2 ▸ hrolea ▸ hs.1.2.1.1.filled)
          (hs.1.2.2.2 ▸ hroleb ▸ hs.1.2.2.1.filled)
      · trivial
    · obtain ⟨hsa, -, hra⟩ := hs.2 a (List.mem_of_find?_eq_some ha)
      obtain ⟨hsb, -, hrb⟩ := hs.2 b (List.mem_of_find?_eq_some hb)
      exact ⟨hs.1, ⟨hsa, hra⟩, hsb, hrb⟩
  · simp only [hlength, if_false]
    exact fun _ _ _ => trivial

theorem reconcileDiscussion_obeys (task : Task) (round : RoundRow) (hstate : task.state = .discussion) :
    (reconcileDiscussion task round).Obeys portal (fun s => InRound s task round) (fun _ _ => True) := by
  refine Obeys.bind_read (InRound.stable task round) (fun row s => AllStand s task.id round.id row.toList)
    (fun rows => stable_of_grows (fun _ _ hg h => h.grows hg)) (fun s _ _ p hp => ?_) (fun row => ?_)
  · obtain ⟨hmem, htask, hround, -⟩ := mem_submissionsOf (List.mem_of_head? (Option.mem_toList.1 hp))
    exact ⟨⟨p, hmem, rfl⟩, htask, hround⟩
  have hP : portal.Stable (fun s => InRound s task round ∧ AllStand s task.id round.id row.toList) :=
    stable_of_grows (fun _ _ hg h => ⟨⟨h.1.1.grows hg, h.1.2.grows hg⟩, h.2.grows hg⟩)
  cases row with
  | none => exact fun _ _ _ => trivial
  | some primary =>
    dsimp only
    split
    · rename_i hart
      refine obeys_required (fun novelCount hnovel => ?_)
      refine Obeys.bind (fun found => ?_)
        ((transitionConsensusTask_obeys task.toTaskRow _).weaken (fun s _ hs => ⟨hs.1.1, ?_⟩))
      · by_cases hn : 0 < novelCount
        · simp only [hn, if_true]
          refine Obeys.bind (Q := fun _ _ => True) (fun _ => ?_) (reissueAfter_obeys found task.id _ none)
          exact fun _ _ _ => trivial
        · simp only [hn, if_false]
          exact ensureTaskStateEvidence_obeys task.id found
      · obtain ⟨hstands, -, hround⟩ := hs.2 primary (by simp)
        refine .proposal round primary novelCount hstate hs.1.2 hstands hround ?_
        rw [Submission.novelDecisions, hart]
        exact hnovel
    · trivial

theorem reconcileFinalReview_obeys (task : Task) (round : RoundRow) (hstate : task.state = .finalReview) :
    (reconcileFinalReview task round).Obeys portal (fun s => InRound s task round) (fun _ _ => True) := by
  refine Obeys.bind_read (InRound.stable task round) (fun row s => AllStand s task.id round.id row.toList)
    (fun rows => stable_of_grows (fun _ _ hg h => h.grows hg)) (fun s _ _ p hp => ?_) (fun row => ?_)
  · obtain ⟨hmem, htask, hround, -⟩ := mem_submissionsOf (List.mem_of_head? (Option.mem_toList.1 hp))
    exact ⟨⟨p, hmem, rfl⟩, htask, hround⟩
  have hP : portal.Stable (fun s => InRound s task round ∧ AllStand s task.id round.id row.toList) :=
    stable_of_grows (fun _ _ hg h => ⟨⟨h.1.1.grows hg, h.1.2.grows hg⟩, h.2.grows hg⟩)
  cases row with
  | none => exact fun _ _ _ => trivial
  | some secondary =>
    dsimp only
    split
    · rename_i decision primaryReceiptId root hart
      refine Obeys.bind_query hP (fun now => ?_)
      refine Obeys.call hP (transitionConsensusTask_obeys task.toTaskRow _) (fun s _ hs => ⟨hs.1.1, ?_⟩) (fun found => ?_)
      · obtain ⟨hstands, -, hround⟩ := hs.2 secondary (by simp)
        exact .ratification round secondary decision primaryReceiptId root now hstate hs.1.2 hstands hround hart
      · by_cases hd : decision = .agree
        · simp only [hd, if_true]
          have hfound : portal.Stable (fun s => s.Found task.id found) := stable_of_grows (fun _ _ hg h => h.grows hg)
          refine Obeys.bind (Q := fun _ s => s.Found task.id found) (fun _ => ?_) (Obeys.perform (fun s _ hs => ?_)
            (fun _ => hfound) (fun x s hi hs hf => hfound x _ s hi hf hs.2))
          · exact ensureTaskStateEvidence_obeys task.id found
          · obtain ⟨hstands, -, hround⟩ := hs.1.2 secondary (by simp)
            have hfilled := hstands.filled
            rw [hround, Submission.role, hart] at hfilled
            exact hfilled
        · simp only [hd, if_false]
          refine Obeys.bind (Q := fun _ _ => True) (fun _ => ?_)
            ((reissueAfter_obeys found task.id _ none).weaken (fun _ _ hs => hs.2))
          exact fun _ _ _ => trivial
    · trivial

theorem reconcileConsensusTask_obeys (env : Env) (taskVersionId : Text) :
    (reconcileConsensusTask env taskVersionId).Obeys portal (fun _ => True) (fun _ _ => True) := by
  refine Obeys.call .true (getConsensusTask_obeys taskVersionId) (fun _ _ _ => trivial) (fun found => ?_)
  cases found with
  | none => exact fun _ _ _ => trivial
  | some task =>
    have hP : portal.Stable (fun s => True ∧ s.Found taskVersionId (some task)) :=
      stable_of_grows (fun _ _ hg h => ⟨trivial, h.2.grows hg⟩)
    refine Obeys.call hP (getCurrentConsensusRound_obeys task.toTaskRow) (fun _ _ _ => trivial) (fun found => ?_)
    cases found with
    | none => exact fun _ _ _ => trivial
    | some round =>
      refine Obeys.bind (Q := fun _ _ => True) (fun _ => ?_) (Obeys.handle (F := fun _ => True) .true (fun e => ?_)
        (Obeys.weaken (P := fun s => InRound s task round) ?_ ?_) (fun _ _ _ => trivial))
      · exact (getConsensusTask_obeys taskVersionId).strengthen (fun _ _ _ _ => trivial)
      · exact ignoreConflict_obeys e
      · split
        · rename_i hstate
          exact reconcileIndependentReview_obeys env task round hstate
        · rename_i hstate
          exact reconcileDiscussion_obeys task round hstate
        · rename_i hstate
          exact reconcileFinalReview_obeys task round hstate
        · exact fun _ _ _ => trivial
      · exact fun s _ hs => ⟨(hs.1.2 task rfl).1, (hs.2 round rfl).1⟩

/-! ## `receiveSubmission` -/

/-- A task as its registration returned it. -/
structure Registered (s : Store) (identity : TaskIdentity) (task : Task) : Prop where
  seen : s.Seen task.toTaskRow
  id : task.id = identity.id
  family : s.HasFamily identity.id identity.holdoutId
  waiting : ∀ role : Role, task.state ∈ role.allowedStates → s.Waiting task.id task.currentRound role

theorem Registered.stable (identity : TaskIdentity) (task : Task) : portal.Stable (fun s => Registered s identity task) := by
  intro x w s hi hf h
  have hg := w.exec_grows x hi.keys
  exact ⟨h.seen.grows hg, h.id, h.family.grows hg,
    fun role hrole => stable_waiting task.id task.currentRound role x w s hi hf (h.waiting role hrole)⟩

theorem assertConsensusTaskRegistration_obeys (packet : Packet) (packetRoot : Digest) :
    (assertConsensusTaskRegistration packet packetRoot).Obeys portal (fun _ => True)
      (fun task s => Registered s (taskVersionIdentity packet packetRoot) task) := by
  have hread : ∀ s : Store, s.Sound → ∀ task, s.task (taskVersionIdentity packet packetRoot).id = some task →
      s.Seen task.toTaskRow ∧ task.id = (taskVersionIdentity packet packetRoot).id ∧
        ∀ role : Role, task.state ∈ role.allowedStates → s.Waiting task.id task.currentRound role := by
    intro s hi task htask
    obtain ⟨hseen, hid, -⟩ := task_found hi _ task htask
    obtain ⟨t, ht, rfl⟩ := Option.map_eq_some_iff.1 htask
    exact ⟨hseen, hid, fun role hrole => .inl ⟨t, (Table.lookup_some ht).1, rfl, rfl, hrole⟩⟩
  unfold assertConsensusTaskRegistration
  refine Obeys.bind (Q := fun found s => (∀ row, found.1 = some row → row ∈ s.evidence.rows ∧
      row.id = (taskVersionIdentity packet packetRoot).id) ∧ ∀ task, found.2 = some task → s.Seen task.toTaskRow ∧
        task.id = (taskVersionIdentity packet packetRoot).id ∧
        ∀ role : Role, task.state ∈ role.allowedStates → s.Waiting task.id task.currentRound role) (fun found => ?_)
    (Obeys.read (fun found => ?_) (fun s hi _ => ⟨fun row hrow => Table.lookup_some hrow, hread s hi⟩))
  · refine obeys_ofExcept (fun isBound hmatches => Obeys.bind_throwIf (fun hbound => ?_))
    obtain rfl : isBound = true := by simpa using hbound
    obtain ⟨found, task⟩ := found
    cases task with
    | none => trivial
    | some task =>
      intro s _ hs
      obtain ⟨row, hrow, hidentity, -⟩ := matches_found (fun row hrow => (hs.1 row hrow).2) hmatches
      obtain ⟨hseen, hid, hwaiting⟩ := hs.2 task rfl
      exact ⟨hseen, hid, ⟨row, (hs.1 row hrow).1, (hs.1 row hrow).2, congrArg TaskIdentity.holdoutId hidentity⟩, hwaiting⟩
  · intro x w s hi hf h
    have hg := w.exec_grows x hi.keys
    refine ⟨fun row hrow => ⟨hg.evidence (h.1 row hrow).1, (h.1 row hrow).2⟩, fun task htask => ?_⟩
    obtain ⟨hseen, hid, hwaiting⟩ := h.2 task htask
    exact ⟨hseen.grows hg, hid,
      fun role hrole => stable_waiting task.id task.currentRound role x w s hi hf (hwaiting role hrole)⟩

theorem ensureConsensusTask_obeys (packet : Packet) (packetRoot : Digest) (now : Nat) :
    (ensureConsensusTask packet packetRoot now).Obeys portal (fun _ => True)
      (fun task s => Registered s (taskVersionIdentity packet packetRoot) task) := by
  refine Obeys.bind (Q := fun _ _ => True) (fun row => ?_) ?_
  · refine Obeys.bind (Q := fun _ _ => True) (fun committed => ?_)
      (Obeys.perform (fun _ _ _ => trivial) (fun _ => .true) (fun _ _ _ _ _ => trivial))
    exact Obeys.bind_throwIf (fun _ => assertConsensusTaskRegistration_obeys packet packetRoot)
  · refine Obeys.bind_query .true (fun idBinding => obeys_ofExcept (fun isBound _ => Obeys.bind_throwIf (fun _ => ?_)))
    exact Obeys.bind_query .true (fun packetBinding => Obeys.bind_throwIf (fun _ _ _ _ => trivial))

/-- What `validateBinding` found, of every submission of the artifact in the round. -/
def Binds (s : Store) (artifact : Artifact) (taskVersionId roundId : Text) : Prop :=
  ∀ p : Submission, p.artifact = artifact → p.taskVersionId = taskVersionId → p.roundId = roundId → s.BindsTo p

theorem Binds.grows {s s' : Store} {artifact : Artifact} {taskVersionId roundId : Text} (hg : s.Grows s')
    (h : Binds s artifact taskVersionId roundId) : Binds s' artifact taskVersionId roundId :=
  fun p h1 h2 h3 => (h p h1 h2 h3).grows hg

theorem AllStand.rootStands {s : Store} {taskVersionId roundId : Text} {rows : List Submission} {root : AnnotationRoot}
    (h : AllStand s taskVersionId roundId rows)
    (hroot : some root ∈ rows.map (fun r => r.artifact.annotationRoot)) :
    ∃ p ∈ s.submissions, p.roundId = roundId ∧ p.artifact = .annotated root := by
  obtain ⟨r, hr, hr'⟩ := List.mem_map.1 hroot
  obtain ⟨⟨p, hp, hpp⟩, -, hround⟩ := h r hr
  refine ⟨p, hp, ?_⟩
  rw [hpp]
  refine ⟨hround, ?_⟩
  unfold Artifact.annotationRoot at hr'
  split at hr'
  · rename_i hart
    rw [hart, Option.some.inj hr']
  · cases hr'

theorem validateBinding_obeys (artifact : Artifact) (taskVersionId roundId : Text) :
    (validateBinding artifact taskVersionId roundId).Obeys portal (fun _ => True)
      (fun _ s => Binds s artifact taskVersionId roundId) := by
  cases artifact with
  | annotated root =>
    intro s _ _ p hart _ _
    simp only [Store.BindsTo, hart]
  | adjudication annotationA annotationB root novelDecisions =>
    refine Obeys.bind_read .true (fun rows s => AllStand s taskVersionId roundId rows)
      (fun rows => stable_of_grows (fun _ _ hg h => h.grows hg)) (fun s _ _ p hp => ?_) (fun rows => ?_)
    · obtain ⟨hmem, htask, hround, -⟩ := mem_independent hp
      exact ⟨⟨p, hmem, rfl⟩, htask, hround⟩
    refine Obeys.bind_throwIf (fun _ => ?_)
    refine Obeys.throwIf (fun hfound s _ hs p hart _ hround => ?_)
    simp only [Bool.or_eq_false_iff, List.any_cons, List.any_nil, Bool.or_false, Bool.not_eq_false',
      List.contains_iff_mem] at hfound
    simp only [Store.BindsTo, hart]
    rw [hround]
    exact ⟨hs.2.rootStands hfound.2.1, hs.2.rootStands hfound.2.2⟩
  | ratification decision primaryReceiptId root =>
    refine Obeys.bind_read .true (fun found s => ∀ f, found = some f →
        s.HasFinal primaryReceiptId taskVersionId roundId f.finalMerkleRoot)
      (fun found => stable_of_grows (fun _ _ hg h f hf => (h f hf).grows hg)) (fun s _ _ f hf => ?_) (fun found => ?_)
    · have hkeys := List.find?_some hf
      simp only [Bool.and_eq_true, decide_eq_true_eq] at hkeys
      exact ⟨f, List.mem_of_find?_eq_some hf, hkeys.1.1.1.1, hkeys.1.1.1.2, hkeys.1.1.2, rfl⟩
    refine Obeys.throwIf (fun hfound s _ hs p hart htask hround => ?_)
    cases found with
    | none => cases hfound
    | some f =>
      have hroot : f.finalMerkleRoot = root := by simpa using hfound
      simp only [Store.BindsTo, hart]
      rw [htask, hround, ← hroot]
      exact hs.2 f rfl

/-- What `requiredRepositoryTaskAssignment` found. -/
def Assigned (s : Store) (account : Account) (role : Role) (taskVersionId : Text) (round : Option RoundRow)
    (found : Option Assignment) : Prop :=
  ∀ a, found = some a → ∃ r, round = some r ∧ a.isOf taskVersionId r.id role = true ∧ a.admits account = true ∧
    ∃ a' ∈ s.assignments, AssignmentGrows a a'

theorem Assigned.grows {s s' : Store} {account : Account} {role : Role} {taskVersionId : Text} {round : Option RoundRow}
    {found : Option Assignment} (hg : s.Grows s') (h : Assigned s account role taskVersionId round found) :
    Assigned s' account role taskVersionId round found := by
  intro a ha
  obtain ⟨r, hr, hof, hadmits, a', ha', haa⟩ := h a ha
  obtain ⟨a'', ha'', haa'⟩ := hg.assignments a' ha'
  exact ⟨r, hr, hof, hadmits, a'', ha'', haa.trans _ _ _ haa'⟩

theorem requiredRepositoryTaskAssignment_obeys (account : Account) (role : Role) (taskVersionId : Text)
    (round : Option RoundRow) : (requiredRepositoryTaskAssignment account role taskVersionId round).Obeys portal
      (fun _ => True) (fun found s => Assigned s account role taskVersionId round found) := by
  refine Obeys.bind_query .true (fun catalog => ?_)
  cases catalog with
  | none => exact fun _ _ _ => nofun
  | some catalog =>
    refine Obeys.bind_throwIf (fun _ => obeys_required (fun r hr => ?_))
    refine Obeys.bind_read .true (fun found s => Assigned s account role taskVersionId round found)
      (fun found => stable_of_grows (fun _ _ hg h => h.grows hg)) (fun s _ _ a ha => ?_)
      (fun found => Obeys.bind_throwIf (fun _ _ _ hs => hs.2))
    have hkeys := List.find?_some ha
    simp only [Bool.and_eq_true] at hkeys
    exact ⟨r, hr, hkeys.1, hkeys.2, a, List.mem_of_find?_eq_some ha, .refl a⟩

/-- What `validateConsensusEligibility` found. -/
structure Eligible (s : Store) (artifact : Artifact) (taskVersionId : Text) (task : Task) (round : RoundRow) : Prop where
  isRound : s.IsRound round.id taskVersionId task.currentRound
  number : round.roundNumber = task.currentRound
  admitted : s.Admitted round.id artifact.consensusRole
  binds : Binds s artifact taskVersionId round.id

theorem Eligible.stable (artifact : Artifact) (taskVersionId : Text) (task : Task) (round : RoundRow) :
    portal.Stable (fun s => Eligible s artifact taskVersionId task round) := by
  intro x w s hi hf h
  have hg := w.exec_grows x hi.keys
  exact ⟨h.isRound.grows hg, h.number, stable_admitted _ _ x w s hi hf h.admitted, h.binds.grows hg⟩

/-- The round was read while its task was waiting for the role. -/
def MayAdmit (s : Store) (artifact : Artifact) (task : Task) (found : Option RoundRow) : Prop :=
  ∀ round, found = some round → (s.IsRound round.id task.id task.currentRound ∧ round.roundNumber = task.currentRound) ∧
    (round.status = .opened → task.state ∈ artifact.consensusRole.allowedStates →
      s.Admitted round.id artifact.consensusRole)

theorem MayAdmit.stable (artifact : Artifact) (task : Task) (found : Option RoundRow) :
    portal.Stable (fun s => MayAdmit s artifact task found) := by
  intro x w s hi hf h round hround
  have hg := w.exec_grows x hi.keys
  obtain ⟨⟨hisround, hnumber⟩, hadmits⟩ := h round hround
  exact ⟨⟨hisround.grows hg, hnumber⟩,
    fun hopened hstate => stable_admitted _ _ x w s hi hf (hadmits hopened hstate)⟩

/-- A task that waits for the role, and its round open: the round admits the role. -/
theorem Store.Waiting.admitted {s : Store} {task : Task} {role : Role} {round : RoundRow} (h : s.Sound)
    (hwaiting : s.Waiting task.id task.currentRound role) (hmem : round ∈ s.rounds) (htask : round.taskVersionId = task.id)
    (hnumber : round.roundNumber = task.currentRound) (hopened : round.status = .opened) : s.Admitted round.id role := by
  obtain ⟨t, ht, hid, hround, hstate⟩ | ⟨rid, hisround, hsettled⟩ := hwaiting
  · exact .inl ⟨t, ht, round, hmem, rfl, htask.trans hid.symm, hnumber.trans hround.symm, hopened, hstate⟩
  · obtain ⟨rfl, -⟩ := h.round_inj hisround ⟨round, hmem, rfl, htask, hnumber⟩ (.inr ⟨rfl, rfl⟩)
    exact .inr hsettled

theorem currentRound_mayAdmit (artifact : Artifact) (task : Task) {identity : TaskIdentity} :
    (getCurrentConsensusRound task.toTaskRow).Obeys portal (fun s => Registered s identity task)
      (fun found s => MayAdmit s artifact task found) := by
  refine Obeys.read (fun found => MayAdmit.stable artifact task found) (fun s hi hs round hround => ?_)
  have hmem : round ∈ s.rounds := List.mem_of_find?_eq_some hround
  have hkeys := List.find?_some hround
  simp only [Bool.and_eq_true, decide_eq_true_eq] at hkeys
  exact ⟨⟨⟨round, hmem, rfl, hkeys.1, hkeys.2⟩, hkeys.2⟩,
    fun hopened hstate => (hs.waiting _ hstate).admitted hi hmem hkeys.1 hkeys.2 hopened⟩

theorem validateConsensusEligibility_obeys (account : Account) (artifact : Artifact) (holdoutId : Str) (task : Task)
    (found : Option RoundRow) : (validateConsensusEligibility account artifact holdoutId task found).Obeys portal
      (fun s => MayAdmit s artifact task found)
      (fun round s => found = some round ∧ Eligible s artifact task.id task round) := by
  cases found with
  | none => trivial
  | some round =>
    refine Obeys.bind_throwIf (fun hopened => Obeys.bind_throwIf (fun hstate => ?_))
    refine Obeys.bind_query (MayAdmit.stable artifact task (some round)) (fun existing => Obeys.bind_throwIf (fun _ => ?_))
    refine Obeys.bind_query (MayAdmit.stable artifact task (some round)) (fun occupied => Obeys.bind_throwIf (fun _ => ?_))
    refine Obeys.call (MayAdmit.stable artifact task (some round)) (validateBinding_obeys artifact task.id round.id)
      (fun _ _ _ => trivial) (fun _ s _ hs => ?_)
    obtain ⟨⟨hisround, hnumber⟩, hadmits⟩ := hs.1 round rfl
    exact ⟨rfl, hisround, hnumber, hadmits (by simpa using hopened) (by simpa using hstate), hs.2⟩

/-- What is known where a submission's batch is run. -/
structure Ready (s : Store) (account : Account) (artifact : Artifact) (identity : TaskIdentity) (task : Task)
    (round : RoundRow) (assignment : Option Assignment) : Prop where
  registered : Registered s identity task
  assigned : Assigned s account artifact.consensusRole task.id (some round) assignment
  eligible : Eligible s artifact task.id task round

theorem Ready.stable (account : Account) (artifact : Artifact) (identity : TaskIdentity) (task : Task)
    (round : RoundRow) (assignment : Option Assignment) :
    portal.Stable (fun s => Ready s account artifact identity task round assignment) := by
  intro x w s hi hf h
  exact ⟨Registered.stable identity task x w s hi hf h.registered, h.assigned.grows (w.exec_grows x hi.keys),
    Eligible.stable artifact task.id task round x w s hi hf h.eligible⟩

/-- **A submission is checked against all that its batch relies on.** -/
theorem Ready.admits {s : Store} {account : Account} {artifact : Artifact} {identity : TaskIdentity} {task : Task}
    {round : RoundRow} {assignment : Option Assignment} (h : Ready s account artifact identity task round assignment)
    (receiptId participationId deliveryId : Text) (receivedAt : Nat) :
    s.Admits (submitBatch receiptId participationId deliveryId receivedAt account artifact identity task.id round
      assignment) where
  user := rfl
  active := rfl
  round := by
    show s.IsRound round.id task.id round.roundNumber
    rw [h.eligible.number]
    exact h.eligible.isRound
  reached := by
    obtain ⟨⟨t, ht, htt⟩, -⟩ := h.registered.seen
    refine ⟨t, ht, htt.id, ?_⟩
    show round.roundNumber ≤ t.currentRound
    rw [h.eligible.number]
    exact htt.round
  family := by
    show s.HasFamily task.id identity.holdoutId
    rw [h.registered.id]
    exact h.registered.family
  admitted := h.eligible.admitted
  bound := h.eligible.binds _ rfl rfl rfl
  delivery := ⟨deliveryId, receivedAt, rfl⟩
  assignment a ha := by
    obtain ⟨r, hr, hof, hadmits, hmem⟩ := h.assigned a ha
    obtain rfl := Option.some.inj hr
    exact ⟨hof, hadmits, hmem⟩

theorem answerConflict_obeys {α : Type} (e : PortalError) {P : Store → Prop} {Q : α → Store → Prop} :
    (answerConflict e : Call α).Obeys portal P Q := by
  unfold answerConflict
  split <;> trivial

theorem receiveSubmission_obeys (env : Env) (account : Account) (c : Contribution) :
    (receiveSubmission env account c).Obeys portal (fun _ => True) (fun _ _ => True) := by
  unfold receiveSubmission
  refine Obeys.bind_throwIf (fun _ => Obeys.bind_throwIf (fun _ => ?_))
  refine Obeys.bind_query .true (fun _ => Obeys.bind_throwIf (fun _ => ?_))
  refine Obeys.bind_query .true (fun _ => Obeys.bind_throwIf (fun _ => ?_))
  refine Obeys.bind_throwIf (fun _ => Obeys.bind_throwIf (fun _ => ?_))
  refine Obeys.bind_query .true (fun _ => Obeys.bind_throwIf (fun _ => ?_))
  refine Obeys.bind_query .true (fun _ => Obeys.bind_throwIf (fun _ => Obeys.bind_query .true (fun now => ?_)))
  refine Obeys.bind (fun task => ?_) (Obeys.handle .true (fun e => answerConflict_obeys e)
    (ensureConsensusTask_obeys c.packet _ now) (fun _ _ _ => trivial))
  refine Obeys.call (Registered.stable _ task) (currentRound_mayAdmit c.artifact task) (fun _ _ hs => hs) (fun found => ?_)
  have hmay := (Registered.stable (taskVersionIdentity c.packet (env.computePacketMerkleRoot c.packet)) task).and
    (MayAdmit.stable c.artifact task found)
  refine Obeys.call hmay (requiredRepositoryTaskAssignment_obeys account _ task.id found) (fun _ _ _ => trivial)
    (fun assignment => ?_)
  refine Obeys.call (hmay.and (stable_of_grows (fun _ _ hg h => h.grows hg)))
    (validateConsensusEligibility_obeys account c.artifact _ task found) (fun _ _ hs => hs.1.2) (fun round => ?_)
  refine Obeys.weaken (P := fun s => Ready s account c.artifact
    (taskVersionIdentity c.packet (env.computePacketMerkleRoot c.packet)) task round assignment) ?_ ?_
  · have hready := Ready.stable account c.artifact
      (taskVersionIdentity c.packet (env.computePacketMerkleRoot c.packet)) task round assignment
    refine Obeys.bind_input hready (fun receipt => Obeys.bind_input hready (fun delivery => ?_))
    refine Obeys.bind_input hready (fun participation => Obeys.bind_query hready (fun receivedAt => ?_))
    refine Obeys.bind_perform hready (fun _ _ => True) (fun _ => .true) (fun s _ hs => hs.admits _ _ _ _)
      (fun _ _ _ _ _ => trivial) (fun report => ?_)
    cases report with
    | none => trivial
    | some isWhole =>
      refine Obeys.bind_throwIf (fun _ => ?_)
      have hrest : ∀ {P : Store → Prop}, ((reconcileConsensusTask env task.id).bind (fun _ => pure ())).Obeys portal P
          (fun _ _ => True) := by
        intro P
        refine Obeys.bind (Q := fun _ _ => True) (fun _ => ?_)
          ((reconcileConsensusTask_obeys env task.id).weaken (fun _ _ _ => trivial))
        exact fun _ _ _ => trivial
      by_cases hopens : (c.artifact.consensusRole.isIndependent && decide (task.state = .opened)) = true
      · simp only [hopens, if_true]
        refine Obeys.bind (Q := fun _ _ => True) (fun _ => hrest) (Obeys.handle (F := fun _ => True) .true
          ignoreConflict_obeys ?_ (fun _ _ _ => trivial))
        have hopened : task.state = .opened := by simpa using (Bool.and_eq_true_iff.1 hopens).2
        refine Obeys.bind (fun moved => ensureTaskStateEvidence_obeys task.id moved)
          ((transitionConsensusTask_obeys task.toTaskRow _).weaken (fun s _ hs => ⟨hs.1.registered.seen, ?_⟩))
        exact .openIndependent account.userId round hopened
      · simp only [hopens]
        exact hrest
  · rintro s hi ⟨⟨⟨hregistered, -⟩, hassigned⟩, rfl, heligible⟩
    exact ⟨hregistered, hassigned, heligible⟩

end Portal
end Adg
