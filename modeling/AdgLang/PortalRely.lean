import AdgLang.PortalInvariant
/-!
# PortalRely — what a handler may rely on between two statements

The discipline of the portal (`portal`): a command is run where its fact holds, and the tables stay sound.  Whatever the
commands of the others do, they take back no fact that grows with the tables (`stable_of_grows`), and a round that
admitted a role goes on doing so until its deadline is handled or the role is filled (`stable_admitted`).
-/
namespace Adg
namespace Portal

open Js Consensus

/-- The discipline that the handlers obey. -/
def portal : Discipline Outside Write Store where
  exec := Write.exec
  Fact := Write.Fact
  Inv := Store.Sound
  keeps := Write.keeps

theorem stable_of_grows {P : Store → Prop} (h : ∀ s s', s.Grows s' → P s → P s') : portal.Stable P :=
  fun x w s hi _ hp => h s _ (w.exec_grows x hi.keys) hp

/-! ## Facts that grow -/

/-- The grounds of a transition stay. -/
theorem Store.Legit.grows {s s' : Store} {task : TaskRow} {tr : Transition} (hg : s.Grows s') (h : s.Legit task tr) :
    s'.Legit task tr := by
  cases h with
  | openIndependent userId round hstate => exact .openIndependent userId round hstate
  | quorum round a b passed hstate hround ha hb =>
    exact .quorum round a b passed hstate (hround.grows hg) (ha.grows hg) (hb.grows hg)
  | proposal round primary novelCount hstate hround hstands hprimary hnovel =>
    exact .proposal round primary novelCount hstate (hround.grows hg) (hstands.grows hg) hprimary hnovel
  | ratification round secondary decision primaryReceiptId root now hstate hround hstands hsecondary hartifact =>
    exact .ratification round secondary decision primaryReceiptId root now hstate (hround.grows hg) (hstands.grows hg)
      hsecondary hartifact
  | expiry round hround => exact .expiry round (hround.grows hg)
  | appealEscalation appeal subjectHash hstate haccepted htask hrevoked =>
    exact .appealEscalation appeal subjectHash hstate (haccepted.grows hg) htask (hrevoked.grows hg)
  | reissue call currentRound hround => exact .reissue call currentRound (hround.grows hg)
  | openReview call reissued => exact .openReview call reissued
  | publication taskVersionId final receipt guardAt hstate htask hstands hfinaltask hactive hfinal hreceipt hreceipttask
      hround hroot hguard =>
    obtain ⟨f, hf, hff⟩ := hstands
    obtain ⟨f', hf', hff'⟩ := hg.finals f hf
    exact .publication taskVersionId final receipt guardAt hstate htask ⟨f', hf', hff.trans _ _ _ hff'⟩ hfinaltask hactive
      hfinal (hg.receipts hreceipt) hreceipttask hround hroot (hguard.trans hg.clock)

/-- The last event of a task that was read. -/
def Store.Logged (s : Store) (task : TaskRow) : Prop :=
  ∃ e ∈ s.events, e.id = task.lastEventId ∧ e.taskVersionId = task.id ∧ e.toState = task.state

theorem Store.Logged.grows {s s' : Store} {task : TaskRow} (hg : s.Grows s') (h : s.Logged task) : s'.Logged task := by
  obtain ⟨e, he, heq⟩ := h
  exact ⟨e, hg.events he, heq⟩

/-- What `getConsensusTask` found. -/
def Store.Found (s : Store) (taskVersionId : Text) (found : Option Task) : Prop :=
  ∀ task, found = some task → s.Seen task.toTaskRow ∧ task.id = taskVersionId ∧ s.Logged task.toTaskRow

theorem Store.Found.grows {s s' : Store} {taskVersionId : Text} {found : Option Task} (hg : s.Grows s')
    (h : s.Found taskVersionId found) : s'.Found taskVersionId found :=
  fun task ht => ⟨(h task ht).1.grows hg, (h task ht).2.1, (h task ht).2.2.grows hg⟩

/-! ## A round that admits a role -/

/-- What registrations and the upserts of the catalogue keep, a sync keeps. -/
theorem syncItems_keep {P : Store → Prop} {now : Nat}
    (hregister : ∀ s s' row, s.register row now = some s' → P s → P s')
    (hupsert : ∀ s s' new, s.upsertCatalogue new = some s' → P s → P s') : ∀ {items : List SyncItem} {s s' : Store},
      items.foldlM (fun s item => Store.syncItem s now item) s = some s' → P s → P s'
  | [], s, s', hs, h => by
    obtain rfl := Option.some.inj hs
    exact h
  | item :: items, s, s', hs, h => by
    rw [List.foldlM_cons] at hs
    obtain ⟨s₁, h₁, h₂⟩ := Option.bind_eq_some_iff.1 hs
    refine syncItems_keep hregister hupsert h₂ ?_
    unfold Store.syncItem at h₁
    split at h₁
    · exact hupsert _ _ _ h₁ h
    · obtain ⟨s₂, h₃, h₄⟩ := Option.bind_eq_some_iff.1 h₁
      exact hupsert _ _ _ h₄ (hregister _ _ _ h₃ h)

theorem register_subset {s s' : Store} {row : EvidenceRow} {now : Nat} (h : s.register row now = some s') :
    s.tasks ⊆ s'.tasks ∧ s.rounds ⊆ s'.rounds := by
  rw [register_eq h]
  exact ⟨fun _ ht => subset_insertOrIgnore ht, fun _ hr => subset_insertOrIgnore hr⟩

theorem transition_rounds {s s' : Store} {uuid : Text} {task : TaskRow} {tr : Transition}
    (h : (Write.transition task tr).apply uuid s = some s') : s'.rounds = s.rounds := by
  obtain ⟨r, hr, rfl⟩ := Option.map_eq_some_iff.1 h
  simp only [transitionBatch] at hr
  split at hr
  · split at hr
    · obtain rfl := Option.some.inj hr
      rfl
    · cases hr
  · obtain rfl := Option.some.inj hr
    rfl

/-- Save for the batch that opens a round, only a transition changes a task and only a closing changes a round. -/
theorem Write.apply_subset {uuid : Text} {w : Write} {s s' : Store} (hopen : ∀ reason r t, w ≠ .openRound reason r t)
    (happly : w.apply uuid s = some s') :
    ((∀ task tr, w ≠ .transition task tr) → s.tasks ⊆ s'.tasks) ∧
      ((∀ id, w ≠ .closeRound id) → s.rounds ⊆ s'.rounds) := by
  cases w with
  | openRound reason r t => exact absurd rfl (hopen reason r t)
  | transition task tr =>
    rw [transition_rounds happly]
    exact ⟨fun h => absurd rfl (h task tr), fun _ => List.Subset.refl _⟩
  | closeRound id =>
    obtain rfl := Option.some.inj happly
    exact ⟨fun _ => List.Subset.refl _, fun h => absurd rfl (h id)⟩
  | register row now => exact ⟨fun _ => (register_subset happly).1, fun _ => (register_subset happly).2⟩
  | sync items row now =>
    obtain ⟨s₁, h₁, rfl⟩ := Option.map_eq_some_iff.1 happly
    have hregister : ∀ (s₁ s₂ : Store) row, s₁.register row now = some s₂ →
        s.tasks ⊆ s₁.tasks ∧ s.rounds ⊆ s₁.rounds → s.tasks ⊆ s₂.tasks ∧ s.rounds ⊆ s₂.rounds :=
      fun _ _ _ hr h => ⟨List.Subset.trans h.1 (register_subset hr).1, List.Subset.trans h.2 (register_subset hr).2⟩
    have hupsert : ∀ (s₁ s₂ : Store) new, s₁.upsertCatalogue new = some s₂ →
        s.tasks ⊆ s₁.tasks ∧ s.rounds ⊆ s₁.rounds → s.tasks ⊆ s₂.tasks ∧ s.rounds ⊆ s₂.rounds := by
      intro s₁ s₂ new hu h
      rw [upsertCatalogue_eq hu]
      exact h
    have hkept := syncItems_keep (P := fun s₁ => s.tasks ⊆ s₁.tasks ∧ s.rounds ⊆ s₁.rounds) hregister hupsert h₁
      ⟨List.Subset.refl _, List.Subset.refl _⟩
    exact ⟨fun _ => hkept.1, fun _ => hkept.2⟩
  | _ =>
    obtain rfl := Option.some.inj happly
    exact ⟨fun _ => List.Subset.refl _, fun _ => List.Subset.refl _⟩

/-- The task admits the role in its round `number`, or the role was filled or the deadline handled there. -/
def Store.Waiting (s : Store) (taskVersionId : Text) (number : Nat) (role : Role) : Prop :=
  (∃ t ∈ s.tasks, t.id = taskVersionId ∧ t.currentRound = number ∧ t.state ∈ role.allowedStates) ∨
    ∃ rid, s.IsRound rid taskVersionId number ∧ (s.Expired rid ∨ s.Filled rid role)

/-- A role is filled in the round that a transition of the task takes it out of, or the deadline of the round is handled. -/
theorem Moved.leaves {s s' : Store} {x : Outside} {task row : TaskRow} {tr : Transition} {role : Role}
    (hm : Moved s s' x task tr row) (h : s.Sound) (hfact : (Write.transition task tr).Fact s)
    (hrole : row.state ∈ role.allowedStates) : tr.toState ∈ role.allowedStates ∨
      ∃ rid, s'.IsRound rid row.id row.currentRound ∧ (s'.Expired rid ∨ s'.Filled rid role) := by
  obtain ⟨hseen, hallowed, hlegit⟩ := hfact
  obtain ⟨hid, hstate, hversion⟩ := Transition.guard_iff hm.guard
  obtain ⟨-, -, -, hround⟩ := hseen.current h hm.mem hid hversion
  rw [hstate] at hrole
  have hstays : task.state ≠ .reissued := by
    intro hr
    rw [hr] at hrole
    cases role <;> simp [Role.allowedStates] at hrole
  have hthere : ∀ rid, s.IsRound rid task.id task.currentRound → s'.IsRound rid row.id row.currentRound := by
    intro rid hrid
    rw [hid, hround hstays]
    exact hrid.grows hm.grows
  cases hlegit with
  | openIndependent userId round hopened =>
    rw [hopened] at hrole
    refine .inl ?_
    cases role <;> simp [Role.allowedStates, openIndependent] at hrole ⊢
  | quorum round a b passed hreview hisround ha hb =>
    rw [hreview] at hrole
    refine .inr ⟨round.id, hthere _ hisround, .inr ?_⟩
    cases role with
    | a => exact ha.grows hm.grows
    | b => exact hb.grows hm.grows
    | j1 => simp [Role.allowedStates] at hrole
    | j2 => simp [Role.allowedStates] at hrole
  | proposal round primary novelCount hdiscussion hisround hstands hprimary hnovel =>
    rw [hdiscussion] at hrole
    obtain ⟨p, hp, hpp⟩ := hstands.grows hm.grows
    have hj1 : role = .j1 := by cases role <;> simp [Role.allowedStates] at hrole ⊢
    refine .inr ⟨round.id, hthere _ hisround, .inr ⟨p, hp, ?_, ?_⟩⟩
    · rw [hpp]
      exact hprimary
    · rw [hj1, hpp]
      unfold Submission.novelDecisions at hnovel
      split at hnovel
      · rename_i hart
        simp [Submission.role, hart, Artifact.consensusRole]
      · cases hnovel
  | ratification round secondary decision primaryReceiptId root now hreview hisround hstands hsecondary hartifact =>
    rw [hreview] at hrole
    obtain ⟨q, hq, hqq⟩ := hstands.grows hm.grows
    have hj2 : role = .j2 := by cases role <;> simp [Role.allowedStates] at hrole ⊢
    refine .inr ⟨round.id, hthere _ hisround, .inr ⟨q, hq, ?_, ?_⟩⟩
    · rw [hqq]
      exact hsecondary
    · rw [hj2, hqq]
      simp [Submission.role, hartifact, Artifact.consensusRole]
  | expiry round hisround => exact .inr ⟨round.id, hthere _ hisround, .inl hm.hasKey⟩
  | appealEscalation appeal subjectHash happroved =>
    rw [happroved] at hrole
    cases role <;> simp [Role.allowedStates] at hrole
  | publication taskVersionId final receipt guardAt happroved =>
    rw [happroved] at hrole
    cases role <;> simp [Role.allowedStates] at hrole
  | reissue call currentRound hisround =>
    have hto : TaskState.reissued ∈ allowedTransitions task.state := hallowed
    cases htask : task.state <;> rw [htask] at hto hrole <;> simp [allowedTransitions] at hto <;>
      cases role <;> simp [Role.allowedStates] at hrole
  | openReview call reissued =>
    have hto : TaskState.independentReview ∈ allowedTransitions task.state := hallowed
    refine .inl ?_
    cases htask : task.state <;> rw [htask] at hto hrole <;> simp [allowedTransitions] at hto <;>
      cases role <;> simp [Role.allowedStates] at hrole <;> exact List.mem_of_elem_eq_true rfl

/-- A task that admits the role still does after a transition, unless its round was settled. -/
theorem Moved.waiting {s s' : Store} {x : Outside} {task row t : TaskRow} {tr : Transition} {role : Role}
    (hm : Moved s s' x task tr row) (h : s.Sound) (hfact : (Write.transition task tr).Fact s) (ht : t ∈ s.tasks)
    (hrole : t.state ∈ role.allowedStates) :
    (∃ t' ∈ s'.tasks, t'.id = t.id ∧ t'.currentRound = t.currentRound ∧ t'.state ∈ role.allowedStates) ∨
      ∃ rid, s'.IsRound rid t.id t.currentRound ∧ (s'.Expired rid ∨ s'.Filled rid role) := by
  by_cases hid : t.id = row.id
  · obtain rfl := h.keys.consensus.tasks.eq_of_key ht hm.mem hid
    obtain hstate | hsettled := hm.leaves h hfact hrole
    · exact .inl ⟨_, hm.mem_moved, rfl, rfl, hstate⟩
    · exact .inr hsettled
  · refine .inl ⟨t, ?_, rfl, rfl, hrole⟩
    rw [hm.tasks]
    refine Table.mem_update.2 ⟨t, ht, ?_⟩
    rw [if_neg (fun hg => hid ((Transition.guard_iff hg).1.trans (Transition.guard_iff hm.guard).1.symm))]

theorem openRound_tasks {s s' : Store} {reason : ReissueReason} {currentRound : RoundRow} {reissued t : TaskRow}
    (h : s.openRound reason currentRound reissued = some s') (ht : t ∈ s.tasks) (hstate : t.state ≠ .reissued) :
    t ∈ s'.tasks := by
  unfold Store.openRound at h
  split at h
  · obtain rfl := Option.some.inj h
    refine Table.mem_update.2 ⟨t, ht, ?_⟩
    rw [if_neg (fun hadvance => hstate (advanceGuard_iff.1 hadvance).2.1)]
  · cases h

theorem not_reissued {role : Role} {state : TaskState} (h : state ∈ role.allowedStates) : state ≠ .reissued := by
  rintro rfl
  cases role <;> simp [Role.allowedStates] at h

/-- A task that admits the role still does after a command, unless its round was settled. -/
theorem Write.waiting {x : Outside} {w : Write} {s s' : Store} {t : TaskRow} {role : Role} (h : s.Sound)
    (hfact : w.Fact s) (happly : w.apply x.uuid.1 s = some s') (ht : t ∈ s.tasks) (hrole : t.state ∈ role.allowedStates) :
    (∃ t' ∈ s'.tasks, t'.id = t.id ∧ t'.currentRound = t.currentRound ∧ t'.state ∈ role.allowedStates) ∨
      ∃ rid, s'.IsRound rid t.id t.currentRound ∧ (s'.Expired rid ∨ s'.Filled rid role) := by
  by_cases htransition : ∃ task tr, w = .transition task tr
  · obtain ⟨task, tr, rfl⟩ := htransition
    obtain rfl | ⟨row, hmoved⟩ := transition_cases h hfact.2.2 happly
    · exact .inl ⟨t, ht, rfl, rfl, hrole⟩
    · exact hmoved.waiting h hfact ht hrole
  · refine .inl ⟨t, ?_, rfl, rfl, hrole⟩
    by_cases hopen : ∃ reason r u, w = .openRound reason r u
    · obtain ⟨reason, r, u, rfl⟩ := hopen
      exact openRound_tasks happly ht (not_reissued hrole)
    · exact (apply_subset (fun reason r u hw => hopen ⟨reason, r, u, hw⟩) happly).1
        (fun task tr hw => htransition ⟨task, tr, hw⟩) ht

theorem stable_waiting (taskVersionId : Text) (number : Nat) (role : Role) :
    portal.Stable (fun s => s.Waiting taskVersionId number role) := by
  intro x w s hi hf h
  show (w.exec x s).Waiting taskVersionId number role
  have hg := w.exec_grows x hi.keys
  obtain ⟨t, ht, rfl, rfl, hrole⟩ | ⟨rid, hround, hsettled⟩ := h
  · obtain ⟨hsame, -⟩ | ⟨s', happly, -, hexec, -⟩ := w.exec_cases x s
    · rw [hsame]
      exact .inl ⟨t, ht, rfl, rfl, hrole⟩
    · rw [hexec]
      exact w.waiting hi hf happly ht hrole
  · exact .inr ⟨rid, hround.grows hg, hsettled.imp (fun h => h.grows hg) (fun h => h.grows hg)⟩

/-- A round that admits the role stays open, unless it is settled. -/
theorem Write.stays_open {x : Outside} {w : Write} {s s' : Store} {t : TaskRow} {r : RoundRow} {role : Role} (h : s.Sound)
    (hfact : w.Fact s) (happly : w.apply x.uuid.1 s = some s') (ht : t ∈ s.tasks) (hrole : t.state ∈ role.allowedStates)
    (hr : r ∈ s.rounds) (htask : r.taskVersionId = t.id) (hnumber : r.roundNumber = t.currentRound) :
    r ∈ s'.rounds ∨ s'.Expired r.id ∨ s'.Filled r.id role := by
  by_cases hclose : ∃ id, w = .closeRound id
  · obtain ⟨id, rfl⟩ := hclose
    obtain rfl := Option.some.inj happly
    by_cases hid : r.id = id
    · exact .inr (.inr (h.filled_of_j2 (hid ▸ hfact) role))
    · refine .inl (Table.mem_update.2 ⟨r, hr, ?_⟩)
      rw [if_neg (by simp [hid])]
  · by_cases hopen : ∃ reason r u, w = .openRound reason r u
    · obtain ⟨reason, currentRound, u, rfl⟩ := hopen
      have hg := openRound_grows happly
      by_cases hid : r.id = currentRound.id
      · obtain hexpired | hnovel | hj2 : s.Spent r.id := hid ▸ hfact.2
        · exact .inr (.inl (hexpired.grows hg))
        · refine .inr (.inr ((h.filled_of_novel hnovel (fun hj2 => ?_)).grows hg))
          -- J2 is only admitted where J1 decided nothing new
          subst hj2
          have hstate : t.state = .finalReview := List.mem_singleton.1 hrole
          obtain ⟨rid, hround, p, hp, hpround, hzero⟩ := (Store.backs_finalReview hstate).1 (h.tasks t ht).backs
          obtain ⟨rfl, -⟩ := h.round_inj hround ⟨r, hr, rfl, htask, hnumber⟩ (.inr ⟨rfl, rfl⟩)
          obtain ⟨q, hq, hqround, n, hn, hpos⟩ := hnovel
          have hrole_of : ∀ p : Submission, ∀ n, p.novelDecisions = some n → p.role = .j1 := by
            intro p n hn
            unfold Submission.novelDecisions at hn
            split at hn
            · rename_i hart
              simp [Submission.role, hart, Artifact.consensusRole]
            · cases hn
          obtain rfl := h.eq_of_role hp hq (hpround.trans hqround.symm) ((hrole_of p _ hzero).trans (hrole_of q _ hn).symm)
          rw [hzero] at hn
          cases hn
          exact absurd hpos (Nat.lt_irrefl 0)
        · exact .inr (.inr ((h.filled_of_j2 hj2 role).grows hg))
      · refine .inl ?_
        have hs : s.openRound reason currentRound u = some s' := happly
        unfold Store.openRound at hs
        split at hs
        · obtain rfl := Option.some.inj hs
          refine List.mem_append_left _ (Table.mem_update.2 ⟨r, hr, ?_⟩)
          rw [if_neg (by simp [hid])]
        · cases hs
    · exact .inl ((apply_subset (fun reason r u hw => hopen ⟨reason, r, u, hw⟩) happly).2 (fun id hw => hclose ⟨id, hw⟩) hr)

theorem stable_admitted (roundId : Text) (role : Role) : portal.Stable (fun s => s.Admitted roundId role) := by
  intro x w s hi hf h
  show (w.exec x s).Admitted roundId role
  have hg := w.exec_grows x hi.keys
  obtain ⟨t, ht, r, hr, rfl, htask, hnumber, hopened, hrole⟩ | hsettled := h
  · obtain ⟨hsame, -⟩ | ⟨s', happly, -, hexec, -⟩ := w.exec_cases x s
    · rw [hsame]
      exact .inl ⟨t, ht, r, hr, rfl, htask, hnumber, hopened, hrole⟩
    · have hsound : s'.Sound := hexec ▸ Write.keeps x w s hi hf
      rw [hexec] at hg ⊢
      obtain hr' | hsettled := w.stays_open hi hf happly ht hrole hr htask hnumber
      · obtain ⟨t', ht', hid, hround, hrole'⟩ | ⟨rid, hround, hsettled⟩ := w.waiting hi hf happly ht hrole
        · exact .inl ⟨t', ht', r, hr', rfl, htask.trans hid.symm, hnumber.trans hround.symm, hopened, hrole'⟩
        · obtain ⟨rfl, -⟩ := hsound.round_inj hround ⟨r, hr', rfl, htask, hnumber⟩ (.inr ⟨rfl, rfl⟩)
          exact .inr hsettled
      · exact .inr hsettled
  · exact .inr (hsettled.imp (fun h => h.grows hg) (fun h => h.grows hg))

end Portal
end Adg
