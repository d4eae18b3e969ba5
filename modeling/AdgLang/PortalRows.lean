import AdgLang.PortalRely
/-!
# PortalRows — where the rows of a command come from

Of each table, the rows that a command can leave there: those that stood before it, and those that the commands which
write the table make.
-/
namespace Adg
namespace Portal

open Js Consensus

/-- The commands that write the consensus tables and the catalogue write no others but the outbox. -/
def Write.isConsensus : Write → Bool
  | .register .. | .transition .. | .openRound .. | .sync .. => true
  | _ => false

/-- The tables that a consensus command writes are taken from `s'`. -/
def Store.withConsensus (s s' : Store) : Store :=
  { s with
    tasks := s'.tasks, evidence := s'.evidence, rounds := s'.rounds, events := s'.events, outbox := s'.outbox,
    catalogue := s'.catalogue, syncs := s'.syncs }

theorem register_consensus {s s' : Store} {row : EvidenceRow} {now : Nat} (h : s.register row now = some s') :
    s' = s.withConsensus s' := by
  rw [register_eq h]
  rfl

theorem upsertCatalogue_consensus {s s' : Store} {new : CatalogueRow} (h : s.upsertCatalogue new = some s') :
    s' = s.withConsensus s' := by
  rw [upsertCatalogue_eq h]
  rfl

theorem Write.consensus_eq {uuid : Text} {w : Write} {s s' : Store} (hw : w.isConsensus = true)
    (happly : w.apply uuid s = some s') : s' = s.withConsensus s' := by
  cases w with
  | register row now => exact register_consensus happly
  | transition task tr =>
    obtain ⟨r, -, rfl⟩ := Option.map_eq_some_iff.1 happly
    rfl
  | openRound reason currentRound reissued =>
    have hs : s.openRound reason currentRound reissued = some s' := happly
    unfold Store.openRound at hs
    split at hs
    · obtain rfl := Option.some.inj hs
      rfl
    · cases hs
  | sync items row now =>
    obtain ⟨s₁, h₁, rfl⟩ := Option.map_eq_some_iff.1 happly
    have hkept := syncItems_keep (P := fun s₁ => s₁ = s.withConsensus s₁) (fun s₁ s₂ row hr h => by
        rw [register_consensus hr, h]
        rfl) (fun s₁ s₂ new hu h => by
        rw [upsertCatalogue_consensus hu, h]
        rfl) h₁ rfl
    rw [hkept]
    rfl
  | _ => cases hw

section Rows

variable {x : Outside} {w : Write} {s s' : Store} (h : s.Sound) (hfact : w.Fact s) (happly : w.apply x.uuid.1 s = some s')
include h hfact happly

/-- A task stood before, a transition moved it, or it is new or on its way to a fresh round. -/
theorem Write.tasks_cases {t : TaskRow} (ht : t ∈ s'.tasks) : t ∈ s.tasks ∨
    (∃ task tr row, w = .transition task tr ∧ Moved s s' x task tr row ∧ t = tr.applyTo x.uuid.1 s.clock row) ∨
    t.state = .opened ∨ t.state = .reissued := by
  have hregister : ∀ (s₁ s₂ : Store) row now, s₁.register row now = some s₂ →
      (∀ t ∈ s₁.tasks, t ∈ s.tasks ∨ t.state = .opened) → ∀ t ∈ s₂.tasks, t ∈ s.tasks ∨ t.state = .opened := by
    intro s₁ s₂ row now hr hall t ht
    rw [register_eq hr] at ht
    rcases mem_insertOrIgnore ht with ht | rfl
    · exact hall t ht
    · exact .inr rfl
  cases w with
  | register row now =>
    exact (hregister s s' row now happly (fun t ht => .inl ht) t ht).imp_right (fun h => .inr (.inl h))
  | sync items row now =>
    obtain ⟨s₁, h₁, rfl⟩ := Option.map_eq_some_iff.1 happly
    have hkept := syncItems_keep (P := fun s₁ => ∀ t ∈ s₁.tasks, t ∈ s.tasks ∨ t.state = .opened)
      (fun s₁ s₂ row hr => hregister s₁ s₂ row now hr) (fun s₁ s₂ new hu hall t ht => by
        rw [upsertCatalogue_eq hu] at ht
        exact hall t ht) h₁ (fun t ht => .inl ht)
    exact (hkept t ht).imp_right (fun h => .inr (.inl h))
  | transition task tr =>
    obtain rfl | ⟨row, hm⟩ := transition_cases h hfact.2.2 happly
    · exact .inl ht
    · exact (hm.of_mem h ht).imp (fun h => h.1) (fun h => .inl ⟨task, tr, row, rfl, hm, h⟩)
  | openRound reason currentRound reissued =>
    have hs : s.openRound reason currentRound reissued = some s' := happly
    unfold Store.openRound at hs
    split at hs
    · obtain rfl := Option.some.inj hs
      obtain ⟨t₀, ht₀, rfl⟩ := Table.mem_update.1 ht
      by_cases hadvance : advanceGuard reissued t₀ = true
      · rw [hadvance]
        exact .inr (.inr (.inr (advanceGuard_iff.1 hadvance).2.1))
      · rw [if_neg hadvance]
        exact .inl ht₀
    · cases hs
  | _ =>
    obtain rfl := Option.some.inj happly
    exact .inl ht

/-- An event was logged before, a transition logs it, or it opens a task. -/
theorem Write.events_cases {e : EventRow} (he : e ∈ s'.events) : e ∈ s.events ∨
    (∃ task tr row, w = .transition task tr ∧ Moved s s' x task tr row ∧ e = tr.event task x.uuid.1 s.clock) ∨
    e.idempotencyKey = initialEventId e.taskVersionId := by
  have hregister : ∀ (s₁ s₂ : Store) row now, s₁.register row now = some s₂ →
      (∀ e ∈ s₁.events, e ∈ s.events ∨ e.idempotencyKey = initialEventId e.taskVersionId) →
        ∀ e ∈ s₂.events, e ∈ s.events ∨ e.idempotencyKey = initialEventId e.taskVersionId := by
    intro s₁ s₂ row now hr hall e he
    rw [register_eq hr] at he
    rcases mem_insertOrIgnore he with he | rfl
    · exact hall e he
    · exact .inr rfl
  cases w with
  | register row now => exact (hregister s s' row now happly (fun e he => .inl he) e he).imp_right .inr
  | sync items row now =>
    obtain ⟨s₁, h₁, rfl⟩ := Option.map_eq_some_iff.1 happly
    have hkept := syncItems_keep (P := fun s₁ => ∀ e ∈ s₁.events, e ∈ s.events ∨ e.idempotencyKey =
      initialEventId e.taskVersionId) (fun s₁ s₂ row hr => hregister s₁ s₂ row now hr) (fun s₁ s₂ new hu hall e he => by
        rw [upsertCatalogue_eq hu] at he
        exact hall e he) h₁ (fun e he => .inl he)
    exact (hkept e he).imp_right .inr
  | transition task tr =>
    obtain rfl | ⟨row, hm⟩ := transition_cases h hfact.2.2 happly
    · exact .inl he
    · rw [hm.events] at he
      rcases List.mem_append.1 he with he | he
      · exact .inl he
      · exact .inr (.inl ⟨task, tr, row, rfl, hm, List.mem_singleton.1 he⟩)
  | openRound reason currentRound reissued =>
    have hs : s.openRound reason currentRound reissued = some s' := happly
    unfold Store.openRound at hs
    split at hs
    · obtain rfl := Option.some.inj hs
      exact .inl he
    · cases hs
  | _ =>
    obtain rfl := Option.some.inj happly
    exact .inl he

omit h hfact in
/-- An appeal was filed before, and may be decided, or it is filed against a result that is open to appeal. -/
theorem Write.appeals_cases {a : Appeal} (ha : a ∈ s'.appeals) : (∃ b ∈ s.appeals, AppealGrows b a ∧
      (a.status = b.status ∨ w = .decideAppeal a.id a.status)) ∨
    ∃ appellantUserId finalReceiptId createdAt, w = .openAppeal a.id appellantUserId finalReceiptId createdAt ∧
      a.status = .pending ∧ ∃ f ∈ s.finals, s.isAppealable finalReceiptId appellantUserId createdAt f = true ∧
        a.taskVersionId = f.taskVersionId ∧ a.roundId = f.roundId ∧ a.finalReceiptId = f.primaryReceiptId := by
  by_cases hw : w.isConsensus = true
  · rw [w.consensus_eq hw happly] at ha
    exact .inl ⟨a, ha, .refl a, .inl rfl⟩
  cases w with
  | openAppeal id appellantUserId finalReceiptId createdAt =>
    obtain rfl := Option.some.inj happly
    rcases List.mem_append.1 ha with ha | ha
    · exact .inl ⟨a, ha, .refl a, .inl rfl⟩
    · obtain ⟨f, hf, rfl⟩ := List.mem_map.1 ha
      obtain ⟨hmem, happealable⟩ := List.mem_filter.1 hf
      exact .inr ⟨appellantUserId, finalReceiptId, createdAt, rfl, rfl, f, hmem, happealable, rfl, rfl, rfl⟩
  | decideAppeal id decision =>
    obtain rfl := Option.some.inj happly
    obtain ⟨b, hb, rfl⟩ := Table.mem_update.1 ha
    refine .inl ⟨b, hb, ?_⟩
    by_cases hp : (decide (b.id = id) && b.isPending) = true
    · rw [if_pos hp]
      simp only [Appeal.isPending, Bool.and_eq_true, decide_eq_true_eq] at hp
      exact ⟨⟨rfl, rfl, rfl, rfl, fun hne => absurd hp.2 hne⟩, .inr (by rw [hp.1])⟩
    · rw [if_neg hp]
      exact ⟨.refl b, .inl rfl⟩
  | register row now => exact absurd rfl hw
  | transition task tr => exact absurd rfl hw
  | openRound reason currentRound reissued => exact absurd rfl hw
  | sync items row now => exact absurd rfl hw
  | _ =>
    obtain rfl := Option.some.inj happly
    exact .inl ⟨a, ha, .refl a, .inl rfl⟩

omit h hfact in
/-- A result that is revoked was so before, or it is revoked now. -/
theorem Write.revoked_cases {f : FinalResult} (hf : f ∈ s'.finals) (hrevoked : f.status = .revoked) :
    (∃ g ∈ s.finals, g.primaryReceiptId = f.primaryReceiptId ∧ g.status = .revoked) ∨
      w = .revokeFinal f.primaryReceiptId := by
  by_cases hw : w.isConsensus = true
  · rw [w.consensus_eq hw happly] at hf
    exact .inl ⟨f, hf, rfl, hrevoked⟩
  cases w with
  | revokeFinal primaryReceiptId =>
    obtain rfl := Option.some.inj happly
    obtain ⟨g, hg, rfl⟩ := Table.mem_update.1 hf
    by_cases hp : (decide (g.primaryReceiptId = primaryReceiptId) && g.isActive) = true
    · rw [if_pos hp]
      simp only [Bool.and_eq_true, decide_eq_true_eq] at hp
      exact .inr (by rw [hp.1])
    · rw [if_neg hp] at hrevoked ⊢
      exact .inl ⟨g, hg, rfl, hrevoked⟩
  | publishFinal primaryReceiptId =>
    obtain rfl := Option.some.inj happly
    obtain ⟨g, hg, rfl⟩ := Table.mem_update.1 hf
    refine .inl ⟨g, hg, ?_⟩
    split at hrevoked <;> exact ⟨by split <;> rfl, hrevoked⟩
  | submit batch =>
    obtain rfl := Option.some.inj happly
    have hf : f ∈ finalsAfter batch.row s.finals := hf
    unfold finalsAfter at hf
    split at hf
    · rcases List.mem_append.1 hf with hf | hf
      · exact .inl ⟨f, hf, rfl, hrevoked⟩
      · rw [List.mem_singleton.1 hf] at hrevoked
        cases hrevoked
    · obtain ⟨g, hg, rfl⟩ := Table.mem_update.1 hf
      split at hrevoked
      · cases hrevoked
      · rename_i hnot
        rw [if_neg hnot]
        exact .inl ⟨g, hg, rfl, hrevoked⟩
    · exact .inl ⟨f, hf, rfl, hrevoked⟩
  | register row now => exact absurd rfl hw
  | transition task tr => exact absurd rfl hw
  | openRound reason currentRound reissued => exact absurd rfl hw
  | sync items row now => exact absurd rfl hw
  | _ =>
    obtain rfl := Option.some.inj happly
    exact .inl ⟨f, hf, rfl, hrevoked⟩

omit h hfact in
/-- A result that is active was so before, or an agreeing J2 makes it so. -/
theorem Write.active_cases {f : FinalResult} (hf : f ∈ s'.finals) (hactive : f.status = .active) :
    (∃ g ∈ s.finals, g.primaryReceiptId = f.primaryReceiptId ∧ g.taskVersionId = f.taskVersionId ∧
      g.roundId = f.roundId ∧ g.status = .active) ∨
    ∃ b, w = .submit b ∧ ∃ primary root, b.row.artifact = .ratification .agree primary root ∧
      f.taskVersionId = b.row.taskVersionId ∧ f.roundId = b.row.roundId := by
  by_cases hw : w.isConsensus = true
  · rw [w.consensus_eq hw happly] at hf
    exact .inl ⟨f, hf, rfl, rfl, rfl, hactive⟩
  cases w with
  | revokeFinal primaryReceiptId =>
    obtain rfl := Option.some.inj happly
    obtain ⟨g, hg, rfl⟩ := Table.mem_update.1 hf
    split at hactive
    · cases hactive
    · rename_i hnot
      rw [if_neg hnot]
      exact .inl ⟨g, hg, rfl, rfl, rfl, hactive⟩
  | publishFinal primaryReceiptId =>
    obtain rfl := Option.some.inj happly
    obtain ⟨g, hg, rfl⟩ := Table.mem_update.1 hf
    refine .inl ⟨g, hg, ?_⟩
    split at hactive <;> rename_i hp
    · rw [if_pos hp]
      exact ⟨rfl, rfl, rfl, hactive⟩
    · rw [if_neg hp]
      exact ⟨rfl, rfl, rfl, hactive⟩
  | submit batch =>
    obtain rfl := Option.some.inj happly
    have hf : f ∈ finalsAfter batch.row s.finals := hf
    unfold finalsAfter at hf
    split at hf
    · rcases List.mem_append.1 hf with hf | hf
      · exact .inl ⟨f, hf, rfl, rfl, rfl, hactive⟩
      · rw [List.mem_singleton.1 hf] at hactive
        cases hactive
    · rename_i primary root hart
      obtain ⟨g, hg, rfl⟩ := Table.mem_update.1 hf
      by_cases hp : isRatifiedBy batch.row primary root g = true
      · rw [if_pos hp]
        simp only [isRatifiedBy, Bool.and_eq_true, decide_eq_true_eq] at hp
        exact .inr ⟨batch, rfl, primary, root, hart, hp.1.1.1.1.2, hp.1.1.1.2⟩
      · rw [if_neg hp] at hactive ⊢
        exact .inl ⟨g, hg, rfl, rfl, rfl, hactive⟩
    · exact .inl ⟨f, hf, rfl, rfl, rfl, hactive⟩
  | register row now => exact absurd rfl hw
  | transition task tr => exact absurd rfl hw
  | openRound reason currentRound reissued => exact absurd rfl hw
  | sync items row now => exact absurd rfl hw
  | _ =>
    obtain rfl := Option.some.inj happly
    exact .inl ⟨f, hf, rfl, rfl, rfl, hactive⟩

omit h hfact in
/-- A receipt of the repository was stored before, or it is what the command stores. -/
theorem Write.receipts_cases {r : RepositoryReceipt} (hr : r ∈ s'.receipts) :
    r ∈ s.receipts ∨ ∃ primaryReceiptId, w = .receipt r primaryReceiptId := by
  by_cases hw : w.isConsensus = true
  · rw [w.consensus_eq hw happly] at hr
    exact .inl hr
  cases w with
  | receipt row primaryReceiptId =>
    obtain rfl := Option.some.inj happly
    rcases mem_insertOrIgnore hr with hr | rfl
    · exact .inl hr
    · exact .inr ⟨primaryReceiptId, rfl⟩
  | register row now => exact absurd rfl hw
  | transition task tr => exact absurd rfl hw
  | openRound reason currentRound reissued => exact absurd rfl hw
  | sync items row now => exact absurd rfl hw
  | _ =>
    obtain rfl := Option.some.inj happly
    exact .inl hr

omit h hfact in
/-- So is a receipt of a task's state. -/
theorem Write.stateReceipts_cases {r : StateReceipt} (hr : r ∈ s'.stateReceipts) :
    r ∈ s.stateReceipts ∨ w = .stateReceipt r := by
  by_cases hw : w.isConsensus = true
  · rw [w.consensus_eq hw happly] at hr
    exact .inl hr
  cases w with
  | stateReceipt row =>
    obtain rfl := Option.some.inj happly
    rcases List.mem_append.1 hr with hr | hr
    · exact .inl hr
    · exact .inr (by rw [List.mem_singleton.1 hr])
  | register row now => exact absurd rfl hw
  | transition task tr => exact absurd rfl hw
  | openRound reason currentRound reissued => exact absurd rfl hw
  | sync items row now => exact absurd rfl hw
  | _ =>
    obtain rfl := Option.some.inj happly
    exact .inl hr

/-- A task stays as it is, unless a transition moves it or a reissue takes it to a fresh round. -/
theorem Write.task_stays {t : TaskRow} (ht : t ∈ s.tasks) (hstate : t.state ≠ .reissued) : t ∈ s'.tasks ∨
    ∃ task tr, w = .transition task tr ∧ Moved s s' x task tr t := by
  by_cases htransition : ∃ task tr, w = .transition task tr
  · obtain ⟨task, tr, rfl⟩ := htransition
    obtain rfl | ⟨row, hm⟩ := transition_cases h hfact.2.2 happly
    · exact .inl ht
    · by_cases hid : t.id = row.id
      · obtain rfl := h.keys.consensus.tasks.eq_of_key ht hm.mem hid
        exact .inr ⟨task, tr, rfl, hm⟩
      · refine .inl ?_
        rw [hm.tasks]
        refine Table.mem_update.2 ⟨t, ht, ?_⟩
        rw [if_neg (fun hg => hid ((Transition.guard_iff hg).1.trans (Transition.guard_iff hm.guard).1.symm))]
  · refine .inl ?_
    by_cases hopen : ∃ reason r u, w = .openRound reason r u
    · obtain ⟨reason, r, u, rfl⟩ := hopen
      exact openRound_tasks happly ht hstate
    · exact (apply_subset (fun reason r u hw => hopen ⟨reason, r, u, hw⟩) happly).1
        (fun task tr hw => htransition ⟨task, tr, hw⟩) ht

end Rows

end Portal
end Adg
