import AdgLang.PortalCatalogue
/-!
# PortalGrowth — what no command takes back

Rows are never deleted, their identifying columns never change, and the columns that do change go one way: versions and
rounds grow, a round that is left stays left, a decided appeal stays decided, a revoked result stays revoked.
`Write.exec_grows` says so of every command, whatever program runs it; it is what makes a fact that was read once a fact
to rely on.
-/
namespace Adg
namespace Portal

open Js Consensus

/-! ## Rows -/

/-- A task moves on: with the same version it is the same, save that a reissued task may go to a later round. -/
structure TaskGrows (r r' : TaskRow) : Prop where
  id : r'.id = r.id
  version : r.stateVersion ≤ r'.stateVersion
  round : r.currentRound ≤ r'.currentRound
  same : r'.stateVersion = r.stateVersion → r'.state = r.state ∧ r'.lastEventId = r.lastEventId ∧
    r'.activeFinalReceiptId = r.activeFinalReceiptId ∧ r'.appealDeadlineAt = r.appealDeadlineAt
  sameRound : r'.stateVersion = r.stateVersion → r.state ≠ .reissued → r'.currentRound = r.currentRound

structure RoundGrows (r r' : RoundRow) : Prop where
  id : r'.id = r.id
  task : r'.taskVersionId = r.taskVersionId
  number : r'.roundNumber = r.roundNumber
  left : r.status ≠ .opened → r' = r

/-- Only the import of a submission is noted in its row. -/
def SubmissionGrows (r r' : Submission) : Prop := r' = { r with imported := r'.imported }

/-- An import is not taken back. -/
structure ImportGrows (r r' : Submission) : Prop where
  receipt : r'.receiptId = r.receiptId
  imported : r.imported = true → r'.imported = true

structure FinalGrows (r r' : FinalResult) : Prop where
  primary : r'.primaryReceiptId = r.primaryReceiptId
  task : r'.taskVersionId = r.taskVersionId
  round : r'.roundId = r.roundId
  root : r'.finalMerkleRoot = r.finalMerkleRoot
  secondary : r.status ≠ .proposed → r'.secondaryReceiptId = r.secondaryReceiptId
  proposed : r'.status = .proposed → r.status = .proposed ∧ r'.secondaryReceiptId = r.secondaryReceiptId
  active : r.status = .active → r'.status = .active ∨ r'.status = .revoked
  revoked : r.status = .revoked → r'.status = .revoked

structure AppealGrows (r r' : Appeal) : Prop where
  id : r'.id = r.id
  task : r'.taskVersionId = r.taskVersionId
  round : r'.roundId = r.roundId
  final : r'.finalReceiptId = r.finalReceiptId
  decided : r.status ≠ .pending → r'.status = r.status

structure OutboxGrows (r r' : OutboxRow) : Prop where
  id : r'.id = r.id
  kind : r'.kind = r.kind
  task : r'.taskVersionId = r.taskVersionId
  related : r'.relatedId = r.relatedId
  blob : r'.publicBlobName = r.publicBlobName
  identity : r'.identityBlobName = r.identityBlobName
  payload : r'.payload = r.payload
  dedupe : r'.dedupeKey = r.dedupeKey

structure AssignmentGrows (r r' : Assignment) : Prop where
  id : r'.id = r.id
  task : r'.taskVersionId = r.taskVersionId
  round : r'.roundId = r.roundId
  holdout : r'.holdoutId = r.holdoutId
  role : r'.role = r.role

/-- The columns of the catalogue that never change, and a withdrawal that is not taken back. -/
structure CatalogueGrows (r r' : CatalogueRow) : Prop where
  task : r'.taskVersionId = r.taskVersionId
  packet : r'.packetId = r.packetId
  root : r'.packetMerkleRoot = r.packetMerkleRoot
  manifest : r'.immutableManifestSha256 = r.immutableManifestSha256
  mode : r'.assignmentMode = r.assignmentMode
  lane : r'.lane = r.lane
  repository : r'.sourceRepository = r.sourceRepository
  path : r'.sourcePath = r.sourcePath
  withdrawn : r.status = .withdrawn → r'.status = .withdrawn

theorem TaskGrows.refl (r : TaskRow) : TaskGrows r r :=
  ⟨rfl, le_refl _, le_refl _, fun _ => ⟨rfl, rfl, rfl, rfl⟩, fun _ _ => rfl⟩

theorem TaskGrows.trans (a b c : TaskRow) (h : TaskGrows a b) (h' : TaskGrows b c) : TaskGrows a c where
  id := h'.id.trans h.id
  version := h.version.trans h'.version
  round := h.round.trans h'.round
  same hv := by
    have hb : b.stateVersion = a.stateVersion := le_antisymm (hv ▸ h'.version) h.version
    obtain ⟨h1, h2, h3, h4⟩ := h.same hb
    obtain ⟨h1', h2', h3', h4'⟩ := h'.same (hv.trans hb.symm)
    exact ⟨h1'.trans h1, h2'.trans h2, h3'.trans h3, h4'.trans h4⟩
  sameRound hv hr := by
    have hb : b.stateVersion = a.stateVersion := le_antisymm (hv ▸ h'.version) h.version
    exact (h'.sameRound (hv.trans hb.symm) (by rw [(h.same hb).1]; exact hr)).trans (h.sameRound hb hr)

theorem RoundGrows.refl (r : RoundRow) : RoundGrows r r := ⟨rfl, rfl, rfl, fun _ => rfl⟩

theorem RoundGrows.trans (a b c : RoundRow) (h : RoundGrows a b) (h' : RoundGrows b c) : RoundGrows a c where
  id := h'.id.trans h.id
  task := h'.task.trans h.task
  number := h'.number.trans h.number
  left hs := by
    have hb := h.left hs
    subst hb
    exact h'.left hs

theorem RoundGrows.of_leaves {f : RoundRow → RoundRow} (hf : Leaves f) (hid : ∀ x, (f x).id = x.id) {r : RoundRow}
    (ho : r.status = .opened) : RoundGrows r (f r) :=
  ⟨hid r, hf.task r, hf.number r, fun h => absurd ho h⟩

theorem SubmissionGrows.refl (r : Submission) : SubmissionGrows r r := rfl

theorem SubmissionGrows.trans (a b c : Submission) (h : SubmissionGrows a b) (h' : SubmissionGrows b c) :
    SubmissionGrows a c := by
  unfold SubmissionGrows at *
  rw [h', h]

theorem FinalGrows.refl (r : FinalResult) : FinalGrows r r :=
  ⟨rfl, rfl, rfl, rfl, fun _ => rfl, fun h => ⟨h, rfl⟩, .inl, id⟩

theorem FinalGrows.trans (a b c : FinalResult) (h : FinalGrows a b) (h' : FinalGrows b c) : FinalGrows a c where
  primary := h'.primary.trans h.primary
  task := h'.task.trans h.task
  round := h'.round.trans h.round
  root := h'.root.trans h.root
  secondary hs := (h'.secondary (fun hb => hs (h.proposed hb).1)).trans (h.secondary hs)
  proposed hc :=
    have hb := h'.proposed hc
    have ha := h.proposed hb.1
    ⟨ha.1, hb.2.trans ha.2⟩
  active ha := (h.active ha).elim h'.active (fun hb => .inr (h'.revoked hb))
  revoked ha := h'.revoked (h.revoked ha)

theorem AppealGrows.refl (r : Appeal) : AppealGrows r r := ⟨rfl, rfl, rfl, rfl, fun _ => rfl⟩

theorem AppealGrows.trans (a b c : Appeal) (h : AppealGrows a b) (h' : AppealGrows b c) : AppealGrows a c where
  id := h'.id.trans h.id
  task := h'.task.trans h.task
  round := h'.round.trans h.round
  final := h'.final.trans h.final
  decided hs := (h'.decided (by rw [h.decided hs]; exact hs)).trans (h.decided hs)

theorem ImportGrows.refl (r : Submission) : ImportGrows r r := ⟨rfl, id⟩

theorem ImportGrows.trans (a b c : Submission) (h : ImportGrows a b) (h' : ImportGrows b c) : ImportGrows a c :=
  ⟨h'.receipt.trans h.receipt, fun ha => h'.imported (h.imported ha)⟩

theorem OutboxGrows.refl (r : OutboxRow) : OutboxGrows r r := ⟨rfl, rfl, rfl, rfl, rfl, rfl, rfl, rfl⟩

theorem OutboxGrows.trans (a b c : OutboxRow) (h : OutboxGrows a b) (h' : OutboxGrows b c) : OutboxGrows a c :=
  ⟨h'.id.trans h.id, h'.kind.trans h.kind, h'.task.trans h.task, h'.related.trans h.related, h'.blob.trans h.blob,
    h'.identity.trans h.identity, h'.payload.trans h.payload, h'.dedupe.trans h.dedupe⟩

theorem AssignmentGrows.refl (r : Assignment) : AssignmentGrows r r := ⟨rfl, rfl, rfl, rfl, rfl⟩

theorem AssignmentGrows.trans (a b c : Assignment) (h : AssignmentGrows a b) (h' : AssignmentGrows b c) :
    AssignmentGrows a c :=
  ⟨h'.id.trans h.id, h'.task.trans h.task, h'.round.trans h.round, h'.holdout.trans h.holdout, h'.role.trans h.role⟩

theorem CatalogueGrows.refl (r : CatalogueRow) : CatalogueGrows r r := ⟨rfl, rfl, rfl, rfl, rfl, rfl, rfl, rfl, id⟩

theorem CatalogueGrows.trans (a b c : CatalogueRow) (h : CatalogueGrows a b) (h' : CatalogueGrows b c) :
    CatalogueGrows a c :=
  ⟨h'.task.trans h.task, h'.packet.trans h.packet, h'.root.trans h.root, h'.manifest.trans h.manifest,
    h'.mode.trans h.mode, h'.lane.trans h.lane, h'.repository.trans h.repository, h'.path.trans h.path,
    fun ha => h'.withdrawn (h.withdrawn ha)⟩

/-! ## The store -/

open Table (Persists)

/-- Every table persists. -/
structure Store.Grows (s s' : Store) : Prop where
  clock : s.clock ≤ s'.clock
  tasks : Persists TaskGrows s.tasks s'.tasks
  evidence : s.evidence.rows ⊆ s'.evidence.rows
  rounds : Persists RoundGrows s.rounds s'.rounds
  events : s.events ⊆ s'.events
  accepted : s.accepted ⊆ s'.accepted
  submissions : Persists SubmissionGrows s.submissions s'.submissions
  participations : s.participations ⊆ s'.participations
  finals : Persists FinalGrows s.finals s'.finals
  appeals : Persists AppealGrows s.appeals s'.appeals
  receipts : s.receipts ⊆ s'.receipts
  imports : Persists ImportGrows s.submissions s'.submissions
  evidenceReceipts : s.evidenceReceipts ⊆ s'.evidenceReceipts
  stateReceipts : s.stateReceipts ⊆ s'.stateReceipts
  archive : s.archive ⊆ s'.archive
  outbox : Persists OutboxGrows s.outbox s'.outbox
  catalogue : Persists CatalogueGrows s.catalogue s'.catalogue
  assignments : Persists AssignmentGrows s.assignments s'.assignments

theorem Store.Grows.refl (s : Store) : s.Grows s where
  clock := le_refl _
  tasks := .refl TaskGrows.refl _
  evidence := List.Subset.refl _
  rounds := .refl RoundGrows.refl _
  events := List.Subset.refl _
  accepted := List.Subset.refl _
  submissions := .refl SubmissionGrows.refl _
  participations := List.Subset.refl _
  finals := .refl FinalGrows.refl _
  appeals := .refl AppealGrows.refl _
  receipts := List.Subset.refl _
  imports := .refl ImportGrows.refl _
  evidenceReceipts := List.Subset.refl _
  stateReceipts := List.Subset.refl _
  archive := List.Subset.refl _
  outbox := .refl OutboxGrows.refl _
  catalogue := .refl CatalogueGrows.refl _
  assignments := .refl AssignmentGrows.refl _

theorem Store.Grows.trans {a b c : Store} (h : a.Grows b) (h' : b.Grows c) : a.Grows c where
  clock := h.clock.trans h'.clock
  tasks := h.tasks.trans TaskGrows.trans h'.tasks
  evidence := List.Subset.trans h.evidence h'.evidence
  rounds := h.rounds.trans RoundGrows.trans h'.rounds
  events := List.Subset.trans h.events h'.events
  accepted := List.Subset.trans h.accepted h'.accepted
  submissions := h.submissions.trans SubmissionGrows.trans h'.submissions
  participations := List.Subset.trans h.participations h'.participations
  finals := h.finals.trans FinalGrows.trans h'.finals
  appeals := h.appeals.trans AppealGrows.trans h'.appeals
  receipts := List.Subset.trans h.receipts h'.receipts
  imports := h.imports.trans ImportGrows.trans h'.imports
  evidenceReceipts := List.Subset.trans h.evidenceReceipts h'.evidenceReceipts
  stateReceipts := List.Subset.trans h.stateReceipts h'.stateReceipts
  archive := List.Subset.trans h.archive h'.archive
  outbox := h.outbox.trans OutboxGrows.trans h'.outbox
  catalogue := h.catalogue.trans CatalogueGrows.trans h'.catalogue
  assignments := h.assignments.trans AssignmentGrows.trans h'.assignments

theorem insertOrIgnore_persists {ρ : Type} {R : ρ → ρ → Prop} (hR : ∀ r, R r r) (conflict : ρ → Bool) (row : ρ)
    (t : List ρ) : Persists R t (insertOrIgnore conflict row t) :=
  fun r hr => ⟨r, subset_insertOrIgnore hr, hR r⟩

theorem subset_insertOrIgnore' {ρ : Type} (conflict : ρ → Bool) (row : ρ) (t : List ρ) :
    t ⊆ insertOrIgnore conflict row t := fun _ hr => subset_insertOrIgnore hr

/-! ## Commands -/

theorem register_grows {s s' : Store} {row : EvidenceRow} {now : Nat} (h : s.register row now = some s') : s.Grows s' := by
  unfold Store.register at h
  split at h
  · cases h
  · obtain rfl := Option.some.inj h
    exact { Store.Grows.refl s with
      tasks := insertOrIgnore_persists TaskGrows.refl _ _ _
      evidence := subset_insertOrIgnore' _ _ _
      rounds := insertOrIgnore_persists RoundGrows.refl _ _ _
      events := subset_insertOrIgnore' _ _ _ }

/-- The row a transition writes is a later version of the one it found. -/
theorem applyTo_grows {tr : Transition} {eventId : Text} {now : Nat} (row : TaskRow) :
    TaskGrows row (tr.applyTo eventId now row) :=
  ⟨rfl, Nat.le_succ _, le_refl _, fun h => absurd h (Nat.succ_ne_self _), fun _ _ => rfl⟩

theorem transition_grows {s : Store} {uuid : Text} {task : TaskRow} {tr : Transition}
    {r : Db × List EventRow × (Nat × Nat)} (h : transitionBatch s.clock uuid s.db task tr = some r) :
    s.Grows (s.setDb r.1) := by
  have htasks : ∀ (q : TaskRow → Bool) (eventId : Text) (n : Nat),
      Persists TaskGrows s.tasks (Table.update q (tr.applyTo eventId n) s.tasks) :=
    fun q eventId n => .update TaskGrows.refl (fun row _ _ => applyTo_grows row)
  simp only [transitionBatch] at h
  split at h
  · split at h
    · obtain rfl := Option.some.inj h
      exact { Store.Grows.refl s with tasks := htasks _ _ _, events := List.subset_append_left _ _ }
    · cases h
  · obtain rfl := Option.some.inj h
    exact { Store.Grows.refl s with tasks := htasks _ _ _ }

theorem leaveRound_persists {id : Text} {f : RoundRow → RoundRow} (hf : Leaves f) (hid : ∀ x, (f x).id = x.id)
    (rounds : List RoundRow) : Persists RoundGrows rounds (leaveRound id f rounds) := by
  refine .update RoundGrows.refl (fun r _ hr => ?_)
  simp only [Bool.and_eq_true, decide_eq_true_eq] at hr
  exact .of_leaves hf hid hr.2

theorem outbox_update_persists {p : OutboxRow → Bool} {f : OutboxRow → OutboxRow} (hf : ∀ r, OutboxGrows r (f r))
    (outbox : List OutboxRow) : Persists OutboxGrows outbox (Table.update p f outbox) :=
  .update OutboxGrows.refl (fun r _ _ => hf r)

theorem openRound_grows {s s' : Store} {reason : ReissueReason} {currentRound : RoundRow} {reissued : TaskRow}
    (h : s.openRound reason currentRound reissued = some s') : s.Grows s' := by
  unfold Store.openRound at h
  split at h
  · obtain rfl := Option.some.inj h
    exact { Store.Grows.refl s with
      tasks := .update TaskGrows.refl (fun row _ hrow => by
        obtain ⟨-, hstate, hround⟩ := advanceGuard_iff.1 hrow
        exact ⟨rfl, le_refl _, by simp only [nextRoundNumber]; omega, fun _ => ⟨rfl, rfl, rfl, rfl⟩,
          fun _ hne => absurd hstate hne⟩)
      rounds := (leaveRound_persists (leaves_supersede _ _) (fun _ => rfl) _).trans RoundGrows.trans
        (.append RoundGrows.refl _ _)
      outbox := by
        refine outbox_update_persists ?_ _
        exact fun _ => ⟨rfl, rfl, rfl, rfl, rfl, rfl, rfl, rfl⟩ }
  · cases h

theorem finalsAfter_persists (row : Submission) (finals : List FinalResult) :
    Persists FinalGrows finals (finalsAfter row finals) := by
  unfold finalsAfter
  split
  · exact .append FinalGrows.refl _ _
  · refine .update FinalGrows.refl (fun f _ hf => ?_)
    simp only [isRatifiedBy, Bool.and_eq_true, decide_eq_true_eq] at hf
    exact ⟨rfl, rfl, rfl, rfl, fun h => absurd hf.1.2 h, nofun, fun _ => .inl rfl,
      fun h => by rw [hf.1.2] at h; cases h⟩
  · exact .refl FinalGrows.refl _

/-- The catalogue is keyed by its tasks. -/
abbrev Store.CatalogueKeyed (s : Store) : Prop := Table.Keyed CatalogueRow.taskVersionId s.catalogue

theorem upsertCatalogue_grows {s s' : Store} {new : CatalogueRow} (hkeyed : s.CatalogueKeyed)
    (h : s.upsertCatalogue new = some s') : s.Grows s' ∧ s'.CatalogueKeyed := by
  unfold Store.upsertCatalogue at h
  split at h
  · rename_i hnone
    split at h
    · obtain rfl := Option.some.inj h
      exact ⟨{ Store.Grows.refl s with catalogue := .append CatalogueGrows.refl _ _ },
        hkeyed.append (Table.lookup_none_iff.1 hnone)⟩
    · cases h
  · rename_i r hr
    split at h
    · rename_i hmay
      obtain rfl := Option.some.inj h
      refine ⟨{ Store.Grows.refl s with catalogue := .update CatalogueGrows.refl (fun x hx hid => ?_) },
        hkeyed.update (fun _ => rfl)⟩
      -- the key leaves one row for the update, the one that the guard was checked on
      obtain ⟨hmem, hkey⟩ := Table.lookup_some hr
      obtain rfl : x = r := hkeyed.eq_of_key hx hmem ((of_decide_eq_true hid).trans hkey.symm)
      refine ⟨rfl, rfl, rfl, rfl, rfl, rfl, rfl, rfl, fun hw => ?_⟩
      simp only [CatalogueRow.mayBecome, Bool.and_eq_true, Bool.not_eq_true', Bool.and_eq_false_iff,
        decide_eq_false_iff_not] at hmay
      cases hstatus : new.status with
      | withdrawn => rfl
      | active => exact absurd hmay.2 (by simp [hw, hstatus])
    · cases h

theorem syncItem_grows {s s' : Store} {now : Nat} {item : SyncItem} (hkeyed : s.CatalogueKeyed)
    (h : s.syncItem now item = some s') : s.Grows s' ∧ s'.CatalogueKeyed := by
  unfold Store.syncItem at h
  split at h
  · exact upsertCatalogue_grows hkeyed h
  · obtain ⟨s₁, h₁, h₂⟩ := Option.bind_eq_some_iff.1 h
    have hcatalogue : s₁.catalogue = s.catalogue := by
      unfold Store.register at h₁
      split at h₁
      · cases h₁
      · obtain rfl := Option.some.inj h₁
        rfl
    have hkeyed₁ : s₁.CatalogueKeyed := by
      rw [Store.CatalogueKeyed, hcatalogue]
      exact hkeyed
    obtain ⟨hgrows, hkeyed'⟩ := upsertCatalogue_grows hkeyed₁ h₂
    exact ⟨(register_grows h₁).trans hgrows, hkeyed'⟩

theorem syncItems_grows {now : Nat} : ∀ {items : List SyncItem} {s s' : Store}, s.CatalogueKeyed →
    items.foldlM (fun s item => Store.syncItem s now item) s = some s' → s.Grows s'
  | [], s, s', _, h => by
    obtain rfl := Option.some.inj h
    exact .refl s
  | item :: items, s, s', hkeyed, h => by
    rw [List.foldlM_cons] at h
    obtain ⟨s₁, h₁, h₂⟩ := Option.bind_eq_some_iff.1 h
    obtain ⟨hgrows, hkeyed'⟩ := syncItem_grows hkeyed h₁
    exact hgrows.trans (syncItems_grows hkeyed' h₂)

/-- Only statuses, attempts, times and errors of the outbox are written. -/
theorem outbox_grows {s : Store} {p : OutboxRow → Bool} {f : OutboxRow → OutboxRow} (hf : ∀ r, OutboxGrows r (f r)) :
    s.Grows { s with outbox := Table.update p f s.outbox } :=
  { Store.Grows.refl s with outbox := outbox_update_persists hf _ }

theorem markSent_persists (p : OutboxRow → Bool) (outbox : List OutboxRow) :
    Persists OutboxGrows outbox (markSent p outbox) := by
  refine outbox_update_persists ?_ _
  exact fun _ => ⟨rfl, rfl, rfl, rfl, rfl, rfl, rfl, rfl⟩

theorem assignments_grows {s : Store} {p : Assignment → Bool} {f : Assignment → Assignment}
    (hf : ∀ r, AssignmentGrows r (f r)) : s.Grows { s with assignments := Table.update p f s.assignments } :=
  { Store.Grows.refl s with assignments := .update AssignmentGrows.refl (fun r _ _ => hf r) }

theorem submit_grows (s : Store) (b : SubmitBatch) : s.Grows (s.submit b) :=
  { Store.Grows.refl s with
    submissions := .append SubmissionGrows.refl _ _
    imports := .append ImportGrows.refl _ _
    participations := List.subset_append_left _ _
    outbox := .append OutboxGrows.refl _ _
    finals := finalsAfter_persists _ _
    assignments := .update AssignmentGrows.refl (fun _ _ _ => ⟨rfl, rfl, rfl, rfl, rfl⟩) }

theorem finals_grows {s : Store} {p : FinalResult → Bool} {f : FinalResult → FinalResult}
    (hf : ∀ r, FinalGrows r (f r)) : s.Grows { s with finals := Table.update p f s.finals } :=
  { Store.Grows.refl s with finals := .update FinalGrows.refl (fun r _ _ => hf r) }

/-- **Every command leaves tables that persist.** -/
theorem Write.apply_grows {uuid : Text} {s s' : Store} {w : Write} (hkeyed : s.CatalogueKeyed)
    (h : w.apply uuid s = some s') : s.Grows s' := by
  cases w with
  | register row now => exact register_grows h
  | transition task tr =>
    obtain ⟨r, hr, rfl⟩ := Option.map_eq_some_iff.1 h
    exact transition_grows hr
  | openRound reason currentRound reissued => exact openRound_grows h
  | sync items row now =>
    obtain ⟨s₁, h₁, rfl⟩ := Option.map_eq_some_iff.1 h
    exact (syncItems_grows hkeyed h₁).trans { Store.Grows.refl s₁ with }
  | tick time =>
    obtain rfl := Option.some.inj h
    exact { Store.Grows.refl s with clock := le_max_left _ _ }
  | closeRound roundId =>
    obtain rfl := Option.some.inj h
    exact { Store.Grows.refl s with rounds := leaveRound_persists (leaves_close _) (fun _ => rfl) _ }
  | release taskVersionId roundId receiptA receiptB =>
    obtain rfl := Option.some.inj h
    exact outbox_grows (fun _ => ⟨rfl, rfl, rfl, rfl, rfl, rfl, rfl, rfl⟩)
  | submit batch =>
    obtain rfl := Option.some.inj h
    exact submit_grows s batch
  | stateEvidence row =>
    obtain rfl := Option.some.inj h
    exact { Store.Grows.refl s with outbox := insertOrIgnore_persists OutboxGrows.refl _ _ _ }
  | openAppeal id appellantUserId finalReceiptId createdAt =>
    obtain rfl := Option.some.inj h
    exact { Store.Grows.refl s with appeals := .append AppealGrows.refl _ _ }
  | decideAppeal id decision =>
    obtain rfl := Option.some.inj h
    refine { Store.Grows.refl s with appeals := .update AppealGrows.refl (fun a _ ha => ?_) }
    simp only [Appeal.isPending, Bool.and_eq_true, decide_eq_true_eq] at ha
    exact ⟨rfl, rfl, rfl, rfl, fun hne => absurd ha.2 hne⟩
  | revokeFinal primaryReceiptId =>
    obtain rfl := Option.some.inj h
    exact finals_grows (fun f => ⟨rfl, rfl, rfl, rfl, fun _ => rfl, nofun, fun _ => .inr rfl, fun _ => rfl⟩)
  | publishFinal primaryReceiptId =>
    obtain rfl := Option.some.inj h
    exact finals_grows (fun f => ⟨rfl, rfl, rfl, rfl, fun _ => rfl, fun hp => ⟨hp, rfl⟩, .inl, id⟩)
  | receipt row primaryReceiptId =>
    obtain rfl := Option.some.inj h
    exact { Store.Grows.refl s with
      accepted := List.subset_append_left _ _
      receipts := subset_insertOrIgnore' _ _ _
      outbox := markSent_persists _ _ }
  | evidenceReceipt row =>
    obtain rfl := Option.some.inj h
    exact { Store.Grows.refl s with
      submissions := .update SubmissionGrows.refl (fun _ _ _ => rfl)
      imports := .update ImportGrows.refl (fun _ _ _ => ⟨rfl, fun _ => rfl⟩)
      evidenceReceipts := subset_insertOrIgnore' _ _ _
      outbox := markSent_persists _ _ }
  | stateReceipt row =>
    obtain rfl := Option.some.inj h
    exact { Store.Grows.refl s with stateReceipts := List.subset_append_left _ _ }
  | stateAccepted taskVersionId eventId =>
    obtain rfl := Option.some.inj h
    exact { Store.Grows.refl s with outbox := markSent_persists _ _ }
  | sending id nextAttemptAt =>
    obtain rfl := Option.some.inj h
    exact outbox_grows (fun _ => ⟨rfl, rfl, rfl, rfl, rfl, rfl, rfl, rfl⟩)
  | deliveredHere id =>
    obtain rfl := Option.some.inj h
    exact { Store.Grows.refl s with outbox := markSent_persists _ _ }
  | delivered id =>
    obtain rfl := Option.some.inj h
    exact outbox_grows (fun _ => ⟨rfl, rfl, rfl, rfl, rfl, rfl, rfl, rfl⟩)
  | undelivered id status attempts retryAt lastError =>
    obtain rfl := Option.some.inj h
    exact outbox_grows (fun _ => ⟨rfl, rfl, rfl, rfl, rfl, rfl, rfl, rfl⟩)
  | claimEvidence ids marker now =>
    obtain rfl := Option.some.inj h
    exact outbox_grows (fun _ => ⟨rfl, rfl, rfl, rfl, rfl, rfl, rfl, rfl⟩)
  | insertAssignment row =>
    obtain rfl := Option.some.inj h
    exact { Store.Grows.refl s with assignments := .append AssignmentGrows.refl _ _ }
  | reassign id emailHash userId now =>
    obtain rfl := Option.some.inj h
    exact assignments_grows (fun _ => ⟨rfl, rfl, rfl, rfl, rfl⟩)
  | takeAssignment id userId =>
    obtain rfl := Option.some.inj h
    exact assignments_grows (fun _ => ⟨rfl, rfl, rfl, rfl, rfl⟩)
  | resultAccess userId taskVersionId =>
    obtain rfl := Option.some.inj h
    exact { Store.Grows.refl s with }
  | present shown =>
    obtain rfl := Option.some.inj h
    exact { Store.Grows.refl s with }
  | putBlob scope fileName =>
    obtain rfl := Option.some.inj h
    exact { Store.Grows.refl s with archive := List.subset_append_left _ _ }
  | handOut marker limit last =>
    obtain rfl := Option.some.inj h
    exact { Store.Grows.refl s with }

theorem Write.exec_grows (x : Outside) (w : Write) {s : Store} (hkeys : s.Keys) : s.Grows (w.exec x s) := by
  obtain ⟨h, -⟩ | ⟨s', happly, -, hexec, -⟩ := w.exec_cases x s
  · rw [h]
    exact .refl s
  · exact hexec ▸ apply_grows hkeys.assignment.catalogue happly

end Portal
end Adg
