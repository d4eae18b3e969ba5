import AdgLang.PortalOutbox
import AdgLang.PortalCourses
import AdgLang.PortalRuns
/-!
# EvidenceDelivery — archiving is neither skipped nor forgotten

In the modes 'r2' and 'azure' a row is sent only once its payloads are in the object store, and a row that is neither
held nor done with is being delivered by a running worker or will be selected by a later one.  Both hold in the runs in
which claims take no row, receipts only reach rows that were archived, and no worker is stopped in the middle of a
delivery (`archive_kept`).
-/
namespace Adg
namespace Portal

open Js Consensus Interleaved

/-! ## What the outbox guarantees -/

/-- Once its next attempt is due, and unless twenty others that are due are as old, a worker selects the row. -/
def Store.WillBeSelected (s : Store) (o : OutboxRow) : Prop :=
  ∀ now, o.nextAttemptAt ≤ now →
    (s.dueEvidence now).countP (fun r => decide (r.createdAt ≤ o.createdAt)) ≤ 20 →
      o ∈ oldest OutboxRow.createdAt 20 (s.dueEvidence now)

/-- A worker that is running comes to the end of the row's delivery. -/
def BeingDelivered (w : PortalState) (id : Text) : Prop :=
  ∃ p ∈ w.programs, p.1 = .evidenceOutbox ∧ p.2.Comes (Write.ends id)

structure ArchiveKept (w : PortalState) : Prop where
  archived : ∀ o ∈ w.store.outbox, o.status = .sent → w.store.HasBlobs o
  remembered : ∀ o ∈ w.store.outbox, o.status = .pending ∨ o.status = .sending →
    BeingDelivered w o.id ∨ w.store.WillBeSelected o

/-- Claims take no row, and receipts reach rows that are in the archive. -/
def ArchiveUndisturbed (_ : Outside) (w : Write) (s : Store) : Prop :=
  match w with
  | .claimEvidence ids _ now => ∀ o ∈ s.outbox, o.id ∈ ids → o.isFree now = false
  | .receipt row _ => ∀ o ∈ s.outbox, o.kind = .taskState → o.relatedId = row.nonce → s.HasBlobs o
  | .evidenceReceipt row => ∀ o ∈ s.outbox, o.kind = .submission → o.relatedId = row.relatedId → s.HasBlobs o
  | .stateAccepted taskVersionId eventId => ∀ o ∈ s.outbox, o.kind = .taskState → o.taskVersionId = taskVersionId →
      o.relatedId = eventId → s.HasBlobs o
  | _ => True

/-- The command takes the row for a delivery. -/
def Write.takes (id : Text) : Write → Bool
  | .sending id' _ => decide (id' = id)
  | _ => false

/-- The same, and no request is stopped while a row that it took is on its way. -/
def DeliveryUndisturbed (w : PortalState) (a : Action Outside Request) : Prop :=
  Allows ArchiveUndisturbed w a ∧
    match a with
    | .stop i => ∀ e ∈ w.log, e.program = i → ∀ o ∈ w.store.outbox, o.status = .sending → e.command.takes o.id = false
    | _ => True

instance (s : Store) (o : OutboxRow) : Decidable (s.HasBlobs o) :=
  decidable_of_iff ((.submissions, o.publicBlobName) ∈ s.archive ∧
    ∀ fileName ∈ o.identityBlobName, (.identities, fileName) ∈ s.archive) Iff.rfl

instance (x : Outside) (w : Write) (s : Store) : Decidable (ArchiveUndisturbed x w s) := by
  induction w using Write.casesOn with
  | claimEvidence ids marker now => exact inferInstanceAs (Decidable (∀ o ∈ s.outbox, o.id ∈ ids → o.isFree now = false))
  | receipt row primaryReceiptId =>
    exact inferInstanceAs (Decidable (∀ o ∈ s.outbox, o.kind = .taskState → o.relatedId = row.nonce → s.HasBlobs o))
  | evidenceReceipt row =>
    exact inferInstanceAs (Decidable (∀ o ∈ s.outbox, o.kind = .submission → o.relatedId = row.relatedId → s.HasBlobs o))
  | stateAccepted taskVersionId eventId =>
    exact inferInstanceAs (Decidable (∀ o ∈ s.outbox, o.kind = .taskState → o.taskVersionId = taskVersionId →
      o.relatedId = eventId → s.HasBlobs o))
  | _ => exact .isTrue trivial

instance (w : PortalState) (a : Action Outside Request) : Decidable (DeliveryUndisturbed w a) := by
  unfold DeliveryUndisturbed
  cases a <;> infer_instance

/-! ## The invariant -/

/-- A row that is on its way was taken by a worker that comes to the end of its delivery. -/
def Underway (w : PortalState) (id : Text) : Prop :=
  ∃ i p, w.programs[i]? = some (.evidenceOutbox, p) ∧ p.Comes (Write.ends id) ∧
    ∃ e ∈ w.log, e.program = i ∧ e.command.takes id = true

structure DeliveryKept (env : Env) (w : PortalState) : Prop where
  kept : portal.Kept w
  always : ∀ p ∈ w.programs, p.2.Always (Delivers env p.1)
  archived : ∀ o ∈ w.store.outbox, o.status = .sent → w.store.HasBlobs o
  underway : ∀ o ∈ w.store.outbox, o.status = .sending → Underway w o.id

/-- Keys stand where only the outbox is updated. -/
theorem Store.Keys.ofOutbox {s : Store} (h : s.Keys) {p : OutboxRow → Bool} {f : OutboxRow → OutboxRow}
    (hid : ∀ o, (f o).id = o.id) (hdedupe : ∀ o, (f o).dedupeKey = o.dedupeKey) :
    Store.Keys { s with outbox := Table.update p f s.outbox } :=
  ⟨{ h.consensus with }, { h.participation with }, { h.result with },
    { h.outbox with outbox := h.outbox.outbox.update hid, dedupe := h.outbox.dedupe.update hdedupe },
    { h.assignment with }⟩

theorem status_of_update {id : Text} {f : OutboxRow → OutboxRow} {rows : List OutboxRow} (hf : ∀ o, (f o).status ≠ .sending) :
    ∀ o ∈ Table.update (fun r => decide (r.id = id)) f rows, o.id = id → (∀ r, (f r).id = r.id) → o.status ≠ .sending := by
  intro o ho hid hkey
  obtain ⟨r, -, rfl⟩ := Table.mem_update.1 ho
  by_cases hr : r.id = id
  · rw [if_pos (decide_eq_true hr)]
    exact hf r
  · rw [if_neg (by simpa using hr)] at hid
    exact absurd hid hr

theorem Write.exec_of_apply {x : Outside} {w : Write} {s s' : Store} (happly : w.apply x.uuid.1 s = some s')
    (hkeys : s'.Keys) : w.exec x s = s' := by
  rw [Write.exec, Write.commit, happly]
  simp only [hkeys, if_true]

/-- The end of a delivery commits, and the row is not on its way any more. -/
theorem Write.ended {x : Outside} {w : Write} {s : Store} {id : Text} (h : s.Keys) (hfact : w.Fact s) (hends : w.ends id) :
    ∀ o ∈ (w.exec x s).outbox, o.id = id → o.status ≠ .sending := by
  intro o ho hid
  cases w with
  | delivered id' =>
    obtain rfl : id' = id := hends
    have happly : (Write.delivered id').apply x.uuid.1 s = some _ := rfl
    rw [Write.exec_of_apply happly (h.ofOutbox (fun _ => rfl) (fun _ => rfl))] at ho
    refine status_of_update (fun _ => ?_) o ho hid (fun _ => rfl)
    nofun
  | undelivered id' status attempts retryAt lastError =>
    obtain rfl : id' = id := hends
    have happly : (Write.undelivered id' status attempts retryAt lastError).apply x.uuid.1 s = some _ := rfl
    rw [Write.exec_of_apply happly (h.ofOutbox (fun _ => rfl) (fun _ => rfl))] at ho
    refine status_of_update (fun _ => ?_) o ho hid (fun _ => rfl)
    rcases hfact.2 with rfl | rfl <;> nofun
  | _ => exact hends.elim

/-- Its archive keeps what was put there. -/
theorem archived_step {x : Outside} {w : Write} {s s' : Store} (h : s.Sound) (hfact : w.Fact s)
    (hC : ArchiveUndisturbed x w s) (hhere : ∀ id, w ≠ .deliveredHere id) (happly : w.apply x.uuid.1 s = some s')
    (hg : s.Grows s') (hi : ∀ o ∈ s.outbox, o.status = .sent → s.HasBlobs o) :
    ∀ o' ∈ s'.outbox, o'.status = .sent → s'.HasBlobs o' := by
  intro o' ho' hsent
  obtain hsame | ⟨o, ho, hstep⟩ | hadded := w.outbox_cases happly ho'
  · exact (hi o' hsame hsent).grows hg (.refl o')
  · suffices hblobs : s.HasBlobs o from hblobs.grows hg hstep.grows
    cases hstep with
    | cancel reason currentRound reissued hheld => cases hsent
    | release taskVersionId roundId receiptA receiptB hheld => cases hsent
    | receipt row primaryReceiptId hkind hrelated => exact hC o ho hkind hrelated
    | evidenceReceipt row hkind hrelated => exact hC o ho hkind hrelated
    | stateAccepted taskVersionId eventId hkind htask hrelated => exact hC o ho hkind htask hrelated
    | sending nextAttemptAt hpending => cases hsent
    | deliveredHere hsending => exact absurd rfl (hhere o.id)
    | delivered =>
      obtain ⟨-, q, hq, hid, hblobs⟩ := hfact
      obtain rfl := h.keys.outbox.outbox.eq_of_key hq ho hid
      exact hblobs
    | undelivered status attempts retryAt lastError => rcases hfact.2 with rfl | rfl <;> cases hsent
    | claim ids marker now hid hfree => cases hsent
  · rcases (hadded.fresh hfact).1 with hs | hs <;> rw [hs] at hsent <;> cases hsent

/-- A row comes on its way by a worker that takes it, where claims take none. -/
theorem sending_cases {x : Outside} {w : Write} {s s' : Store} (hfact : w.Fact s) (hC : ArchiveUndisturbed x w s)
    (happly : w.apply x.uuid.1 s = some s') {o' : OutboxRow} (ho' : o' ∈ s'.outbox) (hsending : o'.status = .sending) :
    o' ∈ s.outbox ∨ ∃ o ∈ s.outbox, o.id = o'.id ∧ o.status = .pending ∧
      ∃ nextAttemptAt, w = .sending o.id nextAttemptAt := by
  obtain hsame | ⟨o, ho, hstep⟩ | hadded := w.outbox_cases happly ho'
  · exact .inl hsame
  · cases hstep with
    | cancel reason currentRound reissued hheld => cases hsending
    | release taskVersionId roundId receiptA receiptB hheld => cases hsending
    | receipt row primaryReceiptId hkind hrelated => cases hsending
    | evidenceReceipt row hkind hrelated => cases hsending
    | stateAccepted taskVersionId eventId hkind htask hrelated => cases hsending
    | sending nextAttemptAt hpending => exact .inr ⟨o, ho, rfl, hpending, nextAttemptAt, rfl⟩
    | deliveredHere hsent => cases hsending
    | delivered => cases hsending
    | undelivered status attempts retryAt lastError => rcases hfact.2 with rfl | rfl <;> cases hsending
    | claim ids marker now hid hfree => exact absurd hfree (by rw [hC o ho hid]; nofun)
  · rcases (hadded.fresh hfact).1 with hs | hs <;> rw [hs] at hsending <;> cases hsending

theorem DeliveryKept.advance {env : Env} (hmode : env.archiveMode ≠ .d1) {w w' : PortalState} (h : DeliveryKept env w)
    {i : Nat} {x : Outside} {request : Request} {c : Write} {next : Outside → Store → Call Unit}
    (hp : w.programs[i]? = some (request, .access (some c) next))
    (hprograms : w'.programs = w.programs.set i (request, next x w.store)) (hstore : w'.store = c.exec x w.store)
    (hlog : w'.log = w.log ++ [⟨i, x, c, w.store⟩]) (hfact : c.Fact w.store) (hC : ArchiveUndisturbed x c w.store) :
    (∀ o ∈ w'.store.outbox, o.status = .sent → w'.store.HasBlobs o) ∧
      ∀ o ∈ w'.store.outbox, o.status = .sending → Underway w' o.id := by
  have hdelivers : Delivers env request c x w.store (next x w.store) :=
    (h.always _ (List.mem_of_getElem? hp) x w.store).1 c rfl
  have hself : w'.programs[i]? = some (request, next x w.store) := by
    rw [hprograms, List.getElem?_set_self (List.getElem?_eq_some_iff.1 hp).1]
  -- a row that stays on its way keeps its worker, and the worker that advances has not ended it
  have hstays : ∀ o ∈ w'.store.outbox, o.status = .sending → Underway w o.id → Underway w' o.id := by
    rintro o ho hsending ⟨j, p, hj, hcomes, e, he, hprogram, htakes⟩
    have he' : e ∈ w'.log := by
      rw [hlog]
      exact List.mem_append_left _ he
    by_cases hij : i = j
    · subst hij
      obtain ⟨rfl, rfl⟩ := Prod.mk.inj (Option.some.inj (hp.symm.trans hj))
      refine ⟨i, _, hself, ?_, e, he', hprogram, htakes⟩
      cases hcomes with
      | now hends =>
        rw [hstore] at ho
        exact absurd hsending (c.ended h.kept.1.keys hfact hends o ho rfl)
      | later hlater => exact hlater x w.store
    · refine ⟨j, p, ?_, hcomes, e, he', hprogram, htakes⟩
      rw [hprograms, List.getElem?_set_ne hij]
      exact hj
  obtain ⟨hsame, -⟩ | ⟨s', happly, -, hexec, -⟩ := c.exec_cases x w.store
  · rw [hsame] at hstore
    refine ⟨?_, fun o ho hsending => hstays o ho hsending ?_⟩
    · rw [hstore]
      exact h.archived
    · rw [hstore] at ho
      exact h.underway o ho hsending
  · have hg : w.store.Grows s' := hexec ▸ c.exec_grows x h.kept.1.keys
    rw [hexec] at hstore
    refine ⟨?_, fun o' ho' hsending => ?_⟩
    · rw [hstore]
      refine archived_step h.kept.1 hfact hC (fun id hc => ?_) happly hg h.archived
      subst hc
      exact hmode hdelivers
    · have hmem : o' ∈ s'.outbox := hstore ▸ ho'
      obtain hsame | ⟨o, ho, hid, hpending, nextAttemptAt, rfl⟩ := sending_cases hfact hC happly hmem hsending
      · exact hstays o' ho' hsending (h.underway o' hsame hsending)
      · obtain ⟨rfl, hcomes⟩ := hdelivers
        refine ⟨i, _, hself, hid ▸ hcomes ?_ hmode, ⟨i, x, .sending o.id nextAttemptAt, w.store⟩, ?_, rfl, ?_⟩
        · refine le_antisymm (h.kept.1.keys.outbox.outbox.changes_le_one (k := o.id) (fun r _ hr => ?_)) ?_
          · exact of_decide_eq_true (Bool.and_eq_true_iff.1 hr).1
          · exact List.countP_pos_iff.2 ⟨o, ho, by simp [hpending]⟩
        · rw [hlog]
          exact List.mem_append_right _ (List.mem_singleton.2 rfl)
        · rw [← hid]
          exact decide_eq_true rfl

theorem DeliveryKept.step {env : Env} (hmode : env.archiveMode ≠ .d1) {w w' : PortalState} {a : Action Outside Request}
    (h : DeliveryKept env w) (hC : DeliveryUndisturbed w a) (hs : w.step portal (handle env) a = some w') :
    DeliveryKept env w' := by
  have hturns := turns_of_step hs
  have hkept := (h.kept.step (handle_obeys env) hs).1
  have halways := hturns.always (handle_delivers env) h.always
  cases hturns with
  | started request hprograms hstore hlog =>
    refine ⟨hkept, halways, hstore ▸ h.archived, fun o ho hsending => ?_⟩
    obtain ⟨i, p, hi, hcomes, e, he, hentry⟩ := h.underway o (hstore ▸ ho) hsending
    refine ⟨i, p, ?_, hcomes, e, hlog ▸ he, hentry⟩
    rw [hprograms, List.getElem?_append_left (List.getElem?_eq_some_iff.1 hi).1]
    exact hi
  | stopped i q hq hprograms hstore hlog =>
    refine ⟨hkept, halways, hstore ▸ h.archived, fun o ho hsending => ?_⟩
    rw [hstore] at ho
    obtain ⟨j, p, hj, hcomes, e, he, hprogram, htakes⟩ := h.underway o ho hsending
    refine ⟨j, p, ?_, hcomes, e, hlog ▸ he, hprogram, htakes⟩
    rw [hprograms, List.getElem?_set_ne (fun hij => ?_)]
    · exact hj
    · exact absurd htakes (by rw [hC.2 e he (hprogram.trans hij.symm) o ho hsending]; nofun)
  | advanced i x request c next hp hprograms hstore hlog =>
    cases c with
    | none =>
      have hsame : w'.store = w.store := hstore
      refine ⟨hkept, halways, hsame ▸ h.archived, fun o ho hsending => ?_⟩
      obtain ⟨j, p, hj, hcomes, e, he, hentry⟩ := h.underway o (hsame ▸ ho) hsending
      have he' : e ∈ w'.log := by
        rw [hlog]
        exact List.mem_append_left _ he
      by_cases hij : i = j
      · subst hij
        obtain ⟨rfl, rfl⟩ := Prod.mk.inj (Option.some.inj (hp.symm.trans hj))
        refine ⟨i, next x w.store, ?_, ?_, e, he', hentry⟩
        · rw [hprograms, List.getElem?_set_self (List.getElem?_eq_some_iff.1 hp).1]
        · cases hcomes with
          | later hlater => exact hlater x w.store
      · refine ⟨j, p, ?_, hcomes, e, he', hentry⟩
        rw [hprograms, List.getElem?_set_ne hij]
        exact hj
    | some c =>
      obtain ⟨P, -, hpre, hobeys⟩ := h.kept.2 _ (List.mem_of_getElem? hp)
      have hfact : c.Fact w.store := (hobeys x w.store h.kept.1 hpre).1 c rfl
      obtain ⟨harchived, hunderway⟩ := h.advance hmode hp hprograms hstore hlog hfact (hC.1 _ hp c rfl)
      exact ⟨hkept, halways, harchived, hunderway⟩

/-! ## Runs -/

/-- **Archiving is neither skipped nor forgotten** where claims take no row, receipts only reach archived rows, and no
worker is stopped in the middle of a delivery. -/
theorem archive_kept {env : Env} (hmode : env.archiveMode ≠ .d1) {w : PortalState}
    (hrun : (portalWorld env).Steps DeliveryUndisturbed portalStart w) : ArchiveKept w := by
  have hstart : DeliveryKept env portalStart :=
    ⟨⟨Store.Sound.empty, fun _ hp => absurd hp List.not_mem_nil⟩, fun _ hp => absurd hp List.not_mem_nil,
      fun _ ho => absurd ho List.not_mem_nil, fun _ ho => absurd ho List.not_mem_nil⟩
  have h := hrun.invariant (I := DeliveryKept env) hstart (fun w a w' h hC hs => h.step hmode hC hs)
  refine ⟨h.archived, fun o ho hstatus => ?_⟩
  obtain hpending | hsending := hstatus
  · refine .inr (fun now hnow hcount => mem_oldest (List.mem_filter.2 ⟨ho, ?_⟩) hcount)
    simp [hpending, hnow]
  · obtain ⟨i, p, hi, hcomes, -⟩ := h.underway o ho hsending
    exact .inl ⟨_, List.mem_of_getElem? hi, rfl, hcomes⟩

/-- The portal with its archive in R2. -/
def archivingEnv : Env := { sampleEnv with archiveMode := .r2 }

/-- A submits, then B. -/
def bothSubmitted : List Part := [.request (annotates "a" .a), .go 0 30, .request (annotates "b" .b), .go 1 32]

/-- A worker has delivered one row, is at the next, and will come to the others. -/
theorem archive_kept_midway : archivingEnv.archiveMode ≠ .d1 ∧ ∃ w,
    (portalWorld archivingEnv).Steps DeliveryUndisturbed portalStart w ∧
      w.store.outbox.map OutboxRow.status = [.sent, .sending, .pending, .pending] ∧ ArchiveKept w := by
  have hmode : archivingEnv.archiveMode ≠ .d1 := by decide
  refine ⟨hmode, ?_⟩
  have hmeets : (portalWorld archivingEnv).runMeets DeliveryUndisturbed portalStart
      (play 0 (bothSubmitted ++ [.request .evidenceOutbox, .go 2 10])) := by decide +kernel
  have hplay : ((portalWorld archivingEnv).run portalStart
      (play 0 (bothSubmitted ++ [.request .evidenceOutbox, .go 2 10]))).any (fun w =>
        decide (w.store.outbox.map OutboxRow.status = [.sent, .sending, .pending, .pending])) = true := by decide +kernel
  obtain ⟨w, hw, hp⟩ := (Option.any_eq_true _ _).1 hplay
  have hrun := Machine.steps_of_run hw hmeets
  exact ⟨w, hrun, of_decide_eq_true hp, archive_kept hmode hrun⟩

/-- The repository takes a row before any worker has run. -/
theorem archive_not_kept : ¬ ∀ env : Env, env.archiveMode ≠ .d1 → ∀ w, (portalWorld env).Reaches portalStart w →
    ArchiveKept w := by
  intro h
  obtain ⟨w, hrun, hp⟩ := reaches_play archivingEnv
    (bothSubmitted ++ [.request (.evidenceReceipt ⟨"import".toList, sampleUuidText 13⟩), .go 2 2])
    (p := fun w => w.store.outbox.any (fun o => decide (o.status = .sent) && !decide (w.store.HasBlobs o)))
    (by decide +kernel)
  obtain ⟨o, ho, hskipped⟩ := List.any_eq_true.1 hp
  simp only [Bool.and_eq_true, decide_eq_true_eq, Bool.not_eq_true', decide_eq_false_iff_not] at hskipped
  exact hskipped.2 ((h archivingEnv (by decide) w hrun).archived o ho hskipped.1)

end Portal
end Adg
