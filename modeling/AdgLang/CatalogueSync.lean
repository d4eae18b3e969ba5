import AdgLang.Attempts
import AdgLang.PortalRows
import AdgLang.PortalRuns
/-!
# CatalogueSync — the repository's catalogue

What a sync leaves in the catalogue stays as it is, and stands for the evidence that its task is bound to, in the runs
in which no sync meets a task that is bound to other evidence (`catalogue_kept`); an envelope that is then answered with
an error has changed nothing.  The final checks of a sync come after its batch: an envelope that holds a packet twice,
its policy written in another order, is answered with an error and registered (`catalogue_not_kept`).
-/
namespace Adg
namespace Portal

open Js Consensus

/-! ## Evidence that agrees -/

/-- The row of `task_versions` that a registration of the packet inserts. -/
def registeredRow (packet : Packet) (packetRoot : Digest) : EvidenceRow :=
  { taskVersionIdentity packet packetRoot with metricPolicyJson := packet.metricPolicy.text }

/-- A stored row is bound to the evidence of `row`: the same identity, and the same policy when it is read again. -/
def agreesWith (e row : EvidenceRow) : Bool :=
  decide (e.toTaskIdentity = row.toTaskIdentity) && (parse e.metricPolicyJson).any (fun v => decide (v.text = row.metricPolicyJson))

theorem agreesWith_self (packet : Packet) (packetRoot : Digest) :
    agreesWith (registeredRow packet packetRoot) (registeredRow packet packetRoot) = true := by
  have hparse : parse packet.metricPolicy.text = some packet.metricPolicy.reread := parse_text (metricPolicy_json packet)
  simp [agreesWith, registeredRow, hparse, Value.text_reread]

theorem root_of_agrees {e row : EvidenceRow} (h : agreesWith e row = true) : e.id = row.id ∧
    e.packetMerkleRoot = row.packetMerkleRoot := by
  simp only [agreesWith, Bool.and_eq_true, decide_eq_true_eq] at h
  rw [h.1]
  exact ⟨rfl, rfl⟩

theorem matches_of_agrees {e : EvidenceRow} {packet : Packet} {packetRoot : Digest}
    (h : agreesWith e (registeredRow packet packetRoot) = true) :
    consensusTaskMatches (some e) (taskVersionIdentity packet packetRoot) packet.metricPolicy = .ok true := by
  have hid : e.id = (taskVersionIdentity packet packetRoot).id := (root_of_agrees h).1
  simp only [agreesWith, Bool.and_eq_true, decide_eq_true_eq] at h
  obtain ⟨v, hv, htext⟩ := (Option.any_eq_true _ _).1 h.2
  rw [consensusTaskMatches, if_pos ((hasIdentity_iff hid).2 h.1), hv]
  exact congrArg Except.ok htext

/-! ## A batch -/

/-- Where a sync is run, the tasks that it registers are bound to no other evidence: none is stored under their
identifiers, save where the catalogue refuses the manifest anyway, and none comes with another manifest of the envelope
that the catalogue would not tell apart. -/
def SyncAgrees (_ : Outside) (w : Write) (s : Store) : Prop :=
  match w with
  | .sync items _ _ => ∀ item ∈ items, ∀ row ∈ item.registration,
      (∀ e ∈ s.evidence.rows, e.id = row.id →
        (∀ r ∈ s.catalogue, r.taskVersionId = row.id → r.mayBecome item.row = true) → agreesWith e row = true) ∧
      ∀ other ∈ items, ∀ e ∈ other.registration, e.id = row.id → other.row.mayBecome item.row = true →
        agreesWith e row = true
  | _ => True

instance (x : Outside) (w : Write) (s : Store) : Decidable (SyncAgrees x w s) := by
  induction w using Write.casesOn with
  | sync items row now =>
    exact inferInstanceAs (Decidable (∀ item ∈ items, ∀ row ∈ item.registration,
      (∀ e ∈ s.evidence.rows, e.id = row.id →
        (∀ r ∈ s.catalogue, r.taskVersionId = row.id → r.mayBecome item.row = true) → agreesWith e row = true) ∧
      ∀ other ∈ items, ∀ e ∈ other.registration, e.id = row.id → other.row.mayBecome item.row = true →
        agreesWith e row = true))
  | _ => exact .isTrue trivial

theorem mayBecome_iff {r new : CatalogueRow} (htask : r.taskVersionId = new.taskVersionId) : r.mayBecome new = true ↔
    CatalogueGrows r new := by
  simp only [CatalogueRow.mayBecome, Bool.and_eq_true, decide_eq_true_eq, Bool.not_eq_true', Bool.and_eq_false_iff,
    decide_eq_false_iff_not]
  constructor
  · rintro ⟨⟨⟨⟨⟨⟨⟨h1, h2⟩, h3⟩, h4⟩, h5⟩, h6⟩, h7⟩, h8⟩
    refine ⟨htask.symm, h1.symm, h2.symm, h3.symm, h4.symm, h5.symm, h6.symm, h7.symm, fun hw => ?_⟩
    cases hnew : new.status with
    | withdrawn => rfl
    | active => exact absurd hw (h8.resolve_right (fun hne => hne hnew))
  · intro h
    refine ⟨⟨⟨⟨⟨⟨⟨h.packet.symm, h.root.symm⟩, h.manifest.symm⟩, h.mode.symm⟩, h.lane.symm⟩, h.repository.symm⟩,
      h.path.symm⟩, ?_⟩
    by_cases hw : r.status = .withdrawn
    · exact .inr (by rw [h.withdrawn hw]; decide)
    · exact .inl hw

/-- What an upsert that goes through leaves: its row, next to what stood there. -/
theorem upsertCatalogue_spec {s s' : Store} {new : CatalogueRow} (hkeyed : s.CatalogueKeyed)
    (h : s.upsertCatalogue new = some s') :
    (∀ r ∈ s.catalogue, r.taskVersionId = new.taskVersionId → CatalogueGrows r new) ∧
      (∃ r ∈ s'.catalogue, CatalogueGrows new r) ∧
      ∀ r ∈ s'.catalogue, (∃ r₀ ∈ s.catalogue, CatalogueGrows r₀ r) ∨
        (r = new ∧ ∀ r₀ ∈ s.catalogue, r₀.taskVersionId ≠ new.taskVersionId) := by
  unfold Store.upsertCatalogue at h
  split at h
  · rename_i hnone
    have hnot := Table.lookup_none_iff.1 hnone
    split at h
    · obtain rfl := Option.some.inj h
      refine ⟨fun r hr htask => absurd htask (hnot r hr), ⟨new, by simp, .refl new⟩, fun r hr => ?_⟩
      rcases List.mem_append.1 hr with hr | hr
      · exact .inl ⟨r, hr, .refl r⟩
      · exact .inr ⟨List.mem_singleton.1 hr, hnot⟩
    · cases h
  · rename_i r hr
    obtain ⟨hmem, hkey⟩ := Table.lookup_some hr
    split at h
    · rename_i hmay
      obtain rfl := Option.some.inj h
      have hgrows : CatalogueGrows r new := (mayBecome_iff hkey).1 hmay
      have hone : ∀ r₀ ∈ s.catalogue, r₀.taskVersionId = new.taskVersionId → r₀ = r :=
        fun r₀ hr₀ htask => hkeyed.eq_of_key hr₀ hmem (htask.trans hkey.symm)
      have hrow : ∀ r₀ ∈ s.catalogue, r₀.taskVersionId = new.taskVersionId →
          { r₀ with manifestJson := new.manifestJson, status := new.status } = new := by
        intro r₀ hr₀ htask
        obtain rfl := hone r₀ hr₀ htask
        obtain ⟨h1, h2, h3, h4, h5, h6, h7, h8, -⟩ := hgrows
        cases new
        simp_all
      refine ⟨fun r₀ hr₀ htask => hone r₀ hr₀ htask ▸ hgrows, ⟨new, ?_, .refl new⟩, fun r' hr' => ?_⟩
      · exact Table.mem_update.2 ⟨r, hmem, by rw [decide_eq_true hkey, if_pos rfl, hrow r hmem hkey]⟩
      · obtain ⟨r₀, hr₀, rfl⟩ := Table.mem_update.1 hr'
        by_cases htask : r₀.taskVersionId = new.taskVersionId
        · rw [decide_eq_true htask, if_pos rfl, hrow r₀ hr₀ htask]
          exact .inl ⟨r₀, hr₀, hone r₀ hr₀ htask ▸ hgrows⟩
        · rw [decide_eq_false htask, if_neg (by simp)]
          exact .inl ⟨r₀, hr₀, .refl r₀⟩
    · cases h

/-- Every task is bound to evidence. -/
def Store.TasksBound (s : Store) : Prop := ∀ t ∈ s.tasks, ∃ e ∈ s.evidence.rows, e.id = t.id

/-- A registration that goes through leaves its task bound. -/
theorem register_spec {s s' : Store} {row : EvidenceRow} {now : Nat} (hbound : s.TasksBound)
    (h : s.register row now = some s') : s'.TasksBound ∧ s'.catalogue = s.catalogue ∧ s'.syncs = s.syncs ∧
      (∃ e ∈ s'.evidence.rows, e.id = row.id) ∧ (∃ t ∈ s'.tasks, t.id = row.id) ∧
        ∀ e ∈ s'.evidence.rows, e ∈ s.evidence.rows ∨ e = row := by
  have heq := register_eq h
  have hmem : ∀ e ∈ s'.evidence.rows, e ∈ s.evidence.rows ∨ e = row := by
    intro e he
    rw [heq] at he
    exact mem_insertOrIgnore he
  have htask : ∃ t ∈ s'.tasks, t.id = row.id := by
    rw [heq]
    exact (register_stands s.db row.id now).1
  have hevidence : ∃ e ∈ s'.evidence.rows, e.id = row.id := by
    rw [heq]
    by_cases hclash : s.evidence.rows.any row.clashes = true
    · -- the row is ignored, and the round of a task that is not there would be refused
      have hstands : s.tasks.any (fun t => decide (t.id = row.id)) = true := by
        unfold Store.register at h
        rw [hclash, Bool.true_and] at h
        split at h
        · cases h
        · rename_i hnot
          simpa using hnot
      obtain ⟨t, ht, hid⟩ := List.any_eq_true.1 hstands
      obtain ⟨e, he, hee⟩ := hbound t ht
      exact ⟨e, subset_insertOrIgnore he, hee.trans (of_decide_eq_true hid)⟩
    · refine ⟨row, ?_, rfl⟩
      simp only [EvidenceTable.insert, insertOrIgnore, if_neg hclash]
      exact List.mem_append_right _ (List.mem_singleton.2 rfl)
  refine ⟨fun t ht => ?_, by rw [heq]; rfl, by rw [heq]; rfl, hevidence, htask, hmem⟩
  rw [heq] at ht
  rcases mem_insertOrIgnore ht with ht | rfl
  · obtain ⟨e, he, hid⟩ := hbound t ht
    exact ⟨e, (register_grows h).evidence he, hid⟩
  · exact hevidence

theorem mayBecome_of_prepared {s : Store} {item other : SyncItem} {row e : EvidenceRow} (hitem : s.Prepared item)
    (hother : s.Prepared other) (hrow : item.registration = some row) (he : other.registration = some e)
    (hid : e.id = row.id) : item.row.taskVersionId = row.id ∧ other.row.taskVersionId = item.row.taskVersionId := by
  unfold Store.Prepared at hitem hother
  rw [hrow] at hitem
  rw [he] at hother
  obtain ⟨-, -, -, htask, -⟩ := hitem
  obtain ⟨-, -, -, htask', -⟩ := hother
  exact ⟨htask, htask'.trans (hid.trans htask.symm)⟩

/-- What the first items of a batch leave of the tables that it found. -/
structure Synced (s : Store) (done : List SyncItem) (s₁ : Store) : Prop where
  keyed : s₁.CatalogueKeyed
  grows : s.Grows s₁
  tasks : s₁.TasksBound
  evidence : ∀ e ∈ s₁.evidence.rows, e ∈ s.evidence.rows ∨ ∃ item ∈ done, item.registration = some e
  placed : ∀ item ∈ done, ∃ r ∈ s₁.catalogue, CatalogueGrows item.row r
  catalogue : ∀ r ∈ s₁.catalogue, (∃ r₀ ∈ s.catalogue, CatalogueGrows r₀ r) ∨
    ∃ item ∈ done, item.registration ≠ none ∧ CatalogueGrows item.row r
  bound : ∀ item ∈ done, ∀ row, item.registration = some row →
    (∃ e ∈ s₁.evidence.rows, agreesWith e row = true) ∧ ∃ t ∈ s₁.tasks, t.id = row.id

section Batch

variable {s : Store} {items : List SyncItem} {syncRow : SyncRow} {now : Nat} {x : Outside}
  (hprepared : ∀ item ∈ items, s.Prepared item) (hagrees : SyncAgrees x (.sync items syncRow now) s)
include hprepared hagrees

/-- The row that stands for a registered task agrees with its manifest. -/
theorem Synced.agrees {done : List SyncItem} {s₁ : Store} (h : Synced s done s₁) (hdone : ∀ item ∈ done, item ∈ items)
    {item : SyncItem} (hitem : item ∈ items) {row e : EvidenceRow} (hrow : item.registration = some row)
    (hgrows : ∀ r ∈ s₁.catalogue, r.taskVersionId = item.row.taskVersionId → CatalogueGrows r item.row)
    (he : e ∈ s₁.evidence.rows ∨ e = row) (hid : e.id = row.id) : agreesWith e row = true := by
  have hok := hprepared item hitem
  unfold Store.Prepared at hok
  rw [hrow] at hok
  obtain ⟨packet, root, heq, htask, -⟩ := hok
  rcases he with he | rfl
  · obtain ⟨hstored, hcome⟩ := hagrees item hitem row hrow
    obtain he | ⟨other, hother, hregistered⟩ := h.evidence e he
    · refine hstored e he hid (fun r hr hrid => (mayBecome_iff (hrid.trans htask.symm)).2 ?_)
      obtain ⟨r₁, hr₁, hrr⟩ := h.grows.catalogue r hr
      exact hrr.trans _ _ _ (hgrows r₁ hr₁ (hrr.task.trans (hrid.trans htask.symm)))
    · obtain ⟨-, hsame⟩ := mayBecome_of_prepared (hprepared item hitem) (hprepared other (hdone other hother)) hrow
        hregistered hid
      obtain ⟨r, hr, hrr⟩ := h.placed other hother
      refine hcome other (hdone other hother) e hregistered hid ((mayBecome_iff hsame).2 ?_)
      exact hrr.trans _ _ _ (hgrows r hr (hrr.task.trans hsame))
  · rw [heq]
    exact agreesWith_self packet root

theorem Synced.item {done : List SyncItem} {s₁ s₂ : Store} (h : Synced s done s₁) (hdone : ∀ item ∈ done, item ∈ items)
    {item : SyncItem} (hitem : item ∈ items) (hs : s₁.syncItem now item = some s₂) : Synced s (done ++ [item]) s₂ := by
  have hok := hprepared item hitem
  obtain ⟨hgrows₂, hkeyed₂⟩ := syncItem_grows h.keyed hs
  have hold : ∀ other ∈ done, ∀ row, other.registration = some row →
      (∃ e ∈ s₂.evidence.rows, agreesWith e row = true) ∧ ∃ t ∈ s₂.tasks, t.id = row.id := by
    intro other hother row hrow
    obtain ⟨⟨e, he, hagree⟩, t, ht, hid⟩ := h.bound other hother row hrow
    obtain ⟨t', ht', htt⟩ := hgrows₂.tasks t ht
    exact ⟨⟨e, hgrows₂.evidence he, hagree⟩, t', ht', htt.id.trans hid⟩
  -- the tables that the upsert finds
  obtain ⟨s', hs', hupsert, htasks', hcatalogue', hevidence', hbound'⟩ : ∃ s' : Store, s'.CatalogueKeyed ∧
      s'.upsertCatalogue item.row = some s₂ ∧ s'.TasksBound ∧ s'.catalogue = s₁.catalogue ∧
        (∀ e ∈ s'.evidence.rows, e ∈ s₁.evidence.rows ∨ item.registration = some e) ∧
          ∀ row, item.registration = some row →
            (∃ e ∈ s'.evidence.rows, e.id = row.id) ∧ ∃ t ∈ s'.tasks, t.id = row.id := by
    unfold Store.syncItem at hs
    split at hs
    · rename_i hnone
      exact ⟨s₁, h.keyed, hs, h.tasks, rfl, fun _ he => .inl he, fun row hrow => by rw [hnone] at hrow; cases hrow⟩
    · rename_i row hrow
      obtain ⟨s', hregister, hupsert⟩ := Option.bind_eq_some_iff.1 hs
      obtain ⟨htasks, hcatalogue, -, hevidence, htask, hmem⟩ := register_spec h.tasks hregister
      refine ⟨s', ?_, hupsert, htasks, hcatalogue, fun e he => ?_, fun row' hrow' => ?_⟩
      · rw [Store.CatalogueKeyed, hcatalogue]
        exact h.keyed
      · exact (hmem e he).imp_right (fun heq => by rw [hrow, heq])
      · obtain rfl := Option.some.inj (hrow.symm.trans hrow')
        exact ⟨hevidence, htask⟩
  obtain ⟨hgrown, hplaced, hfrom⟩ := upsertCatalogue_spec hs' hupsert
  have heq := upsertCatalogue_eq hupsert
  have hevidence₂ : s₂.evidence = s'.evidence := by rw [heq]
  have htasks₂ : s₂.tasks = s'.tasks := by rw [heq]
  refine ⟨hkeyed₂, h.grows.trans hgrows₂, ?_, fun e he => ?_, fun other hother => ?_, fun r hr => ?_,
    fun other hother => ?_⟩
  · unfold Store.TasksBound
    rw [htasks₂, hevidence₂]
    exact htasks'
  · rw [hevidence₂] at he
    obtain he | hrow := hevidence' e he
    · exact (h.evidence e he).imp_right (Exists.imp fun _ h => ⟨List.mem_append_left _ h.1, h.2⟩)
    · exact .inr ⟨item, by simp, hrow⟩
  · rcases List.mem_append.1 hother with hother | hother
    · obtain ⟨r, hr, hrr⟩ := h.placed other hother
      obtain ⟨r', hr', hrr'⟩ := hgrows₂.catalogue r hr
      exact ⟨r', hr', hrr.trans _ _ _ hrr'⟩
    · rw [List.mem_singleton.1 hother]
      exact hplaced
  · obtain ⟨r₀, hr₀, hrr⟩ | ⟨rfl, hnew⟩ := hfrom r hr
    · rw [hcatalogue'] at hr₀
      obtain ⟨r₁, hr₁, hrr₁⟩ | ⟨other, hother, hreg, hrr₁⟩ := h.catalogue r₀ hr₀
      · exact .inl ⟨r₁, hr₁, hrr₁.trans _ _ _ hrr⟩
      · exact .inr ⟨other, List.mem_append_left _ hother, hreg, hrr₁.trans _ _ _ hrr⟩
    · refine .inr ⟨item, by simp, fun hnone => ?_, .refl _⟩
      -- a withdrawal stands for a row that was there
      unfold Store.Prepared at hok
      rw [hnone] at hok
      obtain ⟨r₀, hr₀, htask⟩ := hok
      obtain ⟨r₁, hr₁, hrr⟩ := h.grows.catalogue r₀ hr₀
      exact hnew r₁ (hcatalogue' ▸ hr₁) (hrr.task.trans htask)
  · rcases List.mem_append.1 hother with hother | hother
    · exact hold other hother
    · obtain rfl := List.mem_singleton.1 hother
      intro row hrow
      obtain ⟨⟨e, he, hid⟩, htask⟩ := hbound' row hrow
      rw [hevidence₂, htasks₂]
      refine ⟨⟨e, he, h.agrees hprepared hagrees hdone hitem hrow (fun r hr => hgrown r (hcatalogue' ▸ hr)) ?_ hid⟩, htask⟩
      exact (hevidence' e he).imp_right (fun hreg => Option.some.inj (hreg.symm.trans hrow))

theorem Synced.fold : ∀ {rest done : List SyncItem} {s₁ s₂ : Store}, (∀ item ∈ done ++ rest, item ∈ items) →
    Synced s done s₁ → rest.foldlM (fun s item => Store.syncItem s now item) s₁ = some s₂ → Synced s (done ++ rest) s₂
  | [], done, s₁, s₂, _, h, hs => by
    obtain rfl := Option.some.inj hs
    rw [List.append_nil]
    exact h
  | item :: rest, done, s₁, s₂, hmem, h, hs => by
    rw [List.foldlM_cons] at hs
    obtain ⟨s', h₁, h₂⟩ := Option.bind_eq_some_iff.1 hs
    have hitem := h.item hprepared hagrees (fun item hi => hmem item (List.mem_append_left _ hi)) (hmem item (by simp)) h₁
    have hmem' : ∀ item' ∈ done ++ [item] ++ rest, item' ∈ items := fun item' hi => hmem item' (by simpa using hi)
    have hrest := Synced.fold hmem' hitem h₂
    simpa using hrest

theorem synced {s₂ : Store} (hkeyed : s.CatalogueKeyed) (htasks : s.TasksBound)
    (hs : items.foldlM (fun s item => Store.syncItem s now item) s = some s₂) : Synced s items s₂ := by
  have hstart : Synced s [] s := by
    refine ⟨hkeyed, .refl s, htasks, fun e he => .inl he, fun _ h => absurd h List.not_mem_nil,
      fun r hr => .inl ⟨r, hr, .refl r⟩, fun _ h => absurd h List.not_mem_nil⟩
  exact Synced.fold hprepared hagrees (fun item hi => hi) hstart hs

end Batch

/-! ## The catalogue over a run -/

/-- A row of the catalogue stands for the root that its task is bound to. -/
def Store.CatalogueBound (s : Store) : Prop :=
  ∀ r ∈ s.catalogue, ∃ e ∈ s.evidence.rows, e.id = r.taskVersionId ∧ e.packetMerkleRoot = r.packetMerkleRoot

theorem Store.CatalogueBound.grows {s s' : Store} (h : s.CatalogueBound) (hg : s.Grows s')
    (hrows : ∀ r ∈ s'.catalogue, ∃ r₀ ∈ s.catalogue, CatalogueGrows r₀ r) : s'.CatalogueBound := by
  intro r hr
  obtain ⟨r₀, hr₀, hrr⟩ := hrows r hr
  obtain ⟨e, he, hid, hroot⟩ := h r₀ hr₀
  exact ⟨e, hg.evidence he, hid.trans hrr.task.symm, hroot.trans hrr.root.symm⟩

/-- A sync that commits leaves tasks that are bound, catalogue rows that stand for their roots, and every task that it
registers bound to the evidence of its manifest. -/
theorem sync_spec {s s' : Store} {x : Outside} {items : List SyncItem} {row : SyncRow} {now : Nat} (h : s.Sound)
    (hprepared : ∀ item ∈ items, s.Prepared item) (hagrees : SyncAgrees x (.sync items row now) s)
    (happly : (Write.sync items row now).apply x.uuid.1 s = some s') (htasks : s.TasksBound) (hbound : s.CatalogueBound) :
    s'.TasksBound ∧ s'.CatalogueBound ∧ ∀ item ∈ items, ∀ row, item.registration = some row →
      (∃ e ∈ s'.evidence.rows, agreesWith e row = true) ∧ ∃ t ∈ s'.tasks, t.id = row.id := by
  obtain ⟨s₁, h₁, rfl⟩ := Option.map_eq_some_iff.1 happly
  have hsynced := synced hprepared hagrees h.keys.assignment.catalogue htasks h₁
  refine ⟨hsynced.tasks, fun r hr => ?_, hsynced.bound⟩
  obtain ⟨r₀, hr₀, hrr⟩ | ⟨item, hitem, hregistration, hrr⟩ := hsynced.catalogue r hr
  · obtain ⟨e, he, hid, hroot⟩ := hbound r₀ hr₀
    exact ⟨e, hsynced.grows.evidence he, hid.trans hrr.task.symm, hroot.trans hrr.root.symm⟩
  · have hok := hprepared item hitem
    unfold Store.Prepared at hok
    cases hreg : item.registration with
    | none => exact absurd hreg hregistration
    | some row' =>
      rw [hreg] at hok
      obtain ⟨packet, root, heq, htask, hroot⟩ := hok
      obtain ⟨⟨e, he, hagree⟩, -⟩ := hsynced.bound item hitem row' hreg
      obtain ⟨hid, hsame⟩ := root_of_agrees hagree
      refine ⟨e, he, hid.trans (htask.symm.trans hrr.task.symm), hsame.trans ?_⟩
      rw [hrr.root, hroot, heq]
      rfl

/-- Only a sync writes the catalogue. -/
theorem Write.catalogue_eq {uuid : Text} {w : Write} {s s' : Store} (happly : w.apply uuid s = some s')
    (hsync : ∀ items row now, w ≠ .sync items row now) : s'.catalogue = s.catalogue := by
  cases w with
  | sync items row now => exact absurd rfl (hsync items row now)
  | register row now =>
    rw [register_eq happly]
    rfl
  | transition task tr =>
    obtain ⟨r, -, rfl⟩ := Option.map_eq_some_iff.1 happly
    rfl
  | openRound reason currentRound reissued =>
    have hs : s.openRound reason currentRound reissued = some s' := happly
    unfold Store.openRound at hs
    split at hs
    · obtain rfl := Option.some.inj hs
      rfl
    · cases hs
  | _ =>
    obtain rfl := Option.some.inj happly
    rfl

/-- Only registrations add tasks. -/
theorem Write.tasksBound {x : Outside} {w : Write} {s s' : Store} (h : s.Sound) (hfact : w.Fact s)
    (happly : w.apply x.uuid.1 s = some s') (hsync : ∀ items row now, w ≠ .sync items row now) (htasks : s.TasksBound) :
    s'.TasksBound := by
  have hg : s.Grows s' := w.apply_grows h.keys.assignment.catalogue happly
  have hold : (∀ t ∈ s'.tasks, ∃ t₀ ∈ s.tasks, t.id = t₀.id) → s'.TasksBound := by
    intro hids t ht
    obtain ⟨t₀, ht₀, hid⟩ := hids t ht
    obtain ⟨e, he, hee⟩ := htasks t₀ ht₀
    exact ⟨e, hg.evidence he, hee.trans hid.symm⟩
  cases w with
  | sync items row now => exact absurd rfl (hsync items row now)
  | register row now => exact (register_spec htasks happly).1
  | transition task tr =>
    refine hold (fun t ht => ?_)
    obtain rfl | ⟨row, hm⟩ := transition_cases h hfact.2.2 happly
    · exact ⟨t, ht, rfl⟩
    · obtain ⟨ht, -⟩ | rfl := hm.of_mem h ht
      · exact ⟨t, ht, rfl⟩
      · exact ⟨row, hm.mem, rfl⟩
  | openRound reason currentRound reissued =>
    refine hold (fun t ht => ?_)
    have hs : s.openRound reason currentRound reissued = some s' := happly
    unfold Store.openRound at hs
    split at hs
    · obtain rfl := Option.some.inj hs
      obtain ⟨t₀, ht₀, rfl⟩ := Table.mem_update.1 ht
      exact ⟨t₀, ht₀, by split <;> rfl⟩
    · cases hs
  | _ =>
    obtain rfl := Option.some.inj happly
    exact htasks

theorem catalogue_step {x : Outside} {w : Write} {s s' : Store} (h : s.Sound) (hfact : w.Fact s)
    (hagrees : SyncAgrees x w s) (happly : w.apply x.uuid.1 s = some s') (hi : s.TasksBound ∧ s.CatalogueBound) :
    s'.TasksBound ∧ s'.CatalogueBound := by
  by_cases hsync : ∃ items row now, w = .sync items row now
  · obtain ⟨items, row, now, rfl⟩ := hsync
    obtain ⟨htasks, hcatalogue, -⟩ := sync_spec h hfact hagrees happly hi.1 hi.2
    exact ⟨htasks, hcatalogue⟩
  · have hne : ∀ items row now, w ≠ .sync items row now := fun items row now hw => hsync ⟨items, row, now, hw⟩
    refine ⟨w.tasksBound h hfact happly hne hi.1, hi.2.grows (w.apply_grows h.keys.assignment.catalogue happly) ?_⟩
    rw [w.catalogue_eq happly hne]
    exact fun r hr => ⟨r, hr, .refl r⟩

/-! ## A sync that fails -/

/-- The tables of the catalogue and of the tasks are as they were. -/
def Untouched (s s' : Store) : Prop :=
  s'.catalogue = s.catalogue ∧ s'.tasks = s.tasks ∧ s'.evidence.rows = s.evidence.rows ∧ s'.rounds = s.rounds ∧
    s'.events = s.events

instance (s s' : Store) : Decidable (Untouched s s') := by
  unfold Untouched
  infer_instance

/-- The item that a manifest is prepared as. -/
def Manifest.item (m : Manifest) (env : Env) (repository : Str) : SyncItem :=
  ⟨m.row env repository, if m.status = .active then some (registeredRow m.packet (env.computePacketMerkleRoot m.packet))
    else none⟩

section Reads

variable {P : Store → Prop}

theorem reads_ofExcept {α : Type} {mayFail : Prop} {Q : α → Prop} {r : Except StoreError α}
    (hok : ∀ a, r = .ok a → Q a) (herror : ∀ e, r = .error e → mayFail) : (ofExcept r).Reads P mayFail Q := by
  cases r with
  | ok a => exact hok a rfl
  | error e => exact herror e rfl

theorem prepareConsensusTaskRegistration_reads (packet : Packet) (packetRoot : Digest) :
    (prepareConsensusTaskRegistration packet packetRoot).Reads P True (fun row => row = registeredRow packet packetRoot) := by
  refine Program.Reads.bind (Q := fun _ => True) (fun idBinding _ => ?_) (.read fun _ _ => trivial)
  refine Program.Reads.bind (Q := fun _ => True) (fun isBound _ => ?_) (reads_ofExcept (fun _ _ => trivial) fun _ _ => trivial)
  refine Program.Reads.bind (Q := fun _ => True) (fun _ _ => ?_) (.throwIf (fun _ => trivial) fun _ => trivial)
  refine Program.Reads.bind (Q := fun _ => True) (fun packetBinding _ => ?_) (.read fun _ _ => trivial)
  refine Program.Reads.bind (Q := fun _ => True) (fun _ _ => ?_) (.throwIf (fun _ => trivial) fun _ => trivial)
  exact rfl

theorem prepareSyncItem_reads (env : Env) (repository : Str) (m : Manifest) :
    (prepareSyncItem env repository m).Reads P True (fun item => item = m.item env repository) := by
  refine Program.Reads.bind (Q := fun _ => True) (fun rows _ => ?_) (.read fun _ _ => trivial)
  refine Program.Reads.bind (Q := fun _ => True) (fun _ _ => ?_) (.throwIf (fun _ => trivial) fun _ => trivial)
  refine Program.Reads.bind (Q := fun _ => True) (fun _ _ => ?_) (.throwIf (fun _ => trivial) fun _ => trivial)
  refine Program.Reads.bind (Q := fun _ => True) (fun _ _ => ?_) (.throwIf (fun _ => trivial) fun _ => trivial)
  refine Program.Reads.bind (Q := fun _ => True) (fun _ _ => ?_) (.throwIf (fun _ => trivial) fun _ => trivial)
  by_cases hactive : m.status = .active
  · rw [if_pos hactive]
    refine Program.Reads.bind (fun row hrow => ?_) (prepareConsensusTaskRegistration_reads m.packet _)
    rw [hrow]
    show _ = m.item env repository
    rw [Manifest.item, if_pos hactive]
  · rw [if_neg hactive]
    show _ = m.item env repository
    rw [Manifest.item, if_neg hactive]

theorem prepareSyncItems_reads (env : Env) (repository : Str) : ∀ manifests : List Manifest,
    (prepareSyncItems env repository manifests).Reads P True
      (fun items => items = manifests.map (fun m => m.item env repository))
  | [] => rfl
  | m :: manifests => by
    refine Program.Reads.bind (fun item hitem => ?_) (prepareSyncItem_reads env repository m)
    refine Program.Reads.bind (fun items hitems => ?_) (prepareSyncItems_reads env repository manifests)
    rw [hitem, hitems]
    exact rfl

end Reads

/-- The task of the packet is bound to its evidence. -/
def Store.BindsPacket (s : Store) (packet : Packet) (packetRoot : Digest) : Prop :=
  (∃ e ∈ s.evidence.rows, agreesWith e (registeredRow packet packetRoot) = true) ∧
    ∃ t ∈ s.tasks, t.id = (taskVersionIdentity packet packetRoot).id

theorem Store.BindsPacket.grows {s s' : Store} {packet : Packet} {packetRoot : Digest} (hg : s.Grows s')
    (h : s.BindsPacket packet packetRoot) : s'.BindsPacket packet packetRoot := by
  obtain ⟨⟨e, he, hagree⟩, t, ht, hid⟩ := h
  obtain ⟨t', ht', htt⟩ := hg.tasks t ht
  exact ⟨⟨e, hg.evidence he, hagree⟩, t', ht', htt.id.trans hid⟩

theorem Store.BindsPacket.found {s : Store} {packet : Packet} {packetRoot : Digest} (h : s.BindsPacket packet packetRoot) :
    consensusTaskMatches (s.binding (taskVersionIdentity packet packetRoot).id) (taskVersionIdentity packet packetRoot)
        packet.metricPolicy = .ok true ∧
      ∃ task, s.task (taskVersionIdentity packet packetRoot).id = some task ∧
        task.id = (taskVersionIdentity packet packetRoot).id := by
  obtain ⟨⟨e, he, hagree⟩, t, ht, hid⟩ := h
  have hbinding : s.binding (taskVersionIdentity packet packetRoot).id = some e :=
    s.evidence.ids.lookup_eq_some_iff.2 ⟨he, (root_of_agrees hagree).1⟩
  refine ⟨by rw [hbinding]; exact matches_of_agrees hagree, ?_⟩
  unfold Store.task Db.task
  cases hl : Table.lookup TaskRow.id (taskVersionIdentity packet packetRoot).id s.db.tasks with
  | none => exact absurd hid (Table.lookup_none_iff.1 hl t ht)
  | some row => exact ⟨_, rfl, (Table.lookup_some hl).2⟩

/-- The final checks of a task that is bound go through. -/
theorem assertConsensusTaskRegistration_reads {P : Store → Prop} {packet : Packet} {packetRoot : Digest}
    (hP : ∀ s, P s → s.BindsPacket packet packetRoot) : (assertConsensusTaskRegistration packet packetRoot).Reads P False
      (fun task => task.id = (taskVersionIdentity packet packetRoot).id) := by
  refine Program.Reads.bind (Q := fun found =>
    consensusTaskMatches found.1 (taskVersionIdentity packet packetRoot) packet.metricPolicy = .ok true ∧
      ∃ task, found.2 = some task ∧ task.id = (taskVersionIdentity packet packetRoot).id) (fun found hfound => ?_)
    (.read fun s hs => (hP s hs).found)
  obtain ⟨hmatches, task, htask, hid⟩ := hfound
  refine Program.Reads.bind (Q := fun isBound => isBound = true) (fun isBound hbound => ?_)
    (reads_ofExcept (fun isBound hok => Except.ok.inj (hok.symm.trans hmatches)) (fun e he => by
      rw [he] at hmatches
      cases hmatches))
  refine Program.Reads.bind (Q := fun _ => True) (fun _ _ => ?_) (.throwIf (fun hnot => ?_) fun _ => trivial)
  · rw [htask]
    exact hid
  · rw [hbound] at hnot
    cases hnot

theorem syncRepositoryTasks_clean (env : Env) (envelope : SyncEnvelope) :
    (syncRepositoryTasks env envelope).Clean portal (fun s => s.TasksBound ∧ s.CatalogueBound) SyncAgrees
      (fun x w s => ¬ Untouched s (w.exec x s)) := by
  refine Program.Clean.of_reads (Q := fun _ => True) (fun seen _ => ?_) (.read fun _ _ => trivial)
  split
  · trivial
  split
  · trivial
  refine Program.Clean.of_reads (Q := fun _ => True) (fun now _ => ?_) (.read fun _ _ => trivial)
  refine Program.Clean.of_reads (fun items hitems => ?_) (prepareSyncItems_reads env envelope.repository envelope.tasks)
  intro x s h hi hfact hagrees
  obtain ⟨hsame, hnot⟩ | ⟨s', happly, -, hexec, hcommitted⟩ :=
    (Write.sync items ⟨envelope.nonce, envelope.sourceCommitSha⟩ now).exec_cases x s
  · refine .inl ⟨fun hne => hne ?_, ?_⟩
    · rw [hsame]
      exact ⟨rfl, rfl, rfl, rfl, rfl⟩
    · show Program.Clean _ _ _ _ ((Program.throwIf (!(Write.sync items
        ⟨envelope.nonce, envelope.sourceCommitSha⟩ now).committed x s) _).bind _)
      rw [hnot]
      trivial
  · obtain ⟨-, -, hbound⟩ := sync_spec h hfact hagrees happly hi.1 hi.2
    have hactive : ∀ m ∈ envelope.tasks, m.status = .active →
        s'.BindsPacket m.packet (env.computePacketMerkleRoot m.packet) := by
      intro m hm hstatus
      refine hbound (m.item env envelope.repository) ?_ _ ?_
      · rw [hitems]
        exact List.mem_map.2 ⟨m, hm, rfl⟩
      · rw [Manifest.item, if_pos hstatus]
    refine .inr ⟨fun s => ∀ m ∈ envelope.tasks, m.status = .active →
      s.BindsPacket m.packet (env.computePacketMerkleRoot m.packet), ?_, ?_, ?_⟩
    · exact stable_of_grows (fun _ _ hg h m hm hstatus => (h m hm hstatus).grows hg)
    · show ∀ m ∈ envelope.tasks, _
      rw [show portal.exec x _ s = s' from hexec]
      exact hactive
    · show Program.Reads _ _ _ ((Program.throwIf (!(Write.sync items
        ⟨envelope.nonce, envelope.sourceCommitSha⟩ now).committed x s) _).bind _)
      rw [hcommitted]
      refine Program.Reads.each (fun m hm => ?_)
      obtain ⟨hmem, hstatus⟩ := List.mem_filter.1 hm
      refine Program.Reads.bind (fun task htask => ?_) (assertConsensusTaskRegistration_reads
        (fun s hs => hs.2 m hmem (of_decide_eq_true hstatus)))
      refine .throwIf (fun hne => ?_) (fun _ => trivial)
      exact absurd htask (of_decide_eq_true hne)

/-! ## Runs -/

/-- Tables persist from one state of the world to a later one. -/
theorem portal_grows {env : Env} {w w' : PortalState} (h : portal.Kept w) (hrun : (portalWorld env).Reaches w w') :
    w.store.Grows w'.store := by
  refine (hrun.invariant (I := fun w' => portal.Kept w' ∧ w.store.Grows w'.store) ⟨h, .refl _⟩
    (fun u a u' hu _ hs => ?_)).2
  obtain ⟨hkept, hmoves⟩ := hu.1.step (handle_obeys env) hs
  cases hmoves with
  | rests hstore hlog => exact ⟨hkept, hstore ▸ hu.2⟩
  | runs i x p c ha hp hpending hfact hstore hlog =>
    exact ⟨hkept, hstore ▸ hu.2.trans (c.exec_grows x hu.1.1.keys)⟩

/-- What a catalogue is to guarantee: its rows keep what they are bound to and stay withdrawn, they stand for the roots of
their tasks, and an envelope that was answered with an error has changed nothing. -/
structure CatalogueKept (env : Env) (w : PortalState) : Prop where
  persists : ∀ w', (portalWorld env).Reaches w w' →
    Table.Persists CatalogueGrows w.store.catalogue w'.store.catalogue
  bound : w.store.CatalogueBound
  refused : ∀ i envelope error, w.programs[i]? = some (.sync envelope, .fail error) → ∀ e ∈ w.log, e.program = i →
    Untouched e.before (e.command.exec e.input e.before)

/-- **The catalogue is immutable where no sync meets a task that is bound to other evidence.** -/
theorem catalogue_kept {env : Env} {w : PortalState} (hrun : PortalRun env SyncAgrees w) : CatalogueKept env w := by
  have hstep : ∀ x c s, portal.Inv s → portal.Fact c s → SyncAgrees x c s → s.TasksBound ∧ s.CatalogueBound →
      (portal.exec x c s).TasksBound ∧ (portal.exec x c s).CatalogueBound := by
    intro x c s h hfact hagrees hi
    show (c.exec x s).TasksBound ∧ (c.exec x s).CatalogueBound
    obtain ⟨hsame, -⟩ | ⟨s', happly, -, hexec, -⟩ := c.exec_cases x s
    · rw [hsame]
      exact hi
    · rw [hexec]
      exact catalogue_step h hfact hagrees happly hi
  have hstart : Store.empty.TasksBound ∧ Store.empty.CatalogueBound :=
    ⟨fun t ht => absurd ht List.not_mem_nil, fun r hr => absurd hr List.not_mem_nil⟩
  obtain ⟨hkept, hi, -⟩ := Discipline.log_spec (D := portal) (handle_obeys env) Store.Sound.empty hstart hstep hrun
  refine ⟨fun w' hreaches => (portal_grows hkept hreaches).catalogue, hi.2, fun i envelope error hfailed e he hi => ?_⟩
  have hclean : ∀ r : Request, (∃ envelope, r = .sync envelope) → (handle env r).Clean portal
      (fun s => s.TasksBound ∧ s.CatalogueBound) SyncAgrees (fun x w s => ¬ Untouched s (w.exec x s)) := by
    rintro r ⟨envelope, rfl⟩
    exact syncRepositoryTasks_clean env envelope
  have hunchanged := Discipline.failed_unchanged (handle_obeys env) hstep hclean Store.Sound.empty hstart hrun hfailed
    ⟨envelope, rfl⟩ e he hi
  exact not_not.1 hunchanged

/-- An active manifest of the packet. -/
def sampleManifest (packet : Packet) : Manifest where
  titleAr := []
  summaryAr := []
  assignmentMode := .openToAll
  lane := .standard
  status := .active
  sourcePath := str "human-evidence/tasks/x.task.json"
  packetMerkleRoot := zeroDigest
  packet := packet

def sampleEnvelope (packets : List Packet) : SyncEnvelope where
  nonce := "nonce".toList
  sourceCommitSha := "commit".toList
  repository := str "sbay-dev/ADG-Lang"
  tasks := packets.map sampleManifest

/-- A sync registers one packet. -/
theorem catalogue_kept_sync : ∃ w, PortalRun sampleEnv SyncAgrees w ∧
    w.store.catalogue.map CatalogueRow.taskVersionId = ["x:v1".toList] ∧ CatalogueKept sampleEnv w := by
  obtain ⟨w, hrun, hp⟩ := run_play sampleEnv SyncAgrees [.request (.sync (sampleEnvelope [schemaFirst])), .go 0 7]
    (p := fun w => decide (w.store.catalogue.map CatalogueRow.taskVersionId = ["x:v1".toList])) (by decide +kernel)
    (by decide +kernel)
  exact ⟨w, hrun, of_decide_eq_true hp, catalogue_kept hrun⟩

/-- The first request was answered with an error, and something changed. -/
def failedAndChanged (w : PortalState) : Bool :=
  match w.programs[0]? with
  | some (Request.sync _, Program.fail _) =>
    w.log.any (fun e => decide (e.program = 0) && !decide (Untouched e.before (e.command.exec e.input e.before)))
  | _ => false

/-- An envelope holds a packet twice, the second time with its policy written in another order. -/
theorem catalogue_not_kept :
    ¬ ∀ (env : Env) (w : PortalState), (portalWorld env).Reaches portalStart w → CatalogueKept env w := by
  intro h
  obtain ⟨w, hrun, hp⟩ := reaches_play sampleEnv
    [.request (.sync (sampleEnvelope [schemaFirst, metricsFirst])), .go 0 11] (p := failedAndChanged) (by decide +kernel)
  unfold failedAndChanged at hp
  split at hp
  · rename_i envelope error hfailed
    obtain ⟨e, he, hchanged⟩ := List.any_eq_true.1 hp
    simp only [Bool.and_eq_true, decide_eq_true_eq, Bool.not_eq_true', decide_eq_false_iff_not] at hchanged
    exact hchanged.2 ((h sampleEnv w hrun).refused 0 envelope error hfailed e he hchanged.1)
  · cases hp

end Portal
end Adg
