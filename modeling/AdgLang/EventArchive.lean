import AdgLang.PortalRuns
/-!
# EventArchive — the events that the archive never takes

The evidence of an event goes to the archive under the event's identifier.  The event that opens a task has the task's
name in its identifier, where the archive expects a UUID; so of no task do all events reach it (`events_archived_iff`).
-/
namespace Adg
namespace Portal

open Js Consensus

/-- The version that an event took its task to, counted from the opening. -/
def Store.versionOf (s : Store) (e : EventRow) : Nat := (s.db.eventsOf e.taskVersionId).idxOf e

/-- The event has exactly one row in the outbox, which tells of it, under a name that the archive accepts. -/
def Store.Archives (s : Store) (e : EventRow) : Prop :=
  ∃ o ∈ s.outbox, (∀ o' ∈ s.outbox, o'.kind = .taskState → o'.relatedId = e.id → o' = o) ∧ o.kind = .taskState ∧
    o.relatedId = e.id ∧ (∃ round final accepted, o.payload = .state e (s.versionOf e) round final accepted) ∧
      validateEvidenceObjectName .submissions o.publicBlobName = true

/-- Every event of every task is archived. -/
def Store.EventsArchived (s : Store) : Prop :=
  ∀ t ∈ s.tasks, ∀ e ∈ s.events, e.taskVersionId = t.id → s.Archives e

/-- No name that begins like the identifier of an opening event is accepted. -/
theorem validate_openingName (rest : Text) : validateEvidenceObjectName .submissions ('t' :: rest) = false := by
  have hlower : Char.toLower 't' = 't' := by decide
  have hhex : isHexDigit 't' = false := by decide
  have huuid : ∀ t : Text, isUuid ('t' :: t) = false := by
    intro t
    rw [Bool.eq_false_iff]
    intro h
    obtain ⟨c, u, hc, hdigit⟩ := isUuid_head h
    obtain rfl := (List.cons.inj hc).1
    rw [hhex] at hdigit
    cases hdigit
  have htake : isUuid (((('t' :: rest.map Char.toLower) : Text).drop 0).take 36) = false := huuid _
  rw [validateEvidenceObjectName, List.any_eq_false]
  intro pattern hpattern
  simp only [EvidenceScope.patterns, List.mem_cons, List.not_mem_nil, or_false] at hpattern
  rw [List.map_cons, hlower]
  rcases hpattern with rfl | rfl | rfl
  · simp only [List.length_nil, htake, Bool.and_false, Bool.false_and]
    nofun
  · have hhead : ('t' :: rest.map Char.toLower).take "comment-".toList.length ≠ "comment-".toList := by
      intro h
      exact absurd (List.cons.inj h).1 (by decide)
    simp only [hhead, decide_false, Bool.and_false, Bool.false_and]
    nofun
  · simp only [List.length_nil, htake, Bool.and_false, Bool.false_and]
    nofun

/-- **The opening event of a task is never archived.** -/
theorem Store.Sound.opening_not_archived {s : Store} (h : s.Sound) {t : TaskRow} {e : EventRow} (hid : e.id = initialEventId t.id) :
    ¬ s.Archives e := by
  rintro ⟨o, ho, -, hkind, hrelated, -, haccepted⟩
  have hstems := (h.outbox o ho).stems
  simp only [Store.Stems, hkind] at hstems
  obtain ⟨-, e', -, hid', -, hname, -⟩ := hstems
  have hopening : o.publicBlobName = 't' :: ("ask-open:".toList ++ t.id ++ ".state.json".toList) := by
    rw [hname, hid', hrelated, hid]
    rfl
  rw [hopening, validate_openingName] at haccepted
  cases haccepted

/-- **All events are archived only where there is no task.** -/
theorem events_archived_iff {env : Env} {w : PortalState} (hrun : (portalWorld env).Reaches portalStart w) :
    w.store.EventsArchived ↔ w.store.tasks = [] := by
  have h := (portal_facts (portalRun_of_reaches hrun)).1
  constructor
  · intro harchived
    rw [List.eq_nil_iff_forall_not_mem]
    intro t ht
    obtain ⟨e, he, hid, htask⟩ := (h.tasks t ht).opened
    exact h.opening_not_archived hid (harchived t ht e he htask)
  · intro hnone t ht
    rw [hnone] at ht
    cases ht

/-- The empty portal. -/
theorem events_archived_iff_none : (portalWorld sampleEnv).Reaches portalStart portalStart ∧
    portalStart.store.EventsArchived :=
  have hrun : (portalWorld sampleEnv).Reaches portalStart portalStart := .refl
  ⟨hrun, (events_archived_iff hrun).2 rfl⟩

def isOver : Call Unit → Bool
  | .access .. => false
  | _ => true

/-- A submits, the scheduled function runs, and nothing is left to do. -/
theorem events_not_archived : ¬ ∀ (env : Env) (w : PortalState), (portalWorld env).Reaches portalStart w →
    (∀ p ∈ w.programs, isOver p.2 = true) → (∀ t ∈ w.store.tasks, w.store.lacksEvidence t = false) →
      w.store.EventsArchived := by
  intro h
  obtain ⟨w, hrun, hp⟩ := reaches_play sampleEnv
    [.request (annotates "a" .a), .go 0 30, .request .expiredRounds, .go 1 8]
    (p := fun w => !w.store.tasks.isEmpty && w.programs.all (fun p => isOver p.2) &&
      w.store.tasks.all (fun t => !w.store.lacksEvidence t)) (by decide +kernel)
  simp only [Bool.and_eq_true, Bool.not_eq_true', List.all_eq_true] at hp
  obtain ⟨⟨hsome, hover⟩, hrepaired⟩ := hp
  obtain ⟨t, ht⟩ := List.exists_mem_of_ne_nil w.store.tasks (fun hnil => by rw [hnil] at hsome; cases hsome)
  have hsound := (portal_facts (portalRun_of_reaches hrun)).1
  obtain ⟨e, he, hid, htask⟩ := (hsound.tasks t ht).opened
  exact hsound.opening_not_archived hid (h sampleEnv w hrun hover hrepaired t ht e he htask)

end Portal
end Adg
