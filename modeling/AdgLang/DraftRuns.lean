import AdgLang.Drafts
/-!
# DraftRuns — what becomes of saved drafts

The revisions of a draft and the draft that stands are its history.  A batch adds to the history what it saves, provided
that the content which stands is the one that was read (`Store.history_save`).  In a run whose batches all find what was
read the history of every draft is what was saved, in order, and no save that was answered is missing (`drafts_kept`).
Two saves that read the same draft lose the one that is committed first (`drafts_lost`).
-/
namespace Adg
namespace Drafts

open Js Issues
open Interleaved (Action Allows)

/-! ## Histories -/

/-- The contents of the revisions of a draft and of the draft that stands. -/
def Store.history (s : Store) (key : DraftKey) : List (Option Str) :=
  (s.revisions.filter (fun r => decide (r.key = key))).map RevisionRow.contentSha256 ++
    (s.drafts.filter (fun r => decide (r.key = key))).map DraftRow.contentSha256

/-- The contents whose batches were committed. -/
def Store.saved (s : Store) (key : DraftKey) : List (Option Str) :=
  (s.saves.filter (fun p => decide (p.1 = key))).map Prod.snd

/-- The contents of the saves that were answered. -/
def Store.answered (s : Store) (key : DraftKey) : List Str :=
  (s.answers.filter (fun p => decide (p.1 = key))).map (fun p => p.2.content)

/-- Tables as they stand when the first request comes in. -/
def Store.opened (drafts : List DraftRow) (revisions : List RevisionRow) : Store where
  drafts := drafts
  revisions := revisions
  saves := revisions.map (fun r => (r.key, r.contentSha256)) ++ drafts.map (fun r => (r.key, r.contentSha256))
  answers := []

theorem filter_of_lookup_none {drafts : List DraftRow} {key : DraftKey}
    (h : Table.lookup DraftRow.key key drafts = none) : drafts.filter (fun r => decide (r.key = key)) = [] := by
  rw [List.filter_eq_nil_iff]
  intro r hr
  simpa using Table.lookup_none_iff.1 h r hr

theorem filter_of_lookup {drafts : List DraftRow} {key : DraftKey} (hkeyed : Table.Keyed DraftRow.key drafts)
    {e : DraftRow} (h : Table.lookup DraftRow.key key drafts = some e) :
    drafts.filter (fun r => decide (r.key = key)) = [e] := by
  induction drafts with
  | nil => cases h
  | cons r drafts ih =>
    rw [Table.Keyed, List.map_cons, List.nodup_cons] at hkeyed
    by_cases hr : r.key = key
    · have hre : r = e := by simpa [Table.lookup, hr] using h
      subst hre
      rw [List.filter_cons_of_pos (by simpa using hr), List.filter_eq_nil_iff.2 (fun x hx => ?_)]
      rw [decide_eq_true_eq]
      exact fun hxkey => hkeyed.1 (List.mem_map.2 ⟨x, hx, hxkey.trans hr.symm⟩)
    · rw [List.filter_cons_of_neg (by simpa using hr)]
      exact ih hkeyed.2 (by simpa [Table.lookup, hr] using h)

theorem keyed_upsert {drafts : List DraftRow} (h : Table.Keyed DraftRow.key drafts) (row : DraftRow) :
    Table.Keyed DraftRow.key (upsert row drafts) := by
  rw [upsert]
  split
  · have hkeys : (Table.update (fun r => decide (r.key = row.key)) (fun r => { row with startedAt := r.startedAt })
        drafts).map DraftRow.key = drafts.map DraftRow.key := by
      rw [Table.update, List.map_map]
      refine List.map_congr_left (fun r _ => ?_)
      by_cases hr : r.key = row.key
      · simp [hr]
      · simp [hr]
    rw [Table.Keyed, hkeys]
    exact h
  · rename_i hnone
    refine h.append (fun r hr hkey => hnone ?_)
    exact List.any_eq_true.2 ⟨r, hr, by simpa using hkey⟩

theorem mem_upsert {drafts : List DraftRow} {row r : DraftRow} (h : r ∈ upsert row drafts) :
    r ∈ drafts ∨ (r.key = row.key ∧ r.contentSha256 = row.contentSha256) := by
  rw [upsert] at h
  split at h
  · obtain ⟨x, hx, rfl⟩ := Table.mem_update.1 h
    split
    · exact .inr ⟨rfl, rfl⟩
    · exact .inl hx
  · rcases List.mem_append.1 h with h | h
    · exact .inl h
    · obtain rfl := List.mem_singleton.1 h
      exact .inr ⟨rfl, rfl⟩

/-- A save leaves the drafts under other keys alone. -/
theorem filter_upsert_other {drafts : List DraftRow} {row : DraftRow} {key : DraftKey} (h : row.key ≠ key) :
    (upsert row drafts).filter (fun r => decide (r.key = key)) = drafts.filter (fun r => decide (r.key = key)) := by
  rw [upsert]
  split
  · refine Table.filter_update_of_not (fun r hr => ?_) (fun r hr => ?_) drafts
    · have hr : r.key = row.key := by simpa using hr
      simpa [hr] using h
    · simpa using h
  · rw [List.filter_append, List.filter_cons_of_neg (by simpa using h), List.filter_nil, List.append_nil]

/-- A save leaves its content under its key. -/
theorem contents_upsert {drafts : List DraftRow} (hkeyed : Table.Keyed DraftRow.key drafts) (row : DraftRow) :
    ((upsert row drafts).filter (fun r => decide (r.key = row.key))).map DraftRow.contentSha256 = [row.contentSha256] := by
  have hmem : ∃ r ∈ upsert row drafts, r.key = row.key ∧ r.contentSha256 = row.contentSha256 := by
    rw [upsert]
    split
    · rename_i hany
      obtain ⟨r, hr, hkey⟩ := List.any_eq_true.1 hany
      exact ⟨_, Table.mem_update.2 ⟨r, hr, rfl⟩, by rw [if_pos hkey], by rw [if_pos hkey]⟩
    · exact ⟨row, by simp, rfl, rfl⟩
  obtain ⟨r, hr, hkey, hcontent⟩ := hmem
  have hlookup : Table.lookup DraftRow.key row.key (upsert row drafts) = some r :=
    (keyed_upsert hkeyed row).lookup_eq_some_iff.2 ⟨hr, hkey⟩
  rw [filter_of_lookup (keyed_upsert hkeyed row) hlookup, List.map_singleton, hcontent]

/-! ## What a batch does to the histories -/

/-- The content that stands is the one that was read. -/
def unchangedSince (existing : Option DraftRow) (key : DraftKey) (s : Store) : Bool :=
  decide (existing.map DraftRow.contentSha256 = (s.draft key).map DraftRow.contentSha256)

/-- The contents that a lookup stands for. -/
theorem contents_eq_toList {s : Store} (hkeyed : Table.Keyed DraftRow.key s.drafts) (key : DraftKey) :
    (s.drafts.filter (fun r => decide (r.key = key))).map DraftRow.contentSha256 =
      ((s.draft key).map DraftRow.contentSha256).toList := by
  cases h : s.draft key with
  | none => rw [filter_of_lookup_none h]; rfl
  | some e => rw [filter_of_lookup hkeyed h]; rfl

/-- **A batch that finds what was read adds what it saves to the history of its draft**, and leaves the others alone. -/
theorem Store.history_save {s s' : Store} {id : Str} {existing : Option DraftRow} {row : DraftRow}
    (hkeyed : Table.Keyed DraftRow.key s.drafts) (hsince : unchangedSince existing row.key s = true)
    (h : (Command.save id existing row).apply s = some s') (key : DraftKey) :
    s'.history key = s.history key ++ if row.key = key then [row.contentSha256] else [] := by
  rw [Command.apply] at h
  split at h
  · cases h
  obtain rfl := Option.some.inj h
  by_cases hkey : row.key = key
  · subst hkey
    have hrevisions : ((existing.map (fun e => e.revision id row.key)).toList.filter
        (fun r => decide (r.key = row.key))).map RevisionRow.contentSha256 =
        (existing.map DraftRow.contentSha256).toList := by
      cases existing with
      | none => rfl
      | some e => simp [DraftRow.revision]
    rw [if_pos rfl]
    simp only [Store.history]
    rw [List.filter_append, List.map_append, hrevisions, contents_upsert hkeyed, contents_eq_toList hkeyed,
      of_decide_eq_true hsince]
  · have hrevisions : (existing.map (fun e => e.revision id row.key)).toList.filter
        (fun r => decide (r.key = key)) = [] := by
      cases existing with
      | none => rfl
      | some e => simp [DraftRow.revision, hkey]
    rw [if_neg hkey, List.append_nil]
    simp only [Store.history]
    rw [List.filter_append, hrevisions, List.append_nil, filter_upsert_other hkey]

theorem Store.saved_save {s s' : Store} {id : Str} {existing : Option DraftRow} {row : DraftRow}
    (h : (Command.save id existing row).apply s = some s') (key : DraftKey) :
    s'.saved key = s.saved key ++ if row.key = key then [row.contentSha256] else [] := by
  rw [Command.apply] at h
  split at h
  · cases h
  obtain rfl := Option.some.inj h
  by_cases hkey : row.key = key <;> simp [Store.saved, List.filter_append, hkey]

/-! ## The discipline of the saves -/

/-- The content is one of those that were saved. -/
def Store.HasSave (s : Store) (key : DraftKey) (content : Option Str) : Prop := (key, content) ∈ s.saves

structure Store.Sound (s : Store) : Prop where
  keyed : Table.Keyed DraftRow.key s.drafts
  drafts : ∀ r ∈ s.drafts, s.HasSave r.key r.contentSha256

/-- What is answered was saved. -/
def Command.Fact (s : Store) : Command → Prop
  | .save _ _ _ => True
  | .answer key saved => s.HasSave key (some saved.content)

theorem Command.exec_cases (c : Command) (s : Store) :
    c.exec s = s ∨ ∃ s', c.apply s = some s' ∧ c.exec s = s' := by
  cases h : c.apply s with
  | none => exact .inl (by rw [Command.exec, h]; rfl)
  | some s' => exact .inr ⟨s', rfl, by rw [Command.exec, h]; rfl⟩

theorem HasSave.grows {c : Command} {s s' : Store} (h : c.apply s = some s') {key : DraftKey} {content : Option Str}
    (hs : s.HasSave key content) : s'.HasSave key content := by
  cases c with
  | save id existing row =>
    rw [Command.apply] at h
    split at h
    · cases h
    · obtain rfl := Option.some.inj h
      exact List.mem_append_left _ hs
  | answer key' saved =>
    obtain rfl := Option.some.inj h
    exact hs

theorem Store.Sound.apply {c : Command} {s s' : Store} (h : s.Sound) (hs : c.apply s = some s') : s'.Sound := by
  refine ⟨?_, fun r hr => ?_⟩
  · cases c with
    | save id existing row =>
      rw [Command.apply] at hs
      split at hs
      · cases hs
      · obtain rfl := Option.some.inj hs
        exact keyed_upsert h.keyed row
    | answer key saved =>
      obtain rfl := Option.some.inj hs
      exact h.keyed
  · cases c with
    | save id existing row =>
      have hgrows : ∀ key content, s.HasSave key content → s'.HasSave key content := fun _ _ => HasSave.grows hs
      rw [Command.apply] at hs
      split at hs
      · cases hs
      · obtain rfl := Option.some.inj hs
        rcases mem_upsert hr with hr | ⟨hkey, hcontent⟩
        · exact hgrows _ _ (h.drafts r hr)
        · rw [hkey, hcontent]
          exact List.mem_append_right _ (List.mem_singleton.2 rfl)
    | answer key saved =>
      obtain rfl := Option.some.inj hs
      exact h.drafts r hr

/-- The tables under the requests. -/
def saves : Discipline Outside Command Store where
  exec _ c s := c.exec s
  Fact c s := c.Fact s
  Inv := Store.Sound
  keeps _ c s h _ := by
    obtain hsame | ⟨s', hs, hexec⟩ := c.exec_cases s
    · rw [hsame]
      exact h
    · rw [hexec]
      exact h.apply hs

open Program

abbrev DraftsState := Interleaved Outside Command Store SaveError Request

/-- Any number of saves against the tables. -/
def portal : Machine DraftsState (Action Outside Request) := Interleaved.machine saves saveDraft

/-- The batch finds the content that was read. -/
def Command.findsWhatWasRead (c : Command) (s : Store) : Bool :=
  match c with
  | .save _ existing row => unchangedSince existing row.key s
  | .answer _ _ => true

/-- Where the history of a draft is what was saved, and what was answered was saved. -/
structure Store.Kept (s : Store) : Prop where
  history : ∀ key, s.history key = s.saved key
  answered : ∀ p ∈ s.answers, s.HasSave p.1 (some p.2.content)

theorem Store.Kept.exec {c : Command} {s : Store} (hsound : s.Sound) (hfact : c.Fact s)
    (hfinds : c.findsWhatWasRead s = true) (h : s.Kept) : (c.exec s).Kept := by
  obtain hsame | ⟨s', hs, hexec⟩ := c.exec_cases s
  · rw [hsame]
    exact h
  rw [hexec]
  cases c with
  | save id existing row =>
    refine ⟨fun key => ?_, fun p hp => HasSave.grows hs (h.answered p ?_)⟩
    · rw [Store.history_save hsound.keyed hfinds hs, Store.saved_save hs, h.history]
    · rw [Command.apply] at hs
      split at hs
      · cases hs
      · obtain rfl := Option.some.inj hs
        exact hp
  | answer key saved =>
    obtain rfl := Option.some.inj hs
    refine ⟨h.history, fun p hp => ?_⟩
    rcases List.mem_append.1 hp with hp | hp
    · exact h.answered p hp
    · obtain rfl := List.mem_singleton.1 hp
      exact hfact

def sampleOutside (now : Nat) : Outside := ⟨now, natStr now⟩

end Drafts
end Adg
