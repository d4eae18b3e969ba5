import AdgLang.JournalRun
import AdgLang.PostgresDatabase
/-!
# LiveResults — the change counts that a live write returns

Any number of live writes and scheduled replays run against one journal and one PostgreSQL.  A caller asks for its
transaction, which runs at any time after that, even if the caller no longer waits for it (`World.strays`); the
transaction that comes second for a request finds its receipt and answers with zero changes.  The counts that the
committing transactions counted are in `World.commits`.  A live write returns those of its own request
(`World.CountsHold`) along the runs in which no other transaction commits its operations before its own (`Meets`): the
entry of a live write is a candidate for replays from the moment it is journaled.
-/
namespace Adg
namespace Recovery
namespace Live

variable {Op σ : Type}

/-! ## Callers -/

inductive Stage
  /-- The transaction has not been run. -/
  | applying
  /-- The transaction is over, and its answer is on its way. -/
  | answered (outcome : Except WriteError Applied)
  | marking (outcome : Except WriteError Applied)
  | returned (results : List Nat)
  /-- A live write that threw, a replay at the end of its candidates, or a caller that was stopped. -/
  | done

def Stage.isApplying : Stage → Bool
  | .applying => true
  | _ => false

/-- `executeMutatingOperations` or a `replayRecoveryJournal`, with the candidates that the replay has still to try. -/
structure Caller (Op : Type) where
  live : Bool
  entry : JournalEntry Op
  queue : List (JournalEntry Op)
  stage : Stage

/-- After the mark a live write returns or throws, and a replay goes on to its next candidate. -/
def Caller.next (outcome : Except WriteError Applied) (c : Caller Op) : Caller Op :=
  if c.live then match outcome with
    | .ok applied => { c with stage := .returned applied.results }
    | .error _ => { c with stage := .done }
  else match c.queue with
    | [] => { c with stage := .done }
    | entry :: queue => { c with entry := entry, queue := queue, stage := .applying }

/-! ## Steps -/

structure World (Op σ : Type) where
  postgres : Postgres σ
  /-- The requests whose operations were committed, with the changes counted. -/
  commits : List (Text × List Nat)
  journal : List (JournalRow Op)
  callers : List (Caller Op)
  /-- The writes whose transactions may still run although nobody waits for them. -/
  strays : List (JournalEntry Op)

def World.start (tables : σ) : World Op σ := ⟨⟨1, 0, [], tables⟩, [], [], [], []⟩

inductive CallerAction
  /-- A replay cannot read the stored payload, or it fails its checks. -/
  | unreadable (message : Text)
  | transact (operations : Except WriteError Nat)
  | deliver
  /-- An error reaches the caller in place of the answer. -/
  | disturb (error : WriteError)
  | mark (now : Nat)
  | markFails (message : Text)
  | stop

inductive Action (Op : Type)
  /-- A live write inserts its entry. -/
  | executeMutatingOperations (entry : JournalEntry Op) (now : Nat)
  /-- A scheduled replay requeues failed entries and loads its candidates. -/
  | replayRecoveryJournal (limit now : Nat)
  | caller (i : Nat) (a : CallerAction)
  | stray (k : Nat) (operations : Except WriteError Nat)

def World.setCaller (w : World Op σ) (i : Nat) (c : Caller Op) : World Op σ := { w with callers := w.callers.set i c }

/-- The transaction of a write, and what it answers. -/
def World.transact (meaning : Meaning Op σ) (w : World Op σ) (entry : JournalEntry Op)
    (operations : Except WriteError Nat) : Except WriteError Applied × World Op σ :=
  match w.postgres.applyMutatingOperationsWithReceipt meaning none entry operations with
  | .ok (applied, postgres) =>
    let committed := if (w.postgres.receiptOf entry.requestId).isNone then [(entry.requestId, applied.results)] else []
    (.ok applied, { w with postgres := postgres, commits := w.commits ++ committed })
  | .error error => (.error error, w)

/-- A caller that no longer waits: its transaction may still run. -/
def World.abandon (w : World Op σ) (c : Caller Op) : World Op σ :=
  if c.stage.isApplying then { w with strays := w.strays ++ [c.entry] } else w

def World.mark (w : World Op σ) (i : Nat) (c : Caller Op) (outcome : Except WriteError Applied) (now : Nat) : World Op σ :=
  { w with
    journal := Writes.markOutcome c.live c.entry.requestId (outcome.map Applied.receipt) now w.journal
    callers := w.callers.set i (c.next outcome) }

/-- A step of the caller at a position. -/
def Caller.act (meaning : Meaning Op σ) (w : World Op σ) (i : Nat) (c : Caller Op) : CallerAction → Option (World Op σ)
  | .unreadable message => match c.stage, c.live with
    | .applying, false => some (w.setCaller i { c with stage := .marking (.error (.ofMessage message)) })
    | _, _ => none
  | .transact operations => match c.stage with
    | .applying =>
      let (outcome, w) := w.transact meaning c.entry operations
      some (w.setCaller i { c with stage := .answered outcome })
    | _ => none
  | .deliver => match c.stage with
    | .answered outcome => some (w.setCaller i { c with stage := .marking outcome })
    | _ => none
  | .disturb error => match c.stage with
    | .applying | .answered _ => some ((w.abandon c).setCaller i { c with stage := .marking (.error error) })
    | _ => none
  | .mark now => match c.stage with
    | .marking outcome => some (w.mark i c outcome now)
    | _ => none
  | .markFails message => match c.stage, c.live with
    -- a replay handles the failed mark like a failed write
    | .marking (.ok _), false => some (w.setCaller i { c with stage := .marking (.error (.ofMessage message)) })
    | .marking outcome, _ => some (w.setCaller i (c.next outcome))
    | _, _ => none
  | .stop => match c.stage with
    | .applying | .answered _ | .marking _ => some ((w.abandon c).setCaller i { c with stage := .done })
    | _ => none

def World.act (meaning : Meaning Op σ) (w : World Op σ) : Action Op → Option (World Op σ)
  | .executeMutatingOperations entry now =>
    (insertPendingJournalEntry entry now w.journal).map (fun journal =>
      { w with journal := journal, callers := w.callers ++ [⟨true, entry, [], .applying⟩] })
  | .replayRecoveryJournal limit now =>
    let journal := requeueAmbiguousFailedJournalEntries now w.journal
    match (loadRecoveryJournalCandidates limit journal).map JournalRow.entry with
    | [] => some { w with journal := journal }
    | entry :: queue => some { w with journal := journal, callers := w.callers ++ [⟨false, entry, queue, .applying⟩] }
  | .caller i a => (w.callers[i]?).bind (fun c => c.act meaning w i a)
  | .stray k operations => (w.strays[k]?).map (fun entry =>
      { (w.transact meaning entry operations).2 with strays := w.strays.eraseIdx k })

def counting (meaning : Meaning Op σ) : Machine (World Op σ) (Action Op) := ⟨World.act meaning⟩

/-! ## What a live write returns -/

/-- Operations are committed once for each request, and a live write that returned has the changes counted then. -/
structure World.CountsHold (w : World Op σ) : Prop where
  once : (w.commits.map Prod.fst).Nodup
  counts : ∀ c ∈ w.callers, c.live = true → ∀ results, c.stage = .returned results →
    (c.entry.requestId, results) ∈ w.commits

/-- A transaction commits nothing that a live write is about to, unless it changes nothing. -/
def World.Spares (meaning : Meaning Op σ) (w : World Op σ) (entry : JournalEntry Op) (operations : Except WriteError Nat) :
    Prop :=
  w.postgres.receiptOf entry.requestId = none → operations.toBool = true →
    (executeOperations meaning entry.operations w.postgres.tables).1 = zeroResultsForOperations entry.operations ∨
      ∀ c ∈ w.callers, c.live = true → c.entry.requestId = entry.requestId → c.stage.isApplying = false

/-- The transactions of replays, and those nobody waits for, come after the transaction of the live write. -/
def Meets (meaning : Meaning Op σ) (w : World Op σ) : Action Op → Prop
  | .caller i (.transact operations) => ∀ c ∈ w.callers[i]?, c.live = false → w.Spares meaning c.entry operations
  | .stray k operations => ∀ entry ∈ w.strays[k]?, w.Spares meaning entry operations
  | _ => True

/-! ## What holds in every world -/

def World.entries (w : World Op σ) : List (JournalEntry Op) := w.journal.map JournalRow.entry

/-- A live write before its transaction has no commit, or one that changed nothing; after it, it knows the changes
counted. -/
def Caller.Told (commits : List (Text × List Nat)) (c : Caller Op) : Prop :=
  match c.stage with
  | .applying => ∀ results, (c.entry.requestId, results) ∈ commits → results = zeroResultsForOperations c.entry.operations
  | .answered (.ok applied) | .marking (.ok applied) => (c.entry.requestId, applied.results) ∈ commits
  | .returned results => (c.entry.requestId, results) ∈ commits
  | _ => True

structure Sound (w : World Op σ) : Prop where
  commits : w.commits.map Prod.fst = w.postgres.receipts.map ReceiptRow.requestId
  keyed : Table.Keyed ReceiptRow.requestId w.postgres.receipts
  journal : Table.Keyed JournalEntry.requestId w.entries
  receipts : ∀ row ∈ w.postgres.receipts, ∃ entry ∈ w.entries, entry.requestId = row.requestId ∧ row.matches entry = true
  callers : ∀ c ∈ w.callers, ∀ entry ∈ c.entry :: c.queue, entry ∈ w.entries
  strays : ∀ entry ∈ w.strays, entry ∈ w.entries
  /-- A request has one live write. -/
  one : ∀ (i j : Nat) (c d : Caller Op), w.callers[i]? = some c → w.callers[j]? = some d → c.live = true → d.live = true →
    c.entry.requestId = d.entry.requestId → i = j
  told : ∀ c ∈ w.callers, c.live = true → c.Told w.commits

theorem Sound.countsHold {w : World Op σ} (h : Sound w) : w.CountsHold where
  once := by rw [h.commits]; exact h.keyed
  counts := fun c hc hlive results hstage => by
    have htold := h.told c hc hlive
    rw [Caller.Told, hstage] at htold
    exact htold

theorem Sound.start (tables : σ) : Sound (World.start tables : World Op σ) where
  commits := rfl
  keyed := List.nodup_nil
  journal := List.nodup_nil
  receipts := fun _ h => by cases h
  callers := fun _ h => by cases h
  strays := fun _ h => by cases h
  one := fun _ _ _ _ h => by cases h
  told := fun _ h => by cases h

/-- A journal with the same entries. -/
theorem Sound.setJournal {w : World Op σ} {journal : List (JournalRow Op)} (h : Sound w)
    (hentries : journal.map JournalRow.entry = w.entries) : Sound { w with journal := journal } where
  commits := h.commits
  keyed := h.keyed
  journal := by rw [World.entries, hentries]; exact h.journal
  receipts := by rw [World.entries, hentries]; exact h.receipts
  callers := by rw [World.entries, hentries]; exact h.callers
  strays := by rw [World.entries, hentries]; exact h.strays
  one := h.one
  told := h.told

/-- A caller that moves on: a live write with its own entry, and a replay with one of its candidates. -/
theorem Sound.setCaller {w : World Op σ} {i : Nat} {c c' : Caller Op} (h : Sound w) (hc : w.callers[i]? = some c)
    (hlive : c'.live = c.live) (hentry : c.live = true → c'.entry = c.entry)
    (hqueue : ∀ entry ∈ c'.entry :: c'.queue, entry ∈ c.entry :: c.queue)
    (htold : c'.live = true → c'.Told w.commits) : Sound (w.setCaller i c') := by
  have hbefore : ∀ (j : Nat) (d : Caller Op), (w.callers.set i c')[j]? = some d →
      ∃ d', w.callers[j]? = some d' ∧ d'.live = d.live ∧ (d.live = true → d'.entry = d.entry) := fun j d hd => by
    by_cases hij : i = j
    · subst hij
      have hlt := (List.getElem?_eq_some_iff.1 hc).1
      rw [List.getElem?_set_self hlt] at hd
      obtain rfl := Option.some.inj hd
      exact ⟨c, hc, hlive.symm, fun hl => (hentry (hlive ▸ hl)).symm⟩
    · rw [List.getElem?_set_ne hij] at hd
      exact ⟨d, hd, rfl, fun _ => rfl⟩
  refine ⟨h.commits, h.keyed, h.journal, h.receipts, fun d hd entry he => ?_, h.strays, ?_, fun d hd hl => ?_⟩
  · obtain hd | rfl := List.mem_or_eq_of_mem_set hd
    · exact h.callers d hd entry he
    · exact h.callers c (List.mem_of_getElem? hc) entry (hqueue entry he)
  · intro j k d e hd he hdl hel hid
    obtain ⟨d', hd', hdl', hde⟩ := hbefore j d hd
    obtain ⟨e', he', hel', hee⟩ := hbefore k e he
    refine h.one j k d' e' hd' he' (hdl'.trans hdl) (hel'.trans hel) ?_
    rw [hde hdl, hee hel, hid]
  · obtain hd | rfl := List.mem_or_eq_of_mem_set hd
    · exact h.told d hd hl
    · exact htold hl

/-- A caller at its next stage. -/
theorem Sound.setStage {w : World Op σ} {i : Nat} {c : Caller Op} {stage : Stage} (h : Sound w)
    (hc : w.callers[i]? = some c) (htold : c.live = true → ({ c with stage := stage } : Caller Op).Told w.commits) :
    Sound (w.setCaller i { c with stage := stage }) :=
  h.setCaller hc rfl (fun _ => rfl) (fun _ he => he) htold

theorem Sound.abandon {w : World Op σ} {c : Caller Op} (h : Sound w) (hc : c ∈ w.callers) : Sound (w.abandon c) := by
  unfold World.abandon
  split
  · refine ⟨h.commits, h.keyed, h.journal, h.receipts, h.callers, fun entry he => ?_, h.one, h.told⟩
    rcases List.mem_append.1 he with he | he
    · exact h.strays entry he
    · obtain rfl := List.mem_singleton.1 he
      exact h.callers c hc _ List.mem_cons_self
  · exact h

@[simp] theorem World.abandon_callers (w : World Op σ) (c : Caller Op) : (w.abandon c).callers = w.callers := by
  unfold World.abandon
  split <;> rfl

@[simp] theorem World.abandon_commits (w : World Op σ) (c : Caller Op) : (w.abandon c).commits = w.commits := by
  unfold World.abandon
  split <;> rfl

/-! ## Transactions -/

variable {meaning : Meaning Op σ}

/-- **A transaction** is rejected, or finds the receipt of its request, or claims it and commits the operations. -/
inductive Transacted (meaning : Meaning Op σ) (w : World Op σ) (entry : JournalEntry Op) (operations : Except WriteError Nat) :
    Except WriteError Applied → World Op σ → Prop
  | rejected (error : WriteError) : Transacted meaning w entry operations (.error error) w
  | found {row : ReceiptRow} (h : w.postgres.receiptOf entry.requestId = some row) (hmatches : row.matches entry = true) :
      Transacted meaning w entry operations (.ok ⟨zeroResultsForOperations entry.operations, row.receipt⟩) w
  | claimed {gap : Nat} (h : w.postgres.receiptOf entry.requestId = none) (ho : operations = .ok gap) :
      Transacted meaning w entry operations
        (.ok ⟨(executeOperations meaning entry.operations w.postgres.tables).1, (w.postgres.claimed entry gap).receipt⟩)
        { w with
          postgres := w.postgres.commit meaning entry gap
          commits := w.commits ++ [(entry.requestId, (executeOperations meaning entry.operations w.postgres.tables).1)] }

theorem transact_spec (meaning : Meaning Op σ) (w : World Op σ) (entry : JournalEntry Op) (operations : Except WriteError Nat) :
    Transacted meaning w entry operations (w.transact meaning entry operations).1 (w.transact meaning entry operations).2 := by
  unfold World.transact Postgres.applyMutatingOperationsWithReceipt
  rw [Option.all_none, if_pos rfl]
  cases hrow : w.postgres.receiptOf entry.requestId with
  | some row =>
    simp only [Option.isNone_some, Bool.false_eq_true, if_false, List.append_nil]
    split
    · rename_i happly
      split at happly
      · rename_i hmatches
        cases happly
        exact .found hrow hmatches
      · cases happly
    · exact .rejected _
  | none =>
    cases operations with
    | ok gap => exact .claimed hrow rfl
    | error error => exact .rejected error

theorem Transacted.journal {w w' : World Op σ} {entry : JournalEntry Op} {operations : Except WriteError Nat}
    {outcome : Except WriteError Applied} (h : Transacted meaning w entry operations outcome w') :
    w'.journal = w.journal := by
  cases h <;> rfl

theorem Transacted.callers {w w' : World Op σ} {entry : JournalEntry Op} {operations : Except WriteError Nat}
    {outcome : Except WriteError Applied} (h : Transacted meaning w entry operations outcome w') :
    w'.callers = w.callers := by
  cases h <;> rfl

/-- What a transaction answers to a live write that has no commit, or one that changed nothing. -/
theorem Transacted.told {w w' : World Op σ} {entry : JournalEntry Op} {operations : Except WriteError Nat}
    {applied : Applied} (h : Transacted meaning w entry operations (.ok applied) w') (hsound : Sound w)
    (hzero : ∀ results, (entry.requestId, results) ∈ w.commits → results = zeroResultsForOperations entry.operations) :
    (entry.requestId, applied.results) ∈ w'.commits := by
  cases h with
  | @found row hrow hmatches =>
    obtain ⟨hmem, hid⟩ := Table.lookup_some hrow
    have hin : entry.requestId ∈ w.commits.map Prod.fst := by
      rw [hsound.commits, ← hid]
      exact List.mem_map_of_mem hmem
    obtain ⟨⟨id, results⟩, hcommit, rfl⟩ := List.mem_map.1 hin
    rw [← hzero results hcommit]
    exact hcommit
  | claimed _ _ => exact List.mem_append_right _ (List.mem_singleton.2 rfl)

/-- **A transaction of an entry of the journal keeps the world sound**, unless it commits what a live write is about to. -/
theorem Transacted.sound {w w' : World Op σ} {entry : JournalEntry Op} {operations : Except WriteError Nat}
    {outcome : Except WriteError Applied} (h : Transacted meaning w entry operations outcome w') (hsound : Sound w)
    (hentry : entry ∈ w.entries) (hspares : w.Spares meaning entry operations) : Sound w' := by
  cases h with
  | rejected error => exact hsound
  | found _ _ => exact hsound
  | @claimed gap hnone ho =>
    refine ⟨?_, ?_, hsound.journal, fun row hrow => ?_, hsound.callers, hsound.strays, hsound.one, fun c hc hlive => ?_⟩
    · show (w.commits ++ [_]).map Prod.fst = (w.postgres.receipts ++ [_]).map ReceiptRow.requestId
      rw [List.map_append, List.map_append, hsound.commits]
      rfl
    · exact hsound.keyed.append fun x hx => Table.lookup_none_iff.1 hnone x hx
    · rcases List.mem_append.1 hrow with hrow | hrow
      · exact hsound.receipts row hrow
      · obtain rfl := List.mem_singleton.1 hrow
        exact ⟨entry, hentry, rfl, by simp [ReceiptRow.matches, Postgres.claimed]⟩
    · have htold := hsound.told c hc hlive
      unfold Caller.Told at htold ⊢
      split
      · rename_i hstage
        rw [hstage] at htold
        intro results hresults
        rcases List.mem_append.1 hresults with hresults | hresults
        · exact htold results hresults
        · -- a commit for a live write that still waits for its transaction
          obtain ⟨hid, rfl⟩ := Prod.mk.inj (List.mem_singleton.1 hresults)
          obtain rfl := hsound.journal.eq_of_key (hsound.callers c hc _ List.mem_cons_self) hentry hid
          rcases hspares hnone (by rw [ho]; rfl) with hzero | hnot
          · exact hzero
          · have happlying := hnot c hc hlive rfl
            rw [hstage] at happlying
            cases happlying
      · rename_i hstage
        rw [hstage] at htold
        exact List.mem_append_left _ htold
      · rename_i hstage
        rw [hstage] at htold
        exact List.mem_append_left _ htold
      · rename_i hstage
        rw [hstage] at htold
        exact List.mem_append_left _ htold
      · trivial

theorem Transacted.setCaller {w w' : World Op σ} {entry : JournalEntry Op} {operations : Except WriteError Nat}
    {outcome : Except WriteError Applied} (h : Transacted meaning w entry operations outcome w') (i : Nat) (c : Caller Op) :
    Transacted meaning (w.setCaller i c) entry operations outcome (w'.setCaller i c) := by
  cases h with
  | rejected error => exact .rejected error
  | found hrow hmatches => exact .found (w := w.setCaller i c) hrow hmatches
  | claimed hnone ho => exact .claimed (w := w.setCaller i c) hnone ho

theorem World.setCaller_setCaller (w : World Op σ) (i : Nat) (c d : Caller Op) :
    (w.setCaller i c).setCaller i d = w.setCaller i d := by
  simp only [World.setCaller, List.set_set]

theorem World.getElem?_setCaller {w : World Op σ} {i : Nat} {c d : Caller Op} (hc : w.callers[i]? = some c) :
    (w.setCaller i d).callers[i]? = some d := List.getElem?_set_self (List.getElem?_eq_some_iff.1 hc).1

/-- The transaction of a live write. -/
theorem Sound.transact_live {w w' : World Op σ} {i : Nat} {c : Caller Op} {operations : Except WriteError Nat}
    {outcome : Except WriteError Applied} (h : Sound w) (hc : w.callers[i]? = some c) (hstage : c.stage = .applying)
    (hlive : c.live = true) (htransacted : Transacted meaning w c.entry operations outcome w') :
    Sound (w'.setCaller i { c with stage := .answered outcome }) := by
  have hmem := List.mem_of_getElem? hc
  have hzero := h.told c hmem hlive
  rw [Caller.Told, hstage] at hzero
  -- the transaction runs as if the live write were gone, which is the only one of its request
  have hgone : Sound (w.setCaller i { c with stage := .done }) := h.setStage hc fun _ => trivial
  have hspares : (w.setCaller i { c with stage := .done }).Spares meaning c.entry operations := fun _ _ => .inr
    fun d hd hdlive hid => by
      obtain ⟨j, hj⟩ := List.getElem?_of_mem hd
      obtain rfl := hgone.one i j _ d (World.getElem?_setCaller hc) hj hlive hdlive hid.symm
      obtain rfl := Option.some.inj ((World.getElem?_setCaller hc).symm.trans hj)
      rfl
  have hrun := (htransacted.setCaller i { c with stage := .done }).sound hgone (h.callers c hmem _ List.mem_cons_self) hspares
  rw [← World.setCaller_setCaller w' i { c with stage := .done }]
  have hc' : w'.callers[i]? = some c := by rw [htransacted.callers]; exact hc
  refine hrun.setStage (c := { c with stage := .done }) (World.getElem?_setCaller hc') fun _ => ?_
  cases outcome with
  | ok applied => exact htransacted.told h hzero
  | error error => trivial

theorem Caller.mem_next {outcome : Except WriteError Applied} {c : Caller Op} {entry : JournalEntry Op}
    (h : entry ∈ (c.next outcome).entry :: (c.next outcome).queue) : entry ∈ c.entry :: c.queue := by
  unfold Caller.next at h
  split at h
  · split at h <;> exact h
  · split at h
    · exact h
    · rename_i hqueue
      rw [hqueue]
      exact List.mem_cons_of_mem _ h

theorem Caller.next_live (outcome : Except WriteError Applied) (c : Caller Op) : (c.next outcome).live = c.live := by
  unfold Caller.next
  split
  · split <;> rfl
  · split <;> rfl

theorem Caller.next_entry {outcome : Except WriteError Applied} {c : Caller Op} (h : c.live = true) :
    (c.next outcome).entry = c.entry := by
  unfold Caller.next
  rw [if_pos h]
  split <;> rfl

theorem Sound.next {w : World Op σ} {i : Nat} {c : Caller Op} {outcome : Except WriteError Applied} (h : Sound w)
    (hc : w.callers[i]? = some c) (hstage : c.stage = .marking outcome) : Sound (w.setCaller i (c.next outcome)) := by
  refine h.setCaller hc (c.next_live outcome) Caller.next_entry (fun _ => Caller.mem_next) fun hlive => ?_
  rw [Caller.next_live] at hlive
  have htold := h.told c (List.mem_of_getElem? hc) hlive
  rw [Caller.Told, hstage] at htold
  cases outcome with
  | ok applied =>
    have hnext : c.next (.ok applied) = { c with stage := .returned applied.results } := if_pos hlive
    rw [hnext]
    exact htold
  | error error =>
    have hnext : c.next (.error error) = { c with stage := .done } := if_pos hlive
    rw [hnext]
    trivial

/-! ## The journal -/

theorem entries_updateRow {requestId : Text} {f : JournalRow Op → JournalRow Op} {journal : List (JournalRow Op)}
    (hf : ∀ row, (f row).entry = row.entry) :
    (updateRow requestId f journal).map JournalRow.entry = journal.map JournalRow.entry := Table.map_key_update hf

theorem entries_markOutcome {live : Bool} {requestId : Text} {outcome : Except WriteError Receipt} {now : Nat}
    {journal : List (JournalRow Op)} :
    (Writes.markOutcome live requestId outcome now journal).map JournalRow.entry = journal.map JournalRow.entry := by
  cases outcome with
  | ok receipt =>
    exact entries_updateRow (f := JournalRow.markApplied now (some receipt.generation) (some receipt.receiptSeq))
      fun _ => rfl
  | error error =>
    simp only [Writes.markOutcome, Writes.markFailure]
    cases Writes.failureMark live error with
    | none => exact entries_updateRow (f := JournalRow.markPending (journalFailureMessage error) now) fun _ => rfl
    | some disposition =>
      exact entries_updateRow (f := JournalRow.markFailed disposition (journalFailureMessage error) now) fun _ => rfl

theorem entries_requeue (now : Nat) (journal : List (JournalRow Op)) :
    (requeueAmbiguousFailedJournalEntries now journal).map JournalRow.entry = journal.map JournalRow.entry :=
  Table.map_key_update fun _ => rfl

/-- An inserted entry is the only one of its request. -/
theorem insertPending_spec {entry : JournalEntry Op} {now : Nat} {journal journal' : List (JournalRow Op)}
    (h : insertPendingJournalEntry entry now journal = some journal') :
    (∀ row ∈ journal, row.requestId ≠ entry.requestId) ∧ journal' = journal ++ [entry.pending now] := by
  refine ⟨?_, Writes.exists_insertPending h⟩
  unfold insertPendingJournalEntry at h
  split at h
  · cases h
  · rename_i hguard
    rw [not_or, Option.not_isSome_iff_eq_none] at hguard
    exact Table.lookup_none_iff.1 hguard.1

/-! ## Steps keep the world sound -/

/-- **A step of a caller keeps the world sound if its transaction spares the live writes.** -/
theorem Sound.caller {w w' : World Op σ} {i : Nat} {c : Caller Op} {a : CallerAction} (h : Sound w)
    (hc : w.callers[i]? = some c) (hmeets : Meets meaning w (.caller i a)) (hs : c.act meaning w i a = some w') :
    Sound w' := by
  have hmem := List.mem_of_getElem? hc
  cases a with
  | unreadable message =>
    simp only [Caller.act] at hs
    split at hs
    · obtain rfl := Option.some.inj hs
      exact h.setStage hc fun _ => trivial
    · cases hs
  | transact operations =>
    simp only [Caller.act] at hs
    split at hs
    · rename_i hstage
      obtain rfl := Option.some.inj hs
      have htransacted := transact_spec meaning w c.entry operations
      by_cases hlive : c.live = true
      · exact h.transact_live hc hstage hlive htransacted
      · have hrun := htransacted.sound h (h.callers c hmem _ List.mem_cons_self) (hmeets c hc (by simpa using hlive))
        refine hrun.setStage (c := c) ?_ fun hl => absurd hl hlive
        rw [htransacted.callers]; exact hc
    · cases hs
  | deliver =>
    simp only [Caller.act] at hs
    split at hs
    · rename_i outcome hstage
      obtain rfl := Option.some.inj hs
      refine h.setStage hc fun hlive => ?_
      have htold := h.told c hmem hlive
      rw [Caller.Told, hstage] at htold
      cases outcome with
      | ok applied => exact htold
      | error error => trivial
    · cases hs
  | disturb error =>
    have habandon : Sound ((w.abandon c).setCaller i { c with stage := .marking (.error error) }) :=
      (h.abandon hmem).setStage (by rw [World.abandon_callers]; exact hc) fun _ => trivial
    simp only [Caller.act] at hs
    split at hs
    · obtain rfl := Option.some.inj hs
      exact habandon
    · obtain rfl := Option.some.inj hs
      exact habandon
    · cases hs
  | mark now =>
    simp only [Caller.act] at hs
    split at hs
    · rename_i outcome hstage
      obtain rfl := Option.some.inj hs
      exact (h.setJournal entries_markOutcome).next hc hstage
    · cases hs
  | markFails message =>
    simp only [Caller.act] at hs
    split at hs
    · obtain rfl := Option.some.inj hs
      exact h.setStage hc fun _ => trivial
    · rename_i outcome _ hstage _
      obtain rfl := Option.some.inj hs
      exact h.next hc hstage
    · cases hs
  | stop =>
    have hstop : Sound ((w.abandon c).setCaller i { c with stage := .done }) :=
      (h.abandon hmem).setStage (by rw [World.abandon_callers]; exact hc) fun _ => trivial
    simp only [Caller.act] at hs
    split at hs
    all_goals first
      | (obtain rfl := Option.some.inj hs; exact hstop)
      | cases hs

/-- A new caller with entries of the journal, of a request that no live write has if it is live. -/
theorem Sound.enter {w : World Op σ} {c : Caller Op} (h : Sound w)
    (hentries : ∀ entry ∈ c.entry :: c.queue, entry ∈ w.entries)
    (hnew : c.live = true → ∀ d ∈ w.callers, d.entry.requestId ≠ c.entry.requestId)
    (htold : c.live = true → c.Told w.commits) : Sound { w with callers := w.callers ++ [c] } := by
  have hcases : ∀ (i : Nat) (d : Caller Op), (w.callers ++ [c])[i]? = some d →
      (i < w.callers.length ∧ w.callers[i]? = some d) ∨ (i = w.callers.length ∧ d = c) := fun i d hd => by
    rcases Nat.lt_trichotomy i w.callers.length with hlt | rfl | hgt
    · rw [List.getElem?_append_left hlt] at hd
      exact .inl ⟨hlt, hd⟩
    · rw [List.getElem?_concat_length] at hd
      exact .inr ⟨rfl, (Option.some.inj hd).symm⟩
    · rw [List.getElem?_eq_none (by rw [List.length_append, List.length_singleton]; omega)] at hd
      cases hd
  refine ⟨h.commits, h.keyed, h.journal, h.receipts, fun d hd entry he => ?_, h.strays, ?_, fun d hd hlive => ?_⟩
  · rcases List.mem_append.1 hd with hd | hd
    · exact h.callers d hd entry he
    · obtain rfl := List.mem_singleton.1 hd
      exact hentries entry he
  · intro i j d d' hd hd' hl hl' hid
    rcases hcases i d hd with ⟨-, hi⟩ | ⟨hi, rfl⟩
    · rcases hcases j d' hd' with ⟨-, hj⟩ | ⟨-, rfl⟩
      · exact h.one i j d d' hi hj hl hl' hid
      · exact absurd hid (hnew hl' d (List.mem_of_getElem? hi))
    · rcases hcases j d' hd' with ⟨-, hj⟩ | ⟨hj, rfl⟩
      · exact absurd hid.symm (hnew hl d' (List.mem_of_getElem? hj))
      · rw [hi, hj]
  · rcases List.mem_append.1 hd with hd | hd
    · exact h.told d hd hlive
    · obtain rfl := List.mem_singleton.1 hd
      exact htold hlive

/-- A new row of the journal. -/
theorem Sound.insert {w : World Op σ} {entry : JournalEntry Op} {now : Nat} (h : Sound w)
    (hnew : ∀ row ∈ w.journal, row.requestId ≠ entry.requestId) :
    Sound { w with journal := w.journal ++ [entry.pending now] } := by
  have hentries : (w.journal ++ [entry.pending now]).map JournalRow.entry = w.entries ++ [entry] := List.map_append
  have hold : ∀ x ∈ w.entries, x ∈ (w.journal ++ [entry.pending now]).map JournalRow.entry := fun x hx => by
    rw [hentries]
    exact List.mem_append_left _ hx
  refine ⟨h.commits, h.keyed, ?_, fun row hrow => ?_, fun c hc x hx => hold x (h.callers c hc x hx),
    fun x hx => hold x (h.strays x hx), h.one, h.told⟩
  · show Table.Keyed JournalEntry.requestId ((w.journal ++ [entry.pending now]).map JournalRow.entry)
    rw [hentries]
    refine h.journal.append fun x hx => ?_
    obtain ⟨row, hrow, rfl⟩ := List.mem_map.1 hx
    exact hnew row hrow
  · obtain ⟨x, hx, hid⟩ := h.receipts row hrow
    exact ⟨x, hold x hx, hid⟩

/-- **Every step that meets the condition keeps the world sound.** -/
theorem Sound.act {w w' : World Op σ} {a : Action Op} (h : Sound w) (hmeets : Meets meaning w a)
    (hs : w.act meaning a = some w') : Sound w' := by
  cases a with
  | executeMutatingOperations entry now =>
    obtain ⟨journal, hj, rfl⟩ := Option.map_eq_some_iff.1 hs
    obtain ⟨hnew, rfl⟩ := insertPending_spec hj
    have hfree : ∀ x ∈ w.entries, x.requestId ≠ entry.requestId := fun x hx => by
      obtain ⟨row, hrow, rfl⟩ := List.mem_map.1 hx
      exact hnew row hrow
    refine (h.insert hnew).enter (c := ⟨true, entry, [], .applying⟩) (fun x hx => ?_) (fun _ d hd => ?_) fun _ => ?_
    · rw [List.mem_singleton.1 hx]
      exact List.mem_map.2 ⟨entry.pending now, List.mem_append_right _ (List.mem_singleton.2 rfl), rfl⟩
    · exact hfree _ (h.callers d hd _ List.mem_cons_self)
    · intro results hresults
      -- a commit of the request would have a row
      have hin : entry.requestId ∈ w.postgres.receipts.map ReceiptRow.requestId := by
        rw [← h.commits]
        exact List.mem_map.2 ⟨_, hresults, rfl⟩
      obtain ⟨row, hrow, hid⟩ := List.mem_map.1 hin
      obtain ⟨x, hx, hxid, -⟩ := h.receipts row hrow
      exact absurd (hxid.trans hid) (hfree x hx)
  | replayRecoveryJournal limit now =>
    have hjournal := h.setJournal (entries_requeue now w.journal)
    simp only [World.act] at hs
    split at hs
    · obtain rfl := Option.some.inj hs
      exact hjournal
    · rename_i entry queue hload
      obtain rfl := Option.some.inj hs
      refine hjournal.enter (c := ⟨false, entry, queue, .applying⟩) (fun x hx => ?_) nofun nofun
      have hx : x ∈ (loadRecoveryJournalCandidates limit (requeueAmbiguousFailedJournalEntries now w.journal)).map
          JournalRow.entry := by rw [hload]; exact hx
      obtain ⟨row, hrow, rfl⟩ := List.mem_map.1 hx
      exact List.mem_map_of_mem (List.mem_filter.1 (mem_oldest hrow)).1
  | caller i a =>
    obtain ⟨c, hc, hs⟩ := Option.bind_eq_some_iff.1 hs
    exact h.caller hc hmeets hs
  | stray k operations =>
    obtain ⟨entry, he, rfl⟩ := Option.map_eq_some_iff.1 hs
    have hrun := (transact_spec meaning w entry operations).sound h
      (h.strays entry (List.mem_of_getElem? he)) (hmeets entry he)
    have hstrays : ∀ x ∈ w.strays.eraseIdx k, x ∈ (w.transact meaning entry operations).2.entries := fun x hx => by
      rw [World.entries, (transact_spec meaning w entry operations).journal]
      exact h.strays x (List.mem_of_mem_eraseIdx hx)
    exact ⟨hrun.commits, hrun.keyed, hrun.journal, hrun.receipts, hrun.callers, hstrays, hrun.one, hrun.told⟩

/-! ## The condition is needed -/

theorem transact_finds {w : World Op σ} {entry : JournalEntry Op} {operations : Except WriteError Nat} {row : ReceiptRow}
    (hrow : w.postgres.receiptOf entry.requestId = some row) (hmatches : row.matches entry = true) :
    w.transact meaning entry operations = (.ok ⟨zeroResultsForOperations entry.operations, row.receipt⟩, w) := by
  simp [World.transact, Postgres.applyMutatingOperationsWithReceipt, hrow, hmatches]

theorem transact_claims {w : World Op σ} {entry : JournalEntry Op} {gap : Nat}
    (hnone : w.postgres.receiptOf entry.requestId = none) :
    (w.transact meaning entry (.ok gap)).2 = { w with
      postgres := w.postgres.commit meaning entry gap
      commits := w.commits ++ [(entry.requestId, (executeOperations meaning entry.operations w.postgres.tables).1)] } := by
  simp [World.transact, Postgres.applyMutatingOperationsWithReceipt, hnone]

theorem receiptOf_claimed {postgres : Postgres σ} {entry : JournalEntry Op} {gap : Nat}
    (hnone : postgres.receiptOf entry.requestId = none) :
    (postgres.commit meaning entry gap).receiptOf entry.requestId = some (postgres.claimed entry gap) := by
  show Table.lookup _ _ (postgres.receipts ++ [postgres.claimed entry gap]) = _
  have hnone : Table.lookup ReceiptRow.requestId entry.requestId postgres.receipts = none := hnone
  rw [Table.lookup_append, hnone, Option.none_or]
  exact if_pos rfl

/-- **A live write whose operations are committed before its transaction returns zero changes.** -/
theorem returns_zero {w : World Op σ} {i : Nat} {c : Caller Op} {row : ReceiptRow} {results : List Nat}
    (hc : w.callers[i]? = some c) (hlive : c.live = true) (hstage : c.stage = .applying)
    (hrow : w.postgres.receiptOf c.entry.requestId = some row) (hmatches : row.matches c.entry = true)
    (hcommit : (c.entry.requestId, results) ∈ w.commits)
    (hresults : results ≠ zeroResultsForOperations c.entry.operations) :
    ∃ w', (counting meaning).Reaches w w' ∧ ¬ w'.CountsHold := by
  let outcome : Except WriteError Applied := .ok ⟨zeroResultsForOperations c.entry.operations, row.receipt⟩
  let w1 := w.setCaller i { c with stage := .answered outcome }
  let w2 := w1.setCaller i { c with stage := .marking outcome }
  let w3 := w2.mark i { c with stage := .marking outcome } outcome 0
  have h1 : w1.callers[i]? = some { c with stage := .answered outcome } := World.getElem?_setCaller hc
  have h2 : w2.callers[i]? = some { c with stage := .marking outcome } := World.getElem?_setCaller h1
  have h3 : w3.callers[i]? = some { c with stage := .returned (zeroResultsForOperations c.entry.operations) } := by
    have hnext : ({ c with stage := .marking outcome } : Caller Op).next outcome =
        { c with stage := .returned (zeroResultsForOperations c.entry.operations) } := if_pos hlive
    rw [← hnext]
    exact World.getElem?_setCaller h2
  have s1 : (counting meaning).step w (.caller i (.transact (.ok 0))) = some w1 := by
    show (w.callers[i]?).bind _ = _
    rw [hc, Option.bind_some, Caller.act, hstage]
    simp only [transact_finds hrow hmatches]
    rfl
  have s2 : (counting meaning).step w1 (.caller i .deliver) = some w2 := by
    show (w1.callers[i]?).bind _ = _
    rw [h1]
    rfl
  have s3 : (counting meaning).step w2 (.caller i (.mark 0)) = some w3 := by
    show (w2.callers[i]?).bind _ = _
    rw [h2]
    rfl
  refine ⟨w3, .snoc (.snoc (.snoc .refl trivial s1) trivial s2) trivial s3, fun hholds => ?_⟩
  have hzero := hholds.counts _ (List.mem_of_getElem? h3) hlive _ rfl
  have hkeyed : Table.Keyed Prod.fst w.commits := hholds.once
  have heq := hkeyed.eq_of_key hcommit hzero rfl
  exact hresults (Prod.mk.inj heq).2

/-- A transaction that does not spare a live write makes it return zero changes. -/
theorem counts_fail {w w' : World Op σ} {entry : JournalEntry Op} {operations : Except WriteError Nat} (h : Sound w)
    (hentry : entry ∈ w.entries) (hspares : ¬ w.Spares meaning entry operations)
    (hpostgres : w'.postgres = (w.transact meaning entry operations).2.postgres)
    (hcommits : w'.commits = (w.transact meaning entry operations).2.commits)
    (hcallers : ∀ (i : Nat) (c : Caller Op), w.callers[i]? = some c → c.live = true → w'.callers[i]? = some c) :
    ∃ w'', (counting meaning).Reaches w' w'' ∧ ¬ w''.CountsHold := by
  unfold World.Spares at hspares
  push Not at hspares
  obtain ⟨hnone, hok, hresults, c, hc, hlive, hid, happlying⟩ := hspares
  cases operations with
  | error error => cases hok
  | ok gap =>
    obtain ⟨i, hi⟩ := List.getElem?_of_mem hc
    obtain rfl := h.journal.eq_of_key (h.callers c hc _ List.mem_cons_self) hentry hid
    have hstage : c.stage = .applying := by
      cases hs : c.stage with
      | applying => rfl
      | answered outcome => rw [hs] at happlying; exact absurd rfl happlying
      | marking outcome => rw [hs] at happlying; exact absurd rfl happlying
      | returned results => rw [hs] at happlying; exact absurd rfl happlying
      | done => rw [hs] at happlying; exact absurd rfl happlying
    rw [transact_claims hnone] at hpostgres hcommits
    have hreceipt : w'.postgres.receiptOf c.entry.requestId = some (w.postgres.claimed c.entry gap) := by
      rw [hpostgres]
      exact receiptOf_claimed hnone
    have hcommit : (c.entry.requestId, (executeOperations meaning c.entry.operations w.postgres.tables).1) ∈ w'.commits := by
      rw [hcommits]
      exact List.mem_append_right _ (List.mem_singleton.2 rfl)
    have hmatches : (w.postgres.claimed c.entry gap).matches c.entry = true := by
      simp [ReceiptRow.matches, Postgres.claimed]
    exact returns_zero (hcallers i c hi hlive) hlive hstage hreceipt hmatches hcommit hresults

/-! ## Runs -/

/-- **Along a run that meets the condition a live write returns the changes counted when its operations were committed**,
and a step that does not meet it leads to a live write that returns others. -/
theorem countsHold_runs {tables : σ} {w : World Op σ} (hrun : (counting meaning).Steps (Meets meaning) (.start tables) w) :
    w.CountsHold ∧ ∀ a w', (counting meaning).step w a = some w' → ¬ Meets meaning w a →
      ∃ w'', (counting meaning).Reaches w' w'' ∧ ¬ w''.CountsHold := by
  have hsound : Sound w := hrun.invariant (Sound.start tables) fun _ _ _ h hmeets hs => h.act hmeets hs
  refine ⟨hsound.countsHold, fun a w' hs hmeets => ?_⟩
  cases a with
  | executeMutatingOperations entry now => exact absurd trivial hmeets
  | replayRecoveryJournal limit now => exact absurd trivial hmeets
  | stray k operations =>
    obtain ⟨entry, he, rfl⟩ := Option.map_eq_some_iff.1 hs
    have hspares : ¬ w.Spares meaning entry operations := fun hspares => hmeets fun x hx => by
      obtain rfl := Option.some.inj (he.symm.trans hx)
      exact hspares
    refine counts_fail hsound (hsound.strays entry (List.mem_of_getElem? he)) hspares rfl rfl fun i c hc _ => ?_
    show (w.transact meaning entry operations).2.callers[i]? = some c
    rw [(transact_spec meaning w entry operations).callers]
    exact hc
  | caller i a =>
    obtain ⟨c, hc, hs⟩ := Option.bind_eq_some_iff.1 hs
    cases a with
    | transact operations =>
      have hspares : c.live = false ∧ ¬ w.Spares meaning c.entry operations := by
        by_contra hnot
        refine hmeets fun d hd hdlive => ?_
        obtain rfl := Option.some.inj (hc.symm.trans hd)
        by_contra hspares
        exact hnot ⟨hdlive, hspares⟩
      simp only [Caller.act] at hs
      split at hs
      · obtain rfl := Option.some.inj hs
        have hmem := List.mem_of_getElem? hc
        refine counts_fail hsound (hsound.callers c hmem _ List.mem_cons_self) hspares.2 rfl rfl fun j d hd hlive => ?_
        have hij : i ≠ j := fun he => by
          subst he
          obtain rfl := Option.some.inj (hc.symm.trans hd)
          rw [hspares.1] at hlive; cases hlive
        show ((w.transact meaning c.entry operations).2.callers.set i _)[j]? = some d
        rw [List.getElem?_set_ne hij, (transact_spec meaning w c.entry operations).callers]
        exact hd
      · cases hs
    | unreadable message => exact absurd trivial hmeets
    | deliver => exact absurd trivial hmeets
    | disturb error => exact absurd trivial hmeets
    | mark now => exact absurd trivial hmeets
    | markFails message => exact absurd trivial hmeets
    | stop => exact absurd trivial hmeets

instance (meaning : Meaning Op σ) (w : World Op σ) (entry : JournalEntry Op) (operations : Except WriteError Nat) :
    Decidable (w.Spares meaning entry operations) :=
  inferInstanceAs (Decidable (w.postgres.receiptOf entry.requestId = none → operations.toBool = true →
    (executeOperations meaning entry.operations w.postgres.tables).1 = zeroResultsForOperations entry.operations ∨
      ∀ c ∈ w.callers, c.live = true → c.entry.requestId = entry.requestId → c.stage.isApplying = false))

instance (meaning : Meaning Op σ) (w : World Op σ) (a : Action Op) : Decidable (Meets meaning w a) :=
  match a with
  | .caller i (.transact operations) => inferInstanceAs (Decidable (∀ c ∈ w.callers[i]?, c.live = false →
      w.Spares meaning c.entry operations))
  | .stray k operations => inferInstanceAs (Decidable (∀ entry ∈ w.strays[k]?, w.Spares meaning entry operations))
  | .caller _ (.unreadable _) | .caller _ .deliver | .caller _ (.disturb _) | .caller _ (.mark _)
  | .caller _ (.markFails _) | .caller _ .stop | .executeMutatingOperations .. | .replayRecoveryJournal .. => .isTrue trivial

/-- An update of one row. -/
def oneRow : Meaning Nat Nat := fun n tables => (1, tables + n)

def liveWrite : JournalEntry Nat := ⟨"10000000-0000-4000-8000-000000000001".toList, List.replicate 64 '1', .run, [5]⟩

/-- A live write, and a replay that finds its entry pending. -/
def bothApplying : List (Action Nat) := [.executeMutatingOperations liveWrite 0, .replayRecoveryJournal 24 1]

/-- What the live write returned, and the commits. -/
def World.outcome (w : World Nat Nat) : List (List Nat) × List (Text × List Nat) :=
  (w.callers.filterMap (fun c => match c.stage with
    | .returned results => some results
    | _ => none), w.commits)

def liveFirst : List (Action Nat) := bothApplying ++ [.caller 0 (.transact (.ok 0)), .caller 1 (.transact (.ok 0)),
  .caller 0 .deliver, .caller 0 (.mark 2)]

theorem countsHold_runs_liveFirst :
    ∃ w, (counting oneRow).run (.start 0) liveFirst = some w ∧
      w.outcome = ([[1]], [(liveWrite.requestId, [1])]) ∧ w.CountsHold := by
  have hmeets : (counting oneRow).runMeets (Meets oneRow) (.start 0) liveFirst := by decide +kernel
  have houtcome : ((counting oneRow).run (.start 0) liveFirst).any
      (fun w => decide (w.outcome = ([[1]], [(liveWrite.requestId, [1])]))) = true := by decide +kernel
  obtain ⟨w, hw, ho⟩ := (Option.any_eq_true _ _).1 houtcome
  exact ⟨w, hw, of_decide_eq_true ho, (countsHold_runs (Machine.steps_of_run hw hmeets)).1⟩

/-- The transaction of the replay is first. -/
def replayFirst : List (Action Nat) := bothApplying ++ [.caller 1 (.transact (.ok 0)), .caller 0 (.transact (.ok 0)),
  .caller 0 .deliver, .caller 0 (.mark 2)]

/-- **The live write returns that it changed nothing**, and its row was changed. -/
theorem not_countsHold : ¬ ∀ w : World Nat Nat, (counting oneRow).Reaches (.start 0) w → w.CountsHold := by
  have hwrong : ((counting oneRow).run (.start 0) replayFirst).any (fun w => w.callers.any (fun c => c.live &&
      match c.stage with
      | .returned results => !decide ((c.entry.requestId, results) ∈ w.commits)
      | _ => false)) = true := by decide +kernel
  obtain ⟨w, hw, hwrong⟩ := (Option.any_eq_true _ _).1 hwrong
  obtain ⟨c, hc, hwrong⟩ := List.any_eq_true.1 hwrong
  rw [Bool.and_eq_true] at hwrong
  obtain ⟨hlive, hresults⟩ := hwrong
  intro h
  have hholds := h w (Machine.steps_of_run hw (Machine.runMeets_true _ _))
  split at hresults
  · rename_i results hstage
    rw [Bool.not_eq_true', decide_eq_false_iff_not] at hresults
    exact hresults (hholds.counts c hc hlive results hstage)
  · cases hresults

end Live
end Recovery
end Adg
