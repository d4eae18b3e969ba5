import AdgLang.Machine
import AdgLang.PostgresProvider
/-!
# JournalRun — live writes and replays of one journal

Any number of live writes and scheduled replays run against one journal and one provider.  A caller sends a request,
waits for the answer, asks for the provider's last error where the answer is a server error, and marks the entry; the
provider runs the transaction at any time after the request was sent, whether or not the caller still waits.  An
answer may be lost or replaced on its way (`Action.disturb`), and a mark may fail.  What the journal says of a write is
true (`World.Truthful`) along the runs that meet `Meets`: the classification of an error reads the last error of the
provider, and that may be another request's.
-/
namespace Adg
namespace Recovery
namespace Writes

variable {Op : Type}

/-! ## Callers -/

inductive Stage
  | sending
  | waiting (exchange : Nat)
  /-- A server error, before `fetchCpolyPostgresStatus`. -/
  | probing (error : WriteError)
  | marking (outcome : Except WriteError Receipt)
  | done

/-- `executeMutatingOperations` or a `replayRecoveryJournal`, with the candidates that the replay has still to try. -/
structure Caller (Op : Type) where
  live : Bool
  entry : JournalEntry Op
  queue : List (JournalEntry Op)
  stage : Stage

/-- A request to the provider and the answer it got. -/
structure Exchange (Op : Type) where
  entry : JournalEntry Op
  answer : Option Answer

/-- What the caller makes of an answer. -/
def Caller.receive (answer : Answer) (c : Caller Op) : Caller Op :=
  match readAnswer c.entry.operations.length answer with
  | .ok receipt => { c with stage := .marking (.ok receipt) }
  | .error error =>
    if 500 ≤ error.status then { c with stage := .probing error } else { c with stage := .marking (.error error) }

/-- The next candidate of a replay; a live write has none. -/
def Caller.next (c : Caller Op) : Caller Op :=
  match c.queue with
  | [] => { c with stage := .done }
  | entry :: queue => { c with entry := entry, queue := queue, stage := .sending }

/-- `definitive` in the replays. -/
def isDefinitive (error : WriteError) : Bool :=
  error.receiptConflict || includes (error.message.map Char.toLower) "stored postgresql journal".toList

/-- The mark that an error leads to: none for pending, or the disposition of a failure. -/
def failureMark (live : Bool) (error : WriteError) : Option RecoveryDisposition :=
  let definitive := !live && isDefinitive error
  if !definitive && isTerminalPostgresWriteRejection error then some .terminalRejected
  else if !definitive && isAmbiguousPostgresWriteError error then none
  else some .blocking

def markFailure (live : Bool) (requestId : Text) (error : WriteError) (now : Nat) (journal : List (JournalRow Op)) :
    List (JournalRow Op) :=
  match failureMark live error with
  | none => markJournalPending requestId (journalFailureMessage error) now journal
  | some disposition => markJournalFailed requestId (journalFailureMessage error) disposition now journal

def markOutcome (live : Bool) (requestId : Text) (outcome : Except WriteError Receipt) (now : Nat)
    (journal : List (JournalRow Op)) : List (JournalRow Op) :=
  match outcome with
  | .ok receipt => markJournalApplied requestId now (some receipt.generation) (some receipt.receiptSeq) journal
  | .error error => markFailure live requestId error now journal

/-! ## Steps -/

structure World (Op : Type) where
  provider : Provider
  journal : List (JournalRow Op)
  callers : List (Caller Op)
  exchanges : List (Exchange Op)

def World.start : World Op := ⟨.initial, [], [], []⟩

inductive CallerAction
  | send
  /-- A replay cannot read the stored payload, or it fails its checks. -/
  | unreadable (message : Text)
  | deliver
  /-- Something else than the provider's answer reaches the caller: a timeout, a network error, a malformed answer. -/
  | disturb (answer : Answer)
  | probe (startupFailure : Option Text)
  | probeFails
  | mark (now : Nat)
  | markFails (message : Text)

inductive Action (Op : Type)
  /-- A live write inserts its entry. -/
  | executeMutatingOperations (entry : JournalEntry Op) (now : Nat)
  /-- A scheduled replay requeues failed entries and loads its candidates. -/
  | replayRecoveryJournal (limit now : Nat)
  | caller (i : Nat) (a : CallerAction)
  | transact (exchange : Nat) (outcome : Outcome)
  /-- Some other request of the provider fails. -/
  | otherRequestFails (message : Text)

def World.setCaller (w : World Op) (i : Nat) (c : Caller Op) : World Op := { w with callers := w.callers.set i c }

/-- The request of a caller that waits for it to be sent. -/
def World.send (w : World Op) (i : Nat) (c : Caller Op) : World Op :=
  { w with
    callers := w.callers.set i { c with stage := .waiting w.exchanges.length }
    exchanges := w.exchanges ++ [⟨c.entry, none⟩] }

def World.transact (w : World Op) (k : Nat) (x : Exchange Op) (outcome : Outcome) : World Op :=
  let out := w.provider.execute none x.entry outcome
  { w with provider := out.1, exchanges := w.exchanges.set k { x with answer := some out.2 } }

def World.mark (w : World Op) (i : Nat) (c : Caller Op) (outcome : Except WriteError Receipt) (now : Nat) : World Op :=
  { w with
    journal := markOutcome c.live c.entry.requestId outcome now w.journal
    callers := w.callers.set i c.next }

/-- A step of the caller at a position. -/
def Caller.act (w : World Op) (i : Nat) (c : Caller Op) : CallerAction → Option (World Op)
  | .send => match c.stage with
    | .sending => some (w.send i c)
    | _ => none
  | .unreadable message => match c.stage, c.live with
    | .sending, false => some (w.setCaller i { c with stage := .marking (.error (.ofMessage message)) })
    | _, _ => none
  | .deliver => match c.stage with
    | .waiting k => ((w.exchanges[k]?).bind Exchange.answer).map (fun answer => w.setCaller i (c.receive answer))
    | _ => none
  | .disturb answer => match c.stage with
    | .waiting _ => some (w.setCaller i (c.receive answer))
    | _ => none
  | .probe startupFailure => match c.stage with
    | .probing error =>
      let diagnosed := attachContainerProviderDiagnostic (w.provider.statusLastError startupFailure) error
      some (w.setCaller i { c with stage := .marking (.error diagnosed) })
    | _ => none
  | .probeFails => match c.stage with
    | .probing error => some (w.setCaller i { c with stage := .marking (.error error) })
    | _ => none
  | .mark now => match c.stage with
    | .marking outcome => some (w.mark i c outcome now)
    | _ => none
  | .markFails message => match c.stage, c.live with
    -- a replay handles the failed mark like a failed write
    | .marking (.ok _), false => some (w.setCaller i { c with stage := .marking (.error (.ofMessage message)) })
    | .marking _, _ => some (w.setCaller i c.next)
    | _, _ => none

def World.act (w : World Op) : Action Op → Option (World Op)
  | .executeMutatingOperations entry now =>
    (insertPendingJournalEntry entry now w.journal).map (fun journal =>
      { w with journal := journal, callers := w.callers ++ [⟨true, entry, [], .sending⟩] })
  | .replayRecoveryJournal limit now =>
    let journal := requeueAmbiguousFailedJournalEntries now w.journal
    match (loadRecoveryJournalCandidates limit journal).map JournalRow.entry with
    | [] => some { w with journal := journal }
    | entry :: queue => some { w with journal := journal, callers := w.callers ++ [⟨false, entry, queue, .sending⟩] }
  | .caller i a => (w.callers[i]?).bind (fun c => c.act w i a)
  | .transact k outcome => (w.exchanges[k]?).bind (fun x =>
      if x.answer.isNone then some (w.transact k x outcome) else none)
  | .otherRequestFails message => some { w with provider := { w.provider with lastError := some message } }

def TerminallyRejected (row : JournalRow Op) : Prop :=
  row.status = .failed ∧ row.recoveryDisposition = .terminalRejected

/-- The steps that keep the journal truthful.  An answer that reaches a caller in place of the provider's own reads as a
success only with the receipt of the request.  A request is not committed after its entry was terminally rejected.  An
error that the caller takes for a terminal rejection leaves a request without a receipt. -/
def Meets (w : World Op) : Action Op → Prop
  | .caller i (.disturb answer) => ∀ c ∈ w.callers[i]?, answer.Tells w.provider c.entry
  | .transact k outcome => ∀ x ∈ w.exchanges[k]?, w.provider.adds none x.entry outcome = true →
      ∀ row ∈ w.journal, row.requestId = x.entry.requestId → ¬ TerminallyRejected row
  | .caller i (.mark _) => ∀ c ∈ w.callers[i]?, match c.stage with
    | .marking (.error error) => failureMark c.live error = some .terminalRejected →
        ∀ receipt ∈ w.provider.receipts, receipt.requestId ≠ c.entry.requestId
    | _ => True
  | _ => True

/-! ## What holds in every world -/

/-- A caller knows what the provider did. -/
def Caller.Sound (w : World Op) (c : Caller Op) : Prop :=
  match c.stage with
  | .waiting k => ∃ x, w.exchanges[k]? = some x ∧ x.entry = c.entry
  | .marking (.ok receipt) => w.provider.HasReceipt c.entry.requestId receipt
  | _ => True

structure Sound (w : World Op) : Prop where
  provider : w.provider.Consistent
  applied : ∀ row ∈ w.journal, row.status = .applied →
    ∃ receipt, row.receipt = some receipt ∧ w.provider.HasReceipt row.requestId receipt
  rejected : ∀ row ∈ w.journal, TerminallyRejected row →
    ∀ receipt ∈ w.provider.receipts, receipt.requestId ≠ row.requestId
  answers : ∀ x ∈ w.exchanges, ∀ answer ∈ x.answer, answer.Tells w.provider x.entry
  callers : ∀ c ∈ w.callers, c.Sound w
  entries : ∀ c ∈ w.callers, ∀ entry ∈ c.entry :: c.queue, ∃ row ∈ w.journal, row.requestId = entry.requestId

/-- A world in which the provider keeps its receipts and the exchanges their entries. -/
structure World.Grows (w w' : World Op) : Prop where
  receipts : ∀ row ∈ w.provider.receipts, row ∈ w'.provider.receipts
  exchanges : ∀ (k : Nat) (x : Exchange Op), w.exchanges[k]? = some x →
    ∃ x' : Exchange Op, w'.exchanges[k]? = some x' ∧ x'.entry = x.entry

theorem World.Grows.same {w w' : World Op} (hp : w'.provider.receipts = w.provider.receipts)
    (hx : w'.exchanges = w.exchanges) : w.Grows w' :=
  ⟨fun _ h => hp ▸ h, fun _ x h => ⟨x, hx ▸ h, rfl⟩⟩

theorem Caller.Sound.grows {w w' : World Op} (hgrows : w.Grows w') {c : Caller Op} (h : c.Sound w) : c.Sound w' := by
  unfold Caller.Sound at *
  split at h
  · obtain ⟨x, hx, he⟩ := h
    obtain ⟨x', hx', he'⟩ := hgrows.exchanges _ x hx
    exact ⟨x', hx', he'.trans he⟩
  · exact h.of_append hgrows.receipts
  · trivial

/-- What an answer that tells the truth leaves the caller with. -/
theorem Caller.Sound.receive {w : World Op} {c : Caller Op} {answer : Answer} (h : answer.Tells w.provider c.entry) :
    (c.receive answer).Sound w := by
  unfold Caller.receive
  split
  · rename_i receipt hread
    exact h receipt hread
  · split <;> trivial

@[simp] theorem Caller.receive_entry {c : Caller Op} {answer : Answer} : (c.receive answer).entry = c.entry := by
  unfold Caller.receive
  split
  · rfl
  · split <;> rfl

@[simp] theorem Caller.receive_queue {c : Caller Op} {answer : Answer} : (c.receive answer).queue = c.queue := by
  unfold Caller.receive
  split
  · rfl
  · split <;> rfl

theorem Caller.next_sound {w : World Op} {c : Caller Op} : c.next.Sound w := by
  unfold Caller.next
  split <;> trivial

theorem Caller.mem_next {c : Caller Op} {entry : JournalEntry Op} (h : entry ∈ c.next.entry :: c.next.queue) :
    entry ∈ c.entry :: c.queue := by
  unfold Caller.next at h
  split at h
  · exact h
  · rename_i hq
    rw [hq]
    exact List.mem_cons_of_mem _ h

/-! ## The journal under a mark -/

theorem mem_updateRow {id : Text} {f : JournalRow Op → JournalRow Op} {journal : List (JournalRow Op)}
    {row : JournalRow Op} (h : row ∈ updateRow id f journal) :
    row ∈ journal ∨ ∃ x ∈ journal, x.requestId = id ∧ row = f x := by
  obtain ⟨x, hx, rfl⟩ := Table.mem_update.1 h
  split
  · rename_i hid
    exact .inr ⟨x, hx, of_decide_eq_true hid, rfl⟩
  · exact .inl hx

theorem exists_markOutcome {live : Bool} {requestId id : Text} {outcome : Except WriteError Receipt} {now : Nat}
    {journal : List (JournalRow Op)} :
    (∃ row ∈ markOutcome live requestId outcome now journal, row.requestId = id) ↔
      ∃ row ∈ journal, row.requestId = id := by
  cases outcome with
  | ok receipt =>
    exact exists_updateRow (f := JournalRow.markApplied now (some receipt.generation) (some receipt.receiptSeq))
      (fun _ => rfl)
  | error error =>
    simp only [markOutcome, markFailure]
    cases failureMark live error with
    | none => exact exists_updateRow (f := JournalRow.markPending (journalFailureMessage error) now) (fun _ => rfl)
    | some disposition =>
      exact exists_updateRow (f := JournalRow.markFailed disposition (journalFailureMessage error) now) (fun _ => rfl)

/-- What a marked row says: it was not marked, or it carries the receipt, or it is pending or failed as the error says. -/
inductive Marked (live : Bool) (requestId : Text) (outcome : Except WriteError Receipt) (journal : List (JournalRow Op))
    (row : JournalRow Op) : Prop
  | kept (h : row ∈ journal)
  | applied (receipt : Receipt) (ho : outcome = .ok receipt) (hid : row.requestId = requestId)
      (hs : row.status = .applied) (hr : row.receipt = some receipt)
  | pending (hs : row.status = .pending)
  | failed (error : WriteError) (ho : outcome = .error error) (hid : row.requestId = requestId)
      (hs : row.status = .failed) (hd : failureMark live error = some row.recoveryDisposition)

theorem marked_of_markOutcome {live : Bool} {requestId : Text} {outcome : Except WriteError Receipt} {now : Nat}
    {journal : List (JournalRow Op)} {row : JournalRow Op} (h : row ∈ markOutcome live requestId outcome now journal) :
    Marked live requestId outcome journal row := by
  cases outcome with
  | ok receipt =>
    obtain h | ⟨x, -, hid, rfl⟩ := mem_updateRow h
    · exact .kept h
    · exact .applied receipt rfl hid rfl rfl
  | error error =>
    simp only [markOutcome, markFailure] at h
    cases hd : failureMark live error with
    | none =>
      rw [hd] at h
      obtain h | ⟨x, -, -, rfl⟩ := mem_updateRow h
      · exact .kept h
      · exact .pending rfl
    | some disposition =>
      rw [hd] at h
      obtain h | ⟨x, -, hid, rfl⟩ := mem_updateRow h
      · exact .kept h
      · exact .failed error rfl hid rfl hd

/-! ## Steps keep the world sound -/

/-- A caller that moves on with what it knows, in a world that has not changed otherwise. -/
theorem Sound.setCaller {w : World Op} {i : Nat} {c c' : Caller Op} (h : Sound w) (hc : w.callers[i]? = some c)
    (hsound : c'.Sound w) (hentries : ∀ entry ∈ c'.entry :: c'.queue, entry ∈ c.entry :: c.queue) :
    Sound (w.setCaller i c') where
  provider := h.provider
  applied := h.applied
  rejected := h.rejected
  answers := h.answers
  callers := fun x hx => by
    obtain hx | rfl := List.mem_or_eq_of_mem_set hx
    · exact (h.callers x hx).grows (.same rfl rfl)
    · exact hsound.grows (.same rfl rfl)
  entries := fun x hx entry hentry => by
    obtain hx | rfl := List.mem_or_eq_of_mem_set hx
    · exact h.entries x hx entry hentry
    · exact h.entries c (List.mem_of_getElem? hc) entry (hentries entry hentry)

theorem Sound.send {w : World Op} {i : Nat} {c : Caller Op} (h : Sound w) (hc : w.callers[i]? = some c) :
    Sound (w.send i c) := by
  have hgrows : w.Grows (w.send i c) :=
    ⟨fun _ hrow => hrow, fun k x hx => ⟨x, by
      have hk := (List.getElem?_eq_some_iff.1 hx).1
      rw [World.send, List.getElem?_append_left hk, hx], rfl⟩⟩
  refine ⟨h.provider, h.applied, h.rejected, fun x hx answer hanswer => ?_, fun x hx => ?_, fun x hx => ?_⟩
  · obtain hx | hx := List.mem_append.1 hx
    · exact h.answers x hx answer hanswer
    · obtain rfl := List.mem_singleton.1 hx
      cases hanswer
  · obtain hx | rfl := List.mem_or_eq_of_mem_set hx
    · exact (h.callers x hx).grows hgrows
    · exact ⟨⟨c.entry, none⟩, by simp [World.send], rfl⟩
  · obtain hx | rfl := List.mem_or_eq_of_mem_set hx
    · exact h.entries x hx
    · exact h.entries c (List.mem_of_getElem? hc)

/-- **A transaction keeps the world sound unless it commits a request whose entry was terminally rejected.** -/
theorem Sound.transact {w : World Op} {k : Nat} {x : Exchange Op} {outcome : Outcome} (h : Sound w)
    (hx : w.exchanges[k]? = some x)
    (hmeets : w.provider.adds none x.entry outcome = true →
      ∀ row ∈ w.journal, row.requestId = x.entry.requestId → ¬ TerminallyRejected row) :
    Sound (w.transact k x outcome) := by
  obtain ⟨hran, htells⟩ := Provider.execute_spec none x.entry outcome h.provider
  obtain ⟨gap, hreceipts⟩ := hran.receipts
  have hsub : ∀ row ∈ w.provider.receipts, row ∈ (w.transact k x outcome).provider.receipts := fun row hrow => by
    show row ∈ (w.provider.execute none x.entry outcome).1.receipts
    rw [hreceipts]
    exact List.mem_append_left _ hrow
  have hgrows : w.Grows (w.transact k x outcome) := by
    refine ⟨hsub, fun j y hy => ?_⟩
    by_cases hkj : k = j
    · subst hkj
      obtain rfl := Option.some.inj (hx.symm.trans hy)
      refine ⟨{ x with answer := some (w.provider.execute none x.entry outcome).2 }, ?_, rfl⟩
      exact List.getElem?_set_self (List.getElem?_eq_some_iff.1 hx).1
    · exact ⟨y, (List.getElem?_set_ne hkj).trans hy, rfl⟩
  refine ⟨hran.consistent h.provider Provider.lookup_of_adds, fun row hrow hs => ?_, fun row hrow hrej => ?_,
    fun y hy answer hanswer => ?_, fun c hc => (h.callers c hc).grows hgrows, h.entries⟩
  · obtain ⟨receipt, hr, hhas⟩ := h.applied row hrow hs
    exact ⟨receipt, hr, hhas.of_append hsub⟩
  · intro receipt hreceipt hid
    have hreceipt : receipt ∈ (w.provider.execute none x.entry outcome).1.receipts := hreceipt
    rw [hreceipts] at hreceipt
    obtain hreceipt | hreceipt := List.mem_append.1 hreceipt
    · exact h.rejected row hrow hrej receipt hreceipt hid
    · split at hreceipt
      · rename_i hadds
        obtain rfl := List.mem_singleton.1 hreceipt
        exact hmeets hadds row hrow hid.symm hrej
      · cases hreceipt
  · obtain hy | rfl := List.mem_or_eq_of_mem_set hy
    · exact (h.answers y hy answer hanswer).grows hsub
    · obtain rfl := Option.some.inj hanswer
      exact htells

/-- **A mark keeps the world sound unless it rejects a request that has a receipt.** -/
theorem Sound.mark {w : World Op} {i : Nat} {c : Caller Op} {outcome : Except WriteError Receipt} {now : Nat}
    (h : Sound w) (hc : w.callers[i]? = some c) (hstage : c.stage = .marking outcome)
    (hmeets : ∀ error, outcome = .error error → failureMark c.live error = some .terminalRejected →
      ∀ receipt ∈ w.provider.receipts, receipt.requestId ≠ c.entry.requestId) :
    Sound (w.mark i c outcome now) := by
  have hmem := List.mem_of_getElem? hc
  refine ⟨h.provider, fun row hrow hs => ?_, fun row hrow hrej => ?_, h.answers, fun x hx => ?_, fun x hx entry hentry => ?_⟩
  · obtain hrow | ⟨receipt, rfl, hid, -, hr⟩ | hs' | ⟨error, -, -, hs', -⟩ := marked_of_markOutcome hrow
    · exact h.applied row hrow hs
    · have hsound := h.callers c hmem
      rw [Caller.Sound, hstage] at hsound
      exact ⟨receipt, hr, hid ▸ hsound⟩
    · cases hs.symm.trans hs'
    · cases hs.symm.trans hs'
  · obtain hrow | ⟨receipt, -, -, hs, -⟩ | hs | ⟨error, ho, hid, -, hd⟩ := marked_of_markOutcome hrow
    · exact h.rejected row hrow hrej
    · cases hs.symm.trans hrej.1
    · cases hs.symm.trans hrej.1
    · rw [hrej.2] at hd
      intro receipt hreceipt hid'
      exact hmeets error ho hd receipt hreceipt (hid'.trans hid)
  · obtain hx | rfl := List.mem_or_eq_of_mem_set hx
    · exact (h.callers x hx).grows (.same rfl rfl)
    · exact Caller.next_sound
  · rw [World.mark, exists_markOutcome]
    obtain hx | rfl := List.mem_or_eq_of_mem_set hx
    · exact h.entries x hx entry hentry
    · exact h.entries c hmem entry (Caller.mem_next hentry)

/-- A caller's step keeps the world sound. -/
theorem Sound.caller {w w' : World Op} {i : Nat} {c : Caller Op} {a : CallerAction} (h : Sound w)
    (hc : w.callers[i]? = some c) (hmeets : Meets w (.caller i a)) (hs : c.act w i a = some w') : Sound w' := by
  have hsound := h.callers c (List.mem_of_getElem? hc)
  have same : ∀ {stage : Stage}, Caller.Sound w { c with stage := stage } →
      Sound (w.setCaller i { c with stage := stage }) := fun hs => h.setCaller hc hs (fun _ he => he)
  cases a with
  | send =>
    simp only [Caller.act] at hs
    split at hs
    · obtain rfl := Option.some.inj hs
      exact h.send hc
    · cases hs
  | unreadable message =>
    simp only [Caller.act] at hs
    split at hs
    · obtain rfl := Option.some.inj hs
      exact same trivial
    · cases hs
  | deliver =>
    simp only [Caller.act] at hs
    split at hs
    · rename_i k hstage
      obtain ⟨answer, hanswer, rfl⟩ := Option.map_eq_some_iff.1 hs
      obtain ⟨x, hx, hxa⟩ := Option.bind_eq_some_iff.1 hanswer
      rw [Caller.Sound, hstage] at hsound
      obtain ⟨y, hy, he⟩ := hsound
      obtain rfl := Option.some.inj (hx.symm.trans hy)
      have htells := h.answers x (List.mem_of_getElem? hx) answer hxa
      rw [he] at htells
      exact h.setCaller hc (.receive htells) (fun _ he => by simpa using he)
    · cases hs
  | disturb answer =>
    simp only [Caller.act] at hs
    split at hs
    · obtain rfl := Option.some.inj hs
      exact h.setCaller hc (.receive (hmeets c hc)) (fun _ he => by simpa using he)
    · cases hs
  | probe startupFailure =>
    simp only [Caller.act] at hs
    split at hs
    · obtain rfl := Option.some.inj hs
      exact same trivial
    · cases hs
  | probeFails =>
    simp only [Caller.act] at hs
    split at hs
    · obtain rfl := Option.some.inj hs
      exact same trivial
    · cases hs
  | mark now =>
    simp only [Caller.act] at hs
    split at hs
    · rename_i outcome hstage
      obtain rfl := Option.some.inj hs
      refine h.mark hc hstage (fun error ho hd => ?_)
      have hmeets := hmeets c hc
      rw [hstage, ho] at hmeets
      exact hmeets hd
    · cases hs
  | markFails message =>
    simp only [Caller.act] at hs
    split at hs
    · obtain rfl := Option.some.inj hs
      exact same trivial
    · obtain rfl := Option.some.inj hs
      exact h.setCaller hc Caller.next_sound (fun _ => Caller.mem_next)
    · cases hs

theorem exists_insertPending {entry : JournalEntry Op} {now : Nat} {journal journal' : List (JournalRow Op)}
    (h : insertPendingJournalEntry entry now journal = some journal') : journal' = journal ++ [entry.pending now] := by
  unfold insertPendingJournalEntry at h
  split at h
  · cases h
  · exact (Option.some.inj h).symm

/-- A new caller whose entries have rows, over a journal whose applied and rejected rows were there before. -/
theorem Sound.enter {w : World Op} {journal : List (JournalRow Op)} {callers : List (Caller Op)} (h : Sound w)
    (hrows : ∀ row ∈ journal, row ∈ w.journal ∨ row.status = .pending)
    (hkeeps : ∀ row ∈ w.journal, ∃ row' ∈ journal, row'.requestId = row.requestId)
    (hnew : ∀ c ∈ callers, c.stage = .sending ∧
      ∀ entry ∈ c.entry :: c.queue, ∃ row ∈ journal, row.requestId = entry.requestId) :
    Sound { w with journal := journal, callers := w.callers ++ callers } where
  provider := h.provider
  applied := fun row hrow hs => by
    obtain hrow | hp := hrows row hrow
    · exact h.applied row hrow hs
    · cases hs.symm.trans hp
  rejected := fun row hrow hrej => by
    obtain hrow | hp := hrows row hrow
    · exact h.rejected row hrow hrej
    · cases hrej.1.symm.trans hp
  answers := h.answers
  callers := fun c hc => by
    obtain hc | hc := List.mem_append.1 hc
    · exact (h.callers c hc).grows (.same rfl rfl)
    · unfold Caller.Sound
      rw [(hnew c hc).1]
      trivial
  entries := fun c hc entry hentry => by
    obtain hc | hc := List.mem_append.1 hc
    · obtain ⟨row, hrow, hid⟩ := h.entries c hc entry hentry
      obtain ⟨row', hrow', hid'⟩ := hkeeps row hrow
      exact ⟨row', hrow', hid'.trans hid⟩
    · exact (hnew c hc).2 entry hentry

theorem mem_requeue {now : Nat} {journal : List (JournalRow Op)} {row : JournalRow Op}
    (h : row ∈ requeueAmbiguousFailedJournalEntries now journal) : row ∈ journal ∨ row.status = .pending := by
  obtain ⟨x, hx, rfl⟩ := Table.mem_update.1 h
  split
  · exact .inr rfl
  · exact .inl hx

theorem Sound.replay {w : World Op} (now limit : Nat) (callers : List (Caller Op)) (h : Sound w)
    (hnew : ∀ c ∈ callers, c.stage = .sending ∧ ∀ entry ∈ c.entry :: c.queue, entry ∈
      (loadRecoveryJournalCandidates limit (requeueAmbiguousFailedJournalEntries now w.journal)).map JournalRow.entry) :
    Sound { w with
      journal := requeueAmbiguousFailedJournalEntries now w.journal, callers := w.callers ++ callers } := by
  refine h.enter (fun row => mem_requeue) (fun row hrow => exists_requeue.2 ⟨row, hrow, rfl⟩) (fun c hc => ?_)
  refine ⟨(hnew c hc).1, fun entry hentry => ?_⟩
  obtain ⟨row, hrow, rfl⟩ := List.mem_map.1 ((hnew c hc).2 entry hentry)
  exact ⟨row, (List.mem_filter.1 (mem_oldest hrow)).1, rfl⟩

/-- **Every step that meets the condition keeps the world sound.** -/
theorem Sound.act {w w' : World Op} {a : Action Op} (h : Sound w) (hmeets : Meets w a) (hs : w.act a = some w') :
    Sound w' := by
  cases a with
  | executeMutatingOperations entry now =>
    obtain ⟨journal, hj, rfl⟩ := Option.map_eq_some_iff.1 hs
    obtain rfl := exists_insertPending hj
    refine h.enter (fun row hrow => ?_) (fun row hrow => ⟨row, List.mem_append_left _ hrow, rfl⟩) (fun c hc => ?_)
    · obtain hrow | hrow := List.mem_append.1 hrow
      · exact .inl hrow
      · rw [List.mem_singleton.1 hrow]
        exact .inr rfl
    · obtain rfl := List.mem_singleton.1 hc
      refine ⟨rfl, fun e he => ?_⟩
      rw [List.mem_singleton.1 he]
      exact ⟨entry.pending now, List.mem_append_right _ (List.mem_singleton.2 rfl), rfl⟩
  | replayRecoveryJournal limit now =>
    simp only [World.act] at hs
    split at hs
    · obtain rfl := Option.some.inj hs
      have hreplay := h.replay now limit [] (fun c hc => by cases hc)
      simpa using hreplay
    · rename_i entry queue hload
      obtain rfl := Option.some.inj hs
      refine h.replay now limit _ (fun c hc => ?_)
      obtain rfl := List.mem_singleton.1 hc
      exact ⟨rfl, fun e he => by rw [hload]; exact he⟩
  | caller i a =>
    obtain ⟨c, hc, hs⟩ := Option.bind_eq_some_iff.1 hs
    exact h.caller hc hmeets hs
  | transact k outcome =>
    obtain ⟨x, hx, hs⟩ := Option.bind_eq_some_iff.1 hs
    split at hs
    · obtain rfl := Option.some.inj hs
      exact h.transact hx (hmeets x hx)
    · cases hs
  | otherRequestFails message =>
    obtain rfl := Option.some.inj hs
    exact ⟨⟨h.provider.commits, h.provider.keyed, h.provider.generation, h.provider.generations⟩, h.applied, h.rejected,
      h.answers, fun c hc => (h.callers c hc).grows (.same rfl rfl), h.entries⟩

/-! ## The condition is needed -/

theorem Sound.start : Sound (World.start : World Op) where
  provider := ⟨rfl, List.nodup_nil, le_rfl, fun _ h => by cases h⟩
  applied := fun _ h => by cases h
  rejected := fun _ h => by cases h
  answers := fun _ h => by cases h
  callers := fun _ h => by cases h
  entries := fun _ h => by cases h

instance (provider : Provider) (requestId : Text) (receipt : Receipt) :
    Decidable (provider.HasReceipt requestId receipt) :=
  inferInstanceAs (Decidable (∃ row ∈ provider.receipts, row.requestId = requestId ∧ row.receipt = receipt))

instance (provider : Provider) (entry : JournalEntry Op) (answer : Answer) :
    Decidable (answer.Tells provider entry) :=
  match h : readAnswer entry.operations.length answer with
  | .error _ => .isTrue (fun _ h' => by rw [h] at h'; cases h')
  | .ok receipt => decidable_of_iff (provider.HasReceipt entry.requestId receipt)
      ⟨fun hr _ h' => by rw [h] at h'; exact Except.ok.inj h' ▸ hr, fun ht => ht receipt h⟩

instance (row : JournalRow Op) : Decidable (TerminallyRejected row) :=
  inferInstanceAs (Decidable (row.status = .failed ∧ row.recoveryDisposition = .terminalRejected))

instance (w : World Op) (a : Action Op) : Decidable (Meets w a) :=
  match a with
  | .caller i (.disturb answer) =>
    inferInstanceAs (Decidable (∀ c ∈ w.callers[i]?, answer.Tells w.provider c.entry))
  | .transact k outcome => inferInstanceAs (Decidable (∀ x ∈ w.exchanges[k]?,
      w.provider.adds none x.entry outcome = true →
        ∀ row ∈ w.journal, row.requestId = x.entry.requestId → ¬ TerminallyRejected row))
  | .caller i (.mark _) =>
    have (c : Caller Op) : Decidable (match c.stage with
        | .marking (.error error) => failureMark c.live error = some .terminalRejected →
            ∀ receipt ∈ w.provider.receipts, receipt.requestId ≠ c.entry.requestId
        | _ => True) :=
      match c.stage with
      | .marking (.error error) => inferInstanceAs (Decidable (failureMark c.live error = some .terminalRejected →
          ∀ receipt ∈ w.provider.receipts, receipt.requestId ≠ c.entry.requestId))
      | .marking (.ok _) | .sending | .waiting _ | .probing _ | .done => .isTrue trivial
    inferInstanceAs (Decidable (∀ c ∈ w.callers[i]?, match c.stage with
      | .marking (.error error) => failureMark c.live error = some .terminalRejected →
          ∀ receipt ∈ w.provider.receipts, receipt.requestId ≠ c.entry.requestId
      | _ => True))
  | .caller _ .send | .caller _ (.unreadable _) | .caller _ .deliver | .caller _ (.probe _) | .caller _ .probeFails
  | .caller _ (.markFails _) | .executeMutatingOperations .. | .replayRecoveryJournal .. | .otherRequestFails _ =>
    .isTrue trivial

end Writes
end Recovery
end Adg
