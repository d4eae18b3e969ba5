import AdgLang.RestoreClient
/-!
# RestoreRuns — what a download that succeeded has written

Before the partial file becomes the output a run only adds to the requests that were answered, so what a fact says of
these it keeps (`Grows`).  The chunks that were fetched are those of one backup (`Fetched`), and a run that succeeds has
written that backup's archive and has begun the recovery of it (`download_spec`).
-/
namespace Adg
namespace Restore

open Js Protocol Issues
open Backup (toLowerCase)

/-! ## Facts about what was answered -/

abbrev Answered := List (Request × Response)

/-- A fact that further answers keep. -/
def Grows (F : Answered → Prop) : Prop := ∀ a b, a <+: b → F a → F b

/-- The output is not touched, and a fact about the answers holds. -/
def At (o : Option Bytes) (F : Answered → Prop) (w : World) : Prop := w.output = o ∧ F w.answered

/-- The same with what the partial file has. -/
def Holding (o : Option Bytes) (F : Answered → Prop) (file : Option Bytes) (w : World) : Prop :=
  At o F w ∧ w.partialFile = file

variable {o : Option Bytes} {F : Answered → Prop} {file : Option Bytes} {platform : Platform}

theorem grows_mem (x : Request × Response) : Grows (fun a => x ∈ a) := fun _ _ h hx => h.subset hx

theorem Grows.and {G : Answered → Prop} (hF : Grows F) (hG : Grows G) : Grows (fun a => F a ∧ G a) :=
  fun a b h hab => ⟨hF a b h hab.1, hG a b h hab.2⟩

theorem failIf_spec {P : World → Prop} {refused : Bool} {message : String} (hE : ∀ w, P w → At o F w) :
    Script.Triple P (failIf refused message) (fun _ w => refused = false ∧ P w) (At o F) :=
  .throwIf (fun _ hc hw => ⟨hc, hw⟩) (fun w _ hw => hE w hw)

/-- **A request** adds itself with its answer. -/
theorem request_spec (hF : Grows F) (r : Request) :
    Script.Triple (Holding o F file) (request r)
      (fun response => Holding o (fun a => F a ∧ (r, response) ∈ a) file) (At o F) := by
  refine .bind_read (fun responses => ?_)
  refine .bind_modify (S := Holding o F file) (fun w hw => hw.2) ?_
  cases responses.head?.join with
  | none => exact .throw (fun w hw => hw.1)
  | some response =>
    refine .bind_modify (S := Holding o (fun a => F a ∧ (r, response) ∈ a) file) (fun w hw => ?_) (.pure (fun _ hw => hw))
    obtain ⟨⟨ho, hfact⟩, hfile⟩ := hw
    exact ⟨⟨ho, hF _ _ (List.prefix_append _ _) hfact, List.mem_append_right _ List.mem_cons_self⟩, hfile⟩

/-- **An operation on a file** is done, or it has failed and left anything in the partial file. -/
theorem fileOperation_rule {P Q E : World → Prop} {f : World → World}
    (hpop : ∀ w outcomes, P w → P { w with outcomes := outcomes }) (hdone : ∀ w, P w → Q (f w))
    (hfailed : ∀ w left, P w → E { w with partialFile := left }) :
    Script.Triple P (fileOperation f) (fun _ => Q) E := by
  refine .bind_read (fun outcomes => ?_)
  refine .bind_modify (S := P) (fun w hw => hpop w _ hw.2) ?_
  split
  · rename_i left _
    exact .bind_modify (S := E) (fun w hw => hfailed w left hw) (.throw (fun _ hw => hw))
  · exact .modify hdone

theorem fileOperation_spec {f : World → World} {file' : Option Bytes}
    (hf : ∀ w, w.partialFile = file → (f w).output = w.output ∧ (f w).answered = w.answered ∧ (f w).partialFile = file') :
    Script.Triple (Holding o F file) (fileOperation f) (fun _ => Holding o F file') (At o F) := by
  refine fileOperation_rule (fun _ _ hw => hw) (fun w hw => ?_) (fun _ _ hw => hw.1)
  obtain ⟨⟨ho, hfact⟩, hfile⟩ := hw
  obtain ⟨houtput, hanswered, hfile'⟩ := hf w hfile
  exact ⟨⟨houtput.trans ho, hanswered ▸ hfact⟩, hfile'⟩

theorem touch_spec : Script.Triple (Holding o F file) (fileOperation id) (fun _ => Holding o F file) (At o F) :=
  fileOperation_spec (fun _ hfile => ⟨rfl, rfl, hfile⟩)

theorem setPartial_spec (file' : Option Bytes) :
    Script.Triple (Holding o F file) (fileOperation (fun w => { w with partialFile := file' }))
      (fun _ => Holding o F file') (At o F) := fileOperation_spec (fun _ _ => ⟨rfl, rfl, rfl⟩)

theorem write_spec (written part : Bytes) :
    Script.Triple (Holding o F (some written))
      (fileOperation (fun w => { w with partialFile := w.partialFile.map (· ++ part) }))
      (fun _ => Holding o F (some (written ++ part))) (At o F) :=
  fileOperation_spec (fun w hfile => ⟨rfl, rfl, by
    show w.partialFile.map (· ++ part) = some (written ++ part)
    rw [hfile, Option.map_some]⟩)

theorem removePartial_spec : Script.Triple (At o F) removePartial (fun _ => Holding o F none) (At o F) := by
  refine .bind_read (fun file => ?_)
  cases file with
  | none => exact .pure (fun w hw => ⟨hw.2, hw.1⟩)
  | some bytes => exact (setPartial_spec none).pre (fun w hw => ⟨hw.2, hw.1⟩)

theorem get_spec (value : Value) (key : String) :
    Script.Triple (Holding o F file) (get value key) (fun v w => v = value.property key ∧ Holding o F file w) (At o F) := by
  cases value with
  | object properties => exact .pure (fun w hw => ⟨rfl, hw⟩)
  | _ => exact .throw (fun w hw => hw.1)

theorem orThrow_spec {α : Type} (value : Option α) (error : Thrown) :
    Script.Triple (Holding o F file) (orThrow value error) (fun a w => value = some a ∧ Holding o F file w) (At o F) := by
  refine .lift (fun a w ha hw => ?_) (fun w hw => hw.1)
  cases value with
  | none => cases ha
  | some b =>
    cases ha
    exact ⟨rfl, hw⟩

theorem int_spec (value : Value) :
    Script.Triple (Holding o F file) (int value) (fun n w => intOf value = some n ∧ Holding o F file w) (At o F) :=
  orThrow_spec (intOf value) .exception

theorem intOrZero_spec (value : Value) :
    Script.Triple (Holding o F file) (intOrZero value) (fun _ => Holding o F file) (At o F) := by
  rw [intOrZero]
  exact .ite (fun _ => .pure (fun _ hw => hw)) (fun _ => (int_spec value).mono (fun _ hw => hw) (fun _ _ hw => hw.2) (fun _ hw => hw))

/-! ## Chunks -/

/-- A part that was answered for a chunk and is what the descriptor says of it. -/
structure FetchedPart (platform : Platform) (answered : Answered) (backupId : Str) (index : Nat) (expected : Value)
    (part : Bytes) : Prop where
  index_eq : equalsNat (expected.property "index") index = true
  size_eq : equalsNat (expected.property "sizeBytes") part.length = true
  sha256_eq : equalsText (expected.property "sha256") (platform.sha256 part).1 = true
  answered : ∃ response, (Request.chunk backupId (expected.property "index"), response) ∈ answered ∧
    response.status = 200 ∧ response.body = part

/-- The parts of the chunks from an index on, one after the other. -/
inductive Fetched (platform : Platform) (answered : Answered) (backupId : Str) : Nat → List Value → Bytes → Prop
  | nil (index : Nat) : Fetched platform answered backupId index [] []
  | cons {index : Nat} {expected : Value} {chunks : List Value} {part bytes : Bytes}
      (part_fetched : FetchedPart platform answered backupId index expected part)
      (rest : Fetched platform answered backupId (index + 1) chunks bytes) :
      Fetched platform answered backupId index (expected :: chunks) (part ++ bytes)

theorem grows_fetchedPart (backupId : Str) (index : Nat) (expected : Value) (part : Bytes) :
    Grows (fun a => FetchedPart platform a backupId index expected part) := fun a b hab h => by
  obtain ⟨response, hmem, hstatus, hbody⟩ := h.answered
  exact ⟨h.index_eq, h.size_eq, h.sha256_eq, response, hab.subset hmem, hstatus, hbody⟩

theorem grows_fetched (backupId : Str) (index : Nat) (chunks : List Value) (bytes : Bytes) :
    Grows (fun a => Fetched platform a backupId index chunks bytes) := fun a b hab h => by
  induction h with
  | nil index => exact .nil index
  | cons hpart _ ih => exact .cons (grows_fetchedPart _ _ _ _ a b hab hpart) ih

/-- What `fetch_chunk_with_retry` returns. -/
theorem fetchChunkWithRetry_spec (hF : Grows F) {backupId : Str} {expected : Value} {index : Nat}
    (hindex : equalsNat (expected.property "index") index = true) : ∀ attempts,
    Script.Triple (Holding o F file) (fetchChunkWithRetry platform backupId expected attempts)
      (fun part => Holding o (fun a => F a ∧ FetchedPart platform a backupId index expected part) file) (At o F) := by
  intro attempts
  induction attempts with
  | zero => exact .throw (fun w hw => hw.1)
  | succ attempts ih =>
    rw [fetchChunkWithRetry]
    refine .bind (request_spec hF _) (fun response => .ite (fun hchunk => .pure (fun w hw => ?_)) (fun _ => ?_))
    · simp only [isChunk, Bool.and_eq_true, decide_eq_true_eq] at hchunk
      obtain ⟨⟨⟨⟨hstatus, hsize⟩, -⟩, hsha256⟩, -⟩ := hchunk
      obtain ⟨⟨ho, hfact, hmem⟩, hfile⟩ := hw
      exact ⟨⟨ho, hfact, hindex, hsize, hsha256, response, hmem, hstatus, rfl⟩, hfile⟩
    · exact ih.pre (fun w hw => ⟨⟨hw.1.1, hw.1.2.1⟩, hw.2⟩)

/-- The loop over the chunks appends what it fetched to the partial file. -/
theorem fetchChunks_spec (attempts : Nat) (backupId : Str) (chunks : List Value) :
    ∀ {F : Answered → Prop} {written : Bytes} {index : Nat}, Grows F →
      Script.Triple (Holding o F (some written)) (fetchChunks platform attempts backupId index chunks)
        (fun bytes => Holding o (fun a => F a ∧ Fetched platform a backupId index chunks bytes) (some (written ++ bytes)))
        (At o F) := by
  induction chunks with
  | nil =>
    intro F written index _
    rw [fetchChunks]
    refine .pure (fun w hw => ⟨⟨hw.1.1, hw.1.2, .nil index⟩, ?_⟩)
    rw [hw.2, List.append_nil]
  | cons expected chunks ih =>
    intro F written index hF
    rw [fetchChunks]
    refine .bind (get_spec expected "index") (fun value => .fact (fun hvalue => ?_))
    refine .bind (failIf_spec (fun w hw => hw.1)) (fun _ => .fact (fun hindex => ?_))
    rw [hvalue, Bool.not_eq_false'] at hindex
    refine .bind (fetchChunkWithRetry_spec hF hindex attempts) (fun part => ?_)
    have hgrows : Grows (fun a => F a ∧ FetchedPart platform a backupId index expected part) :=
      hF.and (grows_fetchedPart _ _ _ _)
    have hweaken : ∀ w, At o (fun a => F a ∧ FetchedPart platform a backupId index expected part) w → At o F w :=
      fun w hw => ⟨hw.1, hw.2.1⟩
    refine .bind ((write_spec written part).mono (fun _ hw => hw) (fun _ _ hw => hw) hweaken) (fun _ => ?_)
    refine .bind ((ih hgrows).mono (fun _ hw => hw) (fun _ _ hw => hw) hweaken) (fun bytes => .pure (fun w hw => ?_))
    obtain ⟨⟨ho, ⟨hfact, hpart⟩, hrest⟩, hfile⟩ := hw
    exact ⟨⟨ho, hfact, .cons hpart hrest⟩, by rw [hfile, List.append_assoc]⟩

/-! ## Candidates -/

/-- The bytes of a backup: all chunks of its descriptor, with the size and the digest of its archive. -/
structure Described (platform : Platform) (answered : Answered) (candidate : Candidate) (bytes : Bytes) : Prop where
  fetched : Fetched platform answered candidate.backupId 0 candidate.chunks bytes
  size_eq : equalsNat (candidate.archive.property "sizeBytes") bytes.length = true
  sha256_eq : equalsText (candidate.archive.property "sha256") (platform.sha256 bytes).1 = true

theorem grows_described (candidate : Candidate) (bytes : Bytes) :
    Grows (fun a => Described platform a candidate bytes) := fun a b hab h =>
  ⟨grows_fetched _ _ _ _ a b hab h.fetched, h.size_eq, h.sha256_eq⟩

/-- The partial file has the bytes of the candidate. -/
def HoldsArchive (platform : Platform) (o : Option Bytes) (F : Answered → Prop) (candidate : Candidate) (w : World) : Prop :=
  ∃ bytes, Holding o (fun a => F a ∧ Described platform a candidate bytes) (some bytes) w

theorem fetchCandidate_spec (hF : Grows F) (attempts : Nat) (candidate : Candidate) :
    Script.Triple (Holding o F none) (fetchCandidate platform attempts candidate)
      (fun _ => HoldsArchive platform o F candidate) (At o F) := by
  refine .bind_read (fun existing => ?_)
  refine .bind_throwIf (fun w _ hw => hw.2.1) (fun _ => ?_)
  refine .bind ((setPartial_spec (some [])).pre (fun _ hw => hw.2)) (fun _ => ?_)
  refine .bind (fetchChunks_spec attempts candidate.backupId candidate.chunks hF) (fun bytes => ?_)
  have hweaken : ∀ w, At o (fun a => F a ∧ Fetched platform a candidate.backupId 0 candidate.chunks bytes) w → At o F w :=
    fun w hw => ⟨hw.1, hw.2.1⟩
  refine .bind (touch_spec.mono (fun _ hw => hw) (fun _ _ hw => hw) hweaken) (fun _ => ?_)
  refine .bind (failIf_spec (fun w hw => hweaken w hw.1)) (fun _ => .fact (fun hmatches => ?_))
  rw [Bool.or_eq_false_iff, Bool.not_eq_false', Bool.not_eq_false'] at hmatches
  refine .bind (touch_spec.mono (fun _ hw => hw) (fun _ _ hw => hw) hweaken) (fun _ => .bind_read (fun start => ?_))
  refine .bind (failIf_spec (fun w hw => hweaken w hw.2.1)) (fun _ => .fact (fun _ => ?_))
  refine (failIf_spec (fun w hw => hweaken w hw.2.1)).mono (fun _ hw => hw) (fun _ w hw => ?_) (fun _ hw => hw)
  obtain ⟨-, -, ⟨ho, hfact, hfetched⟩, hfile⟩ := hw
  exact ⟨bytes, ⟨ho, hfact, hfetched, hmatches.1, hmatches.2⟩, by rw [hfile, List.nil_append]⟩

/-- The candidate that is chosen is one of the list, and the partial file has its bytes. -/
theorem chooseCandidate_spec (hF : Grows F) (attempts : Nat) (candidates : List (Candidate × Bool)) :
    ∀ lastError, Script.Triple (At o F) (chooseCandidate platform attempts candidates lastError)
      (fun chosen w => chosen ∈ candidates.map Prod.fst ∧ HoldsArchive platform o F chosen w) (At o F) := by
  induction candidates with
  | nil =>
    intro lastError
    exact .throw (fun _ hw => hw)
  | cons c rest ih =>
    intro lastError
    obtain ⟨candidate, isFallback⟩ := c
    rw [chooseCandidate]
    refine .bind removePartial_spec (fun _ => ?_)
    refine .bind (Q := fun raised w => raised.elim (HoldsArchive platform o F candidate w) (fun _ => At o F w)) ?_
      (fun raised => ?_)
    · refine .tryCatch (E := At o F) (.bind (fetchCandidate_spec hF attempts candidate) (fun _ => .pure (fun _ hw => hw)))
        (fun e => .bind removePartial_spec (fun _ => ?_))
      exact .ite (fun _ => .throw (fun _ hw => hw.1)) (fun _ => .pure (fun _ hw => hw.1))
    · cases raised with
      | none => exact .pure (fun w hw => ⟨List.mem_cons_self, hw⟩)
      | some e => exact (ih (some e)).mono (fun _ hw => hw) (fun _ _ hw => ⟨List.mem_cons_of_mem _ hw.1, hw.2⟩) (fun _ hw => hw)

/-- A payload that a request was answered with. -/
def Payload (platform : Platform) (answered : Answered) (r : Request) (payload : Value) : Prop :=
  ∃ response, (r, response) ∈ answered ∧ (200 ≤ response.status ∧ response.status < 300) ∧
    loadsBody platform response.body = some payload

theorem grows_payload (r : Request) (payload : Value) : Grows (fun a => Payload platform a r payload) :=
  fun _ _ hab ⟨response, hmem, h⟩ => ⟨response, hab.subset hmem, h⟩

theorem jsonRequest_spec (hF : Grows F) (r : Request) :
    Script.Triple (Holding o F file) (jsonRequest platform r)
      (fun payload => Holding o (fun a => F a ∧ Payload platform a r payload) file) (At o F) := by
  refine .bind (request_spec hF r) (fun response => ?_)
  have hweaken : ∀ w, At o (fun a => F a ∧ (r, response) ∈ a) w → At o F w := fun w hw => ⟨hw.1, hw.2.1⟩
  refine .bind ((orThrow_spec _ _).mono (fun _ hw => hw) (fun _ _ hw => hw) hweaken) (fun payload => .fact (fun hloads => ?_))
  refine .bind_throwIf (fun w _ hw => hweaken w hw.1) (fun hstatus => .pure (fun w hw => ?_))
  have hstatus := of_decide_eq_false hstatus
  obtain ⟨⟨ho, hfact, hmem⟩, hfile⟩ := hw
  exact ⟨⟨ho, hfact, response, hmem, by omega, hloads⟩, hfile⟩

/-- What `validate_backup_descriptor` returns is read from the backup. -/
structure CandidateOf (backup : Value) (candidate : Candidate) : Prop where
  backup_eq : candidate.backup = backup
  status_eq : equalsText (backup.property "status") (str "complete") = true
  backupId_eq : ∃ s, backup.property "backupId" = .string s ∧ candidate.backupId = toLowerCase s
  archive_eq : candidate.archive = backup.property "archive"
  chunks_eq : backup.property "chunks" = .array candidate.chunks
  manifest_eq : candidate.manifest = backup.property "metadata"

theorem readChunks_spec (backup : Value) :
    Script.Triple (Holding o F file) (readChunks backup)
      (fun chunks w => backup.property "chunks" = .array chunks ∧ Holding o F file w) (At o F) := by
  rw [readChunks]
  split
  · rename_i items heq
    exact .pure (fun w hw => ⟨heq, hw⟩)
  · exact .throw (fun w hw => hw.1)

theorem readBackupId_spec (backup : Value) :
    Script.Triple (Holding o F file) (readBackupId backup)
      (fun backupId w => (∃ s, backup.property "backupId" = .string s ∧ backupId = toLowerCase s) ∧ Holding o F file w)
      (At o F) := by
  rw [readBackupId]
  split
  · rename_i s heq
    exact .ite (fun _ => .pure (fun w hw => ⟨⟨s, heq, rfl⟩, hw⟩)) (fun _ => .throw (fun w hw => hw.1))
  · exact .throw (fun w hw => hw.1)

theorem validateBackupDescriptor_spec (backup : Value) (expectedArchiveFormat : Option Str) :
    Script.Triple (Holding o F file) (validateBackupDescriptor platform backup expectedArchiveFormat)
      (fun candidate w => CandidateOf backup candidate ∧ Holding o F file w) (At o F) := by
  have hfail : ∀ {refused message}, Script.Triple (Holding o F file) (failIf refused message)
      (fun _ w => refused = false ∧ Holding o F file w) (At o F) := failIf_spec (fun w hw => hw.1)
  refine .bind hfail (fun _ => .fact (fun hcomplete => ?_))
  rw [Bool.or_eq_false_iff, Bool.not_eq_false', Bool.not_eq_false'] at hcomplete
  refine .bind (readChunks_spec backup) (fun chunks => .fact (fun hchunks => ?_))
  refine .bind hfail (fun _ => .fact (fun _ => ?_))
  refine .bind hfail (fun _ => .fact (fun _ => ?_))
  refine .bind hfail (fun _ => .fact (fun _ => ?_))
  refine .bind (intOrZero_spec _) (fun _ => .bind hfail (fun _ => .fact (fun _ => ?_)))
  refine .bind (intOrZero_spec _) (fun _ => .bind hfail (fun _ => .fact (fun _ => ?_)))
  refine .bind (readBackupId_spec backup) (fun backupId => .fact (fun hbackupId => ?_))
  refine .bind (intOrZero_spec _) (fun _ => .bind hfail (fun _ => .fact (fun _ => .pure (fun w hw => ?_))))
  exact ⟨⟨rfl, hcomplete.2, hbackupId, rfl, hchunks, rfl⟩, hw⟩

/-! ## The run -/

/-- The recovery that was begun, and what the state file has. -/
structure Begun (platform : Platform) (answered : Answered) (candidate : Candidate) (state : StateFile) : Prop where
  backupId_eq : state.body.backupId = candidate.backupId
  generation_eq : intOf (candidate.manifest.property "snapshotGeneration") = some state.body.snapshotGeneration
  watermark_eq : intOf (candidate.manifest.property "postgresReceiptWatermark") = some state.body.snapshotWatermark
  payload : ∃ payload, Payload platform answered (.begin state.body) payload ∧
    state.recovery = payload.property "recovery"
  recovering : equalsText (state.recovery.property "state") (str "recovering") = true ∧
    equalsText (state.recovery.property "restoreBackupId") candidate.backupId = true

/-- The state file names the recovery that was begun. -/
def HoldsRecovery (platform : Platform) (candidate : Candidate) (w : World) : Prop :=
  ∃ state, w.recoveryState = some state ∧ Begun platform w.answered candidate state

theorem beginRecovery_spec (hF : Grows F) (args : Arguments) (chosen : Candidate) :
    Script.Triple (Holding o F file) (beginRecovery platform args chosen)
      (fun _ w => Holding o F file w ∧ HoldsRecovery platform chosen w) (At o F) := by
  refine .bind (int_spec _) (fun generation => .fact (fun hgeneration => ?_))
  refine .bind (int_spec _) (fun watermark => .fact (fun hwatermark => ?_))
  refine .bind (jsonRequest_spec hF _) (fun payload => ?_)
  have hweaken : ∀ w, At o (fun a => F a ∧ Payload platform a (.begin ⟨chosen.backupId, generation, watermark⟩) payload) w →
      At o F w := fun w hw => ⟨hw.1, hw.2.1⟩
  refine .bind ((get_spec payload "recovery").mono (fun _ hw => hw) (fun _ _ hw => hw) hweaken)
    (fun recovery => .fact (fun hrecovery => ?_))
  have hfail : ∀ {refused message}, Script.Triple
      (Holding o (fun a => F a ∧ Payload platform a (.begin ⟨chosen.backupId, generation, watermark⟩) payload) file)
      (failIf refused message) (fun _ w => refused = false ∧ Holding o (fun a => F a ∧ Payload platform a
        (.begin ⟨chosen.backupId, generation, watermark⟩) payload) file w) (At o F) :=
    failIf_spec (fun w hw => hweaken w hw.1)
  refine .bind hfail (fun _ => .fact (fun hrecovering => .bind hfail (fun _ => .fact (fun _ => ?_))))
  refine .bind ((orThrow_spec _ _).mono (fun _ hw => hw) (fun _ _ hw => hw) hweaken) (fun _ => .fact (fun _ => ?_))
  refine .bind hfail (fun _ => .fact (fun _ => .bind hfail (fun _ => .fact (fun _ => ?_))))
  simp only [Bool.or_eq_false_iff, Bool.not_eq_false'] at hrecovering
  refine fileOperation_rule (fun _ _ hw => hw) (fun w hw => ?_) (fun w _ hw => hweaken w hw.1)
  obtain ⟨⟨ho, hfact, hpayload⟩, hfile⟩ := hw
  exact ⟨⟨⟨ho, hfact⟩, hfile⟩, _, rfl, rfl, hgeneration, hwatermark, ⟨payload, hpayload, hrecovery⟩, hrecovering.1.2,
    hrecovering.2⟩

/-- A candidate that the server offered, with the bytes of its archive. -/
structure Fetch (platform : Platform) (answered : Answered) (chosen : Candidate) (bytes : Bytes) : Prop where
  offered : ∃ payload, Payload platform answered .latest payload ∧
    (CandidateOf (payload.property "backup") chosen ∨ CandidateOf (payload.property "priorBackup") chosen)
  described : Described platform answered chosen bytes

/-- The output has the archive of a backup, and the recovery that was begun is of that backup. -/
def Restored (platform : Platform) (args : Arguments) (chosen : Candidate) (w : World) : Prop :=
  ∃ bytes, Fetch platform w.answered chosen bytes ∧ w.output = some bytes ∧
    (args.beginRecovery = true → HoldsRecovery platform chosen w)

theorem validatePrior_spec (prior : Value) (expectedArchiveFormat : Option Str) :
    Script.Triple (Holding o F file) (validatePrior platform prior expectedArchiveFormat)
      (fun fallback w => (∀ c ∈ fallback.map Prod.fst, CandidateOf prior c) ∧ Holding o F file w) (At o F) := by
  refine .ite (fun _ => .pure (fun w hw => ⟨nofun, hw⟩)) (fun _ => ?_)
  refine .bind (validateBackupDescriptor_spec prior expectedArchiveFormat) (fun candidate => .pure (fun w hw => ⟨?_, hw.2⟩))
  intro c hc
  rw [List.map_singleton, List.mem_singleton] at hc
  rw [hc]
  exact hw.1

/-- **A restore yields the described archive.**  Whatever the server answers and whichever file operation fails: a download
that returns has written the chunks of one backup that was offered, each with the size and the digest that its descriptor
says and all of them with those of the archive, and it has begun the recovery of that backup; one that throws has left the
output as it was, unless only the manifest could not be written. -/
theorem download_spec (platform : Platform) (attempts : Nat) (args : Arguments) (o : Option Bytes) :
    Script.Triple (fun w => w.output = o ∧ w.answered = []) (download platform attempts args)
      (fun _ w => o = none ∧ ∃ chosen, Restored platform args chosen w ∧
        (args.manifestOutput = true → w.manifestOutput = some chosen.backup))
      (fun w => w.output = o ∨ ∃ chosen, Restored platform args chosen w) := by
  have hnothing : Grows (fun _ => True) := fun _ _ _ h => h
  refine Script.Triple.pre (P := fun w => w.output = o) ?_ (fun _ hw => hw.1)
  have hunchanged : ∀ {F : Answered → Prop} (w : World), At o F w →
      w.output = o ∨ ∃ chosen, Restored platform args chosen w := fun w hw => Or.inl hw.1
  refine .bind_read (fun existing => ?_)
  refine .bind_throwIf (fun w _ hw => Or.inl hw.2) (fun hexisting => ?_)
  refine Script.Triple.pre (P := fun w => o = none ∧ At o (fun _ => True) w) ?_ (fun w hw => ⟨?_, hw.2, trivial⟩)
  swap
  · rw [← hw.2, hw.1, ← Option.not_isSome_iff_eq_none, hexisting]
    exact Bool.false_ne_true
  refine .fact (fun hnone => ?_)
  refine .bind (fileOperation_rule (Q := At o (fun _ => True)) (fun _ _ hw => hw) (fun _ hw => hw)
    (fun w _ hw => Or.inl hw.1)) (fun _ => ?_)
  refine .bind (removePartial_spec.mono (fun _ hw => hw) (fun _ _ hw => hw) hunchanged) (fun _ => ?_)
  refine .bind (touch_spec.mono (fun _ hw => hw) (fun _ _ hw => hw) hunchanged) (fun _ => ?_)
  refine .bind ((jsonRequest_spec hnothing .latest).mono (fun _ hw => hw) (fun _ _ hw => hw) hunchanged) (fun latest => ?_)
  have hF : Grows (fun a => True ∧ Payload platform a .latest latest) := hnothing.and (grows_payload _ _)
  refine .bind ((get_spec latest "backup").mono (fun _ hw => hw) (fun _ _ hw => hw) hunchanged)
    (fun backup => .fact (fun hbackup => ?_))
  refine .bind ((validateBackupDescriptor_spec backup _).mono (fun _ hw => hw) (fun _ _ hw => hw) hunchanged)
    (fun primary => .fact (fun hprimary => ?_))
  refine .bind ((get_spec latest "priorBackup").mono (fun _ hw => hw) (fun _ _ hw => hw) hunchanged)
    (fun prior => .fact (fun hprior => ?_))
  refine .bind ((validatePrior_spec prior _).mono (fun _ hw => hw) (fun _ _ hw => hw) hunchanged)
    (fun fallback => .fact (fun hfallback => ?_))
  refine .bind ((chooseCandidate_spec hF attempts _ none).mono (fun _ hw => hw.1) (fun _ _ hw => hw) hunchanged)
    (fun chosen => .fact (fun hchosen => .exists (fun bytes => ?_)))
  have hoffered : CandidateOf (latest.property "backup") chosen ∨ CandidateOf (latest.property "priorBackup") chosen := by
    rw [List.map_cons, List.mem_cons] at hchosen
    rcases hchosen with rfl | hchosen
    · exact Or.inl (hbackup ▸ hprimary)
    · exact Or.inr (hprior ▸ hfallback chosen hchosen)
  have hF' : Grows (fun a => (True ∧ Payload platform a .latest latest) ∧ Described platform a chosen bytes) :=
    hF.and (grows_described _ _)
  refine .bind (Q := fun _ w => Holding o (fun a => (True ∧ Payload platform a .latest latest) ∧
    Described platform a chosen bytes) (some bytes) w ∧ (args.beginRecovery = true → HoldsRecovery platform chosen w)) ?_
    (fun _ => ?_)
  · refine .onlyIf (fun _ => ?_) (fun w hbegin hw => ⟨hw, fun h => Bool.noConfusion (hbegin.symm.trans h)⟩)
    exact (beginRecovery_spec hF' args chosen).mono (fun _ hw => hw) (fun _ _ hw => ⟨hw.1, fun _ => hw.2⟩) hunchanged
  refine .bind (fileOperation_rule (Q := Restored platform args chosen) (fun _ _ hw => hw) (fun w hw => ?_)
    (fun w _ hw => Or.inl hw.1.1.1)) (fun _ => ?_)
  · obtain ⟨⟨⟨-, ⟨-, hpayload⟩, hdescribed⟩, hfile⟩, hrecovery⟩ := hw
    exact ⟨bytes, ⟨⟨latest, hpayload, hoffered⟩, hdescribed⟩, hfile, hrecovery⟩
  refine .onlyIf (fun _ => ?_)
    (fun w hmanifest hw => ⟨hnone, chosen, hw, fun h => Bool.noConfusion (hmanifest.symm.trans h)⟩)
  exact fileOperation_rule (fun _ _ hw => hw) (fun w hw => ⟨hnone, chosen, hw, fun _ => rfl⟩)
    (fun w _ hw => Or.inr ⟨chosen, hw⟩)

end Restore
end Adg
