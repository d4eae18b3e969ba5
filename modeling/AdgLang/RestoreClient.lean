import AdgLang.BackupFields
import AdgLang.Script
/-!
# RestoreClient — the download of a backup

`download` of `d1_backup_client.py`: the newest backup or the one before it is fetched chunk by chunk into a partial file,
the recovery is begun, and the partial file becomes the output.  The server may answer anything, and any operation on a
file may fail.
-/
namespace Adg
namespace Restore

open Js Protocol Issues
open Backup (toLowerCase)

abbrev Bytes := List UInt8

/-! ## The world of a run -/

/-- What a request of the API was answered. -/
structure Response where
  status : Nat
  body : Bytes
  /-- The header `x-adg-content-sha256`. -/
  contentSha256 : Option Str

structure BeginBody where
  backupId : Str
  snapshotGeneration : Int
  snapshotWatermark : Int
deriving DecidableEq

inductive Request
  | latest
  | chunk (backupId : Str) (index : Value)
  | begin (body : BeginBody)

/-- How an operation on a file ends; what a failed one leaves in the partial file is open. -/
inductive FileOutcome
  | done
  | failed (left : Option Bytes)

structure StateFile where
  body : BeginBody
  recovery : Value

/-- The files of a run, what the server and the disk will answer, and the requests that were answered. -/
structure World where
  partialFile : Option Bytes
  output : Option Bytes
  recoveryState : Option StateFile
  manifestOutput : Option Value
  responses : List (Option Response)
  outcomes : List FileOutcome
  answered : List (Request × Response)

inductive Thrown
  | runtimeError (message : Str)
  /-- Any other exception. -/
  | exception
deriving DecidableEq

abbrev Run (α : Type) := Script World Thrown α

def fail {α : Type} (message : Str) : Run α := throw (.runtimeError message)

/-- `api.request`; a transport that failed raises. -/
def request (r : Request) : Run Response := do
  let responses ← Script.read World.responses
  Script.modify (fun w => { w with responses := w.responses.tail })
  match responses.head?.join with
  | none => fail (str "Backup API transport failed")
  | some response => do
    Script.modify (fun w => { w with answered := w.answered ++ [(r, response)] })
    return response

/-- An operation on a file. -/
def fileOperation (f : World → World) : Run Unit := do
  let outcomes ← Script.read World.outcomes
  Script.modify (fun w => { w with outcomes := w.outcomes.tail })
  match outcomes.head? with
  | some (.failed left) => do
    Script.modify (fun w => { w with partialFile := left })
    throw .exception
  | _ => Script.modify f

/-- `if partial_path.exists(): partial_path.unlink()`. -/
def removePartial : Run Unit := do
  if (← Script.read World.partialFile).isSome then fileOperation (fun w => { w with partialFile := none }) else pure ()

/-- A value that is missing raises. -/
def orThrow {α : Type} (value : Option α) (error : Thrown) : Run α := Script.lift (value.elim (.error error) .ok)

/-! ## Values -/

structure Platform where
  sha256 : Bytes → HexDigest
  /-- `json.loads`. -/
  loads : Bytes → Option Value
  maxTotalBytes : Int
  /-- `datetime.fromisoformat` of a time with its zone, in milliseconds. -/
  fromIsoFormat : Str → Option Int
  now : Int

/-- `value.get(key)`; what is no dictionary has no `get`. -/
def get (value : Value) (key : String) : Run Value :=
  match value with
  | .object properties => pure ((Value.object properties).property key)
  | _ => throw .exception

/-- `value == n` for a number. -/
def equalsNat (value : Value) (n : Nat) : Bool :=
  match value with
  | .number (.zero _) => n == 0
  | .number m => decide (m = Number.ofNat n)
  | .bool b => n == b.toNat
  | _ => false

def equalsText (value : Value) (text : Str) : Bool :=
  match value with
  | .string s => decide (s = text)
  | _ => false

/-- The decimal digits of `int`, with single underscores between them. -/
def isIntegerText (text : Str) : Bool :=
  (Pattern.whole (.seq (.plus (.set isDigit)) (.star (.seq (.set (fun u => u == unit '_')) (.plus (.set isDigit)))))).test text

/-- What `int(value)` returns, of texts in ASCII. -/
def intOf (value : Value) : Option Int :=
  match value with
  | .bool b => some b.toNat
  | .number (.zero _) => some 0
  | .number (.finite d) =>
    let magnitude : Int := d.coefficient * 10 ^ d.exponent.toNat / 10 ^ (-d.exponent).toNat
    some (if d.negative then -magnitude else magnitude)
  | .string s =>
    let text := Issues.trim s
    let negative := text.head? == some (unit '-')
    let unsigned := if negative || text.head? == some (unit '+') then text.tail else text
    let magnitude : Int := natOf (unsigned.filter isDigit)
    if isIntegerText unsigned then some (if negative then -magnitude else magnitude) else none
  | _ => none

def int (value : Value) : Run Int := orThrow (intOf value) .exception

def intOrZero (value : Value) : Run Int := if value.isUndefined then pure 0 else int value

def isDictionary : Value → Bool
  | .object _ => true
  | _ => false

def isTruthyText : Option Str → Bool
  | none | some [] => false
  | some _ => true

def failIf (refused : Bool) (message : String) : Run Unit := Script.throwIf refused (.runtimeError (str message))

def loadsBody (platform : Platform) (body : Bytes) : Option Value :=
  if body.isEmpty then some (.object []) else platform.loads body

/-- `api.json_request`; a body that is not JSON and a status outside of 200 to 299 raise. -/
def jsonRequest (platform : Platform) (r : Request) : Run Value := do
  let response ← request r
  let payload ← orThrow (loadsBody platform response.body)
    (.runtimeError (str "Backup API returned non-JSON HTTP " ++ natStr response.status))
  Script.throwIf (decide (response.status < 200 ∨ 300 ≤ response.status))
    (.runtimeError (str "Backup API returned HTTP " ++ natStr response.status))
  return payload

/-! ## Descriptors -/

/-- What `validate_backup_descriptor` returns. -/
structure Candidate where
  backup : Value
  backupId : Str
  archive : Value
  chunks : List Value
  manifest : Value

def maxChunkBytes : Nat := 512 * 1024

def readBackupId (backup : Value) : Run Str :=
  match backup.property "backupId" with
  | .string s =>
    if (uuidPattern (isOneOf "4")).test (toLowerCase s) then pure (toLowerCase s) else fail (str "Latest backupId is invalid.")
  | _ => fail (str "Latest backupId is invalid.")

def readChunks (backup : Value) : Run (List Value) :=
  match backup.property "chunks" with
  | .array items => pure items
  | _ => fail (str "Latest response must contain descriptor metadata only.")

def validateBackupDescriptor (platform : Platform) (backup : Value) (expectedArchiveFormat : Option Str) : Run Candidate := do
  failIf (!isDictionary backup || !equalsText (backup.property "status") (str "complete"))
    "No latest complete backup descriptor is available."
  let archive := backup.property "archive"
  let manifest := backup.property "metadata"
  let chunks ← readChunks backup
  failIf (!isDictionary archive || !isDictionary manifest) "Latest response must contain descriptor metadata only."
  failIf (isTruthyText expectedArchiveFormat && !equalsText (archive.property "format") (expectedArchiveFormat.getD []))
    "Latest archive format is incompatible."
  failIf (!equalsNat (archive.property "chunkCount") chunks.length) "Latest backup chunk count is inconsistent."
  let chunkSizeBytes ← intOrZero (archive.property "chunkSizeBytes")
  failIf (decide ((maxChunkBytes : Int) < chunkSizeBytes)) "Latest descriptor exceeds the local recovery cap."
  let sizeBytes ← intOrZero (archive.property "sizeBytes")
  failIf (decide (platform.maxTotalBytes < sizeBytes)) "Latest descriptor exceeds the local recovery cap."
  let backupId ← readBackupId backup
  let availableAfter ← intOrZero (backup.property "availableAfter")
  failIf (decide (availableAfter < 0)) "Latest backup availableAfter is invalid."
  return ⟨backup, backupId, archive, chunks, manifest⟩

/-! ## Chunks -/

/-- The test of `fetch_chunk_with_retry`. -/
def isChunk (platform : Platform) (expected : Value) (response : Response) : Bool :=
  decide (response.status = 200) && equalsNat (expected.property "sizeBytes") response.body.length &&
    decide (response.body.length ≤ maxChunkBytes) && equalsText (expected.property "sha256") (platform.sha256 response.body).1 &&
    (!isTruthyText response.contentSha256 ||
      decide (toLowerCase (response.contentSha256.getD []) = (platform.sha256 response.body).1))

/-- `fetch_chunk_with_retry`, with the attempts left. -/
def fetchChunkWithRetry (platform : Platform) (backupId : Str) (expected : Value) : Nat → Run Bytes
  | 0 => fail (str "Chunk download failed.")
  | attempts + 1 => do
    let response ← request (.chunk backupId (expected.property "index"))
    if isChunk platform expected response then pure response.body
    else fetchChunkWithRetry platform backupId expected attempts

/-- The loop over the chunks from an index on; it returns the bytes written, of which the digest and the size are taken. -/
def fetchChunks (platform : Platform) (attempts : Nat) (backupId : Str) : Nat → List Value → Run Bytes
  | _, [] => pure []
  | expectedIndex, expected :: chunks => do
    let index ← get expected "index"
    failIf (!equalsNat index expectedIndex) "Latest backup chunk indexes are not contiguous."
    let chunk ← fetchChunkWithRetry platform backupId expected attempts
    fileOperation (fun w => { w with partialFile := w.partialFile.map (· ++ chunk) })
    return chunk ++ (← fetchChunks platform attempts backupId (expectedIndex + 1) chunks)

attribute [grind =] fetchChunkWithRetry fetchChunks

/-- `PGDMP`. -/
def postgresPrefix : Bytes := [0x50, 0x47, 0x44, 0x4D, 0x50]

/-- The `try` of a candidate. -/
def fetchCandidate (platform : Platform) (attempts : Nat) (candidate : Candidate) : Run Unit := do
  Script.throwIf (← Script.read World.partialFile).isSome .exception
  fileOperation (fun w => { w with partialFile := some [] })
  let bytes ← fetchChunks platform attempts candidate.backupId 0 candidate.chunks
  fileOperation id
  failIf (!equalsNat (candidate.archive.property "sizeBytes") bytes.length ||
    !equalsText (candidate.archive.property "sha256") (platform.sha256 bytes).1)
    "Restored archive final size/SHA-256 does not match the descriptor."
  fileOperation id
  let start := ((← Script.read World.partialFile).getD []).take 5
  failIf (equalsText (candidate.archive.property "format") (str "postgres-custom") && decide (start ≠ postgresPrefix))
    "Reconstructed archive is not PostgreSQL custom format."
  failIf (equalsText (candidate.archive.property "format") (str "openpgp-aes256-tar") &&
    !start.head?.any (fun b => decide (128 ≤ b.toNat))) "Reconstructed archive is not binary OpenPGP."

/-- The loop over the candidates; only for the last of two the exception is raised at once. -/
def chooseCandidate (platform : Platform) (attempts : Nat) : List (Candidate × Bool) → Option Thrown → Run Candidate
  | [], lastError => throw (lastError.getD (.runtimeError (str "No readable backup descriptor was available.")))
  | (candidate, isFallback) :: rest, _ => do
    removePartial
    let raised ← tryCatch (do fetchCandidate platform attempts candidate; pure none) (fun e => do
      removePartial
      if isFallback then throw e else pure (some e))
    match raised with
    | none => pure candidate
    | some e => chooseCandidate platform attempts rest (some e)

attribute [grind =] chooseCandidate

/-! ## The run -/

structure Arguments where
  expectedArchiveFormat : Option Str
  beginRecovery : Bool
  /-- A path is given for it. -/
  recoveryState : Bool
  manifestOutput : Bool

def leaseExpiresAt (platform : Platform) : Value → Option Int
  | .string s => platform.fromIsoFormat s
  | _ => none

def beginRecovery (platform : Platform) (args : Arguments) (chosen : Candidate) : Run Unit := do
  let generation ← int (chosen.manifest.property "snapshotGeneration")
  let watermark ← int (chosen.manifest.property "postgresReceiptWatermark")
  let body : BeginBody := ⟨chosen.backupId, generation, watermark⟩
  let payload ← jsonRequest platform (.begin body)
  let recovery ← get payload "recovery"
  failIf (!isDictionary recovery || !equalsText (recovery.property "state") (str "recovering") ||
    !equalsText (recovery.property "restoreBackupId") chosen.backupId) "Worker recovery-begin response is incompatible."
  let leaseText := recovery.property "restoreLeaseExpiresAtUtc"
  failIf (!leaseText.truthy) "Worker recovery-begin response did not include a restore lease."
  let leaseExpires ← orThrow (leaseExpiresAt platform leaseText) .exception
  failIf (decide (leaseExpires ≤ platform.now)) "Worker restore lease is already expired."
  failIf (!args.recoveryState) "--recovery-state is required with --begin-recovery."
  fileOperation (fun w => { w with recoveryState := some ⟨body, recovery⟩ })

/-- The backup before the latest, if there is one. -/
def validatePrior (platform : Platform) (prior : Value) (expectedArchiveFormat : Option Str) : Run (List (Candidate × Bool)) :=
  if isNullish prior then pure []
  else do
    let candidate ← validateBackupDescriptor platform prior expectedArchiveFormat
    return [(candidate, true)]

/-- `download`; `attempts` is `ADG_BACKUP_FETCH_RETRY_ATTEMPTS`, at least one. -/
def download (platform : Platform) (attempts : Nat) (args : Arguments) : Run Unit := do
  failIf (← Script.read World.output).isSome "Restore output already exists"
  fileOperation id
  removePartial
  fileOperation id
  let latest ← jsonRequest platform .latest
  let primary ← validateBackupDescriptor platform (← get latest "backup") args.expectedArchiveFormat
  let prior ← get latest "priorBackup"
  let fallback ← validatePrior platform prior args.expectedArchiveFormat
  let chosen ← chooseCandidate platform attempts ((primary, false) :: fallback) none
  Script.onlyIf args.beginRecovery (beginRecovery platform args chosen)
  fileOperation (fun w => { w with output := w.partialFile, partialFile := none })
  Script.onlyIf args.manifestOutput (fileOperation (fun w => { w with manifestOutput := some chosen.backup }))

end Restore
end Adg
