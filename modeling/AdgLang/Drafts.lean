import AdgLang.IssueIntake
import AdgLang.Interleaving
/-!
# Drafts — saved drafts and their revisions

`saveDraft`: the draft that stands is read, copied to the revisions and replaced, the copy from what was read and the
replacement in one batch.  Texts are kept in the clear, a digest is named by what was hashed, and the account comes with
the request.
-/
namespace Adg
namespace Drafts

open Js Protocol Issues

/-! ## Rows -/

inductive DraftRole
  | A
  | B
  | adjudication
  | ratification
deriving DecidableEq

structure DraftKey where
  userId : Str
  packetId : Str
  role : DraftRole
deriving DecidableEq

/-- A row of `drafts`. -/
structure DraftRow where
  key : DraftKey
  ciphertext : Str
  contentSha256 : Option Str
  updatedAt : Nat
  completionPercent : Nat
  completedFields : Nat
  totalFields : Nat
  startedAt : Nat
deriving DecidableEq

/-- A row of `draft_revisions`. -/
structure RevisionRow where
  id : Str
  key : DraftKey
  ciphertext : Str
  contentSha256 : Option Str
  completionPercent : Nat
  completedFields : Nat
  totalFields : Nat
  savedAt : Nat
deriving DecidableEq

/-- The answer to a save. -/
structure Saved where
  content : Str
  unchanged : Bool
  revisionPreserved : Bool
  progressPercent : Nat
  updatedAt : Nat
deriving DecidableEq

/-- The tables, the contents whose batches were committed, in order, and the answers that were given. -/
structure Store where
  drafts : List DraftRow
  revisions : List RevisionRow
  saves : List (DraftKey × Option Str)
  answers : List (DraftKey × Saved)
deriving DecidableEq

def Store.draft (s : Store) (key : DraftKey) : Option DraftRow := Table.lookup DraftRow.key key s.drafts

inductive SaveError
  | publicError (message : Str) (status : Nat)
  | typeError
  | database
deriving DecidableEq

def publicError (message : String) (status : Nat) : SaveError := .publicError (str message) status

def ofText {α : Type} : Except Str α → Except SaveError α
  | .ok a => .ok a
  | .error _ => .error .typeError

/-! ## Progress -/

/-- `value.key`. -/
def member (value : Value) (key : String) : Except Str Value :=
  if isNullish value then .error typeError else .ok (value.property key)

/-- The texts that a string yields, code point by code point. -/
def codePoints : Str → List Str
  | u :: v :: rest => if isLead u && isTrail v then [u, v] :: codePoints rest else [u] :: codePoints (v :: rest)
  | [u] => [[u]]
  | [] => []

/-- What `for (const item of value || [])` goes through. -/
def iterate (value : Value) : Except Str (List Value) :=
  if value.truthy then
    match value with
    | .array items => .ok items
    | .string s => .ok ((codePoints s).map .string)
    | _ => .error typeError
  else .ok []

def hasDraftValue (value : Value) : Except Str Bool :=
  if isNullish value then .ok false else do
    let text ← textOf value
    return trim text != []

structure Progress where
  completed : Nat
  total : Nat
deriving DecidableEq

def Progress.add (p q : Progress) : Progress := ⟨p.completed + q.completed, p.total + q.total⟩

def countOne (value : Value) : Except Str Progress := do
  let filled ← hasDraftValue value
  return ⟨if filled then 1 else 0, 1⟩

def countAll {α : Type} (count : α → Except Str Progress) : List α → Except Str Progress
  | [] => .ok ⟨0, 0⟩
  | a :: items => do
    let p ← count a
    let q ← countAll count items
    return p.add q

def countToken (token : Value) : Except Str Progress := do
  let upos ← member token "upos"
  let values := [upos, token.property "head", token.property "relation", token.property "irabCategory"]
  match token.property "irabCategory" with
  | .string s => countAll countOne (if s = str "_" then values else values ++ [token.property "irabHead"])
  | _ => countAll countOne (values ++ [token.property "irabHead"])

def countSentence (sentence : Value) : Except Str Progress := do
  let structural ← member sentence "structural"
  let p ← countAll countOne [structural, sentence.property "predicate"]
  let tokens ← iterate (sentence.property "tokens")
  let q ← countAll countToken tokens
  return p.add q

def isText (value : Value) (texts : List String) : Bool :=
  match value with
  | .string s => (texts.map str).contains s
  | _ => false

/-- `(draft.fields || []).find(field => field.kind === "ratification") || \x7b\x7d`. -/
def findRatification : List Value → Except Str Value
  | [] => .ok (.object [])
  | field :: fields => do
    let kind ← member field "kind"
    if isText kind ["ratification"] then return field else findRatification fields

def countRatification (fields : Value) : Except Str Progress := do
  let items ← if fields.truthy then (match fields with | .array items => .ok items | _ => .error typeError) else .ok []
  let value ← findRatification items
  let rationale ← textOrEmpty (value.property "rationale")
  let parts := [isUuid4 (value.property "primaryReceiptId"), isText (value.property "decision") ["agree", "disagree", "recuse"],
    decide (20 ≤ (trim rationale).length)]
  return ⟨parts.count true, 3⟩

def calculateDraftProgress (draft : Value) : Except Str Progress :=
  if isText (draft.property "role") ["ratification"] then countRatification (draft.property "fields")
  else do
    let sentences ← iterate (draft.property "fields")
    countAll countSentence sentences

/-- `Math.round(completed / total * 100)`. -/
def Progress.percentage (p : Progress) : Nat :=
  if p.total = 0 then 0 else (200 * p.completed + p.total) / (2 * p.total)

/-! ## Requests -/

structure Request where
  /-- What `requireSession` finds. -/
  account : Except SaveError Str
  packetId : Value
  role : Value
  draft : Value

def maxAccountBodyBytes : Nat := 750000

def normalizedText (value : Value) (minimum maximum : Nat) (label : String) : Except SaveError Str :=
  match value with
  | .string s =>
    if (trim s).length < minimum ∨ maximum < (trim s).length then .error (.publicError (str label ++ str " غير صالح.") 400)
    else .ok (trim s)
  | _ => .error (.publicError (str label ++ str " غير صالح.") 400)

def roleOf (value : Value) : Option DraftRole :=
  match value with
  | .string s =>
    ([(str "A", DraftRole.A), (str "B", .B), (str "adjudication", .adjudication), (str "ratification", .ratification)].find?
      (fun r => r.1 == s)).map Prod.snd
  | _ => none

/-- `validateDraftKey`. -/
def validateDraftKey (userId : Str) (packetId role : Value) : Except SaveError DraftKey := do
  let normalizedPacketId ← normalizedText packetId 1 160 "معرف المهمة"
  match roleOf role with
  | none => .error (publicError "دور التحكيم غير صالح." 400)
  | some role => .ok ⟨userId, normalizedPacketId, role⟩

def isDraft (draft : Value) : Bool :=
  match draft with
  | .object _ => isText (draft.property "schema") ["adg-msa-portal-draft-v1"]
  | _ => false

/-- `stableDraftContent`. -/
def stableDraftContent : Value → Value
  | .object properties => .object (properties.filter (fun p => !(p.1 == str "savedAtUtc")))
  | value => value

/-- A draft that may be saved; the body was parsed, so that its text is that of `JSON.stringify`. -/
structure Draft where
  key : DraftKey
  value : Value

def Draft.text (d : Draft) : Str := d.value.text

def Draft.content (d : Draft) : Str := (stableDraftContent d.value).text

/-- The checks before the tables are read. -/
def Request.check (request : Request) : Except SaveError Draft := do
  let userId ← request.account
  let key ← validateDraftKey userId request.packetId request.role
  if !isDraft request.draft then .error (publicError "بنية المسودة غير صالحة." 400)
  else if maxAccountBodyBytes < (encodeUtf8 request.draft.text).length then
    .error (publicError "حجم المسودة أكبر من الحد المسموح." 413)
  else return ⟨key, request.draft⟩

/-! ## Commands -/

/-- What an access finds besides the store. -/
structure Outside where
  now : Nat
  uuid : Str

inductive Command
  /-- The batch: a revision of what was read, if anything was, and the new row. -/
  | save (id : Str) (existing : Option DraftRow) (row : DraftRow)
  | answer (key : DraftKey) (saved : Saved)

/-- The revision that preserves a row. -/
def DraftRow.revision (existing : DraftRow) (id : Str) (key : DraftKey) : RevisionRow where
  id := id
  key := key
  ciphertext := existing.ciphertext
  contentSha256 := existing.contentSha256
  completionPercent := existing.completionPercent
  completedFields := existing.completedFields
  totalFields := existing.totalFields
  savedAt := existing.updatedAt

/-- `INSERT INTO drafts .. ON CONFLICT .. DO UPDATE`. -/
def upsert (row : DraftRow) (drafts : List DraftRow) : List DraftRow :=
  if drafts.any (fun r => decide (r.key = row.key)) then
    Table.update (fun r => decide (r.key = row.key)) (fun r => { row with startedAt := r.startedAt }) drafts
  else drafts ++ [row]

/-- What the command leaves; `none` where it violates a key and is rolled back. -/
def Command.apply (s : Store) : Command → Option Store
  | .save id existing row =>
    if existing.isSome && s.revisions.any (fun r => decide (r.id = id)) then none
    else some { s with
      revisions := s.revisions ++ (existing.map (fun e => e.revision id row.key)).toList
      drafts := upsert row s.drafts
      saves := s.saves ++ [(row.key, row.contentSha256)] }
  | .answer key saved => some { s with answers := s.answers ++ [(key, saved)] }

def Command.exec (c : Command) (s : Store) : Store := (c.apply s).getD s

abbrev Call := Program Outside Command Store SaveError

def Draft.row (d : Draft) (p : Progress) (updatedAt : Nat) : DraftRow where
  key := d.key
  ciphertext := d.text
  contentSha256 := some d.content
  updatedAt := updatedAt
  completionPercent := p.percentage
  completedFields := p.completed
  totalFields := p.total
  startedAt := updatedAt

/-- The save of a draft whose content is not what was read. -/
def replaceDraft (d : Draft) (existing : Option DraftRow) : Call Unit := do
  let x ← Program.input
  match calculateDraftProgress d.value with
  | .error _ => throw .typeError
  | .ok progress =>
    let committed ← Program.perform (.save x.uuid existing (d.row progress x.now))
      (fun _ s => (Command.apply s (.save x.uuid existing (d.row progress x.now))).isSome)
    Program.throwIf (!committed) .database
    Program.perform (.answer d.key ⟨d.content, false, existing.isSome, progress.percentage, x.now⟩) (fun _ _ => ())

/-- `saveDraft`. -/
def saveDraft (request : Request) : Call Unit :=
  match request.check with
  | .error e => throw e
  | .ok d => do
    let existing ← Program.read (fun s => s.draft d.key)
    match existing with
    | none => replaceDraft d none
    | some e =>
      if e.contentSha256 = some d.content then
        Program.perform (.answer d.key ⟨d.content, true, false, e.completionPercent, e.updatedAt⟩) (fun _ _ => ())
      else replaceDraft d (some e)

end Drafts
end Adg
