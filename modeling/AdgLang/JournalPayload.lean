import AdgLang.SqlTranslation
import AdgLang.JsBase64
/-!
# JournalPayload — what the write journal keeps of an operation

`buildJournalPayload` and `parseJournalPayload` of `cpoly-recovery.js`: each parameter is written with the name of its
type and read back by it.  A parameter comes back as `replayed` says: a BigInt as its digits, a number as itself but
for the sign of zero.  So a replayed operation binds and casts what the live one did exactly under
`Operation.Replayable`.
-/
namespace Adg
namespace Recovery
namespace Payload

open Js Database

def journalSchema : Str := str "adg-cpoly-postgres-journal-v1"

/-- The units of an `UUID_V4_PATTERN`, place by place. -/
def uuidV4Pattern : List (UInt16 → Bool) :=
  let hex : UInt16 → Bool := fun u => (hexValue u).isSome
  let dash : UInt16 → Bool := fun u => u == unit '-'
  List.replicate 8 hex ++ dash :: List.replicate 4 hex ++ dash :: (fun u => u == unit '4') :: List.replicate 3 hex ++
    dash :: (fun u => "89abAB".toList.any (fun c => u == unit c)) :: List.replicate 3 hex ++
    dash :: List.replicate 12 hex

def isUuidV4 (s : Str) : Bool :=
  s.length == uuidV4Pattern.length && (s.zip uuidV4Pattern).all (fun p => p.2 p.1)

/-! ## Writing -/

/-- `{ type, value }`. -/
def typed (type : String) (value : Value) : Value :=
  .object [(str "type", .string (str type)), (str "value", value)]

def serializeJournalValue : Value → Except String Value
  | .undefined => .ok (typed "null" .null)
  | .null => .ok (typed "null" .null)
  | .string s => .ok (typed "string" (.string s))
  | .number n => .ok (typed "number" (if n.isFinite then .number n else .string n.toText))
  | .bigint i => .ok (typed "bigint" (.string (intStr i)))
  | .bool b => .ok (typed "boolean" (.bool b))
  | .bytes b => .ok (typed "blob" (.string (btoa b)))
  | v => do
    let t ← stringify v
    return typed "json" (match t with | some t => .string t | none => .undefined)

def operationValue (operation : Operation) : Except String Value := do
  let params ← operation.params.mapM serializeJournalValue
  return .object [(str "mode", .string (if operation.mode = [] then str "run" else operation.mode)),
    (str "sql", .string operation.sql), (str "params", .array params)]

/-- The JSON text of `buildJournalPayload`. -/
def buildJournalPayload (requestId operationKind : Str) (operations : List Operation) : Except String Str := do
  let values ← operations.mapM operationValue
  let payload := Value.object [(str "schema", .string journalSchema), (str "requestId", .string requestId),
    (str "operationKind", .string operationKind), (str "operations", .array values)]
  match ← stringify payload with
  | some json => return json
  | none => throw "undefined"

/-! ## Reading -/

/-- `String(value)`, or the `TypeError` it throws. -/
def text (v : Value) : Except String Str :=
  match v.toText with
  | some t => .ok t
  | none => .error "Cannot convert object to primitive value"

/-- `value || other`. -/
def orElse (v other : Value) : Value := if v.truthy then v else other

/-- `value ?? other`. -/
def orDefault (v other : Value) : Value :=
  match v with
  | .undefined | .null => other
  | _ => v

/-- `String(value || "")`. -/
def textOrEmpty (v : Value) : Except String Str := text (orElse v (.string []))

def deserializeJournalValue (value : Value) : Except String Value :=
  match value with
  | .object _ =>
    let inner := value.property "value"
    match value.property "type" with
    | .string type =>
      if type = str "null" then .ok .null
      else if type = str "string" then do return .string (← text (orDefault inner (.string [])))
      else if type = str "number" then
        match inner with
        | .number n => .ok (.number n)
        | _ => match inner.toNumber with
          | some n => .ok (.number n)
          | none => .error "Cannot convert object to primitive value"
      else if type = str "bigint" then do return .string (← text (orDefault inner (.string (str "0"))))
      else if type = str "boolean" then .ok (.bool inner.truthy)
      else if type = str "blob" then do
        match atob (← textOrEmpty inner) with
        | some bytes => return .bytes bytes
        | none => throw "The string to be decoded is not correctly encoded."
      else if type = str "json" then do
        match parse (← text (orElse inner (.string (str "null")))) with
        | some v => return v
        | none => throw "Unexpected token in JSON"
      else .error "Stored PostgreSQL journal parameter type was invalid."
    | _ => .error "Stored PostgreSQL journal parameter type was invalid."
  | _ => .error "Stored PostgreSQL journal parameter was invalid."

def parseOperation (operation : Value) : Except String Operation :=
  match operation with
  | .undefined | .null => .error "Cannot read properties of null"
  | _ => do
    let mode ← text (orElse (operation.property "mode") (.string (str "run")))
    let sql ← textOrEmpty (operation.property "sql")
    let params ← match operation.property "params" with
      | .array params => params.mapM deserializeJournalValue
      | _ => pure []
    return ⟨mode, sql, params⟩

structure Parsed where
  requestId : Value
  operationKind : Value
  operations : List Operation

def invalid : String := "Stored PostgreSQL journal payload is invalid."

def parseJournalPayload (json : Str) (expectedRequestId : Option Str) : Except String Parsed :=
  match parse json with
  | none => .error "Stored PostgreSQL journal payload is not valid JSON."
  | some payload => do
    let requestId := payload.property "requestId"
    let operationKind := payload.property "operationKind"
    let schemaMatches := match payload.property "schema" with
      | .string schema => decide (schema = journalSchema)
      | _ => false
    if !schemaMatches then throw invalid
    if !isUuidV4 (← textOrEmpty requestId) then throw invalid
    if !([str "run", str "batch"].contains (← textOrEmpty operationKind)) then throw invalid
    match payload.property "operations" with
    | .array operations =>
      if operations.length < 1 then throw invalid
      let matchesExpected := match expectedRequestId, requestId with
        | none, _ => true
        | some id, .string s => decide (s = id)
        | some _, _ => false
      if !matchesExpected then throw "Stored PostgreSQL journal request ID did not match."
      return ⟨requestId, operationKind, ← operations.mapM parseOperation⟩
    | _ => throw invalid

/-! ## What comes back -/

/-- A parameter that the journal has kept and read back. -/
def replayed : Value → Value
  | .undefined => .null
  | .bigint i => .string (intStr i)
  | .number n => .number (if n = .zero true then .zero false else n)
  | .array items => (Value.array items).reread
  | .object properties => (Value.object properties).reread
  | v => v

/-- A parameter that the adapter is given: a value by itself, or an array or object that JSON has. -/
def Admitted (v : Value) : Prop := v.isLeaf = true ∨ v.Json

theorem typed_json (type : String) {value : Value} (h : value.Json) : (typed type value).Json := by
  refine Value.json_object (show orderedKeys [str "type", str "value"] = true by decide +kernel) ?_
  simp only [List.mem_cons, List.not_mem_nil, or_false, forall_eq_or_imp, forall_eq]
  exact ⟨Value.json_leaf rfl rfl, h⟩

theorem textOrEmpty_string (s : Str) : textOrEmpty (.string s) = .ok s := by
  cases s <;> rfl

theorem deserialize_blob (t : Str) : deserializeJournalValue (typed "blob" (.string t)) =
    match atob t with
    | some bytes => .ok (.bytes bytes)
    | none => .error "The string to be decoded is not correctly encoded." := by
  have h : deserializeJournalValue (typed "blob" (.string t)) = (do
    match atob (← textOrEmpty (.string t)) with
    | some bytes => return .bytes bytes
    | none => throw "The string to be decoded is not correctly encoded.") := rfl
  rw [h, textOrEmpty_string]
  rfl

theorem deserialize_json {t : Str} (hne : t ≠ []) : deserializeJournalValue (typed "json" (.string t)) =
    match parse t with
    | some v => .ok v
    | none => .error "Unexpected token in JSON" := by
  have h : deserializeJournalValue (typed "json" (.string t)) = (do
    match parse (← text (orElse (.string t) (.string (str "null")))) with
    | some v => return v
    | none => throw "Unexpected token in JSON") := rfl
  obtain ⟨u, t, rfl⟩ := List.exists_cons_of_ne_nil hne
  rw [h]
  rfl

theorem deserialize_number (n : Number) : deserializeJournalValue (typed "number" (.number n)) = .ok (.number n) := rfl

/-- A number that is not finite is kept as its text and made a number again. -/
theorem deserialize_notFinite {n : Number} (h : n.isFinite = false) :
    deserializeJournalValue (typed "number" (.string n.toText)) = .ok (.number n) := by
  have htext : deserializeJournalValue (typed "number" (.string n.toText)) = .ok (.number (Number.ofText n.toText)) := rfl
  rw [htext, ofText_toText n h]

/-- **A parameter comes back from the journal as `replayed` says.** -/
theorem deserialize_serialize {v : Value} (h : Admitted v) :
    ∃ w, serializeJournalValue v = .ok w ∧ w.Json ∧ deserializeJournalValue w.reread = .ok (replayed v) := by
  have hstring : ∀ s, (Value.string s).Json := fun s => Value.json_leaf rfl rfl
  have hjson : ∀ t : Value, t.Json → ∃ w, (do
      let t ← stringify t
      return typed "json" (match t with | some t => .string t | none => .undefined)) = Except.ok w ∧ w.Json ∧
        deserializeJournalValue w.reread = .ok t.reread := fun t ht => by
    obtain ⟨u, rest, htext, -⟩ := text_head ht.isJson
    refine ⟨typed "json" (.string t.text), by rw [stringify_json ht]; rfl, typed_json _ (hstring _), ?_⟩
    have hreread : (typed "json" (.string t.text)).reread = typed "json" (.string t.text) := rfl
    rw [hreread, deserialize_json (by rw [htext]; simp), parse_text ht]
  cases v with
  | undefined | null => exact ⟨_, rfl, typed_json _ (Value.json_leaf rfl rfl), rfl⟩
  | string s => exact ⟨_, rfl, typed_json _ (hstring s), rfl⟩
  | number n =>
    cases n with
    | nan | infinite _ => exact ⟨_, rfl, typed_json _ (hstring _), deserialize_notFinite rfl⟩
    | zero negative =>
      refine ⟨_, rfl, typed_json _ (Value.json_leaf rfl rfl), ?_⟩
      cases negative <;> rfl
    | finite d => exact ⟨_, rfl, typed_json _ (Value.json_leaf rfl rfl), rfl⟩
  | bigint i => exact ⟨_, rfl, typed_json _ (hstring _), rfl⟩
  | bool b => exact ⟨_, rfl, typed_json _ (Value.json_leaf rfl rfl), rfl⟩
  | bytes b =>
    refine ⟨_, rfl, typed_json _ (hstring _), ?_⟩
    have hreread : (typed "blob" (.string (btoa b))).reread = typed "blob" (.string (btoa b)) := rfl
    rw [hreread, deserialize_blob, atob_btoa]
    rfl
  | array items => exact hjson _ (h.resolve_left nofun)
  | object properties => exact hjson _ (h.resolve_left nofun)

/-- A list written item by item and read back item by item. -/
theorem mapM_readBack {α β γ ε : Type} {write : α → Except ε β} {p : β → Prop} {r : β → β} {read : β → Except ε γ}
    {g : α → γ} {xs : List α} (h : ∀ x ∈ xs, ∃ y, write x = .ok y ∧ p y ∧ read (r y) = .ok (g x)) :
    ∃ ys, xs.mapM write = .ok ys ∧ (∀ y ∈ ys, p y) ∧ (ys.map r).mapM read = .ok (xs.map g) ∧
      ys.length = xs.length := by
  induction xs with
  | nil => exact ⟨[], rfl, nofun, rfl, rfl⟩
  | cons x xs ih =>
    obtain ⟨y, hy, hp, hread⟩ := h x (by simp)
    obtain ⟨ys, hys, hps, hreads, hlength⟩ := ih (fun z hz => h z (by simp [hz]))
    refine ⟨y :: ys, by rw [List.mapM_cons, hy, hys]; rfl, ?_, ?_, by simp [hlength]⟩
    · simp only [List.mem_cons, forall_eq_or_imp]
      exact ⟨hp, hps⟩
    · rw [List.map_cons, List.mapM_cons, hread, hreads]
      rfl

/-- The operation that a replay executes. -/
def replayedOperation (operation : Operation) : Operation :=
  ⟨if operation.mode = [] then str "run" else operation.mode, operation.sql, operation.params.map replayed⟩

theorem parseOperation_object {mode : Str} (hmode : mode ≠ []) (sql : Str) (params : List Value) :
    parseOperation (.object [(str "mode", .string mode), (str "sql", .string sql), (str "params", .array params)]) =
      (params.mapM deserializeJournalValue).map (⟨mode, sql, ·⟩) := by
  obtain ⟨u, rest, rfl⟩ := List.exists_cons_of_ne_nil hmode
  have h : parseOperation (.object [(str "mode", .string (u :: rest)), (str "sql", .string sql),
      (str "params", .array params)]) = (do
    let sql ← textOrEmpty (.string sql)
    let params ← params.mapM deserializeJournalValue
    return ⟨u :: rest, sql, params⟩) := rfl
  rw [h, textOrEmpty_string]
  rfl

/-- An operation comes back from the journal with each of its parameters. -/
theorem parse_operationValue {operation : Operation} (h : ∀ v ∈ operation.params, Admitted v) :
    ∃ w, operationValue operation = .ok w ∧ w.Json ∧ parseOperation w.reread = .ok (replayedOperation operation) := by
  obtain ⟨ws, hws, hjson, hread, -⟩ := mapM_readBack (fun v hv => deserialize_serialize (h v hv))
  have hstring : ∀ s, (Value.string s).Json := fun s => Value.json_leaf rfl rfl
  have hmode : (if operation.mode = [] then str "run" else operation.mode) ≠ [] := by
    split
    · decide
    · assumption
  refine ⟨_, by rw [operationValue, hws]; rfl, Value.json_object ?_ ?_, ?_⟩
  · exact show orderedKeys [str "mode", str "sql", str "params"] = true by decide +kernel
  · simp only [List.mem_cons, List.not_mem_nil, or_false, forall_eq_or_imp, forall_eq]
    exact ⟨hstring _, hstring _, Value.json_array hjson⟩
  · simp only [Value.reread, Value.rereadProperties, Value.rereadItems_eq]
    rw [parseOperation_object hmode, hread]
    rfl

/-- A write as the adapter journals it: `batch` returns before it journals nothing, and the request ID is random. -/
structure JournaledWrite where
  requestId : Str
  isUuid : isUuidV4 requestId = true
  operationKind : Str
  isKind : operationKind ∈ [str "run", str "batch"]
  operations : List Operation
  nonempty : operations ≠ []
  admitted : ∀ operation ∈ operations, ∀ v ∈ operation.params, Admitted v

/-- The object that is journaled for a write. -/
def payloadOf (requestId operationKind : Str) (operations : List Value) : Value :=
  .object [(str "schema", .string journalSchema), (str "requestId", .string requestId),
    (str "operationKind", .string operationKind), (str "operations", .array operations)]

/-- The checks of the reader pass on the payload of a write. -/
theorem parseJournalPayload_payloadOf {json : Str} {requestId operationKind : Str} {operations : List Value}
    (hjson : parse json = some (payloadOf requestId operationKind operations))
    (hid : isUuidV4 requestId = true) (hkind : operationKind ∈ [str "run", str "batch"])
    (hlength : 1 ≤ operations.length) :
    parseJournalPayload json (some requestId) =
      (operations.mapM parseOperation).map (⟨.string requestId, .string operationKind, ·⟩) := by
  have hschema : (payloadOf requestId operationKind operations).property "schema" = .string journalSchema := rfl
  have hrequest : (payloadOf requestId operationKind operations).property "requestId" = .string requestId := rfl
  have hoperationKind : (payloadOf requestId operationKind operations).property "operationKind" =
      .string operationKind := rfl
  have hoperations : (payloadOf requestId operationKind operations).property "operations" = .array operations := rfl
  have hcontains : [str "run", str "batch"].contains operationKind = true := List.elem_eq_true_of_mem hkind
  simp only [parseJournalPayload, hjson, hschema, hrequest, hoperationKind, hoperations, textOrEmpty_string, hid,
    hcontains, decide_true, Bool.not_true, Bool.false_eq_true, if_false, if_neg (Nat.not_lt.2 hlength), bind,
    Except.bind]
  cases operations.mapM parseOperation <;> rfl

/-- **What `parseJournalPayload` makes of the journal's text.** -/
theorem parse_build (w : JournaledWrite) :
    ∃ json, buildJournalPayload w.requestId w.operationKind w.operations = .ok json ∧
      parseJournalPayload json (some w.requestId) =
        .ok ⟨.string w.requestId, .string w.operationKind, w.operations.map replayedOperation⟩ := by
  obtain ⟨values, hvalues, hjson, hread, hlength⟩ :=
    mapM_readBack (fun operation hmem => parse_operationValue (w.admitted operation hmem))
  have hstring : ∀ s, (Value.string s).Json := fun s => Value.json_leaf rfl rfl
  have hpayload : (payloadOf w.requestId w.operationKind values).Json := by
    refine Value.json_object (show orderedKeys [str "schema", str "requestId", str "operationKind", str "operations"] = true
      by decide +kernel) ?_
    simp only [List.mem_cons, List.not_mem_nil, or_false, forall_eq_or_imp, forall_eq]
    exact ⟨hstring _, hstring _, hstring _, Value.json_array hjson⟩
  have hparsed : parse (payloadOf w.requestId w.operationKind values).text =
      some (payloadOf w.requestId w.operationKind (values.map Value.reread)) := by
    rw [parse_text hpayload, ← Value.rereadItems_eq]
    rfl
  refine ⟨(payloadOf w.requestId w.operationKind values).text, ?_, ?_⟩
  · rw [buildJournalPayload, hvalues]
    simp only [bind, Except.bind]
    rw [← payloadOf, stringify_json hpayload]
    rfl
  · rw [parseJournalPayload_payloadOf hparsed w.isUuid w.isKind
      (by rw [List.length_map, hlength]; exact List.length_pos_iff.2 w.nonempty), hread]
    rfl

/-! ## When a replay does what the live write did -/

/-- A parameter that is bound in a replay as it was live. -/
def survives : Value → Bool
  | .bigint i => decide (2 ^ 53 - 1 < i.natAbs)
  | .number n => decide (n ≠ .zero true)
  | .array items => (Value.array items).all Value.isKept
  | .object properties => (Value.object properties).all Value.isKept
  | _ => true

theorem normalize_replayed_iff (v : Value) :
    normalizeParameter (replayed v) = normalizeParameter v ↔ survives v = true := by
  cases v with
  | undefined | null | bool _ | string _ | bytes _ => exact ⟨fun _ => rfl, fun _ => rfl⟩
  | number n =>
    have h : (Value.number (if n = .zero true then .zero false else n) = .number n) ↔ n ≠ .zero true := by
      by_cases hn : n = .zero true
      · simp [hn]
      · simp [hn]
    rw [survives, decide_eq_true_eq]
    exact h
  | bigint i =>
    have hlive : normalizeParameter (.bigint i) =
        if i.natAbs ≤ 2 ^ 53 - 1 then .number (Number.ofBigInt i) else .string (intStr i) := by
      simp [normalizeParameter, Number.isSafeInteger_ofBigInt]
    have hreplay : normalizeParameter (replayed (.bigint i)) = .string (intStr i) := rfl
    rw [hlive, hreplay, survives, decide_eq_true_eq]
    by_cases h : i.natAbs ≤ 2 ^ 53 - 1
    · rw [if_pos h]
      exact ⟨nofun, fun hlt => absurd hlt (by omega)⟩
    · rw [if_neg h]
      exact ⟨fun _ => by omega, fun _ => rfl⟩
  | array items => exact Value.reread_eq_iff _
  | object properties => exact Value.reread_eq_iff _

/-- Each parameter is bound as it was, and no BigInt stands at a placeholder, where it would lose its cast. -/
def Replayable (operation : Operation) : Prop :=
  (∀ v ∈ operation.params, survives v = true) ∧
    ∀ i < placeholders operation.sql, (operation.params.getD i .undefined).isBigInt = false

/-- A parameter has one placeholder live and in a replay, unless it is a BigInt. -/
theorem placeholderForValue_replayed (index : Nat) (v : Value) :
    placeholderForValue index (replayed v) =
      if v.isBigInt then unit '$' :: natStr index else placeholderForValue index v := by
  cases v with
  | number n =>
    cases n with
    | zero negative => cases negative <;> rfl
    | nan | infinite _ | finite _ => rfl
  | undefined | null | bool _ | string _ | bytes _ | bigint _ | array _ | object _ => rfl

theorem placeholder_replayed (params : List Value) (i : Nat) :
    placeholder (params.map replayed) i =
      if (params.getD i .undefined).isBigInt then unit '$' :: natStr (i + 1) else placeholder params i := by
  rw [placeholder, placeholder, ← placeholderForValue_replayed, List.getD_eq_getElem?_getD, List.getD_eq_getElem?_getD,
    List.getElem?_map]
  cases params[i]? <;> rfl

theorem length_placeholder_bigInt {index : Nat} {v : Value} (h : v.isBigInt = true) :
    (unit '$' :: natStr index).length < (placeholderForValue index v).length := by
  cases v <;> simp [Value.isBigInt] at h
  simp [placeholderForValue, str]

/-- **An operation is replayed as it ran exactly if its parameters survive and no BigInt has a placeholder.** -/
theorem bound_replayed_iff (operation : Operation) :
    (replayedOperation operation).bound = operation.bound ↔ Replayable operation := by
  have hvalues : (operation.params.map replayed).map normalizeParameter = operation.params.map normalizeParameter ↔
      ∀ v ∈ operation.params, survives v = true := by
    rw [List.map_map, List.map_inj_left]
    exact forall₂_congr (fun v _ => normalize_replayed_iff v)
  have hshorter : ∀ i, (placeholder (operation.params.map replayed) i).length ≤ (placeholder operation.params i).length :=
    fun i => by
      rw [placeholder_replayed]
      split
      · exact Nat.le_of_lt (length_placeholder_bigInt ‹_›)
      · exact Nat.le_refl _
  rw [Operation.bound, Operation.bound, Prod.mk.injEq, Replayable, ← hvalues, and_comm]
  refine and_congr_right (fun _ => ⟨fun htext i hi => ?_, fun hcasts => ?_⟩)
  · -- a BigInt at a placeholder makes the live text longer
    have hlength := (length_replaceFrom hshorter .normal 0 (rewriteInsertOrIgnore operation.sql)).2
      (congrArg List.length htext) i (by omega) (by rw [Nat.zero_add]; exact hi)
    rw [placeholder_replayed] at hlength
    split at hlength
    · exact absurd hlength (Nat.ne_of_lt (length_placeholder_bigInt ‹_›))
    · exact Bool.not_eq_true _ ▸ ‹_›
  · refine replaceFrom_congr .normal 0 _ (fun i _ hi => ?_)
    rw [replayedOperation, placeholder_replayed, hcasts i (by rw [Nat.zero_add] at hi; exact hi)]
    rfl

/-- The replay of a write translates and binds what the write did. -/
def ReplaysAsItRan (w : JournaledWrite) : Prop :=
  ∃ json parsed, buildJournalPayload w.requestId w.operationKind w.operations = .ok json ∧
    parseJournalPayload json (some w.requestId) = .ok parsed ∧
    parsed.operations.map Operation.bound = w.operations.map Operation.bound

/-- **A journaled write replays as it ran exactly if each of its operations is replayable.** -/
theorem replaysAsItRan_iff (w : JournaledWrite) :
    ReplaysAsItRan w ↔ ∀ operation ∈ w.operations, Replayable operation := by
  obtain ⟨json, hbuild, hparse⟩ := parse_build w
  have hbound : (w.operations.map replayedOperation).map Operation.bound = w.operations.map Operation.bound ↔
      ∀ operation ∈ w.operations, Replayable operation := by
    rw [List.map_map, List.map_inj_left]
    exact forall₂_congr (fun operation _ => bound_replayed_iff operation)
  rw [← hbound]
  constructor
  · rintro ⟨json', parsed, hbuild', hparse', h⟩
    obtain rfl := Except.ok.inj (hbuild.symm.trans hbuild')
    obtain rfl := Except.ok.inj (hparse.symm.trans hparse')
    exact h
  · exact fun h => ⟨json, _, hbuild, hparse, h⟩

/-- One update whose parameter is the BigInt 5. -/
def bigIntWrite : JournaledWrite where
  requestId := str "11111111-1111-4111-8111-111111111111"
  isUuid := by decide +kernel
  operationKind := str "run"
  isKind := by simp
  operations := [⟨str "run", str "UPDATE task_versions SET updated_at = ?", [.bigint 5]⟩]
  nonempty := nofun
  admitted := by
    simp only [List.mem_singleton, forall_eq]
    exact Or.inl rfl

/-- Live, the BigInt is bound as the number 5 to a placeholder that is cast; replayed, as a text to one that is not. -/
theorem bigIntWrite_not_replays : ¬ ReplaysAsItRan bigIntWrite := by
  rintro ⟨json, parsed, hbuild, hparse, h⟩
  obtain ⟨json', hbuild', hparse'⟩ := parse_build bigIntWrite
  obtain rfl := Except.ok.inj (hbuild'.symm.trans hbuild)
  obtain rfl := Except.ok.inj (hparse'.symm.trans hparse)
  have hop := (bound_replayed_iff ⟨str "run", str "UPDATE task_versions SET updated_at = ?", [.bigint 5]⟩).1
    (List.cons.inj h).1
  exact absurd (hop.1 (.bigint 5) (by simp)) (by decide)

end Payload
end Recovery
end Adg
