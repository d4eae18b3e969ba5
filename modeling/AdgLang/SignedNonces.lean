import AdgLang.Machine
import AdgLang.Table
import AdgLang.Text
import Mathlib.Data.List.Sort
import Mathlib.Algebra.Group.Int.Defs
/-!
# SignedNonces — signed internal requests and their nonces

`verifySignedCpolyRequest` and `pruneSignedNonces`.  A call reads the clock, checks the headers against it, and inserts
the row of its nonce at some later time; the maintenance reads the clock and deletes expired rows at some later time.
The row of a nonce stands until it expires (`Sound.standing`), so no nonce is accepted twice along the runs in which no
call inserts a nonce whose accepted row has expired (`once_runs`).  A call that passed the window check and waits long
enough before its insertion finds the row gone (`not_once`).
-/
namespace Adg
namespace Recovery
namespace Signed

/-! ## Headers -/

/-- What `trim` removes at the ends of a JavaScript string. -/
def isSpace (c : Char) : Bool :=
  let n := c.toNat
  (0x9 ≤ n && n ≤ 0xD) || n == 0x20 || n == 0xA0 || n == 0x1680 || (0x2000 ≤ n && n ≤ 0x200A) || n == 0x2028 ||
    n == 0x2029 || n == 0x202F || n == 0x205F || n == 0x3000 || n == 0xFEFF

/-- `String(value || "").trim().toLowerCase()`; the texts that pass the patterns below are ASCII. -/
def normalizeHeader (value : Option Text) : Text :=
  ((((value.getD []).dropWhile isSpace).reverse.dropWhile isSpace).reverse).map Char.toLower

/-- `Number.parseInt(value, 10)`. -/
def parseInt (value : Text) : Option Int :=
  let digits := fun t : Text => (t.takeWhile Char.isDigit)
  let number := fun t : Text => if digits t = [] then none else some (Int.ofNat (Nat.ofDigitChars 10 (digits t) 0))
  match value.dropWhile isSpace with
  | '-' :: t => (number t).map (fun n => -n)
  | '+' :: t => number t
  | t => number t

/-- `Number.isSafeInteger`. -/
def isSafeInteger (n : Int) : Bool := decide (-(2 ^ 53 - 1) ≤ n) && decide (n ≤ 2 ^ 53 - 1)

def isHex (c : Char) : Bool := c.isDigit || (decide ('a' ≤ c) && decide (c ≤ 'f'))

/-- A text of one character of each class. -/
def matchesClasses : List (Char → Bool) → Text → Bool
  | [], [] => true
  | p :: ps, c :: cs => p c && matchesClasses ps cs
  | _, _ => false

/-- `SHA256_HEX_PATTERN`. -/
def isSha256Hex (t : Text) : Bool := matchesClasses (List.replicate 64 isHex) t

/-- `UUID_V4_PATTERN`, on a text in lower case. -/
def isUuidV4 (t : Text) : Bool :=
  let hyphen : List (Char → Bool) := [fun c => c == '-']
  matchesClasses (List.replicate 8 isHex ++ hyphen ++ List.replicate 4 isHex ++ hyphen ++ [fun c => c == '4'] ++
    List.replicate 3 isHex ++ hyphen ++ [fun c => decide (c ∈ ['8', '9', 'a', 'b'])] ++ List.replicate 3 isHex ++ hyphen ++
    List.replicate 12 isHex) t

def hexValue (c : Char) : Nat := if c.isDigit then c.toNat - '0'.toNat else c.toNat - 'a'.toNat + 10

/-- `hexToBytes`. -/
def hexToBytes : Text → List Nat
  | a :: b :: t => (16 * hexValue a + hexValue b) :: hexToBytes t
  | _ => []

def constantTimeHexEqual (left right : Text) : Bool :=
  isSha256Hex left && isSha256Hex right && decide (hexToBytes left = hexToBytes right)

/-- A number as `String` writes it. -/
def signedDecimal (n : Int) : Text := if n < 0 then '-' :: decimal n.natAbs else decimal n.natAbs

/-- `buildCpolyCanonicalText`; a timestamp 0 is left out by `||`. -/
def buildCpolyCanonicalText (method path : Text) (timestamp : Int) (nonce bodyHash : Text) : Text :=
  join "\n".toList [(if method = [] then "GET".toList else method).map Char.toUpper, path,
    if timestamp = 0 then [] else signedDecimal timestamp, nonce, bodyHash]

/-! ## The checks -/

/-- The hashes of the platform. -/
structure Crypto where
  sha256HexBytes : List UInt8 → Text
  hmacSha256Hex : Text → Text → Text

structure Request where
  method : Text
  path : Text
  timestamp : Option Text
  nonce : Option Text
  contentSha256 : Option Text
  signature : Option Text
  rawBody : List UInt8

/-- A row of `cpoly_signed_api_nonces`. -/
structure NonceRow where
  nonce : Text
  requestMethod : Text
  requestPath : Text
  bodySha256 : Text
  createdAt : Int
  expiresAt : Int
deriving DecidableEq

/-- What `verifySignedCpolyRequest` throws. -/
inductive VerifyError
  | route (message : Text) (status : Nat)
  /-- The insertion failed, or its answer was lost. -/
  | database
deriving DecidableEq

/-- `CPOLY_SIGNATURE_WINDOW_MS`. -/
def signatureWindowMs : Int := 5 * 60 * 1000

/-- `verifySignedCpolyRequest` up to its insertion, with the row to insert. -/
def checkRequest (crypto : Crypto) (hmacKey : Text) (now : Int) (request : Request) : Except VerifyError NonceRow :=
  let nonce := normalizeHeader request.nonce
  let bodyHash := normalizeHeader request.contentSha256
  let signature := normalizeHeader request.signature
  match (parseInt (request.timestamp.getD [])).filter isSafeInteger with
  | none => .error (.route "CPOLY backup signature headers were invalid.".toList 401)
  | some timestamp =>
    if !(isUuidV4 nonce && isSha256Hex bodyHash && isSha256Hex signature) then
      .error (.route "CPOLY backup signature headers were invalid.".toList 401)
    else if signatureWindowMs < (now - timestamp).natAbs then
      .error (.route "CPOLY backup request timestamp was outside the allowed window.".toList 401)
    else if !constantTimeHexEqual (crypto.sha256HexBytes request.rawBody) bodyHash then
      .error (.route "CPOLY backup request body hash did not match.".toList 401)
    else if !constantTimeHexEqual (crypto.hmacSha256Hex hmacKey
        (buildCpolyCanonicalText request.method request.path timestamp nonce bodyHash)) signature then
      .error (.route "CPOLY backup request signature was invalid.".toList 401)
    else .ok { nonce := nonce, requestMethod := request.method, requestPath := request.path, bodySha256 := bodyHash,
               createdAt := now, expiresAt := timestamp + signatureWindowMs }

/-- Where a call of `verifySignedCpolyRequest` stands. -/
inductive Call
  | inserting (row : NonceRow)
  | returned (row : NonceRow)
  | threw (error : VerifyError)
deriving DecidableEq

/-- The row that a call is about to insert. -/
def Call.pending : Call → Option NonceRow
  | .inserting row => some row
  | _ => none

def Call.accepted : Call → Option NonceRow
  | .returned row => some row
  | _ => none

/-- The call that starts at a time. -/
def verifySignedCpolyRequest (crypto : Crypto) (hmacKey : Text) (now : Int) (request : Request) : Call :=
  match checkRequest crypto hmacKey now request with
  | .ok row => .inserting row
  | .error error => .threw error

/-- `INSERT .. WHERE NOT EXISTS` with the table's `CHECK`, and what the call makes of it. -/
def insertNonce (row : NonceRow) (nonces : List NonceRow) : List NonceRow × Call :=
  if (Table.lookup NonceRow.nonce row.nonce nonces).isSome then
    (nonces, .threw (.route "CPOLY backup request nonce was already used.".toList 409))
  else if row.expiresAt ≤ row.createdAt then (nonces, .threw .database)
  else (nonces ++ [row], .returned row)

/-- The rows that `pruneSignedNonces` selects, and those it leaves. -/
def expiredNonces (now : Int) (limit : Nat) (nonces : List NonceRow) : List NonceRow :=
  ((nonces.filter (fun row => decide (row.expiresAt ≤ now))).insertionSort (fun a b => a.expiresAt ≤ b.expiresAt)).take
    limit

def pruneSignedNonces (now : Int) (limit : Nat) (nonces : List NonceRow) : List NonceRow :=
  Table.delete (fun row => decide (row.nonce ∈ (expiredNonces now limit nonces).map NonceRow.nonce)) nonces

/-! ## Steps -/

structure World where
  clock : Int
  nonces : List NonceRow
  calls : List Call
  /-- The times that maintenance runs have read and not yet pruned at. -/
  maintenance : List Int
deriving DecidableEq

def World.start (clock : Int) : World := ⟨clock, [], [], []⟩

inductive Action
  | tick (ms : Nat)
  | verify (request : Request)
  | insert (i : Nat)
  /-- The insertion fails, after it was committed or not. -/
  | insertFails (i : Nat) (committed : Bool)
  | maintain
  | prune (k limit : Nat)

def World.act (crypto : Crypto) (hmacKey : Text) (w : World) : Action → Option World
  | .tick ms => some { w with clock := w.clock + ms }
  | .verify request => some { w with calls := w.calls ++ [verifySignedCpolyRequest crypto hmacKey w.clock request] }
  | .insert i => match w.calls[i]? with
    | some (.inserting row) =>
      some { w with nonces := (insertNonce row w.nonces).1, calls := w.calls.set i (insertNonce row w.nonces).2 }
    | _ => none
  | .insertFails i committed => match w.calls[i]? with
    | some (.inserting row) => some { w with
        nonces := if committed then (insertNonce row w.nonces).1 else w.nonces
        calls := w.calls.set i (.threw .database) }
    | _ => none
  | .maintain => some { w with maintenance := w.maintenance ++ [w.clock] }
  | .prune k limit => (w.maintenance[k]?).map (fun now =>
      { w with nonces := pruneSignedNonces now limit w.nonces, maintenance := w.maintenance.eraseIdx k })

def signing (crypto : Crypto) (hmacKey : Text) : Machine World Action := ⟨World.act crypto hmacKey⟩

/-- Of the calls with one nonce at most one returned. -/
def World.Once (w : World) : Prop :=
  ∀ (i j : Nat) (row row' : NonceRow), w.calls[i]? = some (.returned row) → w.calls[j]? = some (.returned row') →
    row.nonce = row'.nonce → i = j

/-- A call inserts a row that the table admits only while no accepted row of its nonce has expired. -/
def Meets (w : World) : Action → Prop
  | .insert i => ∀ row ∈ (w.calls[i]?).bind Call.pending, row.createdAt < row.expiresAt →
      ∀ accepted ∈ w.calls.filterMap Call.accepted, accepted.nonce = row.nonce → w.clock < accepted.expiresAt
  | _ => True

instance (w : World) (a : Action) : Decidable (Meets w a) :=
  match a with
  | .insert i => inferInstanceAs (Decidable (∀ row ∈ (w.calls[i]?).bind Call.pending, row.createdAt < row.expiresAt →
      ∀ accepted ∈ w.calls.filterMap Call.accepted, accepted.nonce = row.nonce → w.clock < accepted.expiresAt))
  | .tick _ | .verify _ | .insertFails .. | .maintain | .prune .. => .isTrue trivial

/-! ## What holds in every world -/

structure Sound (w : World) : Prop where
  once : w.Once
  maintained : ∀ now ∈ w.maintenance, now ≤ w.clock
  keyed : Table.Keyed NonceRow.nonce w.nonces
  /-- The row of an accepted call stands until it expires. -/
  standing : ∀ row, .returned row ∈ w.calls → row ∈ w.nonces ∨ row.expiresAt ≤ w.clock

theorem Sound.start (clock : Int) : Sound (.start clock) where
  once := fun _ _ _ _ h => by cases h
  maintained := fun _ h => by cases h
  keyed := List.nodup_nil
  standing := fun _ h => by cases h

/-- **An insertion** adds the row and returns, where no row has its nonce and it has not expired; otherwise it throws. -/
theorem insertNonce_cases (row : NonceRow) (nonces : List NonceRow) :
    ((∀ r ∈ nonces, r.nonce ≠ row.nonce) ∧ row.createdAt < row.expiresAt ∧
        insertNonce row nonces = (nonces ++ [row], .returned row)) ∨
      ∃ error, insertNonce row nonces = (nonces, .threw error) := by
  unfold insertNonce
  by_cases hused : (Table.lookup NonceRow.nonce row.nonce nonces).isSome = true
  · rw [if_pos hused]
    exact .inr ⟨_, rfl⟩
  · rw [if_neg hused]
    have hfree : Table.lookup NonceRow.nonce row.nonce nonces = none := by simpa using hused
    by_cases hexpired : row.expiresAt ≤ row.createdAt
    · rw [if_pos hexpired]
      exact .inr ⟨_, rfl⟩
    · rw [if_neg hexpired]
      exact .inl ⟨Table.lookup_none_iff.1 hfree, by omega, rfl⟩

theorem keyed_insertNonce {row : NonceRow} {nonces : List NonceRow} (h : Table.Keyed NonceRow.nonce nonces) :
    Table.Keyed NonceRow.nonce (insertNonce row nonces).1 := by
  rcases insertNonce_cases row nonces with ⟨hfree, -, heq⟩ | ⟨error, heq⟩
  · rw [heq]
    exact h.append hfree
  · rw [heq]
    exact h

theorem subset_insertNonce {row r : NonceRow} {nonces : List NonceRow} (h : r ∈ nonces) :
    r ∈ (insertNonce row nonces).1 := by
  rcases insertNonce_cases row nonces with ⟨-, -, heq⟩ | ⟨error, heq⟩
  · rw [heq]
    exact List.mem_append_left _ h
  · rw [heq]
    exact h

theorem mem_expiredNonces {now : Int} {limit : Nat} {nonces : List NonceRow} {row : NonceRow}
    (h : row ∈ expiredNonces now limit nonces) : row ∈ nonces ∧ row.expiresAt ≤ now := by
  unfold expiredNonces at h
  have hsorted := (List.mem_insertionSort _).1 (List.mem_of_mem_take h)
  simpa using List.mem_filter.1 hsorted

/-- **Pruning leaves the rows that have not expired.** -/
theorem mem_pruneSignedNonces {now : Int} {limit : Nat} {nonces : List NonceRow} {row : NonceRow}
    (hkeyed : Table.Keyed NonceRow.nonce nonces) (h : row ∈ nonces) (hlive : now < row.expiresAt) :
    row ∈ pruneSignedNonces now limit nonces := by
  unfold pruneSignedNonces
  refine Table.mem_delete.2 ⟨h, decide_eq_false fun hselected => ?_⟩
  obtain ⟨x, hx, hid⟩ := List.mem_map.1 hselected
  obtain ⟨hmem, hexpired⟩ := mem_expiredNonces hx
  obtain rfl := hkeyed.eq_of_key hmem h hid
  omega

/-- The calls that returned had returned before. -/
theorem World.Once.of_before {w w' : World} (h : w.Once)
    (hbefore : ∀ (k : Nat) (row : NonceRow), w'.calls[k]? = some (.returned row) → w.calls[k]? = some (.returned row)) :
    w'.Once := fun j k row row' hj hk hnonce =>
  h j k row row' (hbefore j row hj) (hbefore k row' hk) hnonce

/-- A call that throws, with a table that keeps its rows. -/
theorem Sound.throws {w : World} {nonces : List NonceRow} {i : Nat} {error : VerifyError} (h : Sound w)
    (hkeyed : Table.Keyed NonceRow.nonce nonces) (hgrows : ∀ r ∈ w.nonces, r ∈ nonces) :
    Sound { w with nonces := nonces, calls := w.calls.set i (.threw error) } where
  once := h.once.of_before fun k row hk => by
    have hk : (w.calls.set i (.threw error))[k]? = some (.returned row) := hk
    rw [List.getElem?_set] at hk
    split at hk
    · split at hk <;> cases hk
    · exact hk
  maintained := h.maintained
  keyed := hkeyed
  standing := fun row hrow => by
    obtain hrow | hrow := List.mem_or_eq_of_mem_set hrow
    · exact (h.standing row hrow).imp_left (hgrows row)
    · cases hrow

/-- **A call that returns**, when no accepted row of its nonce has expired. -/
theorem Sound.returns {w : World} {i : Nat} {row : NonceRow} (h : Sound w)
    (hfree : ∀ r ∈ w.nonces, r.nonce ≠ row.nonce)
    (hlive : ∀ accepted, .returned accepted ∈ w.calls → accepted.nonce = row.nonce → w.clock < accepted.expiresAt) :
    Sound { w with nonces := w.nonces ++ [row], calls := w.calls.set i (.returned row) } where
  once := by
    -- an accepted call with the nonce would have its row in the table
    have hnew : ∀ (k : Nat) (r : NonceRow), w.calls[k]? = some (.returned r) → r.nonce ≠ row.nonce := fun k r hk hn => by
      have hmem := List.mem_of_getElem? hk
      rcases h.standing r hmem with hin | hexpired
      · exact hfree r hin hn
      · have := hlive r hmem hn
        omega
    have hcases : ∀ (k : Nat) (r : NonceRow), (w.calls.set i (.returned row))[k]? = some (.returned r) →
        (i = k ∧ r = row) ∨ w.calls[k]? = some (.returned r) := fun k r hk => by
      rw [List.getElem?_set] at hk
      split at hk
      · rename_i hik
        split at hk
        · cases hk
          exact .inl ⟨hik, rfl⟩
        · cases hk
      · exact .inr hk
    intro j k r r' hj hk hnonce
    rcases hcases j r hj with ⟨hij, hr⟩ | hj
    · rcases hcases k r' hk with ⟨hik, -⟩ | hk
      · exact hij.symm.trans hik
      · exact absurd (hnonce.symm.trans (congrArg NonceRow.nonce hr)) (hnew k r' hk)
    · rcases hcases k r' hk with ⟨-, hr'⟩ | hk
      · exact absurd (hnonce.trans (congrArg NonceRow.nonce hr')) (hnew j r hj)
      · exact h.once j k r r' hj hk hnonce
  maintained := h.maintained
  keyed := h.keyed.append hfree
  standing := fun r hr => by
    obtain hr | hr := List.mem_or_eq_of_mem_set hr
    · exact (h.standing r hr).imp_left (List.mem_append_left _)
    · cases hr
      exact .inl (List.mem_append_right _ (List.mem_singleton.2 rfl))

variable {crypto : Crypto} {hmacKey : Text}

theorem verify_ne_returned (now : Int) (request : Request) (row : NonceRow) :
    verifySignedCpolyRequest crypto hmacKey now request ≠ .returned row := by
  unfold verifySignedCpolyRequest
  split <;> nofun

theorem Sound.act {w w' : World} {a : Action} (h : Sound w) (hmeets : Meets w a)
    (hs : w.act crypto hmacKey a = some w') : Sound w' := by
  cases a with
  | tick ms =>
    obtain rfl := Option.some.inj hs
    refine ⟨h.once, fun now hnow => ?_, h.keyed, fun row hrow => (h.standing row hrow).imp_right fun hle => ?_⟩
    · have := h.maintained now hnow
      show now ≤ w.clock + ms
      omega
    · show row.expiresAt ≤ w.clock + ms
      omega
  | verify request =>
    obtain rfl := Option.some.inj hs
    refine ⟨h.once.of_before fun k row hk => ?_, h.maintained, h.keyed, fun row hrow => ?_⟩
    · have hk : (w.calls ++ [verifySignedCpolyRequest crypto hmacKey w.clock request])[k]? = some (.returned row) := hk
      rw [List.getElem?_append] at hk
      split at hk
      · exact hk
      · exact absurd (List.mem_singleton.1 (List.mem_of_getElem? hk)).symm (verify_ne_returned w.clock request row)
    · rcases List.mem_append.1 hrow with hrow | hrow
      · exact h.standing row hrow
      · exact absurd (List.mem_singleton.1 hrow).symm (verify_ne_returned w.clock request row)
  | insert i =>
    simp only [World.act] at hs
    split at hs
    · rename_i row hi
      obtain rfl := Option.some.inj hs
      rcases insertNonce_cases row w.nonces with ⟨hfree, hadmitted, heq⟩ | ⟨error, heq⟩
      · rw [heq]
        refine h.returns hfree fun accepted hmem hnonce => ?_
        exact hmeets row (by rw [hi]; rfl) hadmitted accepted (List.mem_filterMap.2 ⟨_, hmem, rfl⟩) hnonce
      · rw [heq]
        exact h.throws h.keyed fun _ hr => hr
    · cases hs
  | insertFails i committed =>
    simp only [World.act] at hs
    split at hs
    · rename_i row hi
      obtain rfl := Option.some.inj hs
      cases committed with
      | true => exact h.throws (keyed_insertNonce h.keyed) fun _ hr => subset_insertNonce hr
      | false => exact h.throws h.keyed fun _ hr => hr
    · cases hs
  | maintain =>
    obtain rfl := Option.some.inj hs
    refine ⟨h.once, fun now hnow => ?_, h.keyed, h.standing⟩
    rcases List.mem_append.1 hnow with hnow | hnow
    · exact h.maintained now hnow
    · exact (List.mem_singleton.1 hnow).le
  | prune k limit =>
    obtain ⟨now, hk, rfl⟩ := Option.map_eq_some_iff.1 hs
    have hnow := h.maintained now (List.mem_of_getElem? hk)
    refine ⟨h.once, fun t ht => h.maintained t (List.mem_of_mem_eraseIdx ht), h.keyed.delete, fun row hrow => ?_⟩
    rcases h.standing row hrow with hin | hexpired
    · by_cases hlive : now < row.expiresAt
      · exact .inl (mem_pruneSignedNonces h.keyed hin hlive)
      · refine .inr ?_
        show row.expiresAt ≤ w.clock
        omega
    · exact .inr hexpired

/-- **No nonce is accepted twice**, along the runs in which no call inserts a nonce whose accepted row has expired. -/
theorem once_runs {clock : Int} {w : World} (hrun : (signing crypto hmacKey).Steps Meets (.start clock) w) : w.Once :=
  (hrun.invariant (I := Sound) (.start clock) fun _ _ _ h hmeets hs => h.act hmeets hs).once

/-- The hashes of one request: of an empty body, and of its canonical text under the key `key`. -/
def statusCrypto : Crypto where
  sha256HexBytes := fun _ => "e3b0c44298fc1c149afbf4c8996fb92427ae41e4649b934ca495991b7852b855".toList
  hmacSha256Hex := fun _ _ => "aa9591734eed3d37ba7c48f34d4b540d5fcf635e611cdd5767fe95c493dc2d5a".toList

def statusRequest : Request where
  method := "GET".toList
  path := "/api/internal/cpoly-recovery/status".toList
  timestamp := some "1000000".toList
  nonce := some "11111111-1111-4111-8111-111111111111".toList
  contentSha256 := some "e3b0c44298fc1c149afbf4c8996fb92427ae41e4649b934ca495991b7852b855".toList
  signature := some "aa9591734eed3d37ba7c48f34d4b540d5fcf635e611cdd5767fe95c493dc2d5a".toList
  rawBody := []

/-- The request is accepted, and sent again one millisecond before its window ends. -/
def sentAgain : List Action := [.verify statusRequest, .insert 0, .tick 299999, .verify statusRequest]

def replayedEarly : List Action := sentAgain ++ [.maintain, .prune 0 200, .insert 1]

theorem once_runs_replayedEarly :
    ∃ w, (signing statusCrypto "key".toList).run (.start 1000000) replayedEarly = some w ∧
      w.calls.map Call.accepted = [some ⟨"11111111-1111-4111-8111-111111111111".toList, "GET".toList,
        statusRequest.path, statusCrypto.sha256HexBytes [], 1000000, 1300000⟩, none] ∧ w.Once := by
  have hmeets : (signing statusCrypto "key".toList).runMeets Meets (.start 1000000) replayedEarly := by decide +kernel
  have hcalls : ((signing statusCrypto "key".toList).run (.start 1000000) replayedEarly).any
      (fun w => decide (w.calls.map Call.accepted = [some ⟨"11111111-1111-4111-8111-111111111111".toList, "GET".toList,
        statusRequest.path, statusCrypto.sha256HexBytes [], 1000000, 1300000⟩, none])) = true := by decide +kernel
  obtain ⟨w, hw, hcalls⟩ := (Option.any_eq_true _ _).1 hcalls
  exact ⟨w, hw, of_decide_eq_true hcalls, once_runs (Machine.steps_of_run hw hmeets)⟩

/-- The second call waits until its window has ended and the row is pruned. -/
def replayedLate : List Action := sentAgain ++ [.tick 1, .maintain, .prune 0 200, .insert 1]

/-- The two calls have both returned, with one nonce. -/
def acceptedTwice : List Call → Bool
  | [.returned row, .returned row'] => decide (row.nonce = row'.nonce)
  | _ => false

/-- **One signed request is accepted twice.** -/
theorem not_once : ¬ ∀ w, (signing statusCrypto "key".toList).Reaches (.start 1000000) w → w.Once := by
  have htwice : ((signing statusCrypto "key".toList).run (.start 1000000) replayedLate).any (fun w =>
      acceptedTwice w.calls) = true := by decide +kernel
  obtain ⟨w, hw, htwice⟩ := (Option.any_eq_true _ _).1 htwice
  intro h
  have honce := h w (Machine.steps_of_run hw (Machine.runMeets_true _ _))
  unfold acceptedTwice at htwice
  split at htwice
  · rename_i row row' hcalls
    have hsame := honce 0 1 row row' (by rw [hcalls]; rfl) (by rw [hcalls]; rfl) (of_decide_eq_true htwice)
    cases hsame
  · cases htwice

end Signed
end Recovery
end Adg
