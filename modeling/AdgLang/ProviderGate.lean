import AdgLang.IssueForms
import AdgLang.JsCapture
/-!
# ProviderGate — which calls the provider container forwards

`CpolyAdgPostgresContainer.fetch`: the path has to be one of the provider's and the bearer token has to equal the internal
token.  On well-formed texts `constantTimeTextEqual` is equality (`constantTimeTextEqual_iff`), but a token that is not
configured and one that is not sent are both the empty text: the gate holds exactly where one of the two is there
(`gate_iff`).
-/
namespace Adg
namespace Container

open Js Issues

/-- A string without half a surrogate pair, as headers and bindings are. -/
abbrev WellFormed := { s : Str // isWellFormed s = true }

/-- What the container reads of its environment. -/
structure Environment where
  internalToken : Option WellFormed
  providerPort : Option WellFormed

structure Request where
  pathname : Str
  search : Str
  authorization : Option WellFormed

/-- `String(value || "")`. -/
def textOf (value : Option WellFormed) : Str := value.elim [] Subtype.val

/-! ## Tokens -/

def nonEmptyString (value : Option WellFormed) : Str := trim (textOf value)

/-- A letter without regard to case. -/
def letter (c : UInt16) : Piece := .one (fun u => Protocol.caseFold u == c)

/-- `.`. -/
def isDot (u : UInt16) : Bool := !(u == unit '\n' || u == unit '\r' || u == 0x2028 || u == 0x2029)

/-- `/^\s*Bearer\s+(.+?)\s*$/iu`. -/
def bearerPieces : List Piece :=
  .greedy isSpace 0 :: (str "bearer").map letter ++ [.greedy isSpace 1, .lazy isDot 1, .greedy isSpace 0]

/-- The first group: it is the ninth piece. -/
def extractBearerToken (value : Option WellFormed) : Str :=
  ((Piece.capture bearerPieces (textOf value)).bind (fun ws => ws[8]?)).getD []

/-- `difference` after the loop; lengths stay far below `2 ** 31`. -/
def differenceOf (leftBytes rightBytes : List UInt8) : Nat :=
  (List.range (max leftBytes.length rightBytes.length)).foldl
    (fun difference index => difference ||| ((leftBytes.getD index 0).toNat ^^^ (rightBytes.getD index 0).toNat))
    (leftBytes.length ^^^ rightBytes.length)

def constantTimeTextEqual (left right : Str) : Bool := differenceOf (encodeUtf8 left) (encodeUtf8 right) == 0

/-! ## Calls -/

/-- `ALLOWED_PROVIDER_PATHS`. -/
def allowedProviderPaths : List Str :=
  [str "/api/internal/postgres/v1/status", str "/api/internal/postgres/v1/query",
    str "/api/internal/postgres/v1/runtime/receipt-watermark", str "/api/internal/postgres/v1/runtime/promote-generation",
    str "/api/internal/postgres/v1/runtime/keepalive", str "/api/internal/postgres/v1/backups/trigger"]

def cpolyPostgresProviderPathAllowed (pathname : Str) : Bool := allowedProviderPaths.contains pathname

def defaultCpolyPostgresProviderPort : Number := .ofNat 18444

def resolveCpolyPostgresProviderPort (env : Environment) : Number :=
  let parsed := env.providerPort.elim .nan (fun s => Number.ofText s.1)
  if !parsed.isInteger || !(Number.zero false).lt parsed || (Number.ofNat 65535).lt parsed then
    defaultCpolyPostgresProviderPort
  else parsed

inductive Answer
  | response (status : Nat) (body : Str)
  /-- The request goes to the database port. -/
  | forwarded (pathname search : Str) (port : Number)
  /-- The container did not start. -/
  | notStarted
deriving DecidableEq

def Answer.isForwarded : Answer → Bool
  | .forwarded _ _ _ => true
  | _ => false

/-- `CpolyAdgPostgresContainer.fetch`, where the ports come up or do not. -/
def fetch (env : Environment) (started : Bool) (request : Request) : Answer :=
  if !cpolyPostgresProviderPathAllowed request.pathname then .response 404 (str "Not Found")
  else if !constantTimeTextEqual (extractBearerToken request.authorization) (nonEmptyString env.internalToken) then
    .response 401 (str "Unauthorized")
  else if started then .forwarded request.pathname request.search (resolveCpolyPostgresProviderPort env)
  else .notStarted

/-! ## The comparison -/

/-- Differences add up to none only where there is none. -/
theorem foldl_or_eq_zero {α : Type} (f : α → Nat) (l : List α) :
    ∀ a, l.foldl (fun d x => d ||| f x) a = 0 ↔ a = 0 ∧ ∀ x ∈ l, f x = 0 := by
  induction l with
  | nil => simp
  | cons x l ih =>
    intro a
    rw [List.foldl_cons, ih, Nat.or_eq_zero_iff, List.forall_mem_cons, and_assoc]

theorem xor_eq_zero {a b : Nat} : a ^^^ b = 0 ↔ a = b := by
  refine ⟨fun h => ?_, fun h => h ▸ Nat.xor_self a⟩
  rw [← Nat.xor_zero a, ← h, ← Nat.xor_assoc, Nat.xor_self, Nat.zero_xor]

/-- **The loop finds no difference exactly where there is none.** -/
theorem differenceOf_eq_zero (left right : List UInt8) : differenceOf left right = 0 ↔ left = right := by
  rw [differenceOf, foldl_or_eq_zero, xor_eq_zero]
  constructor
  · rintro ⟨hlength, hbytes⟩
    refine List.ext_getElem hlength (fun i hl hr => ?_)
    have hi := hbytes i (List.mem_range.2 (Nat.lt_of_lt_of_le hl (Nat.le_max_left _ _)))
    rw [xor_eq_zero, List.getD_eq_getElem?_getD, List.getD_eq_getElem?_getD, List.getElem?_eq_getElem hl,
      List.getElem?_eq_getElem hr] at hi
    exact UInt8.toNat_inj.1 hi
  · rintro rfl
    exact ⟨rfl, fun i _ => Nat.xor_self _⟩

/-- **The comparison of well-formed texts is their equality.** -/
theorem constantTimeTextEqual_iff {left right : Str} (hl : isWellFormed left = true) (hr : isWellFormed right = true) :
    constantTimeTextEqual left right = true ↔ left = right := by
  rw [constantTimeTextEqual, beq_iff_eq, differenceOf_eq_zero]
  exact ⟨encodeUtf8_injective hl hr, fun h => h ▸ rfl⟩

/-! ## Parts of well-formed texts -/

theorem isWhole_of_isSpace {u : UInt16} (h : isSpace u = true) : isWhole u = true := by
  have hlead : isLead u = false := by
    by_contra hno
    have := (isLead_iff u).1 (by simpa using hno)
    simp only [isSpace, Bool.or_eq_true, Bool.and_eq_true, decide_eq_true_eq, beq_iff_eq] at h
    omega
  have htrail : isTrail u = false := by
    by_contra hno
    have := (isTrail_iff u).1 (by simpa using hno)
    simp only [isSpace, Bool.or_eq_true, Bool.and_eq_true, decide_eq_true_eq, beq_iff_eq] at h
    omega
  rw [isWhole, hlead, htrail]
  rfl

/-- What a text loses by trimming is white space. -/
theorem trim_spec (s : Str) : ∃ a b, s = a ++ trim s ++ b ∧ (∀ u ∈ a, isSpace u = true) ∧ ∀ u ∈ b, isSpace u = true := by
  refine ⟨s.takeWhile isSpace, ((s.dropWhile isSpace).reverse.takeWhile isSpace).reverse, ?_,
    fun u hu => List.mem_takeWhile_imp hu, fun u hu => List.mem_takeWhile_imp (List.mem_reverse.1 hu)⟩
  rw [trim, List.append_assoc, ← List.reverse_append, List.takeWhile_append_dropWhile, List.reverse_reverse,
    List.takeWhile_append_dropWhile]

theorem isWellFormed_textOf (value : Option WellFormed) : isWellFormed (textOf value) = true := by
  cases value with
  | none => rfl
  | some s => exact s.2

theorem isWellFormed_nonEmptyString (value : Option WellFormed) : isWellFormed (nonEmptyString value) = true := by
  obtain ⟨a, b, hs, ha, hb⟩ := trim_spec (textOf value)
  have h := isWellFormed_textOf value
  rw [hs] at h
  exact isWellFormed_between (fun u hu => isWhole_of_isSpace (ha u hu)) (fun u hu => isWhole_of_isSpace (hb u hu)) h

/-- A letter that is one without regard to case is no half of a pair. -/
theorem isWhole_of_letter {c u : UInt16} (hc : c ∈ str "bearer") (hu : (letter c).set u = true) : isWhole u = true := by
  have hu : Protocol.caseFold u = c := by simpa [letter, Piece.set] using hu
  have hbound : c.toNat < 128 := (by decide : ∀ c ∈ str "bearer", c.toNat < 128) c hc
  have hsmall : u.toNat < 0x2200 := by
    rw [Protocol.caseFold] at hu
    split at hu
    · omega
    · split at hu
      · rename_i h
        rw [h]
        decide
      · split at hu
        · rename_i h
          rw [h]
          decide
        · rw [hu]
          omega
  have hlead : isLead u = false := by
    by_contra hno
    have := (isLead_iff u).1 (by simpa using hno)
    omega
  have htrail : isTrail u = false := by
    by_contra hno
    have := (isTrail_iff u).1 (by simpa using hno)
    omega
  rw [isWhole, hlead, htrail]
  rfl

/-- The header around its token. -/
theorem isWellFormed_extractBearerToken (value : Option WellFormed) :
    isWellFormed (extractBearerToken value) = true := by
  cases hws : (Piece.capture bearerPieces (textOf value)).bind (fun ws => ws[8]?) with
  | none => rw [extractBearerToken, hws]; rfl
  | some token =>
    obtain ⟨ws, hcapture, htoken⟩ := Option.bind_eq_some_iff.1 hws
    obtain ⟨a, b, hs, ha, hb⟩ := Piece.capture_around (P := fun u => isWhole u = true) hcapture htoken (by
      intro piece hpiece u hu
      have hcases : piece ∈ (str "bearer").map letter ∨ piece.set = isSpace := by
        have hrow : bearerPieces.take 8 ++ bearerPieces.drop 9 =
            .greedy isSpace 0 :: (str "bearer").map letter ++ [.greedy isSpace 1, .greedy isSpace 0] := rfl
        rw [hrow, List.mem_append, List.mem_cons, List.mem_pair] at hpiece
        rcases hpiece with (rfl | hletter) | rfl | rfl
        · exact .inr rfl
        · exact .inl hletter
        · exact .inr rfl
        · exact .inr rfl
      rcases hcases with hletter | hspace
      · obtain ⟨c, hc, rfl⟩ := List.mem_map.1 hletter
        exact isWhole_of_letter hc hu
      · exact isWhole_of_isSpace (by rw [← hspace]; exact hu))
    have h := isWellFormed_textOf value
    rw [hs] at h
    rw [extractBearerToken, hws]
    exact isWellFormed_between ha hb h

/-! ## The gate -/

/-- The call may be forwarded: its path is one of the provider's, and its token is the one configured. -/
structure Authenticated (env : Environment) (request : Request) : Prop where
  path : cpolyPostgresProviderPathAllowed request.pathname = true
  configured : nonEmptyString env.internalToken ≠ []
  token : extractBearerToken request.authorization = nonEmptyString env.internalToken

/-- Only authenticated calls are forwarded, and no token is no match for none. -/
structure Gated (env : Environment) (request : Request) : Prop where
  forwards : ∀ started, (fetch env started request).isForwarded = true → Authenticated env request
  missing : extractBearerToken request.authorization = [] → nonEmptyString env.internalToken = [] →
    constantTimeTextEqual (extractBearerToken request.authorization) (nonEmptyString env.internalToken) = false

/-- What a call has to pass to be forwarded. -/
theorem fetch_isForwarded {env : Environment} {started : Bool} {request : Request} :
    (fetch env started request).isForwarded = true ↔ cpolyPostgresProviderPathAllowed request.pathname = true ∧
      extractBearerToken request.authorization = nonEmptyString env.internalToken ∧ started = true := by
  rw [← constantTimeTextEqual_iff (isWellFormed_extractBearerToken _) (isWellFormed_nonEmptyString _), fetch]
  cases cpolyPostgresProviderPathAllowed request.pathname with
  | false => simp [Answer.isForwarded]
  | true =>
    cases constantTimeTextEqual (extractBearerToken request.authorization) (nonEmptyString env.internalToken) with
    | false => simp [Answer.isForwarded]
    | true => cases started <;> simp [Answer.isForwarded]

/-- **A call goes through the gate as it should exactly where a token is configured or sent.** -/
theorem gate_iff (env : Environment) (request : Request) :
    (∀ left right : WellFormed, constantTimeTextEqual left.1 right.1 = true ↔ left = right) ∧
      (Gated env request ↔
        nonEmptyString env.internalToken ≠ [] ∨ extractBearerToken request.authorization ≠ []) := by
  refine ⟨fun left right => (constantTimeTextEqual_iff left.2 right.2).trans Subtype.ext_iff.symm,
    fun h => ?_, fun h => ⟨fun started hforwarded => ?_, fun hsent hconfigured => ?_⟩⟩
  · by_contra hno
    rw [not_or, not_not, not_not] at hno
    have hmiss := h.missing hno.2 hno.1
    rw [hno.1, hno.2] at hmiss
    cases hmiss
  · obtain ⟨hpath, htoken, -⟩ := fetch_isForwarded.1 hforwarded
    refine ⟨hpath, fun hnone => ?_, htoken⟩
    rw [hnone] at htoken h
    exact h.elim (fun h => h rfl) (fun h => h htoken)
  · exact absurd h (by rw [hsent, hconfigured]; simp)

/-- **Where no token is configured, a call that sends none is forwarded.** -/
theorem gate_open : ¬ ∀ env request, Gated env request := by
  intro h
  have hforwards := (h ⟨none, none⟩ ⟨str "/api/internal/postgres/v1/query", [], none⟩).forwards true (by decide)
  exact hforwards.configured rfl

/-- The token of a header that is made of one. -/
theorem extractBearerToken_bearer {header : WellFormed} {token : Str} (htext : header.1 = str "Bearer " ++ token)
    (hne : token ≠ []) (htrimmed : Trimmed token) (hdots : ∀ u ∈ token, isDot u = true) :
    extractBearerToken (some header) = token := by
  have hletters : ∀ {as : List Piece} {s : Str} {ws : List Str}, Piece.capture as s = some ws →
      Piece.capture ((str "bearer").map letter ++ as) (str "Bearer" ++ s) =
        some ([[unit 'B'], [unit 'e'], [unit 'a'], [unit 'r'], [unit 'e'], [unit 'r']] ++ ws) := by
    intro as s ws h
    show Piece.capture (letter (unit 'b') :: letter (unit 'e') :: letter (unit 'a') :: letter (unit 'r') ::
      letter (unit 'e') :: letter (unit 'r') :: as)
        (unit 'B' :: unit 'e' :: unit 'a' :: unit 'r' :: unit 'e' :: unit 'r' :: s) = _
    unfold letter
    rw [Piece.capture_one (by decide), Piece.capture_one (by decide), Piece.capture_one (by decide),
      Piece.capture_one (by decide), Piece.capture_one (by decide), Piece.capture_one (by decide), h]
    rfl
  have hlast := Piece.capture_lazy_last (p := isDot) (q := isSpace) (w := token) (s := []) (k := 1) hdots
    (List.length_pos_iff.2 hne) htrimmed.2 nofun
  rw [List.append_nil] at hlast
  have hspace := Piece.capture_greedy (p := isSpace) (w := [unit ' ']) (k := 1) (by decide) htrimmed.1
    (Nat.le_refl 1) hlast
  have hwhole := Piece.capture_greedy (p := isSpace) (w := []) (k := 0) (s := str "Bearer" ++ ([unit ' '] ++ token))
    nofun (by
      intro u hu
      obtain rfl : unit 'B' = u := Option.some.inj hu
      decide) (Nat.le_refl 0) (hletters hspace)
  have htext : textOf (some header) = [] ++ (str "Bearer" ++ ([unit ' '] ++ token)) := htext
  rw [extractBearerToken, htext, bearerPieces, List.cons_append, hwhole]
  rfl

/-- **A call that carries the configured token is forwarded**, where the ports come up. -/
theorem fetch_authenticated {env : Environment} {request : Request} {header : WellFormed}
    (hpath : cpolyPostgresProviderPathAllowed request.pathname = true) (hconfigured : nonEmptyString env.internalToken ≠ [])
    (hdots : ∀ u ∈ nonEmptyString env.internalToken, isDot u = true) (hheader : request.authorization = some header)
    (htext : header.1 = str "Bearer " ++ nonEmptyString env.internalToken) :
    fetch env true request = .forwarded request.pathname request.search (resolveCpolyPostgresProviderPort env) := by
  have htoken := extractBearerToken_bearer htext hconfigured (trimmed_trim _) hdots
  have hequal : constantTimeTextEqual (extractBearerToken request.authorization) (nonEmptyString env.internalToken) =
      true := by
    rw [constantTimeTextEqual_iff (isWellFormed_extractBearerToken _) (isWellFormed_nonEmptyString _), hheader, htoken]
  rw [fetch, hpath, hequal]
  rfl

end Container
end Adg
