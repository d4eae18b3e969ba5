import AdgLang.Regex
import AdgLang.TextDirectionHeader
import AdgLang.TypeSystem
/-!
# SurfaceParser — the line-oriented surface syntax

`AdgSurfaceParser.ParseFile` over the lines of a file: each statement is matched against the technical and the canonical
Arabic pattern of its kind, adjuncts join the last verbal sentence, and the items are folded left to right through their
connectors.
-/
namespace Adg
namespace SurfaceParser

open TypeContracts

/-! ## Patterns -/

inductive Group
  | verb | fail | failCase | maful | mafulCase | operator | mudaf | mudafCase | mudafIlayh | mudafIlayhCase
  | surface | role | marker | rest
deriving DecidableEq

def spaces : Regex Group := .many isWhiteSpace

def spaces1 : Regex Group := .many1 isWhiteSpace

/-- `\S+`. -/
def word : Regex Group := .many1 (fun c => !isWhiteSpace c)

/-- `"(?<g>[^"]+)"`. -/
def quoted (g : Group) : Regex Group :=
  .seqs [.literal "\"".toList, .group g (.many1 (fun c => c != '"')), .literal "\"".toList]

/-- `.*`. -/
def line : Regex Group := .many (fun c => c != '\n')

def verbalPattern : Regex Group :=
  .seqs [.literal "verbal".toList, spaces1, quoted .verb, spaces1, .literal "fael".toList, spaces1, quoted .fail,
    spaces1, .group .failCase word,
    .opt (.seqs [spaces1, .literal "maful".toList, spaces1, quoted .maful, spaces1, .group .mafulCase word]), spaces,
    .eos]

def arabicVerbalPattern : Regex Group :=
  .seqs [.literal "جملةٌ".toList, spaces1, .literal "فعليةٌ".toList, spaces1, quoted .verb, spaces1,
    .literal "فاعلُها".toList, spaces1, quoted .fail, spaces1, .group .failCase word, spaces1,
    .literal "مفعولُها".toList, spaces1, quoted .maful, spaces1, .group .mafulCase word, spaces, .eos]

def jarrIdafaPattern : Regex Group :=
  .seqs [.literal "adjunct".toList, spaces1, .literal "jarr".toList, spaces1, quoted .operator, spaces1,
    .literal "idafa".toList, spaces1, quoted .mudaf, spaces1, .group .mudafCase word, spaces1, quoted .mudafIlayh,
    spaces1, .group .mudafIlayhCase word, spaces, .eos]

def arabicJarrIdafaPattern : Regex Group :=
  .seqs [.literal "جارٌّ".toList, spaces1, .literal "ومجرورٌ".toList, spaces1, quoted .operator, spaces1,
    .literal "إضافةٌ".toList, spaces1, quoted .mudaf, spaces1, .group .mudafCase word, spaces1, quoted .mudafIlayh,
    spaces1, .group .mudafIlayhCase word, spaces, .eos]

def connectorPattern : Regex Group :=
  .seqs [.literal "connector".toList, spaces1, quoted .surface, spaces1, .group .role word, spaces, .eos]

def arabicConnectorPattern : Regex Group :=
  .seqs [.literal "رابطٌ".toList, spaces1, quoted .surface, spaces1, .group .role word, spaces, .eos]

def clausePattern : Regex Group :=
  .seqs [.literal "clause".toList, spaces1, .literal "fil".toList, spaces1, quoted .verb, .group .rest line, .eos]

def arabicClausePattern : Regex Group :=
  .seqs [.literal "جملةٌ".toList, spaces1, .literal "فعلُها".toList, spaces1, quoted .verb, .group .rest line, .eos]

def clauseIsmPattern : Regex Group :=
  .seqs [.literal "ism".toList, spaces1, quoted .surface, spaces1, .group .marker word, .group .rest line, .eos]

def arabicClauseIsmPattern : Regex Group :=
  .seqs [.literal "اسمٌ".toList, spaces1, quoted .surface, spaces1, .group .marker word, .group .rest line, .eos]

/-- `"[^"]*"`. -/
def quotedContentPattern : Regex Group :=
  .seqs [.literal "\"".toList, .many (fun c => c != '"'), .literal "\"".toList]

/-! ## Labels -/

/-- `Normalize`. -/
def normalize (value : Text) : Text :=
  (toLowerInvariant (trim value)).filter (fun c => c != '_' && c != '-' && !isTashkeel c)

def hasArabicLetter (value : Text) : Bool :=
  value.any (fun c => let n := c.toNat
    (0x600 ≤ n && n ≤ 0x6FF) || (0x750 ≤ n && n ≤ 0x77F) || (0x8A0 ≤ n && n ≤ 0x8FF))

def canonicalArabicKeywords : List Text :=
  ["جملةٌ".toList, "فعليةٌ".toList, "فعلُها".toList, "فاعلُها".toList, "مفعولُها".toList, "جارٌّ".toList,
   "ومجرورٌ".toList, "إضافةٌ".toList, "رابطٌ".toList, "اسمٌ".toList, "مرفوعٌ".toList, "منصوبٌ".toList,
   "مجرورٌ".toList, "مجزومٌ".toList, "ترتيبٌ".toList, "سببٌ".toList, "شرطٌ".toList, "تفسيرٌ".toList,
   "استدراكٌ".toList, "عطفٌ".toList, "تعقيبٌ".toList]

def technicalKeywords : List Text :=
  ["verbal".toList, "fael".toList, "maful".toList, "adjunct".toList, "jarr".toList, "jar".toList, "idafa".toList,
   "connector".toList, "clause".toList, "fil".toList, "ism".toList, "sequence".toList, "cause".toList,
   "causal".toList, "condition".toList, "conditional".toList, "explanation".toList, "explanatory".toList,
   "contrast".toList, "coordination".toList, "immediate".toList, "raf".toList, "nasb".toList, "jazm".toList,
   "none".toList]

def parseCase (value : Text) : Except AdgException AdgCase :=
  let key := normalize value
  if key ∈ ["raf".toList, "رفع".toList, "مرفوع".toList] then .ok .raf
  else if key ∈ ["nasb".toList, "نصب".toList, "منصوب".toList] then .ok .nasb
  else if key ∈ ["jarr".toList, "jar".toList, "جر".toList, "مجرور".toList] then .ok .jarr
  else if key ∈ ["jazm".toList, "جزم".toList, "مجزوم".toList] then .ok .jazm
  else if key = "none".toList then .ok .none
  else throwParse .unknown ("Unknown ADG surface case '".toList ++ value ++ "'.".toList)

def parseRole (value : Text) : Except AdgException HarfRole :=
  let key := normalize value
  if key ∈ ["sequence".toList, "ترتيب".toList] then .ok .sequenceConnector
  else if key ∈ ["cause".toList, "causal".toList, "سبب".toList] then .ok .causalConnector
  else if key ∈ ["condition".toList, "conditional".toList, "شرط".toList] then .ok .conditionalConnector
  else if key ∈ ["explanation".toList, "explanatory".toList, "تفسير".toList] then .ok .explanatoryConnector
  else if key ∈ ["contrast".toList, "استدراك".toList] then .ok .contrastConnector
  else if key ∈ ["coordination".toList, "عطف".toList] then .ok .coordinationConnector
  else if key ∈ ["immediate".toList, "تعقيب".toList] then .ok .immediateConnector
  else throwParse .unknown ("Unknown ADG surface connector role '".toList ++ value ++ "'.".toList)

/-- The label a case must be written with in canonical Arabic statements. -/
def canonicalCaseLabel : AdgCase → Option Text
  | .raf => some "مرفوعٌ".toList
  | .nasb => some "منصوبٌ".toList
  | .jarr => some "مجرورٌ".toList
  | .jazm => some "مجزومٌ".toList
  | _ => none

def canonicalRoleLabel : HarfRole → Option Text
  | .sequenceConnector => some "ترتيبٌ".toList
  | .causalConnector => some "سببٌ".toList
  | .conditionalConnector => some "شرطٌ".toList
  | .explanatoryConnector => some "تفسيرٌ".toList
  | .contrastConnector => some "استدراكٌ".toList
  | .coordinationConnector => some "عطفٌ".toList
  | .immediateConnector => some "تعقيبٌ".toList
  | _ => none

def ensureCanonicalArabicCaseLabel (value : Text) : Except AdgException Unit := do
  throwIf (!hasArabicLetter value) (.parse .mixedSurfaceSyntax ("Technical case label '".toList ++ value ++
    "' is not allowed inside canonical Arabic statements.".toList))
  match canonicalCaseLabel (← parseCase value) with
  | some canonical =>
    throwIf (value ≠ canonical) (.parse .invalidKeywordIrab ("Arabic case label '".toList ++ value ++
      "' must be written as '".toList ++ canonical ++ "'.".toList))
  | none => pure ()

def ensureCanonicalArabicRoleLabel (value : Text) (role : HarfRole) : Except AdgException Unit := do
  throwIf (!hasArabicLetter value) (.parse .mixedSurfaceSyntax ("Technical connector role '".toList ++ value ++
    "' is not allowed inside canonical Arabic statements.".toList))
  match canonicalRoleLabel role with
  | some canonical =>
    throwIf (value ≠ canonical) (.parse .invalidKeywordIrab ("Arabic connector role '".toList ++ value ++
      "' must be written as '".toList ++ canonical ++ "'.".toList))
  | none => pure ()

/-! ## Statements -/

/-- The technical pattern, then the Arabic one; the flag is `matchedArabic`. -/
def matchEither (technical arabic : Regex Group) (line : Text) : Option (Regex.Captures Group × Bool) :=
  match technical.matchStart line with
  | some groups => some (groups, false)
  | none => (arabic.matchStart line).map (fun groups => (groups, true))

/-- `if (matchedArabic)`: the case labels of a canonical Arabic statement. -/
def ensureLabels (matchedArabic : Bool) (labels : List Text) : Except AdgException Unit :=
  if matchedArabic then labels.forM ensureCanonicalArabicCaseLabel else .ok ()

def tryParseVerbal (line : Text) : Except AdgException (Option Node) :=
  match matchEither verbalPattern arabicVerbalPattern line with
  | none => .ok none
  | some (groups, matchedArabic) => do
    ensureLabels matchedArabic [groups.value .failCase, groups.value .mafulCase]
    let verb ← Word.fil (groups.value .verb) .none
    let fail ← Word.ism (groups.value .fail) (← parseCase (groups.value .failCase))
    let maful ← (if groups.success .maful then
        some <$> (parseCase (groups.value .mafulCase) >>= Word.ism (groups.value .maful))
      else .ok none)
    some <$> newVerbalSentence verb fail maful []

def tryParseAdjunct (line : Text) : Except AdgException (Option Node) :=
  match matchEither jarrIdafaPattern arabicJarrIdafaPattern line with
  | none => .ok none
  | some (groups, matchedArabic) => do
    ensureLabels matchedArabic [groups.value .mudafCase, groups.value .mudafIlayhCase]
    let operator ← Word.harf (groups.value .operator) .jarrOperator
    let mudaf ← Word.ism (groups.value .mudaf) (← parseCase (groups.value .mudafCase))
    let mudafIlayh ← Word.ism (groups.value .mudafIlayh) (← parseCase (groups.value .mudafIlayhCase))
    some <$> (newIdafaPhrase mudaf mudafIlayh >>= newHarfGovernance operator)

def tryParseConnector (line : Text) : Except AdgException (Option Word) :=
  match matchEither connectorPattern arabicConnectorPattern line with
  | none => .ok none
  | some (groups, matchedArabic) => do
    let role ← parseRole (groups.value .role)
    (if matchedArabic then ensureCanonicalArabicRoleLabel (groups.value .role) role else .ok ())
    some <$> Word.harf (groups.value .surface) role

/-- The loop of `TryParseClause` over the rest of the line, at most `fuel` times; a round takes at least the keyword
away, so the rest's length is fuel enough. -/
def parseClauseParts (matchedArabic : Bool) : Nat → Text → List Node → Except AdgException (List Node)
  | 0, _, parts => .ok parts
  | fuel + 1, rest, parts =>
    if rest = [] then .ok parts
    else do
      let expectedPattern := if matchedArabic then arabicClauseIsmPattern else clauseIsmPattern
      let mixedPattern := if matchedArabic then clauseIsmPattern else arabicClauseIsmPattern
      match expectedPattern.matchStart rest with
      | none =>
        throwIf ((mixedPattern.matchStart rest).isSome) (.parse .mixedSurfaceSyntax
          "Mixed canonical Arabic and technical syntax is not allowed within a single clause statement.".toList)
        throwParse .unknown ("Unsupported ADG surface clause segment: ".toList ++ rest)
      | some groups =>
        ensureLabels matchedArabic [groups.value .marker]
        let ism ← Word.ism (groups.value .surface) (← parseCase (groups.value .marker))
        parseClauseParts matchedArabic fuel (trim (groups.value .rest)) (parts ++ [.word ism])

/-- **The fuel does not matter** once it reaches the length of the rest. -/
theorem parseClauseParts_fuel {matchedArabic : Bool} : ∀ (fuel : Nat) (rest : Text) (parts : List Node),
    rest.length ≤ fuel → parseClauseParts matchedArabic fuel rest parts =
      parseClauseParts matchedArabic rest.length rest parts := by
  intro fuel
  induction fuel using Nat.strongRecOn with
  | _ fuel ih =>
    intro rest parts hlen
    cases fuel with
    | zero => rw [Nat.le_zero.1 hlen]
    | succ fuel =>
      cases hr : rest.length with
      | zero =>
        have hnil : rest = [] := List.length_eq_zero_iff.1 hr
        subst hnil; rfl
      | succ n =>
        have hne : rest ≠ [] := fun hnil => by rw [hnil] at hr; cases hr
        simp only [parseClauseParts, if_neg hne]
        have hlt : ∀ groups, (if matchedArabic then arabicClauseIsmPattern else clauseIsmPattern).matchStart rest =
            some groups → (trim (groups.value .rest)).length ≤ n := by
          intro groups h
          have : (groups.value .rest).length < rest.length := by
            cases matchedArabic <;> exact Regex.value_length_lt (by decide) h
          have := length_trim_le (groups.value .rest)
          omega
        split
        · rfl
        · rename_i groups hgroups
          have hle := hlt groups hgroups
          refine bind_congr (fun _ => bind_congr (fun _ => bind_congr (fun _ => ?_)))
          rw [ih fuel (Nat.lt_succ_self _) _ _ (by omega), ih n (by omega) _ _ hle]

def tryParseClause (line : Text) : Except AdgException (Option Node) :=
  match matchEither clausePattern arabicClausePattern line with
  | none => .ok none
  | some (groups, matchedArabic) => do
    let verb ← Word.fil (groups.value .verb) .none
    let rest := trim (groups.value .rest)
    let parts ← parseClauseParts matchedArabic rest.length rest [.word verb]
    some <$> newClause parts

/-! ## Diagnostics -/

/-- The loop of `ThrowSurfaceDiagnostic` over the tokens, with `hasCanonical` and `hasTechnical`. -/
def surveyTokens : List Text → Bool × Bool → Except AdgException (Bool × Bool)
  | [], flags => .ok flags
  | token :: tokens, (hasCanonical, hasTechnical) =>
    let normalizedToken := normalize token
    if normalizedToken = [] then surveyTokens tokens (hasCanonical, hasTechnical)
    else match canonicalArabicKeywords.find? (fun k => decide (normalize k = normalizedToken)) with
    | some canonical =>
      if token ≠ canonical then
        throwParse .invalidKeywordIrab ("Arabic keyword '".toList ++ token ++ "' must be written as '".toList ++
          canonical ++ "'.".toList)
      else surveyTokens tokens (true, hasTechnical)
    | none =>
      if normalizedToken ∈ technicalKeywords then surveyTokens tokens (hasCanonical, true)
      else if hasArabicLetter token then
        throwParse .unknownArabicKeyword ("Unknown Arabic keyword '".toList ++ token ++ "' in ADG surface syntax.".toList)
      else surveyTokens tokens (hasCanonical, hasTechnical)

/-- `ThrowSurfaceDiagnostic`. -/
def throwSurfaceDiagnostic {α : Type} (line : Text) : Except AdgException α := do
  let normalizedLine := quotedContentPattern.replace "\"\"".toList line.length line
  let tokens := (splitSpace normalizedLine).filter (fun token => decide (token ≠ "\"\"".toList))
  let (hasCanonical, hasTechnical) ← surveyTokens tokens (false, false)
  throwIf (hasCanonical && hasTechnical) (.parse .mixedSurfaceSyntax
    "Mixed canonical Arabic and technical syntax is not allowed in the same ADG statement.".toList)
  throwParse .unknown ("Unsupported ADG surface statement: ".toList ++ line)

/-! ## The file -/

/-- What a line is parsed as. -/
inductive Statement
  | verbal (sentence : Node)
  | adjunct (adjunct : Node)
  | connector (connector : Word)
  | clause (clause : Node)

/-- The four attempts on a line, in their order. -/
def parseStatement (line : Text) : Except AdgException Statement := do
  match ← tryParseVerbal line with
  | some verbal => return .verbal verbal
  | none => match ← tryParseAdjunct line with
    | some adjunct => return .adjunct adjunct
    | none => match ← tryParseConnector line with
      | some connector => return .connector connector
      | none => match ← tryParseClause line with
        | some clause => return .clause clause
        | none => throwSurfaceDiagnostic line

/-- The search of `AttachAdjunct`, from the last item down. -/
def attachToLast (adjunct : Node) : List Node → Except AdgException (List Node)
  | [] => throwParse .unknown "adjunct statement requires a previous verbal statement.".toList
  | .verbalSentence verb fail maful adjuncts :: items => do
    let sentence ← newVerbalSentence verb fail maful (adjuncts ++ [adjunct])
    return sentence :: items
  | item :: items => (item :: ·) <$> attachToLast adjunct items

def attachAdjunct (items : List Node) (adjunct : Node) : Except AdgException (List Node) :=
  List.reverse <$> attachToLast adjunct items.reverse

/-- The items after a statement; a connector is kept as its word, itself a node. -/
def addStatement (items : List Node) : Statement → Except AdgException (List Node)
  | .verbal sentence => .ok (items ++ [sentence])
  | .adjunct adjunct => attachAdjunct items adjunct
  | .connector connector => .ok (items ++ [.word connector])
  | .clause clause => .ok (items ++ [clause])

/-- Lines that carry no statement: `adg ..` and `program ..`. -/
def isProgramLine (line : Text) : Bool :=
  startsWithIgnoreCase line "adg ".toList || startsWithIgnoreCase line "program ".toList

/-- The loop of `ParseFile`, with `directionHeaderValidated` and the items so far. -/
def parseLines : List Text → Bool → List Node → Except AdgException (Bool × List Node)
  | [], directionHeaderValidated, items => .ok (directionHeaderValidated, items)
  | rawLine :: lines, directionHeaderValidated, items =>
    let line := trim (stripComment rawLine)
    if line = [] then parseLines lines directionHeaderValidated items
    else if !directionHeaderValidated then do
      TextDirectionHeader.validate line
      parseLines lines true items
    else if isProgramLine line then parseLines lines directionHeaderValidated items
    else do
      let items ← addStatement items (← parseStatement line)
      parseLines lines directionHeaderValidated items

/-- `item is IAdgNode`: every item implements it, a connector's word too. -/
def isAdgNode (_ : Node) : Bool := true

def throwAlternate {α : Type} : Except AdgException α :=
  throwParse .unknown "ADG surface statements must alternate node, connector, node.".toList

/-- The loop of `Fold`. -/
def foldRest (current : Node) : List Node → Except AdgException Node
  | [] => .ok current
  | .word connector :: right :: items =>
    if isAdgNode right then do
      let current ← newConnectedSentence current connector right
      foldRest current items
    else throwAlternate
  | _ :: _ => throwAlternate

/-- `Fold`. -/
def foldItems : List Node → Except AdgException Node
  | [] => throwParse .unknown "ADG surface file did not contain any executable statements.".toList
  | current :: items =>
    if isAdgNode current then foldRest current items
    else throwParse .unknown "ADG surface file must start with a node statement.".toList

/-- `AdgSurfaceParser.ParseFile`, over the lines of the file. -/
def parseFile (lines : List Text) : Except AdgException Node := do
  let (directionHeaderValidated, items) ← parseLines lines false []
  if !directionHeaderValidated then TextDirectionHeader.missing else foldItems items

end SurfaceParser
end Adg
