import AdgLang.Diagnostics
import Mathlib.Algebra.Group.Nat.Defs
/-!
# FunctionSyntax — tokens, keywords and integers of the function language

`FunctionSyntax`: a line is cut into quoted and bare tokens, a keyword must carry its i'rab, and an integer is read from
ASCII, Arabic-Indic or Persian digits into 64 bits.
-/
namespace Adg
namespace FunctionSyntax

def definitionKeyword : Text := "دالةٌ".toList

def parametersKeyword : Text := "مُعامِلاتُها".toList

def bodyKeyword : Text := "متنٌ".toList

def conditionKeyword : Text := "شرطٌ".toList

def consequenceKeyword : Text := "جزاؤُهُ".toList

def outputKeyword : Text := "مُخرَجٌ".toList

def callKeyword : Text := "استدعاءٌ".toList

def textTypeKeyword : Text := "نصٌّ".toList

def numberTypeKeyword : Text := "عددٌ".toList

def greaterKeyword : Text := "أكبرُ".toList

def lessKeyword : Text := "أصغرُ".toList

def equalKeyword : Text := "يساوي".toList

def rafLabel : Text := "مرفوعٌ".toList

def nasbLabel : Text := "منصوبٌ".toList

def jarrLabel : Text := "مجرورٌ".toList

structure FunctionToken where
  text : Text
  isQuoted : Bool
deriving DecidableEq

/-- What the tokenizer is reading: nothing yet, a string, or a bare token. -/
inductive Reading
  | between
  | quoted (text : Text)
  | bare (text : Text)

/-- The loops of `Tokenize`, one character at a time. -/
def tokenizeFrom : Text → Reading → Except AdgException (List FunctionToken)
  | [], .between => .ok []
  | [], .quoted _ => throwParse .unknown "Unterminated string literal in ADG function statement.".toList
  | [], .bare text => .ok [⟨text, false⟩]
  | c :: rest, .between =>
    if isWhiteSpace c then tokenizeFrom rest .between
    else if c = '"' then tokenizeFrom rest (.quoted [])
    else tokenizeFrom rest (.bare [c])
  | c :: rest, .quoted text =>
    if c = '"' then (⟨text, true⟩ :: ·) <$> tokenizeFrom rest .between
    else tokenizeFrom rest (.quoted (text ++ [c]))
  | c :: rest, .bare text =>
    if isWhiteSpace c then (⟨text, false⟩ :: ·) <$> tokenizeFrom rest .between
    else if c = '"' then (⟨text, false⟩ :: ·) <$> tokenizeFrom rest (.quoted [])
    else tokenizeFrom rest (.bare (text ++ [c]))

attribute [grind =] tokenizeFrom

/-- `Tokenize`. -/
def tokenize (line : Text) : Except AdgException (List FunctionToken) := tokenizeFrom line .between

/-- `IsKeyword`: a keyword without its i'rab is an error. -/
def isKeyword (token canonical : Text) : Except AdgException Bool :=
  if token = canonical then .ok true
  else if stripTashkeel token = stripTashkeel canonical then
    throwParse .invalidKeywordIrab ("Arabic keyword '".toList ++ token ++ "' must be written as '".toList ++ canonical ++
      "'.".toList)
  else .ok false

/-- The value of a digit, in one of the three scripts. -/
def digitValue (ch : Char) : Option Nat :=
  let n := ch.toNat
  if 0x30 ≤ n ∧ n ≤ 0x39 then some (n - 0x30)
  else if 0x660 ≤ n ∧ n ≤ 0x669 then some (n - 0x660)
  else if 0x6F0 ≤ n ∧ n ≤ 0x6F9 then some (n - 0x6F0)
  else none

/-- `long.TryParse` on digits. -/
def parseLong (digits : List Nat) : Option Nat :=
  let parsed := digits.foldl (fun value digit => 10 * value + digit) 0
  if parsed ≤ 2 ^ 63 - 1 then some parsed else none

/-- `TryParseInteger`. -/
def tryParseInteger (text : Text) : Option Int :=
  match text with
  | [] => none
  | ch :: rest =>
    let negative := ch = '-' ∨ ch = '\u2212'
    let digits := if negative then rest else text
    if digits = [] then none
    else match (digits.mapM digitValue).bind parseLong with
      | none => none
      | some parsed => some (if negative then -(parsed : Int) else parsed)

end FunctionSyntax
end Adg
