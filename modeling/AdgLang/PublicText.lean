import AdgLang.JsPattern
import AdgLang.PacketRoots
/-!
# PublicText — the texts that may be published

The patterns of `protocol.js` and `validatePublicArtifactText`: the notes anywhere in an artifact are collected, and none
may hold an address, a telephone number, markup, an image, an active link or a control unit.  Without regard to case a
unit is compared by its simple case folding, in which the long s and the Kelvin sign are letters of the alphabet.
-/
namespace Adg
namespace Protocol

open Js

/-- Simple case folding, as far as it leads to a unit below 128. -/
def caseFold (u : UInt16) : UInt16 :=
  if 65 ≤ u.toNat ∧ u.toNat ≤ 90 then u + 32
  else if u = 0x017F then unit 's'
  else if u = 0x212A then unit 'k'
  else u

/-- A text without regard to case. -/
def anyCase (s : String) : Pattern := Pattern.seqs ((str s).map (fun c => .set (fun u => caseFold u == c)))

def isWord (u : UInt16) : Bool := isAlphanumeric u || u == unit '_'

def isOneOf (s : String) (u : UInt16) : Bool := (str s).contains u

/-- `[^\s@]+`. -/
def addressPart : Pattern := .plus (.set (fun u => !isSpace u && u != unit '@'))

/-- `/[^\s@]+@[^\s@]+\.[^\s@]+/u`. -/
def emailPattern : Pattern :=
  .seqs [addressPart, .literal (str "@"), addressPart, .literal (str "."), addressPart]

/-- `/(?:\+?\d[\s().-]*){7,}/u`. -/
def phonePattern : Pattern :=
  .atLeast 7 (.seqs [.opt (.literal (str "+")), .set isDigit, .star (.set (fun u => isSpace u || isOneOf "().-" u))])

/-- `/<\/?[a-z][^>]*>/iu`. -/
def rawHtmlPattern : Pattern :=
  .seqs [.literal (str "<"), .opt (.literal (str "/")),
    .set (fun u => 97 ≤ (caseFold u).toNat && (caseFold u).toNat ≤ 122), .star (.set (fun u => u != unit '>')),
    .literal (str ">")]

/-- `/!\[[^\]]*\]\s*\(/u`. -/
def markdownImagePattern : Pattern :=
  .seqs [.literal (str "!["), .star (.set (fun u => u != unit ']')), .literal (str "]"), .star (.set isSpace),
    .literal (str "(")]

/-- `/\b(?:javascript|data):/iu`. -/
def unsafeUrlPattern : Pattern :=
  .seqs [.boundary (fun u => isWord (caseFold u)), .alt (anyCase "javascript") (anyCase "data"), .literal (str ":")]

/-- `/[\u0000-\u0008\u000b\u000c\u000e-\u001f\u007f]/u`. -/
def controlPattern : Pattern :=
  .set (fun u => u.toNat ≤ 8 || u.toNat == 11 || u.toNat == 12 || (14 ≤ u.toNat && u.toNat ≤ 31) || u.toNat == 127)

def containsUnsafePublicText (value : Str) : Bool :=
  emailPattern.test value || phonePattern.test value || rawHtmlPattern.test value || markdownImagePattern.test value ||
    unsafeUrlPattern.test value || controlPattern.test value

def noteKeys : List Str := [str "note", str "resolutionNote", str "rationale"]

/-- `String(value)`. -/
def textOf (value : Value) : Except Str Str :=
  match value.toText with
  | some t => .ok t
  | none => .error typeError

mutual

def collectPublicNotes : Value → Except Str (List Str)
  | .array items => collectPublicItems items
  | .object properties => collectPublicProperties properties
  | .undefined | .null | .bool _ | .number _ | .bigint _ | .string _ | .bytes _ => .ok []

def collectPublicItems : List Value → Except Str (List Str)
  | [] => .ok []
  | child :: items => do
    let notes ← collectPublicNotes child
    let others ← collectPublicItems items
    return notes ++ others

def collectPublicProperties : List (Str × Value) → Except Str (List Str)
  | [] => .ok []
  | (key, child) :: properties => do
    let notes ← if noteKeys.contains key && !isNullish child then (textOf child).map ([·]) else collectPublicNotes child
    let others ← collectPublicProperties properties
    return notes ++ others

end

def unsafeNotes : Str := str "تحتوي الملاحظات على بيانات تواصل أو محتوى غير مسموح للنشر العام."

def validatePublicArtifactText (artifact : Value) : Except Str Unit := do
  let values ← collectPublicNotes artifact
  if values.any containsUnsafePublicText then throw unsafeNotes

end Protocol
end Adg
