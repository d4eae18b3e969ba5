import AdgLang.Diagnostics
/-!
# TextDirectionHeader — the mandatory first line of a source file

`TextDirectionHeader.Validate`: the first non-empty line names the text direction, and it must be right to left.
-/
namespace Adg
namespace TextDirectionHeader

def canonical : Text := "اتجاهُ النصِّ: RTL".toList

/-- `NormalizeLabel`. -/
def normalizeLabel (value : Text) : Text := join " ".toList (splitWhiteSpace (stripTashkeel value))

def canonicalLabel : Text := normalizeLabel "اتجاهُ النصِّ".toList

/-- `TryParseDirection`: the label before the first colon, and a known direction after it. -/
def tryParseDirection (line : Text) : Option Text :=
  if ':' ∈ line then
    if normalizeLabel (line.takeWhile (fun c => c != ':')) = canonicalLabel then
      let value := trim ((line.dropWhile (fun c => c != ':')).drop 1)
      if equalsIgnoreCase value "RTL".toList || equalsIgnoreCase value "LTR".toList then some value else none
    else none
  else none

def missing {α : Type} : Except AdgException α :=
  throwParse .missingTextDirectionHeader
    ("Missing mandatory text direction header. First non-empty line must be '".toList ++ canonical ++ "'.".toList)

def validate (firstNonEmptyLine : Text) : Except AdgException Unit :=
  match tryParseDirection firstNonEmptyLine with
  | none => missing
  | some direction =>
    if equalsIgnoreCase direction "RTL".toList then .ok ()
    else throwParse .nonRtlTextDirection
      ("ADG source text direction must be RTL. Use '".toList ++ canonical ++ "'.".toList)

end TextDirectionHeader
end Adg
