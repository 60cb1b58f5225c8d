import PageMacro.Decimal.Literal
import PageMacro.Log
import PageMacro.Text.Blank
import PageMacro.Text.Case
import PageMacro.Text.Pieces
import PageMacro.Text.Quoted
import PageMacro.Word

/-!
# The log as text

Every record is a line of `name=value` pairs: the level, the message and the attributes. A value is
put between quotes where it could not be told from the rest of the line. A log has a threshold, a
level with an offset such as `warn` or `error-4`, and shows the records at or above it.
-/

namespace PageMacro.Log

/-! ## Thresholds -/

/-- The level of a name, in whatever case. -/
def levelNamed? (name : String) : Option Level :=
  [Level.debug, .info, .warn, .error].find? fun level => level.name == Text.upper name

/-- A whole number with a sign in front, within the range of 64-bit integers. -/
def offset? : List Char → Option Int
  | sign :: digits =>
    let magnitude : Int := Decimal.natOfDigits digits
    let n := if sign == '-' then -magnitude else magnitude
    if !digits.isEmpty && digits.all Char.isDigit && Word.fits n then some n else none
  | [] => none

/-- The threshold that a text names; the empty text stands for `info`. -/
def threshold? (text : String) : Option Int :=
  let isSign (c : Char) : Bool := c == '+' || c == '-'
  let name := text.toList.takeWhile (!isSign ·)
  let rest := text.toList.dropWhile (!isSign ·)
  if text.isEmpty then some Level.info.severity
  else do
    let offset ← if rest.isEmpty then some 0 else offset? rest
    let level ← levelNamed? (String.ofList name)
    return Word.wrap (level.severity + offset)

/-- The wording of a text that names no threshold. -/
def badThreshold (text : String) : String := "invalid log level " ++ Text.quoted text

/-- Whether a log shows a record. -/
def shows (threshold : Int) (r : Record) : Bool := threshold ≤ r.level.severity

/-! ## Lines -/

/-- Whether a character can stand in a value without quotes. -/
def isBare (c : Char) : Bool :=
  if c.toNat < 0x80 then 0x20 < c.toNat && c != '"' && c != '='
  else c != '\uFFFD' && (Text.strayByte? c).isNone && !Text.isBlank c && Text.isPrintable c

/-- A value as it stands in a line. -/
def valueText (s : String) : String :=
  if !s.isEmpty && s.toList.all isBare then s else Text.quoted s

/-- The text of an attribute. -/
def attrText : LogValue → String
  | .text s => valueText s
  | .list items => valueText ("[" ++ Text.join " " items ++ "]")

/-- The line of a record. -/
def line (r : Record) : String :=
  Text.join " " (("level=" ++ r.level.name) :: ("msg=" ++ valueText r.message) ::
    r.attrs.map fun (name, value) => valueText name ++ "=" ++ attrText value) ++ "\n"

/-- The lines of the records that a log shows. -/
def lines (threshold : Int) (records : List Record) : String :=
  String.join ((records.filter (shows threshold)).map line)

/-! ## Fields of a journal -/

/-- The name of an attribute as a journal spells it: capital letters and digits, and `_` for
everything else. -/
def fieldName (name : String) : String :=
  String.ofList (name.toList.map fun c =>
    if c.isUpper || c.isDigit then c else if c.isLower then c.toUpper else '_')

end PageMacro.Log
