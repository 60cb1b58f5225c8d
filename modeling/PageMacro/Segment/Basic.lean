import PageMacro.Segment.Escape
import PageMacro.Text.Pieces

/-!
# Segments

A script is cut at `|` into segments. Each segment has one of ten shapes; they overlap, and the
first that fits, in the order of the constructors of `Segment`, wins. The readers below follow the
shapes from left to right on the escaped text, and every run of name characters is taken as long as
possible. A right-hand side is never empty and has no line feed in it.
-/

namespace PageMacro

/-- A segment taken apart. -/
inductive Segment where
  /-- `target[attr]:rhs` -/
  | attrWrite (target attr rhs : String)
  /-- `target[index].property:rhs` -/
  | indexedWrite (target index property rhs : String)
  /-- `+target:name` -/
  | shellOpen (target name : String)
  /-- `-name` -/
  | shellClose (name : String)
  /-- `#name:element.property` -/
  | propRead (name element property : String)
  /-- `&name:rhs` -/
  | literalAssign (name rhs : String)
  /-- `target.property:rhs` -/
  | propWrite (target property rhs : String)
  /-- `nop:name` -/
  | nopStore (name : String)
  /-- `$element` and `$element:rhs`; the right-hand side is empty in the first form -/
  | contentSet (element rhs : String)
  /-- `verb:parameters` -/
  | verbCall (verb parameters : String)
  deriving BEq, DecidableEq, Repr

namespace Segment

/-- The shapes of segments. -/
inductive Kind where
  | malformed | attrWrite | indexedWrite | shellOpen | shellClose | propRead | literalAssign
  | propWrite | nopStore | contentSet | verbCall
  deriving BEq, DecidableEq, Repr

/-- The name of a shape. -/
def Kind.name : Kind → String
  | .malformed => "malformed"
  | .attrWrite => "attr-write"
  | .indexedWrite => "indexed-write"
  | .shellOpen => "shell-open"
  | .shellClose => "shell-close"
  | .propRead => "prop-read"
  | .literalAssign => "literal-assign"
  | .propWrite => "prop-write"
  | .nopStore => "nop"
  | .contentSet => "content-set"
  | .verbCall => "verb-call"

/-- The shape of a segment. -/
def kind : Segment → Kind
  | attrWrite .. => .attrWrite
  | indexedWrite .. => .indexedWrite
  | shellOpen .. => .shellOpen
  | shellClose .. => .shellClose
  | propRead .. => .propRead
  | literalAssign .. => .literalAssign
  | propWrite .. => .propWrite
  | nopStore .. => .nopStore
  | contentSet .. => .contentSet
  | verbCall .. => .verbCall

/-- The parts of a segment, in the order they are written. -/
def parts : Segment → List String
  | attrWrite target attr rhs => [target, attr, rhs]
  | indexedWrite target index property rhs => [target, index, property, rhs]
  | shellOpen target name => [target, name]
  | shellClose name => [name]
  | propRead name element property => [name, element, property]
  | literalAssign name rhs => [name, rhs]
  | propWrite target property rhs => [target, property, rhs]
  | nopStore name => [name]
  | contentSet element rhs => [element, rhs]
  | verbCall verb parameters => [verb, parameters]

/-! ## Character classes -/

/-- ASCII letters. -/
def isLetter (c : Char) : Bool := ('a' ≤ c && c ≤ 'z') || ('A' ≤ c && c ≤ 'Z')

/-- ASCII letters, digits and the underscore. -/
def isWordChar (c : Char) : Bool := isLetter c || ('0' ≤ c && c ≤ '9') || c == '_'

/-- Word characters and the dash: names of elements, classes and attributes. -/
def isNameChar (c : Char) : Bool := isWordChar c || c == '-'

/-- Letters and the dash: names of properties that can be written. -/
def isPropertyChar (c : Char) : Bool := isLetter c || c == '-'

/-- Name characters and the plus sign: names of verbs. -/
def isVerbChar (c : Char) : Bool := isNameChar c || c == '+'

/-- The spaces skipped inside a segment. -/
def isSpace (c : Char) : Bool := c == ' ' || c == '\t' || c == '\n' || c == '\x0c' || c == '\r'

/-! ## Readers

Each takes its part off the front of the text and gives the rest. -/

/-- The longest run of characters of a class, if it is not empty, and the rest. -/
def run? (p : Char → Bool) (cs : List Char) : Option (String × List Char) :=
  match cs.takeWhile p with
  | [] => none
  | run => some (String.ofList run, cs.dropWhile p)

/-- One given character. -/
def char? (c : Char) : List Char → Option (List Char)
  | d :: rest => if d == c then some rest else none
  | [] => none

/-- A selector: an optional `#`, `.` or `$`, then a name. -/
def target? : List Char → Option (String × List Char)
  | c :: rest =>
    if c == '#' || c == '.' || c == '$' then
      (run? isNameChar rest).map fun (name, rest') => (String.singleton c ++ name, rest')
    else run? isNameChar (c :: rest)
  | [] => none

/-- A right-hand side takes all that is left. -/
def rhs? (cs : List Char) : Option String :=
  if cs.isEmpty || cs.contains '\n' then none else some (String.ofList cs)

/-- Nothing is left. -/
def done? (cs : List Char) : Option Unit :=
  if cs.isEmpty then some () else none

/-- `target[attr]:rhs`, with spaces allowed around the attribute name and after the bracket. -/
def attrWrite? (cs : List Char) : Option Segment := do
  let (target, cs) ← target? cs
  let cs ← char? '[' cs
  let (attr, cs) ← run? isNameChar (cs.dropWhile isSpace)
  let cs ← char? ']' (cs.dropWhile isSpace)
  let cs ← char? ':' (cs.dropWhile isSpace)
  let rhs ← rhs? cs
  return attrWrite target attr rhs

/-- `.property:rhs` -/
def propertyTail? (cs : List Char) : Option (String × String) := do
  let cs ← char? '.' cs
  let (property, cs) ← run? isPropertyChar cs
  let cs ← char? ':' cs
  let rhs ← rhs? cs
  return (property, rhs)

/-- `index].property:rhs` with the shortest index that leaves such a tail. -/
def indexTail? : List Char → Option (List Char × String × String)
  | [] => none
  | c :: rest =>
    let closed := if c == ']' then propertyTail? rest else none
    match closed with
    | some (property, rhs) => some ([], property, rhs)
    | none =>
      if c == '\n' then none
      else (indexTail? rest).map fun (index, tail) => (c :: index, tail)

/-- `target[index].property:rhs` -/
def indexedWrite? (cs : List Char) : Option Segment := do
  let (target, cs) ← target? cs
  let cs ← char? '[' cs
  let (index, property, rhs) ← indexTail? cs
  return indexedWrite target (String.ofList index) property rhs

/-- `+target:name`, with spaces allowed after the plus sign and at the end. -/
def shellOpen? (cs : List Char) : Option Segment := do
  let cs ← char? '+' cs
  let (target, cs) ← run? isNameChar (cs.dropWhile isSpace)
  let cs ← char? ':' cs
  let (name, cs) ← run? isWordChar cs
  done? (cs.dropWhile isSpace)
  return shellOpen target name

/-- `-name`, with spaces allowed after the dash. -/
def shellClose? (cs : List Char) : Option Segment := do
  let cs ← char? '-' cs
  let (name, cs) ← run? isWordChar (cs.dropWhile isSpace)
  done? cs
  return shellClose name

/-- `#name:element.property` -/
def propRead? (cs : List Char) : Option Segment := do
  let cs ← char? '#' cs
  let (name, cs) ← run? isWordChar cs
  let cs ← char? ':' cs
  let (element, cs) ← run? isNameChar cs
  let cs ← char? '.' cs
  let (property, cs) ← run? isWordChar cs
  done? cs
  return propRead name element property

/-- `&name:rhs` -/
def literalAssign? (cs : List Char) : Option Segment := do
  let cs ← char? '&' cs
  let (name, cs) ← run? isWordChar cs
  let cs ← char? ':' cs
  let rhs ← rhs? cs
  return literalAssign name rhs

/-- `target.property:rhs` -/
def propWrite? (cs : List Char) : Option Segment := do
  let (target, cs) ← target? cs
  let (property, rhs) ← propertyTail? cs
  return propWrite target property rhs

/-- `nop:name` -/
def nopStore? : List Char → Option Segment
  | 'n' :: 'o' :: 'p' :: ':' :: cs => do
    let (name, cs) ← run? isWordChar cs
    done? cs
    return nopStore name
  | _ => none

/-- `$element` or `$element:rhs` -/
def contentSet? (cs : List Char) : Option Segment := do
  let cs ← char? '$' cs
  let (element, cs) ← run? isNameChar cs
  match cs with
  | [] => return contentSet element ""
  | _ :: _ =>
    let cs ← char? ':' cs
    let rhs ← rhs? cs
    return contentSet element rhs

/-- `verb:parameters`; the colon may be missing and the parameters empty. -/
def verbCall? (cs : List Char) : Option Segment := do
  let (verb, cs) ← run? isVerbChar cs
  let parameters := (char? ':' cs).getD cs
  if parameters.contains '\n' then none
  else return verbCall verb (String.ofList parameters)

/-- The readers of all shapes, in the order in which they are tried. -/
def readers : List (List Char → Option Segment) :=
  [attrWrite?, indexedWrite?, shellOpen?, shellClose?, propRead?, literalAssign?, propWrite?,
    nopStore?, contentSet?, verbCall?]

/-- Takes an escaped segment apart; a malformed one gives nothing. -/
def read? (escaped : String) : Option Segment :=
  readers.findSome? fun reader => reader escaped.toList

/-- Takes a segment as written in a script apart. -/
def ofScript? (segment : String) : Option Segment :=
  read? (escape segment)

/-- The shape of a segment as written in a script, blanks around it ignored. -/
def classify (segment : String) : Kind :=
  ((ofScript? (Text.trim segment)).map kind).getD .malformed

/-- The verb that a segment calls, blanks around it ignored. -/
def verbName? (segment : String) : Option String :=
  match ofScript? (Text.trim segment) with
  | some (verbCall verb _) => some verb
  | _ => none

/-- The parameters of a verb call: the pieces between colons, trimmed. -/
def splitParameters (parameters : String) : List String :=
  if parameters.isEmpty then [] else (Text.splitAtChar ':' parameters).map Text.trim

/-- The verb and the parameters of a segment, escapes undone; a segment that calls no verb counts
as a name without parameters. -/
def verbParts (segment : String) : String × List String :=
  match ofScript? segment with
  | some (verbCall verb parameters) => (verb, (splitParameters parameters).map unescape)
  | _ => (segment, [])

/-- The trimmed, non-empty segments of a script. -/
def split (script : String) : List String :=
  ((Text.splitAtChar '|' script).map Text.trim).filter (!·.isEmpty)

end Segment

end PageMacro
