import PageMacro.Text.Bytes
import PageMacro.Text.Quoted
import PageMacro.Value.Tree

/-!
# Writing JSON

A tree is written on one line or with every item on a line of its own. Fields are sorted by name.
Characters that could be taken for markup are escaped, and a number that is not finite cannot be
written.
-/

namespace PageMacro.Json

/-- How one character of a string is written. -/
def stringChar (c : Char) : List Char :=
  if c == '"' then ['\\', '"']
  else if c == '\\' then ['\\', '\\']
  else if c == '\x08' then ['\\', 'b']
  else if c == '\x0c' then ['\\', 'f']
  else if c == '\n' then ['\\', 'n']
  else if c == '\r' then ['\\', 'r']
  else if c == '\t' then ['\\', 't']
  else if (Text.strayByte? c).isSome then "\\ufffd".toList
  else if c.toNat < 0x20 || c == '<' || c == '>' || c == '&' || c == '\u2028' || c == '\u2029' then
    '\\' :: 'u' :: Text.hexPadded 4 c.toNat
  else [c]

/-- A string between its quotes. -/
def stringText (s : String) : String :=
  String.ofList ('"' :: s.toList.flatMap stringChar ++ ['"'])

/-- A number, if it is finite. -/
def numberText? (x : Float) : Option String :=
  if x.isFinite then some (Decimal.Layout.interchange.write x) else none

/-- How the items of a list or map are laid out: on one line, or below each other at a depth. -/
inductive Spacing where
  | line
  | block (depth : Nat)

/-- The spacing of what is inside. -/
def Spacing.inner : Spacing → Spacing
  | line => line
  | block depth => block (depth + 1)

/-- Two blanks for every level. -/
def indent (depth : Nat) : String := Text.times (2 * depth) " "

/-- Items between brackets. -/
def enclosed (spacing : Spacing) (left right : String) (items : List String) : String :=
  match spacing, items with
  | _, [] => left ++ right
  | .line, items => left ++ Text.join "," items ++ right
  | .block depth, items =>
    left ++ "\n" ++ Text.join ",\n" (items.map (indent (depth + 1) ++ ·)) ++ "\n" ++ indent depth ++
      right

/-- A field of a map. -/
def fieldText (spacing : Spacing) (name value : String) : String :=
  stringText name ++ (match spacing with
    | .line => ":"
    | .block _ => ": ") ++ value

mutual

/-- Writes a tree; elements show nothing of themselves. -/
def write? (spacing : Spacing) : Tree → Option String
  | .null => some "null"
  | .bool b => some (Tree.boolText b)
  | .num x => numberText? x
  | .int n => some (toString n)
  | .str s => some (stringText s)
  | .list items => do
    let items ← writeItems? spacing.inner items
    return enclosed spacing "[" "]" items
  | .map fields => do
    let fields ← writeFields? spacing.inner fields
    return enclosed spacing "\x7b" "\x7d"
      ((Tree.sortFields fields).map fun (name, value) => fieldText spacing name value)
  | .intMap fields =>
    some (enclosed spacing "\x7b" "\x7d"
      ((Tree.sortFields (fields.map fun (name, value) => (toString name, stringText value))).map
        fun (name, value) => fieldText spacing name value))
  | .record _ => some "\x7b\x7d"
  | .element _ => some "\x7b\x7d"

/-- Writes the items of a list. -/
def writeItems? (spacing : Spacing) : List Tree → Option (List String)
  | [] => some []
  | item :: rest => do
    let item ← write? spacing item
    let rest ← writeItems? spacing rest
    return item :: rest

/-- Writes the fields of a map. -/
def writeFields? (spacing : Spacing) : List (String × Tree) → Option (List (String × String))
  | [] => some []
  | (name, value) :: rest => do
    let value ← write? spacing value
    let rest ← writeFields? spacing rest
    return (name, value) :: rest

end

/-- A tree on one line. -/
def compact? (t : Tree) : Option String := write? .line t

/-- A tree with every item on a line of its own. -/
def indented? (t : Tree) : Option String := write? (.block 0) t

end PageMacro.Json
