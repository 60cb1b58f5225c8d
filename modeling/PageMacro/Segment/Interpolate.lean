import PageMacro.Segment.Basic

/-!
# Variable references

`!name` in a right-hand side stands for the text of a variable, unless a backslash stands directly
before it. The texts put in are not looked at again. In the content form `$element:text` only
references at the start of a space-separated word count.
-/

namespace PageMacro.Segment

/-- Characters that start an identifier. -/
def isIdentStart (c : Char) : Bool := isLetter c || c == '_'

/-- Characters that continue an identifier. -/
def isIdentPart (c : Char) : Bool := isWordChar c

/-- Whether a text is an identifier. -/
def isIdent (s : String) : Bool :=
  match s.toList with
  | c :: rest => isIdentStart c && rest.all isIdentPart
  | [] => false

/-- Whether an identifier starts at the front. -/
def identAhead : List Char → Bool
  | c :: _ => isIdentStart c
  | [] => false

/-- Replaces references by `render name`. The flag says that the character before was a
backslash; the number counts characters of a replaced name still to be skipped. -/
def substituteChars (render : String → String) : List Char → Bool → Nat → List Char
  | [], _, _ => []
  | _ :: rest, _, skip + 1 => substituteChars render rest false skip
  | c :: rest, afterBackslash, 0 =>
    if c == '!' && !afterBackslash && identAhead rest then
      let name := rest.takeWhile isIdentPart
      (render (String.ofList name)).toList ++ substituteChars render rest false name.length
    else c :: substituteChars render rest (c == '\\') 0

/-- Replaces the references in an escaped text. -/
def expand (lookup : String → String) (escaped : String) : String :=
  String.ofList (substituteChars lookup escaped.toList false 0)

/-- Replaces the references in an escaped text and undoes the escapes. -/
def resolve (lookup : String → String) (escaped : String) : String :=
  unescape (expand lookup escaped)

/-- Replaces the references in a text as written. -/
def interpolate (lookup : String → String) (raw : String) : String :=
  resolve lookup (escape raw)

/-- Replaces a reference at the start of a word and keeps what follows it. -/
def expandWord (lookup : String → String) (word : List Char) : List Char :=
  match word with
  | '!' :: rest =>
    if identAhead rest then
      (lookup (String.ofList (rest.takeWhile isIdentPart))).toList ++ rest.dropWhile isIdentPart
    else word
  | _ => word

/-- Replaces the references at the start of the words between single spaces. -/
def expandWords (lookup : String → String) (text : String) : String :=
  String.ofList ([' '].intercalate ((text.toList.splitOn ' ').map (expandWord lookup)))

/-- The two sides of a right-hand side `!name?fallback`. -/
def fallback? (rhs : String) : Option (String × String) :=
  match rhs.toList with
  | '!' :: rest =>
    if identAhead rest then do
      let cs ← char? '?' (rest.dropWhile isIdentPart)
      let value ← rhs? cs
      return (String.ofList (rest.takeWhile isIdentPart), value)
    else none
  | _ => none

end PageMacro.Segment
