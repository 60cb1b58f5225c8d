/-!
# Escaped exclamation marks

A variable reference starts with `!`. A backslash takes that meaning away: while a segment is
taken apart, an escaped mark is replaced by one private character, and restored at the end.
`\!` stands for `!` and `\\!` for `\!`; a `\!` directly followed by another backslash is left as it
is.
-/

namespace PageMacro.Segment

/-- The private character that stands for an escaped exclamation mark. -/
def hiddenMark : Char := '\ue000'

/-- Hides the escaped exclamation marks. -/
def escapeChars : List Char → List Char
  | '\\' :: '\\' :: '!' :: rest => '\\' :: hiddenMark :: escapeChars rest
  | '\\' :: '!' :: rest =>
    if rest.head? == some '\\' then '\\' :: '!' :: escapeChars rest
    else hiddenMark :: escapeChars rest
  | c :: rest => c :: escapeChars rest
  | [] => []

/-- Restores the hidden marks. -/
def unescapeChars (cs : List Char) : List Char :=
  cs.map fun c => if c == hiddenMark then '!' else c

/-- Hides the escaped exclamation marks of a text. -/
def escape (s : String) : String := String.ofList (escapeChars s.toList)

/-- Restores the hidden marks of a text. -/
def unescape (s : String) : String := String.ofList (unescapeChars s.toList)

end PageMacro.Segment
