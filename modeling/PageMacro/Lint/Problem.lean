import PageMacro.Text.Bytes
import PageMacro.Text.Pieces
import PageMacro.Text.Quoted

/-!
# Problems of a script

A problem names a segment of an entry's script and says what is wrong with it. It is shown on one
line, or as a coloured report that marks the segment and may add advice.
-/

namespace PageMacro.Lint

/-- What is wrong with a segment. -/
inductive Cause where
  | malformed
  | unknownVerb (name : String)
  /-- Something that the host words itself. -/
  | host (text : String)
  deriving BEq, DecidableEq, Repr

/-- The wording of a cause. -/
def Cause.message : Cause → String
  | malformed => "malformed segment"
  | unknownVerb name => "unknown verb " ++ Text.quoted name
  | host text => text

/-- A problem with one segment. -/
structure Problem where
  /-- The key of the entry. -/
  key : String
  /-- The position of the segment, from zero. -/
  index : Int
  segment : String
  cause : Cause
  deriving BEq, DecidableEq, Repr

namespace Problem

/-- The number of the segment as shown, from one. -/
def number (p : Problem) : String := toString (p.index + 1)

/-- The problem on one line. -/
def text (p : Problem) : String :=
  p.key ++ ": segment " ++ p.number ++ " " ++ Text.quoted p.segment ++ ": " ++ p.cause.message

/-- Advice for common mistakes. -/
def advice? (p : Problem) : Option String :=
  let s := p.segment
  if Text.beginsWith "+" s && !s.contains ':' then
    some "Open a shell with '+targetId:shellName'"
  else if Text.beginsWith "&" s && !s.contains ':' then
    some "Assign a variable with '&name:value'"
  else if Text.beginsWith "#" s && !s.contains '.' then
    some "Read a property with '#var:elementId.property'"
  else if s.contains ' ' then
    some "Verb names cannot contain spaces; separate parameters with ':'"
  else none

/-- The terminal colours of a report. -/
inductive Colour where
  | red | yellow | blue | cyan

/-- Text in a colour. -/
def coloured (c : Colour) (s : String) : String :=
  let code := match c with
    | .red => "31"
    | .yellow => "33"
    | .blue => "34"
    | .cyan => "36"
  "\x1b[" ++ code ++ "m" ++ s ++ "\x1b[0m"

/-- The problem as a report, with a mark under every byte of the segment. -/
def report (p : Problem) : String :=
  let marks := Text.times (max 1 (Text.byteCount p.segment)) "^"
  let help := match p.advice? with
    | some advice => "   " ++ coloured .yellow "Help:" ++ " " ++ advice ++ "\n"
    | none => ""
  coloured .red "Error" ++ ": " ++ p.cause.message ++ "\n" ++
    "  " ++ coloured .cyan ("--> " ++ p.key ++ ":" ++ p.number) ++ "\n" ++
    "   " ++ coloured .blue p.number ++ " | " ++ p.segment ++ "\n" ++
    "   " ++ Text.times p.number.length " " ++ " | " ++ coloured .red marks ++ "\n" ++ help

end Problem

/-- All problems on one line. -/
def listText : List Problem → String
  | [] => "no errors"
  | problems => Text.join "; " (problems.map Problem.text)

/-- How many problems are reported in full. -/
def maxShown : Nat := 5

/-- The reports of the first problems, under a heading that counts them. -/
def reports (problems : List Problem) : String :=
  let count := problems.length
  let heading :=
    if count == 1 then "Script error:\n\n"
    else if count ≤ maxShown then "Script errors (" ++ toString count ++ "):\n\n"
    else
      "Script errors (showing first " ++ toString maxShown ++ " of " ++ toString count ++ "):\n\n"
  if problems.isEmpty then ""
  else heading ++ Text.join "\n" ((problems.take maxShown).map Problem.report)

end PageMacro.Lint
