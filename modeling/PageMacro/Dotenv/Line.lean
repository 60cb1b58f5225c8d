import PageMacro.Text.Pieces
import PageMacro.Text.Bytes

/-!
# Lines of a settings file

A settings file holds one assignment `NAME=value` a line. Blank lines and comments are passed over;
a line may start with `export `, and a value may stand between quotes.
-/

namespace PageMacro.Dotenv

/-- What a line says. -/
inductive Line where
  | nothing
  | setting (name value : String)
  | invalid
  deriving BEq, DecidableEq, Repr

/-- The text between a pair of quotes of the same kind; any other text as it is. -/
def unquoted (s : String) : String :=
  match s.toList with
  | first :: second :: rest =>
    let inner := (second :: rest).dropLast
    if (first == '"' || first == '\'') && (second :: rest).getLast? == some first then
      String.ofList inner
    else s
  | _ => s

/-- Reads an assignment. -/
def readSetting (line : String) : Line :=
  match Text.cut '=' line with
  | none => .invalid
  | some (name, value) =>
    let name := Text.trim name
    if name.isEmpty then .invalid else .setting name (unquoted (Text.trim value))

/-- Reads a line. -/
def readLine (raw : String) : Line :=
  let line := Text.trim raw
  if line.isEmpty || Text.beginsWith "#" line then .nothing
  else readSetting (Text.withoutStart "export " line)

/-- The lines of a text; what follows the last line break is a line only if it is not empty. -/
def linesOf (text : String) : List String :=
  let lines := Text.splitAtChar '\n' text
  if lines.getLast? == some "" then lines.dropLast else lines

/-- A line of this many bytes or more cannot be read. -/
def lineLimit : Nat := 65536

/-- The lines before the first one that is too long, and whether there is such a line. -/
def readableLines (text : String) : List String × Bool :=
  let lines := linesOf text
  let short := lines.takeWhile fun line => Text.byteCount line < lineLimit
  (short, short.length < lines.length)

end PageMacro.Dotenv
