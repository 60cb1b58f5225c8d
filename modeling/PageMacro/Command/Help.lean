import PageMacro.Command.Spec

/-!
# Help

What a command does, how it is used, the commands in it and its flags, the latter two in columns.
-/

namespace PageMacro.Command

/-- A text in at least `width` columns. -/
def padded (width : Nat) (s : String) : String := s ++ Text.times (width - s.length) " "

/-- The word for the values of a flag. -/
def FlagKind.word : FlagKind → String
  | text => "string"
  | toggle => ""
  | many => "stringArray"
  | duration => "duration"

/-- A flag as it is typed. -/
def Flag.synopsis (f : Flag) : String :=
  let front := match f.letter with
    | some c => "  -" ++ c.toString ++ ", --"
    | none => "      --"
  front ++ f.name ++ (if f.kind.word.isEmpty then "" else " " ++ f.kind.word)

/-- What a flag does, and its usual value. -/
def Flag.explained (f : Flag) : String :=
  if f.usual.isEmpty then f.summary
  else f.summary ++ " (default " ++
    (if f.kind == .text then Text.quoted f.usual else f.usual) ++ ")"

/-- The lines of flags, sorted by name. -/
def flagLines (flags : List Flag) : String :=
  let names := Text.sortNames (flags.map (·.name))
  let sorted := names.filterMap fun name => flags.find? fun f => f.name == name
  let width := sorted.foldl (fun n f => max n f.synopsis.length) 0
  Text.join "\n" (sorted.map fun f => padded width f.synopsis ++ "   " ++ f.explained)

/-- The line that shows the use of a command. -/
def Spec.useLine (s : Spec) : String :=
  let withUse := if s.use.isEmpty then s.fullName else s.fullName ++ " " ++ s.use
  if s.action == some .completion then withUse else withUse ++ " [flags]"

/-- The lines of the commands in a command, sorted by name. -/
def Spec.childLines (s : Spec) : String :=
  let shown := s.children.filter fun c => !c.hidden
  let names := Text.sortNames (shown.map Spec.name)
  String.join (names.filterMap fun name =>
    (s.child? name).map fun c => "\n  " ++ padded 11 c.name ++ " " ++ c.summary)

/-- How a command is used. -/
def Spec.usage (s : Spec) : String :=
  let holds := !s.children.isEmpty
  let part (wanted : Bool) (text : String) : String := if wanted then text else ""
  String.join ["Usage:",
    part s.action.isSome ("\n  " ++ s.useLine),
    part holds ("\n  " ++ s.fullName ++ " [command]"),
    part holds ("\n\nAvailable Commands:" ++ s.childLines),
    "\n\nFlags:\n", flagLines (s.helpFlag :: s.flags ++ s.shared),
    part (!s.inherited.isEmpty) ("\n\nGlobal Flags:\n" ++ flagLines s.inherited),
    part holds ("\n\nUse \"" ++ s.fullName ++
      " [command] --help\" for more information about a command."),
    "\n"]

/-- All there is to say about a command. -/
def Spec.help (s : Spec) : String :=
  let about := if s.about.isEmpty then s.summary else s.about
  String.ofList (Text.dropEndWhile Text.isBlank about.toList) ++ "\n\n" ++ s.usage

end PageMacro.Command
