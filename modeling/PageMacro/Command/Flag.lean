import PageMacro.Duration
import PageMacro.Text.Pieces

/-!
# Flags

A flag is written `--name value` or `--name=value`, or by its letter as `-n value`, `-nvalue` or
`-n=value`. A toggle needs no value, and letters of toggles can stand together. Everything else on
the line is an argument, as is everything after `--`.
-/

namespace PageMacro.Command

/-- What values a flag takes. -/
inductive FlagKind where
  | text
  | toggle
  /-- A text each time the flag is given. -/
  | many
  | duration
  deriving BEq, DecidableEq, Repr

/-- A flag. -/
structure Flag where
  name : String
  letter : Option Char := none
  kind : FlagKind := .text
  /-- The value if the flag is not given. -/
  usual : String := ""
  summary : String := ""
  deriving BEq, DecidableEq, Repr

/-- What is wrong with a command line. -/
inductive UsageError where
  | unknownCommand (word path : String) (similar : List String)
  | unknownFlag (name : String)
  | unknownLetter (letter : Char) (letters : String)
  | badFlag (word : String)
  | noValue (word : String)
  | noLetterValue (letter : Char) (letters : String)
  | badValue (value : String) (flag : Flag) (reason : String)
  | invalidArgument (word path : String)
  /-- There must be that many arguments. -/
  | exactly (count given : Nat)
  | atMost (count given : Nat)
  | atLeast (count given : Nat)
  | between (least most given : Nat)
  deriving BEq, DecidableEq, Repr

/-- A letter between single quotes. -/
def quotedLetter (c : Char) : String :=
  let inner :=
    if c == '\'' then "\\'" else if c == '"' then "\"" else String.ofList (Text.quotedChar c)
  "'" ++ inner ++ "'"

/-- How a flag is named in messages. -/
def Flag.shown (f : Flag) : String :=
  match f.letter with
  | some c => "-" ++ c.toString ++ ", --" ++ f.name
  | none => "--" ++ f.name

/-- The wording of a wrong command line. -/
def UsageError.message : UsageError → String
  | unknownCommand word path similar =>
    let hint := if similar.isEmpty then "" else
      "\n\nDid you mean this?\n" ++ String.join (similar.map fun s => "\t" ++ s ++ "\n")
    "unknown command " ++ Text.quoted word ++ " for " ++ Text.quoted path ++ hint
  | unknownFlag name => "unknown flag: --" ++ name
  | unknownLetter letter letters =>
    "unknown shorthand flag: " ++ quotedLetter letter ++ " in -" ++ letters
  | badFlag word => "bad flag syntax: " ++ word
  | noValue word => "flag needs an argument: " ++ word
  | noLetterValue letter letters =>
    "flag needs an argument: " ++ quotedLetter letter ++ " in -" ++ letters
  | badValue value flag reason =>
    "invalid argument " ++ Text.quoted value ++ " for " ++ Text.quoted flag.shown ++ " flag: " ++
      reason
  | invalidArgument word path =>
    "invalid argument " ++ Text.quoted word ++ " for " ++ Text.quoted path
  | exactly count given => received ("accepts " ++ toString count) given
  | atMost count given => received ("accepts at most " ++ toString count) given
  | atLeast count given =>
    "requires at least " ++ toString count ++ " arg(s), only received " ++ toString given
  | between least most given =>
    received ("accepts between " ++ toString least ++ " and " ++ toString most) given
where
  /-- A rule about the number of arguments, and the number there were. -/
  received (rule : String) (given : Nat) : String :=
    rule ++ " arg(s), received " ++ toString given

/-- A command line taken apart: the flags in the order they were given, and the arguments. -/
structure Given where
  flags : List (String × String) := []
  args : List String := []
  deriving BEq, DecidableEq, Repr, Inhabited

namespace Given

/-- Whether a flag was given. -/
def has (g : Given) (name : String) : Bool := g.flags.any fun (n, _) => n == name

/-- All values given for a flag. -/
def values (g : Given) (name : String) : List String :=
  g.flags.filterMap fun (n, value) => if n == name then some value else none

/-- The last value given for a flag, or its usual value. -/
def text (g : Given) (f : Flag) : String := ((g.values f.name).getLast?).getD f.usual

/-- Whether a toggle is on. -/
def isOn (g : Given) (name : String) : Bool := (g.values name).getLast? == some "true"

end Given

/-- The flag of a word for yes or no. -/
def toggle? (value : String) : Option Bool :=
  if ["1", "t", "T", "TRUE", "true", "True"].contains value then some true
  else if ["0", "f", "F", "FALSE", "false", "False"].contains value then some false
  else none

/-- Gives a flag a value. -/
def Given.set (g : Given) (f : Flag) (value : String) : Except UsageError Given :=
  let add (value : String) : Given := { g with flags := g.flags ++ [(f.name, value)] }
  match f.kind with
  | .text => .ok (add value)
  | .many => .ok (add value)
  | .toggle =>
    match toggle? value with
    | some b => .ok (add (if b then "true" else "false"))
    | none => .error (.badValue value f
        ("strconv.ParseBool: parsing " ++ Text.quoted value ++ ": invalid syntax"))
  | .duration =>
    match Duration.read value with
    | .ok _ => .ok (add value)
    | .error fault => .error (.badValue value f (fault.message value))

/-- Reads a flag by its name; `rest` are the words after it. -/
def readLong (flags : List Flag) (word : String) (rest : List String) (g : Given) :
    Except UsageError (List String × Given) := do
  let body := Text.withoutStart "--" word
  let (name, value) := match Text.cut '=' body with
    | some (name, value) => (name, some value)
    | none => (body, none)
  if name.isEmpty || Text.beginsWith "-" name then throw (.badFlag word)
  let some f := flags.find? fun f => f.name == name | throw (.unknownFlag name)
  match value, rest with
  | some value, _ => return (rest, ← g.set f value)
  | none, rest =>
    if f.kind == .toggle then return (rest, ← g.set f "true")
    else match rest with
      | value :: rest => return (rest, ← g.set f value)
      | [] => throw (.noValue word)

/-- Reads flags by their letters. -/
def readLetters (flags : List Flag) :
    List Char → List String → Given → Except UsageError (List String × Given)
  | [], rest, g => .ok (rest, g)
  | c :: more, rest, g => do
    let letters := String.ofList (c :: more)
    let some f := flags.find? fun f => f.letter == some c
      | throw (.unknownLetter (firstByte c) letters)
    match more with
    | '=' :: v :: value => return (rest, ← g.set f (String.ofList (v :: value)))
    | more =>
      if f.kind == .toggle then readLetters flags more rest (← g.set f "true")
      else if !more.isEmpty then return (rest, ← g.set f (String.ofList more))
      else match rest with
        | value :: rest => return (rest, ← g.set f value)
        | [] => throw (.noLetterValue c letters)
where
  /-- Letters are single bytes. -/
  firstByte (c : Char) : Char := Char.ofNat ((Text.charBytes c).headD 0).toNat

/-- Takes a command line apart; `fuel` bounds the number of words. -/
def readWords (flags : List Flag) : Nat → List String → Given → Except UsageError Given
  | _, [], g => .ok g
  | 0, _, g => .ok g
  | fuel + 1, word :: rest, g => do
    let isArgument := !Text.beginsWith "-" word || word == "-"
    if isArgument then readWords flags fuel rest { g with args := g.args ++ [word] }
    else if word == "--" then return { g with args := g.args ++ rest }
    else
      let (rest, g) ← if Text.beginsWith "--" word then readLong flags word rest g
        else readLetters flags (word.toList.drop 1) rest g
      readWords flags fuel rest g

/-- Takes a command line apart. -/
def Given.ofWords (flags : List Flag) (words : List String) : Except UsageError Given :=
  readWords flags words.length words {}

/-! ## Words before the flags are known -/

/-- Whether the word after this one is the value of a flag. -/
def takesValue (flags : List Flag) (word : String) : Bool :=
  let isToggle (f : Option Flag) : Bool := (f.map (·.kind)) == some .toggle
  if word.contains '=' then false
  else if Text.beginsWith "--" word then
    !isToggle (flags.find? fun f => "--" ++ f.name == word)
  else match word.toList with
    | ['-', c] => !isToggle (flags.find? fun f => f.letter == some c)
    | _ => false

/-- The arguments among words. The last word is never taken for the value of a flag: it ends the
search. -/
def arguments (flags : List Flag) : List String → List String
  | [] => []
  | [word] => if word.isEmpty || Text.beginsWith "-" word then [] else [word]
  | word :: next :: rest =>
    if word == "--" then []
    else if takesValue flags word then if rest.isEmpty then [] else arguments flags rest
    else if word.isEmpty || Text.beginsWith "-" word then arguments flags (next :: rest)
    else word :: arguments flags (next :: rest)

/-- The words without the first argument, which is `name`. -/
def withoutArgument (flags : List Flag) (name : String) : List String → List String
  | [] => []
  | [word] => if word == name then [] else [word]
  | word :: next :: rest =>
    if word == "--" then word :: next :: rest
    else if takesValue flags word then word :: next :: withoutArgument flags name rest
    else if word == name then next :: rest
    else word :: withoutArgument flags name (next :: rest)

end PageMacro.Command
