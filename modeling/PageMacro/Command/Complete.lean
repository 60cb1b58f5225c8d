import PageMacro.Command.Help
import PageMacro.Session.Open

/-!
# Completion

A shell asks how a command line may go on. The answer is a list of words with descriptions, and a
directive that says what the shell may add of its own. Commands that run a page propose the keys of
its entries, once a page is named.
-/

namespace PageMacro.Command

/-- What a shell may do beside the proposed words. -/
inductive Directive where
  /-- Propose files as usual. -/
  | usual
  | noFiles
  deriving BEq, DecidableEq, Repr

/-- The number of a directive. -/
def Directive.code : Directive → Nat
  | usual => 0
  | noFiles => 4

/-- The name of a directive. -/
def Directive.name : Directive → String
  | usual => "ShellCompDirectiveDefault"
  | noFiles => "ShellCompDirectiveNoFileComp"

/-- Proposed words, each with its description after a tab. -/
structure Proposals where
  words : List String := []
  directive : Directive := .usual
  deriving BEq, DecidableEq, Repr

/-- The names that a flag can go by and that start with a text. -/
def Flag.proposals (f : Flag) (start : String) : List String :=
  let names := ("--" ++ f.name) :: match f.letter with
    | some c => ["-" ++ c.toString]
    | none => []
  (names.filter (Text.beginsWith start)).map fun name => name ++ "\t" ++ f.summary

/-- The flags of a list, sorted by name. -/
def sortedFlags (flags : List Flag) : List Flag :=
  (Text.sortNames (flags.map (·.name))).filterMap fun name => flags.find? fun f => f.name == name

/-- The commands in a command that start with a text. -/
def Spec.childProposals (s : Spec) (start : String) : List String :=
  let shown := s.children.filter fun c => !c.hidden && Text.beginsWith start c.name
  (Text.sortNames (shown.map Spec.name)).filterMap fun name =>
    (s.child? name).map fun c => c.name ++ "\t" ++ c.summary

/-- The flag whose value is being typed, the words before it, and the value so far; nothing if a
flag is named that is not known. -/
def flagAtEnd? (s : Spec) (words : List String) (last : String) :
    Option (Option Flag × List String × String) :=
  let flags := s.helpFlag :: s.allFlags
  let named (name : String) : Option Flag := flags.find? fun f => f.name == name
  let lettered (word : String) : Option Flag :=
    (word.toList.getLast?).bind fun c => flags.find? fun f => f.letter == some c
  let byWord (word : String) : Option Flag :=
    if Text.beginsWith "--" word then named (Text.withoutStart "--" word) else lettered word
  if Text.beginsWith "-" last then
    match Text.cut '=' last with
    | none => some (none, words, last)
    | some (name, value) =>
      if name == "--" then some (none, words, value)
      else (byWord name).map fun f => (some f, words, value)
  else
    match words.getLast? with
    | none => some (none, words, last)
    | some word =>
      let isFlag := Text.beginsWith "-" word && word != "-" && word != "--"
      if !isFlag || word.contains '=' then some (none, words, last)
      else (byWord word).map fun f =>
        if f.kind == .toggle then (none, words, last) else (some f, words.dropLast, last)

/-- The keys of the entries of a page, each with its first segment. -/
def keyProposals (config : Config) (version : String) (args : List String) (member : String) :
    Work Session.Error Proposals := do
  match args with
  | [] => return {}
  | page :: _ =>
    let words ← Session.withSession config { page, member } version fun s =>
      return s.entries.map fun e => e.key ++ "\t[entry] " ++ e.segments.headD ""
    return { words, directive := .noFiles }

/-- What a command proposes for its next argument. -/
def Spec.argumentProposals (s : Spec) (config : Config) (version : String) (g : Given)
    (last : String) : Work Session.Error Proposals := do
  let untouched := !s.flags.any fun f => g.has f.name
  let inside := if g.args.isEmpty && untouched then s.childProposals last else []
  let holds := g.args.isEmpty && untouched && !s.children.isEmpty
  let found : Proposals := { words := inside, directive := if holds then .noFiles else .usual }
  match s.action with
  | some .completion =>
    if g.args.isEmpty then
      return { words := shells.filter (Text.beginsWith last), directive := .noFiles }
    else return found
  | some .help =>
    match find g.args with
    | .ok (inner, _) => return { words := inner.childProposals last, directive := .noFiles }
    | .error _ => return { directive := .noFiles }
  | some .run => keysOf
  | some .watch => keysOf
  | _ => return found
where
  /-- Proposes keys; a page that cannot be opened has none. -/
  keysOf : Work Session.Error Proposals := do
    let (result, console) := (keyProposals config version g.args (g.text memberFlag)).run (← get)
    set console
    match result with
    | .ok found => return found
    | .error _ => return { directive := .noFiles }

/-- The proposals for a command line whose last word is not finished. -/
def proposals (config : Config) (version : String) (words : List String) :
    Work Session.Error Proposals := do
  let last := (words.getLast?).getD ""
  match find words.dropLast with
  | .error _ => return {}
  | .ok (s, rest) =>
    match flagAtEnd? s rest last with
    | none => return {}
    | some (flag, rest, last) =>
      match Given.ofWords (s.helpFlag :: s.allFlags) rest with
      | .error _ => return {}
      | .ok g =>
        let afterDashes := rest.contains "--"
        if g.isOn "help" then return { directive := .noFiles }
        else if flag.isSome then return {}
        else if Text.beginsWith "-" last && !last.contains '=' && !afterDashes then
          let fresh := (sortedFlags s.inherited ++
            sortedFlags (s.helpFlag :: s.flags ++ s.shared)).filter fun f =>
              !g.has f.name || f.kind == .many
          return { words := fresh.flatMap (·.proposals last), directive := .noFiles }
        else s.argumentProposals config version g last

/-- A proposed word as it is printed: one line, with or without its description. -/
def proposalLine (described : Bool) (word : String) : String :=
  let shown := if described then word else (Text.splitAtChar '\t' word).headD ""
  Text.trim ((Text.splitAtChar '\n' shown).headD "") ++ "\n"

end PageMacro.Command
