import PageMacro.Command.Complete
import PageMacro.Config.Load
import PageMacro.Session.Watch

/-!
# Executing commands

A command line is taken apart and checked before anything is read. Then the configuration is loaded
and the log set up, and the command does its work.
-/

namespace PageMacro.Command

/-- What the program says of itself. -/
structure Release where
  version : String := "dev"
  commit : String := "unknown"
  date : String := "unknown"
  deriving BEq, DecidableEq, Repr, Inhabited

/-- Why a command fails. -/
inductive Error where
  | usage (cause : UsageError)
  | config (cause : Config.Error)
  | badLevel (level : String)
  | noPage
  | session (cause : Session.Error)
  /-- The scripts of a page have that many problems. -/
  | problems (count : Nat)
  | secretStore (cause : Secret.OpenError)
  | secret (cause : Secret.Error)
  /-- The value of a secret was to be read, but there was nothing to read. -/
  | noInput
  | cache (cause : Cache.OpenError)
  deriving Repr

/-- The wording of a failed command. -/
def Error.message : Error → String
  | usage cause => cause.message
  | config cause => cause.message
  | badLevel level => Log.badThreshold level
  | noPage => Config.noPage
  | session cause => cause.message
  | problems count => toString count ++ " problem(s) found"
  | secretStore cause => cause.message
  | secret cause => cause.message
  | noInput => "failed to read secret value: " ++ Format.eof.mark
  | cache cause => cause.message

/-- The exit code of a failed command. -/
def Error.code : Error → UInt32
  | session .crashed => 2
  | _ => 1

/-- What a failed command is about. -/
def Error.concerns : Error → List Concern
  | config cause => cause.concerns
  | session cause => cause.concerns
  | secretStore cause => cause.concerns
  | secret cause => cause.cause.concerns
  | noInput => [.format .eof]
  | cache cause => cause.concerns
  | _ => []

/-- A command with its flags and arguments. -/
structure Call where
  spec : Spec
  given : Given
  release : Release
  /-- What can be read. -/
  input : String := ""

/-! ## Setting up -/

/-- Loads the configuration and sets the log up. -/
def setup (g : Given) : Work Error Config := do
  let site ← Work.site
  let asked := g.has configFlag.name
  let config ← MonadExcept.ofExcept
    ((Config.load site.disk site.here (g.text configFlag) asked).mapError .config)
  let level := g.text logLevelFlag
  let config := if level.isEmpty then config else { config with logLevel := level }
  match Log.threshold? config.logLevel with
  | none => throw (.badLevel config.logLevel)
  | some threshold =>
    modify fun c => { c with threshold }
    return config

/-- The page to work on. -/
def pageOf (config : Config) (args : List String) : Work Error String :=
  match config.page? args with
  | some page => return page
  | none => throw .noPage

/-- What the flags and arguments ask of a run. -/
def runOptions (config : Config) (g : Given) : Work Error RunOptions := do
  let page ← pageOf config g.args
  return {
    page
    member := g.text memberFlag
    keys := g.args.drop 1
    event := g.text eventFlag
    script := g.text scriptFlag
    environment := g.text environmentFlag
    pairs := g.values setFlag.name
    keepState := g.isOn stateFlag.name
    resetState := g.isOn resetStateFlag.name
    dumpVars := g.isOn varsFlag.name
    timeout := (Duration.read (g.text timeoutFlag)).toOption.getD ⟨0⟩ }

/-! ## Pages -/

/-- Work on a page as work of a command. -/
def onPage {α : Type} (work : Work Session.Error α) : Work Error α := ExceptT.adapt .session work

/-- Opens a page without running anything. -/
def inspect {α : Type} (config : Config) (c : Call) (body : Session → Work Error α) :
    Work Error α := do
  let page ← pageOf config c.given.args
  let options : RunOptions :=
    { page, member := c.given.text memberFlag, script := c.given.text scriptFlag }
  let s ← onPage (Session.withSession config options c.release.version pure)
  body s

/-- Prints the entries of a page. -/
def list (config : Config) (c : Call) : Work Error Unit :=
  inspect config c fun s => Work.print (String.join (s.entries.map Session.EntryInfo.text))

/-- Prints the problems of the scripts of a page. -/
def lint (config : Config) (c : Call) : Work Error Unit :=
  inspect config c fun s => do
    let problems := s.world.lint
    Work.print (Lint.reports problems)
    if !problems.isEmpty then throw (.problems problems.length)

/-! ## Secrets -/

/-- Does something with the secret store. -/
def withStore {α : Type} (config : Config) (operation : Secret.Operation α) : Work Error α := do
  let site ← Work.site
  let (backend, disk) ← MonadExcept.ofExcept
    ((Secret.openStore (Session.secretOptions config) site.disk site.keyring site.here
      site.home).mapError .secretStore)
  let (result, ground) := operation.run ⟨backend, disk, site.keyring, site.here⟩
  modify fun c =>
    { c with site := { c.site with disk := ground.disk, keyring := ground.keyring } }
  MonadExcept.ofExcept (result.mapError .secret)

/-- The namespace that a command works in. -/
def spaceOf (config : Config) (g : Given) : String :=
  let named := g.text namespaceFlag
  if named.isEmpty then config.secrets.space else named

/-- The first line of the input. -/
def firstLine? (input : String) : Option String :=
  let isEnd (c : Char) : Bool := c == '\r' || c == '\n'
  if input.isEmpty then none
  else some (String.ofList (Text.dropEndWhile isEnd (input.toList.takeWhile (· != '\n'))))

/-- Stores a secret; without a value it is read. -/
def secretSet (config : Config) (c : Call) : Work Error Unit := do
  let space := spaceOf config c.given
  withStore config (pure ())
  match c.given.args with
  | [key, value] => withStore config (Secret.Manager.set space key value)
  | key :: _ =>
    match firstLine? c.input with
    | some value => withStore config (Secret.Manager.set space key value)
    | none => throw .noInput
  | [] => return

/-- Prints lines. -/
def printLines (lines : List String) : Work Error Unit :=
  Work.print (String.join (lines.map (· ++ "\n")))

/-! ## The cache -/

/-- Opens the cache, even if the configuration disables it. -/
def openCache (config : Config) : Work Error Cache.Manager := do
  let site ← Work.site
  let (m, disk) ← MonadExcept.ofExcept
    ((Cache.openFile site.disk site.here (Cache.placeOf site.home config.cache.path)).mapError
      .cache)
  Work.setDisk disk
  return m

/-- Prints what is in the cache. -/
def cacheStats (config : Config) : Work Error Unit := do
  let m ← openCache config
  printLines ["keys:    " ++ toString m.size, "live:    " ++ toString m.size,
    "size:    " ++ toString m.database.fileSize ++ " bytes"]

/-! ## About the program -/

/-- The lines that tell the version. -/
def versionLines (r : Release) : List String :=
  ["", "dotpipe: pipeline macros for HTML pages",
    "By Phillarmonic Software <https://github.com/phillarmonic/dotpipe>", "",
    "Version " ++ r.version] ++
    (if r.commit == "unknown" then [] else ["commit: " ++ r.commit]) ++
    (if r.date == "unknown" then [] else ["built: " ++ r.date])

/-- The lines that make a shell ask for completions. -/
def completionLines (shell : String) : List String :=
  match shell with
  | "bash" =>
    ["_dotpipe() \x7b",
      "  local lines; lines=$(\"$\x7bCOMP_WORDS[0]\x7d\" __completeNoDesc \"$\x7bCOMP_WORDS[@]:1:COMP_CWORD\x7d\" 2>/dev/null)",
      "  mapfile -t COMPREPLY < <(compgen -W \"$(echo \"$lines\" | sed '$d')\" -- \"$\x7bCOMP_WORDS[COMP_CWORD]\x7d\")",
      "\x7d",
      "complete -o default -F _dotpipe dotpipe"]
  | "zsh" =>
    ["#compdef dotpipe",
      "_dotpipe() \x7b",
      "  local -a found; found=(\"$\x7b(@f)$(dotpipe __completeNoDesc \"$\x7bwords[@]:1:$CURRENT-1\x7d\" 2>/dev/null | sed '$d')\x7d\")",
      "  compadd -- $found || _files",
      "\x7d",
      "compdef _dotpipe dotpipe"]
  | "fish" =>
    ["function __dotpipe_words",
      "  set -l words (commandline -opc) (commandline -ct)",
      "  dotpipe __complete $words[2..-1] 2>/dev/null | sed '$d'",
      "end",
      "complete -c dotpipe -a '(__dotpipe_words)'"]
  | _ =>
    ["Register-ArgumentCompleter -CommandName dotpipe -ScriptBlock \x7b",
      "  param($word, $ast, $position)",
      "  $words = $ast.CommandElements | Select-Object -Skip 1 | ForEach-Object \x7b \"$_\" \x7d",
      "  dotpipe __completeNoDesc @words 2>$null | Select-Object -SkipLast 1",
      "\x7d"]

/-- Prints proposals for a shell. -/
def complete (config : Config) (c : Call) (described : Bool) : Work Error Unit := do
  let found ← onPage (proposals config c.release.version c.given.args)
  Work.print (String.join (found.words.map (proposalLine described)))
  printLines [":" ++ toString found.directive.code]
  modify fun console => { console with
    err := console.err ++ "Completion ended with directive: " ++ found.directive.name ++ "\n" }

/-- Prints the help of the command that words name. -/
def help (words : List String) : Work Error Unit :=
  match find words with
  | .ok (s, _) => Work.print s.help
  | .error _ =>
    let topic := "[" ++ Text.join " " (words.map fun w => "\x60" ++ w ++ "\x60") ++ "]"
    Work.print ("Unknown help topic " ++ topic ++ "\n" ++ root.usage)

/-! ## Execution -/

/-- Does the work of a command that needs no configuration, or sets up first. -/
def perform (action : Action) (c : Call) : Work Error Unit := do
  let g := c.given
  if action == .completion then printLines (completionLines (g.args.headD ""))
  else
    let config ← setup g
    match action with
    | .run => onPage (Session.execute config (← runOptions config g) c.release.version)
    | .watch => onPage (Session.rerun config (← runOptions config g) c.release.version)
    | .list => list config c
    | .lint => lint config c
    | .init =>
      let site ← Work.site
      let path := g.text configFlag
      Work.setDisk (← MonadExcept.ofExcept
        ((Config.init site.disk site.here path (g.isOn forceFlag.name)).mapError .config))
      printLines ["Created " ++ path]
    | .secretSet => secretSet config c
    | .secretGet =>
      printLines [← withStore config (Secret.Manager.get (spaceOf config g) (g.args.headD ""))]
    | .secretDelete => withStore config (Secret.Manager.delete (spaceOf config g) (g.args.headD ""))
    | .secretList =>
      printLines (← withStore config
        (if g.isOn allFlag.name then Secret.Manager.namespaces
          else Secret.Manager.list (spaceOf config g)))
    | .cacheStats => cacheStats config
    | .cacheCompact =>
      let _ ← openCache config
      printLines ["Cache compacted"]
    | .version => printLines (versionLines c.release)
    | .completion => return
    | .help => help g.args
    | .complete described => complete config c described

/-- Takes the words of a command line apart: the command and what is given to it. -/
def parse (words : List String) : Except UsageError (Spec × Given) := do
  let (s, rest) ← find words
  if s.rawWords then return (s, { args := rest })
  else return (s, ← Given.ofWords (s.helpFlag :: s.allFlags) rest)

/-- Executes a command line; a command that only holds others prints its help. -/
def execute (release : Release) (words : List String) (input : String) : Work Error Unit := do
  let (spec, given) ← MonadExcept.ofExcept ((parse words).mapError .usage)
  match spec.action with
  | some action =>
    if given.isOn "help" then Work.print spec.help
    else
      MonadExcept.ofExcept ((spec.arity.check spec given.args).mapError .usage)
      perform action { spec, given, release, input }
  | none => Work.print spec.help

/-! ## For the terminal -/

/-- What a command line calls for. -/
def action? (words : List String) : Option (Action × Given) :=
  match parse words with
  | .ok (s, g) => s.action.map fun action => (action, g)
  | .error _ => none

/-- Whether a command line needs a line of input. -/
def needsInput (words : List String) : Bool :=
  match action? words with
  | some (.secretSet, g) => g.args.length == 1
  | _ => false

/-- The files that a command line watches, once it has been executed. -/
def watchedBy (site : Site) (words : List String) : List String :=
  match action? words with
  | some (.watch, g) =>
    let find : Work Error (List String) := do
      let config ← setup g
      return Session.watchedFiles site.here config (← runOptions config g)
    (find.run { site }).1.toOption.getD []
  | _ => []

end PageMacro.Command
