import PageMacro.Command.Flag
import PageMacro.Config.Basic
import PageMacro.Text.Bytes
import PageMacro.Text.Case
import PageMacro.Text.Distance

/-!
# The commands

Every command has a path of words, flags and a rule for its arguments. A command has the flags of
the commands it is in as well, as far as they are shared.
-/

namespace PageMacro.Command

/-- What a command does. -/
inductive Action where
  | run | watch | list | lint | init
  | secretSet | secretGet | secretDelete | secretList
  | cacheStats | cacheCompact
  | version | completion | help
  /-- Proposes words for a shell; with descriptions or without. -/
  | complete (described : Bool)
  deriving BEq, DecidableEq, Repr

/-- The rule for the arguments of a command. -/
inductive Arity where
  | any
  | none
  | exactly (n : Nat)
  | atMost (n : Nat)
  | atLeast (n : Nat)
  | between (least most : Nat)
  /-- One of these words. -/
  | oneOf (words : List String)
  deriving BEq, DecidableEq, Repr

/-- A command. -/
structure Spec where
  /-- The words after the program's name. -/
  path : List String
  /-- What follows the name in the line that shows the use. -/
  use : String := ""
  summary : String
  about : String := ""
  flags : List Flag := []
  /-- Flags for this command and all in it. -/
  shared : List Flag := []
  arity : Arity := .any
  /-- Nothing for a command that only holds others. -/
  action : Option Action := none
  hidden : Bool := false
  /-- Whether words are taken as they are. -/
  rawWords : Bool := false
  deriving Repr

/-! ## Flags -/

/-- Where the configuration is. -/
def configFlag : Flag :=
  { name := "config", letter := some 'c', usual := Config.defaultPath
    summary := "Workspace configuration file" }

/-- What the log shows, in place of the configured level. -/
def logLevelFlag : Flag :=
  { name := "log-level"
    summary := "Log level: debug, info, warn or error (default from config)" }

/-- The event whose entries run. -/
def eventFlag : Flag :=
  { name := "event", letter := some 'e', usual := "load"
    summary := "Trigger event whose entries run when no key is given" }

/-- The page inside an archive. -/
def memberFlag : Flag :=
  { name := "file-member", letter := some 'm'
    summary := "Page inside an archive (default: index.html)" }

/-- The script file with the functions of the page. -/
def scriptFlag : Flag :=
  { name := "script", letter := some 's'
    summary := "Starlark file whose functions the call verb can reach" }

/-- The environment whose settings files count. -/
def environmentFlag : Flag :=
  { name := "env", summary := "Also read .env.<name> files beside the page" }

/-- A variable for all entries. -/
def setFlag : Flag :=
  { name := "set", kind := .many
    summary := "Pre-seed a variable in every entry (name=value)" }

/-- Keeps variables from run to run. -/
def stateFlag : Flag :=
  { name := "state", kind := .toggle
    summary := "Restore entry variables from the last run and save them afterwards" }

/-- Forgets kept variables. -/
def resetStateFlag : Flag :=
  { name := "reset-state", kind := .toggle
    summary := "Forget saved entry variables before running" }

/-- Prints the variables. -/
def varsFlag : Flag :=
  { name := "vars", kind := .toggle
    summary := "Print entry variables as JSON instead of the page" }

/-- How long executions may wait. -/
def timeoutFlag : Flag :=
  { name := "timeout", letter := some 't', kind := .duration, usual := "30s"
    summary := "Abandon executions still suspended after this long (0 disables)" }

/-- Replaces a configuration that is there. -/
def forceFlag : Flag :=
  { name := "force", kind := .toggle, summary := "Overwrite an existing configuration" }

/-- The namespace of secrets. -/
def namespaceFlag : Flag :=
  { name := "namespace", letter := some 'n'
    summary := "Secret namespace (default from config)" }

/-- Lists namespaces. -/
def allFlag : Flag :=
  { name := "all", kind := .toggle, summary := "List namespaces instead of names" }

/-- The flags of commands that run a page. -/
def runFlags : List Flag :=
  [eventFlag, memberFlag, scriptFlag, environmentFlag, setFlag, stateFlag, resetStateFlag, varsFlag,
    timeoutFlag]

/-! ## Commands -/

/-- The program's name. -/
def programName : String := "dotpipe"

/-- The shells that completion scripts can be made for. -/
def shells : List String := ["bash", "zsh", "fish", "powershell"]

/-- What the program does. -/
def programAbout : String :=
  String.join ["dotpipe runs the pipeline scripts carried by the \"inline\" attribute of\n",
    "elements in an HTML page and prints the resulting document.\n",
    "\n",
    "Examples:\n",
    "  dotpipe run page.html                  # Run every entry bound to \"load\"\n",
    "  dotpipe run page.html counter          # Run the entry keyed \"counter\"\n",
    "  dotpipe run site.zip --event click     # Run the click entries of a bundled page\n",
    "  dotpipe run page.html --vars           # Dump entry variables as JSON\n",
    "  dotpipe lint page.html                 # Report malformed segments\n",
    "  dotpipe watch page.html                # Re-run on every save"]

/-- How completion scripts are used. -/
def completionAbout : String :=
  String.join ["Generate shell completion script for dotpipe.\n",
    "\n",
    "Bash:\n",
    "\n",
    "  $ source <(dotpipe completion bash)\n",
    "\n",
    "Zsh:\n",
    "\n",
    "  $ dotpipe completion zsh > \"$\x7bfpath[1]\x7d/_dotpipe\"\n",
    "\n",
    "Fish:\n",
    "\n",
    "  $ dotpipe completion fish | source\n",
    "\n",
    "PowerShell:\n",
    "\n",
    "  PS> dotpipe completion powershell | Out-String | Invoke-Expression\n"]

/-- The program itself. -/
def root : Spec :=
  { path := [], summary := "Run pipeline macros embedded in HTML pages", about := programAbout
    shared := [configFlag, logLevelFlag] }

/-- All commands of the program. -/
def commands : List Spec :=
  [{ path := ["run"], use := "[PAGE] [KEY...]", action := some .run, flags := runFlags
     summary := "Run a page's entries and print the result" },
   { path := ["watch"], use := "[PAGE] [KEY...]", action := some .watch, flags := runFlags
     summary := "Run a page again every time it changes" },
   { path := ["list"], use := "[PAGE]", action := some .list, flags := [memberFlag]
     arity := .atMost 1, summary := "List a page's entries, their events and segments" },
   { path := ["lint"], use := "[PAGE]", action := some .lint, flags := [memberFlag, scriptFlag]
     arity := .atMost 1, summary := "Report malformed segments and unknown verbs" },
   { path := ["init"], action := some .init, flags := [forceFlag], arity := .none
     summary := "Create a workspace configuration file" },
   { path := ["secret"], shared := [namespaceFlag]
     summary := "Manage credentials read by the secret verb" },
   { path := ["secret", "set"], use := "NAME [VALUE]", action := some .secretSet
     arity := .between 1 2
     summary := "Store a secret (reads VALUE from stdin when omitted)" },
   { path := ["secret", "get"], use := "NAME", action := some .secretGet, arity := .exactly 1
     summary := "Print a secret" },
   { path := ["secret", "delete"], use := "NAME", action := some .secretDelete
     arity := .exactly 1, summary := "Remove a secret" },
   { path := ["secret", "list"], action := some .secretList, flags := [allFlag], arity := .none
     summary := "List secret names, or namespaces with --all" },
   { path := ["cache"], summary := "Inspect and maintain the response and state cache" },
   { path := ["cache", "stats"], action := some .cacheStats, arity := .none
     summary := "Show cache statistics" },
   { path := ["cache", "compact"], action := some .cacheCompact, arity := .none
     summary := "Reclaim space held by expired and deleted records" },
   { path := ["version"], action := some .version, arity := .none
     summary := "Show version information" },
   { path := ["completion"], use := "[bash|zsh|fish|powershell]", action := some .completion
     arity := .oneOf shells, summary := "Generate completion script", about := completionAbout },
   { path := ["help"], use := "[command]", action := some .help
     summary := "Help about any command"
     about := String.join ["Help provides help for any command in the application.\n",
       "Simply type dotpipe help [path to command] for full details."] },
   { path := ["__complete"], action := some (.complete true), arity := .atLeast 1
     hidden := true, rawWords := true
     summary := "Request shell completion choices for the specified command-line" },
   { path := ["__completeNoDesc"], action := some (.complete false), arity := .atLeast 1
     hidden := true, rawWords := true
     summary := "Request shell completion choices for the specified command-line" }]

namespace Spec

/-- The last word of a command. -/
def name (s : Spec) : String := (s.path.getLast?).getD programName

/-- The words of a command as they are typed. -/
def fullName (s : Spec) : String := Text.join " " (programName :: s.path)

/-- The commands directly in this one. -/
def children (s : Spec) : List Spec :=
  commands.filter fun c => !c.path.isEmpty && c.path.dropLast == s.path

/-- The command of a name in this one. -/
def child? (s : Spec) (name : String) : Option Spec := s.children.find? fun c => c.name == name

/-- The commands that this one is in, from the outside to the inside. -/
def parents (s : Spec) : List Spec :=
  (root :: commands).filter fun c => c.path.isPrefixOf s.path && c.path != s.path

/-- The flags that a command has from those it is in. -/
def inherited (s : Spec) : List Flag := s.parents.flatMap (·.shared)

/-- The flags of a command. -/
def allFlags (s : Spec) : List Flag := s.flags ++ s.shared ++ s.inherited

/-- The flag that asks for help. -/
def helpFlag (s : Spec) : Flag :=
  { name := "help", letter := some 'h', kind := .toggle, summary := "help for " ++ s.name }

end Spec

/-- Finds the command that words name from a command on, at most `depth` levels down; gives the
words without the command's name. -/
def findFrom : (depth : Nat) → Spec → List String → Spec × List String
  | 0, s, words => (s, words)
  | depth + 1, s, words =>
    match arguments s.allFlags words with
    | [] => (s, words)
    | name :: _ =>
      match s.child? name with
      | some c => findFrom depth c (withoutArgument s.allFlags name words)
      | none => (s, words)

/-- The names of commands that are like a word: few changes away, or starting with it. -/
def similarTo (word : String) : List String :=
  let bytes (s : String) : List UInt8 := Text.bytes (Text.lower s)
  (root.children.filter fun c => !c.hidden &&
    (Text.distance (bytes word) (bytes c.name) ≤ 2 ||
      Text.beginsWith (Text.lower word) (Text.lower c.name))).map Spec.name

/-- Finds the command that words name. The program itself has no arguments. -/
def find (words : List String) : Except UsageError (Spec × List String) :=
  let (s, rest) := findFrom words.length root words
  match arguments s.allFlags rest with
  | word :: _ =>
    if s.path.isEmpty then .error (.unknownCommand word s.fullName (similarTo word))
    else .ok (s, rest)
  | [] => .ok (s, rest)

/-- Checks the number of arguments. -/
def Arity.check (a : Arity) (s : Spec) (args : List String) : Except UsageError Unit :=
  let n := args.length
  let require (ok : Bool) (e : UsageError) : Except UsageError Unit :=
    if ok then .ok () else .error e
  match a with
  | any => .ok ()
  | none => match args with
    | [] => .ok ()
    | word :: _ => .error (.unknownCommand word s.fullName [])
  | exactly count => require (n == count) (.exactly count n)
  | atMost count => require (n ≤ count) (.atMost count n)
  | atLeast count => require (count ≤ n) (.atLeast count n)
  | between least most => require (least ≤ n && n ≤ most) (.between least most n)
  | oneOf words => match args with
    | [word] => require (words.contains word) (.invalidArgument word s.fullName)
    | _ => .error (.exactly 1 n)

end PageMacro.Command
