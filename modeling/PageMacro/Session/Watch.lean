import PageMacro.Session.Open

/-!
# Watching a page

A watched page is run again whenever its file or its script file is written, made or renamed. A run
that fails is only reported, so that the next change can mend it.
-/

namespace PageMacro.Session

/-- What can happen to a file. -/
inductive Change where
  | create | write | remove | rename | chmod
  deriving BEq, DecidableEq, Repr

/-- The name of a change. -/
def Change.name : Change → String
  | create => "create"
  | write => "write"
  | remove => "remove"
  | rename => "rename"
  | chmod => "chmod"

/-- The change of a name. -/
def Change.ofName? (name : String) : Option Change :=
  [create, write, remove, rename, chmod].find? fun c => c.name == name

/-- Whether a change can give a file a new content. -/
def Change.renews : Change → Bool
  | create => true
  | write => true
  | rename => true
  | remove => false
  | chmod => false

/-- The absolute paths of the files that a run depends on. -/
def watchedFiles (here : String) (config : Config) (options : RunOptions) : List String :=
  ([options.page, scriptPath config options].filter (!·.isEmpty)).map (Path.absolute here)

/-- Whether changes of a file call for another run. -/
def isRelevant (here : String) (files : List String) (name : String) (changes : List Change) :
    Bool :=
  changes.any Change.renews && files.contains (Path.absolute here name)

/-- Runs a page; a failure is reported and otherwise ignored. The end of the program is the end of
the watching too. -/
def rerun (config : Config) (options : RunOptions) (version : String) : Work Error Unit := do
  let (result, console) := (execute config options version).run (← get)
  set console
  match result with
  | .ok _ => return
  | .error .crashed => throw .crashed
  | .error e =>
    Work.log [⟨.error, "run failed", [("page", .text options.page), ("error", .text e.message)]⟩]

end PageMacro.Session
