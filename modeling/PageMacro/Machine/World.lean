import PageMacro.Document
import PageMacro.Verb.Basic

/-!
# The state shared by all executions

A page has entries, one for each element with a script, and shells, isolated scopes that scripts
open and close. Entries and shells have identities: an execution keeps the entry it started with,
and the shell it is in, even when another one is later filed under the same key or name. `World`
holds all of them, together with the page, the verbs and the log.
-/

namespace PageMacro

/-- The place of an entry in the world. -/
abbrev EntryId := Nat

/-- The place of a shell in the world. -/
abbrev ShellId := Nat

/-- An element with a script, and the variables that stay between its runs. -/
structure Entry where
  key : String
  script : String
  element : NodeId
  vars : Store := {}
  deriving Inhabited

/-- A scope of its own inside an entry, with the rest of the script it was opened with. -/
structure Shell where
  name : String
  /-- The key of the entry it belongs to. -/
  entry : String
  /-- The target as written. -/
  target : String
  element : NodeId
  vars : Store := {}
  segments : List String
  deriving Inhabited

/-- The shared state. -/
structure World where
  document : Document
  /-- The attribute that holds scripts. -/
  scriptAttr : String := "inline"
  verbs : Registry := []
  globals : Option Globals := none
  /-- All entries there ever were, by identity. -/
  entries : Array Entry := #[]
  /-- The entries by key. -/
  table : List (String × EntryId) := []
  /-- The keys in the order of their registration. -/
  order : List String := []
  /-- All shells there ever were, by identity. -/
  shells : Array Shell := #[]
  /-- The open shells by the key of their entry and their name. -/
  openShells : List ((String × String) × ShellId) := []
  /-- How many keys have been made up. -/
  generated : Nat := 0
  /-- The nanoseconds that have passed since the page was loaded. -/
  now : Int := 0
  log : List Record := []

namespace World

/-- The entry of an identity. -/
def entry (w : World) (e : EntryId) : Entry := (w.entries[e]?).getD default

/-- The shell of an identity. -/
def shell (w : World) (s : ShellId) : Shell := (w.shells[s]?).getD default

/-- The entry filed under a key. -/
def lookup? (w : World) (key : String) : Option EntryId := w.table.lookup key

/-- Writes a record. -/
def report (w : World) (level : Level) (message : String) (attrs : LogAttrs) : World :=
  { w with log := w.log ++ [⟨level, message, attrs⟩] }

/-- Changes the variables of an entry. -/
def modifyEntryVars (w : World) (e : EntryId) (f : Store → Store) : World :=
  { w with entries := w.entries.modify e fun entry => { entry with vars := f entry.vars } }

/-- Changes the variables of a shell. -/
def modifyShellVars (w : World) (s : ShellId) (f : Store → Store) : World :=
  { w with shells := w.shells.modify s fun shell => { shell with vars := f shell.vars } }

/-! ## Open shells -/

/-- The open shell of an entry with a name. -/
def openShell? (w : World) (key name : String) : Option ShellId :=
  w.openShells.lookup (key, name)

/-- Opens a shell: one that is open already is used as it is; a new one starts without variables
and is bound to the target, or to the entry's element if there is no such target. Gives the shell
and whether it was open already. -/
def openShell (w : World) (e : EntryId) (target name : String) (body : List String) :
    World × ShellId × Bool :=
  let entry := w.entry e
  match w.openShell? entry.key name with
  | some s => (w, s, true)
  | none =>
    let element := (w.document.elementById? target).getD entry.element
    let s := w.shells.size
    let shell : Shell := { name, entry := entry.key, target, element, segments := body }
    ({ w with
        shells := w.shells.push shell
        openShells := w.openShells ++ [((entry.key, name), s)] }, s, false)

/-- Takes an open shell off the list without merging it. -/
def detachShell (w : World) (key name : String) : Option (World × ShellId) :=
  (w.openShell? key name).map fun s =>
    ({ w with openShells := w.openShells.filter fun (k, _) => k != (key, name) }, s)

/-- Closes a shell: its variables go into the entry. Gives whether it was open. -/
def closeShell (w : World) (e : EntryId) (name : String) : World × Bool :=
  match w.detachShell (w.entry e).key name with
  | some (w, s) => (w.modifyEntryVars e (·.merge (w.shell s).vars), true)
  | none => (w, false)

/-- The open shells of an entry, sorted by name. -/
def shellsOf (w : World) (key : String) : List Shell :=
  let found := w.openShells.filterMap fun ((k, name), s) => if k == key then some (name, s) else none
  (Tree.sortFields found).map fun (_, s) => w.shell s

/-- Forgets the open shells of an entry without merging them. -/
def dropShells (w : World) (key : String) : World :=
  { w with openShells := w.openShells.filter fun ((k, _), _) => k != key }

end World

end PageMacro
