import PageMacro.Cache.Database
import PageMacro.Digest
import PageMacro.Format
import PageMacro.Json.Read
import PageMacro.Json.Write
import PageMacro.Text.Bytes

/-!
# The cache

The cache keeps fetched answers and the saved variables of pages in a database. A disabled cache
finds nothing and keeps nothing.
-/

namespace PageMacro.Cache

/-- A key of a fixed length for a list of parts, within a namespace. -/
def key (space : String) (parts : List String) : String :=
  let bytes := [0].intercalate (parts.map Text.bytes)
  space ++ ":" ++ Text.hex ((Digest.sha256 bytes).take 16)

/-- The key under which the variables of a page are saved. -/
def stateKey (page : String) : String := key "state" [page]

/-- The place of the database below a home directory. -/
def defaultPath (home : String) : String := home ++ "/.dotpipe/cache.solo"

/-- An open cache, and how often it was asked with and without success. -/
structure Manager where
  database : Database := {}
  disabled : Bool := false
  hits : Nat := 0
  misses : Nat := 0
  deriving BEq, DecidableEq, Repr, Inhabited

/-- Why saved variables cannot be read. -/
inductive StateError where
  | undecodable
  deriving BEq, DecidableEq, Repr

/-- The wording of a fault of saved variables. -/
def StateError.message : StateError → String
  | undecodable => "failed to decode state: " ++ Format.json.mark

namespace Manager

/-- Looks a key up. -/
def get (m : Manager) (key : String) : Option String × Manager :=
  if m.disabled then (none, m)
  else match m.database.get? key with
    | some content => (some content, { m with hits := m.hits + 1 })
    | none => (none, { m with misses := m.misses + 1 })

/-- Keeps a content under a key. -/
def set (m : Manager) (key content : String) : Manager :=
  if m.disabled then m else { m with database := m.database.put key content }

/-- Forgets a key. -/
def erase (m : Manager) (key : String) : Manager :=
  if m.disabled then m else { m with database := m.database.erase key }

/-- How many records there are. -/
def size (m : Manager) : Nat := if m.disabled then 0 else m.database.size

/-- Saves the variables of a page. -/
def saveState (m : Manager) (page : String) (state : Tree) : Option Manager :=
  (Json.compact? state).map fun text => m.set (stateKey page) text

/-- The saved variables of a page, if there are any. -/
def loadState (m : Manager) (page : String) : Except StateError (Option Tree) × Manager :=
  match m.get (stateKey page) with
  | (none, m) => (.ok none, m)
  | (some text, m) =>
    match Json.parse? text with
    | some tree => (.ok (some tree), m)
    | none => (.error .undecodable, m)

/-- The fields of a map; null stands for one without fields. -/
def fieldsOf? : Tree → Option (List (String × Tree))
  | .map fields => some fields
  | .null => some []
  | _ => none

/-- The saved variables of a page as a map of maps. -/
def loadStores (m : Manager) (page : String) :
    Except StateError (Option (List (String × List (String × Tree)))) × Manager :=
  match m.loadState page with
  | (.ok (some tree), m) =>
    match (fieldsOf? tree).bind fun entries =>
        entries.mapM fun (name, vars) => (fieldsOf? vars).map fun vars => (name, vars) with
    | some stores => (.ok (some stores), m)
    | none => (.error .undecodable, m)
  | (.ok none, m) => (.ok none, m)
  | (.error e, m) => (.error e, m)

/-- The cache opened again on the same database. -/
def reopen (m : Manager) : Manager := { m with hits := 0, misses := 0 }

end Manager

end PageMacro.Cache
