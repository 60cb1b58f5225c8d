import PageMacro.Value.Basic

/-!
# Variable stores

Every entry and every shell has a store of named values. A store counts its writes: `revision` is
their number and `written` remembers the revision of each name's last write, so that a later merge
can tell which names were written after a given point. Reading an unset name gives undefined.
-/

namespace PageMacro

/-- Puts a value under a name, in place if the name is there and at the end otherwise. -/
def putField {α : Type} (name : String) (value : α) : List (String × α) → List (String × α)
  | [] => [(name, value)]
  | (key, old) :: rest =>
    if key == name then (name, value) :: rest else (key, old) :: putField name value rest

/-- Removes a name. -/
def eraseField {α : Type} (name : String) (fields : List (String × α)) : List (String × α) :=
  fields.filter fun (key, _) => key != name

/-- Named values with a record of when each name was last written. -/
structure Store where
  vars : List (String × Value) := []
  revision : Nat := 0
  written : List (String × Nat) := []
  deriving Inhabited

namespace Store

/-- The store without variables. -/
def empty : Store := {}

/-- The value of a name, undefined if it is not set. -/
def get (s : Store) (name : String) : Value :=
  (s.vars.lookup name).getD .undefined

/-- The value of a name that is set to something defined. -/
def lookup? (s : Store) (name : String) : Option Value :=
  match s.vars.lookup name with
  | some .undefined => none
  | found => found

/-- Whether a name is set to something defined. -/
def has (s : Store) (name : String) : Bool := (s.lookup? name).isSome

/-- Counts a write of a name. -/
def touch (s : Store) (name : String) : Store :=
  { s with revision := s.revision + 1, written := putField name (s.revision + 1) s.written }

/-- Sets a name. -/
def set (s : Store) (name : String) (value : Value) : Store :=
  { s with vars := putField name value s.vars }.touch name

/-- Removes a name; that counts as a write too. -/
def delete (s : Store) (name : String) : Store :=
  { s with vars := eraseField name s.vars }.touch name

/-- Sets several names, one after the other. -/
def setAll (s : Store) (values : List (String × Value)) : Store :=
  values.foldl (fun s (name, value) => s.set name value) s

/-- Copies every variable of `other`; its values win. -/
def merge (s other : Store) : Store := s.setAll other.vars

/-- The revision of the last write of a name; zero if it was never written. -/
def lastWrite (s : Store) (name : String) : Nat := (s.written.lookup name).getD 0

/-- Copies the variables of `other` whose names were not written after `mark`, and lists the names
that were, sorted. Whether a name counts as written is judged by the store at that moment of the
merge. -/
def mergeSince (s other : Store) (mark : Nat) : Store × List String :=
  let (merged, skipped) := other.vars.foldl
    (fun (s, skipped) (name, value) =>
      if mark < s.lastWrite name then (s, name :: skipped) else (s.set name value, skipped))
    (s, [])
  (merged, Text.sortNames skipped)

/-- How many variables there are. -/
def size (s : Store) : Nat := s.vars.length

/-- The names, sorted. -/
def names (s : Store) : List String := Text.sortNames (s.vars.map (·.1))

end Store

end PageMacro
