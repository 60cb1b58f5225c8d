import PageMacro.Store
import PageMacro.Url.Encoding

/-!
# Queries

A query is a list of named values. Pairs that cannot be read are left out; a query is written with
its names in order.
-/

namespace PageMacro.Url

/-- One pair of a query. -/
def readPair? (s : String) : Option (String × String) := do
  if s.isEmpty || s.contains ';' then none
  else
    let (name, value) := (Text.cut '=' s).getD (s, "")
    return (← unescape? .query name, ← unescape? .query value)

/-- The pairs of a query. -/
def readQuery (s : String) : List (String × String) :=
  (Text.splitAtChar '&' s).filterMap readPair?

/-- A query without the values of a name except for a new one. -/
def setPair (name value : String) (pairs : List (String × String)) : List (String × String) :=
  eraseField name pairs ++ [(name, value)]

/-- How a query is written: sorted by name, the values of a name in their order. -/
def queryText (pairs : List (String × String)) : String :=
  Text.join "&" ((Tree.sortFields pairs).map fun (name, value) =>
    escape .query name ++ "=" ++ escape .query value)

end PageMacro.Url
