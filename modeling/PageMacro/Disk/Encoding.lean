import PageMacro.Disk.Basic
import PageMacro.Json.Read
import PageMacro.Json.Write

/-!
# Contents of files as text

A database is written as JSON below a heading that tells it from other texts. Archives and encrypted
secrets have no text.
-/

namespace PageMacro.FileContent

/-- The first line of a database. -/
def databaseHeading : String := "page macro cache\n"

/-- The text of a content, if it has one. -/
def encode? : FileContent → Option String
  | text s => some s
  | database db =>
    (Json.compact? (.map (db.records.map fun (key, content) => (key, .str content)))).map
      (databaseHeading ++ ·)
  | _ => none

/-- The records of a table of texts. -/
def records? : Tree → Option (List (String × String))
  | .map fields => fields.mapM fun (key, value) =>
    match value with
    | .str content => some (key, content)
    | _ => none
  | _ => none

/-- The content of a text. -/
def decode (s : String) : FileContent :=
  if Text.beginsWith databaseHeading s then
    match (Json.parse? (Text.withoutStart databaseHeading s)).bind records? with
    | some records => .database ⟨records⟩
    | none => .text s
  else .text s

end PageMacro.FileContent
