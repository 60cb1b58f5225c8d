import PageMacro.Store

/-!
# The database of the cache

A table from keys to contents.
-/

namespace PageMacro.Cache

/-- The records of a database. -/
structure Database where
  records : List (String × String) := []
  deriving BEq, DecidableEq, Repr, Inhabited

namespace Database

/-- The content under a key. -/
def get? (db : Database) (key : String) : Option String := db.records.lookup key

/-- Stores a content under a key. -/
def put (db : Database) (key content : String) : Database := ⟨putField key content db.records⟩

/-- Removes a key. -/
def erase (db : Database) (key : String) : Database := ⟨eraseField key db.records⟩

/-- How many records there are. -/
def size (db : Database) : Nat := db.records.length

/-- The bytes of the file: a header, and for each record its key, its content and a frame. -/
def fileSize (db : Database) : Nat :=
  db.records.foldl (fun n (key, content) => n + 64 + key.utf8ByteSize + content.utf8ByteSize) 64

end Database

end PageMacro.Cache
