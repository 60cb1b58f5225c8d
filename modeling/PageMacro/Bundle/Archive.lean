import PageMacro.Text.Bytes
import PageMacro.Text.Case
import PageMacro.Text.Pieces

/-!
# Archives

An archive is given by its format and its entries in order; how it is compressed does not matter
here. A file can also be a single compressed text, and either may have lost bytes at its end. What
kind of file a name promises is decided by the endings it contains.
-/

namespace PageMacro

/-- The formats of archives. -/
inductive ArchiveFormat where
  | zip | tar | tarGzip
  deriving BEq, DecidableEq, Repr

/-- What an entry of an archive holds. -/
inductive ArchiveItem where
  | file (content : String)
  | directory
  /-- A link, which is never extracted. -/
  | link (target : String)
  deriving BEq, DecidableEq, Repr

/-- An entry of an archive. -/
structure ArchiveEntry where
  name : String
  item : ArchiveItem
  deriving BEq, DecidableEq, Repr

/-- The name stored in the archive: that of a directory ends in a slash. -/
def ArchiveEntry.storedName (e : ArchiveEntry) : String :=
  match e.item with
  | .directory => if Text.endsIn "/" e.name then e.name else e.name ++ "/"
  | _ => e.name

/-- The bytes of an entry's content. -/
def ArchiveEntry.size (e : ArchiveEntry) : Nat :=
  match e.item with
  | .file content => Text.byteCount content
  | _ => 0

/-- An archive. -/
structure Archive where
  format : ArchiveFormat
  entries : List ArchiveEntry
  deriving BEq, DecidableEq, Repr

namespace Archive

/-- The bytes of a block of a tape archive. -/
def block : Nat := 512

/-- The bytes that a content takes up in a tape archive, which are whole blocks. -/
def paddedSize (e : ArchiveEntry) : Nat := (e.size + block - 1) / block * block

/-- The bytes of a tape archive: a block and the content of each entry, and two blocks at the
end. -/
def tapeSize (entries : List ArchiveEntry) : Nat :=
  entries.foldl (fun n e => n + block + paddedSize e) (2 * block)

/-- The endings of names of compressed files. -/
def compressedEndings : List String :=
  [".br", ".bz2", ".gz", ".lz4", ".lz", ".mz", ".sz", ".xz", ".zz", ".zst"]

/-- Whether a file name contains an ending. -/
def named (ending name : String) : Bool := Text.contains ending (Text.lower name)

/-- The endings that are taken off the name of a compressed page. -/
def droppedEndings : List String := [".gz", ".bz2", ".xz", ".zst", ".br", ".lz4", ".sz"]

/-- The name of a compressed page without the ending that says so. -/
def plainName (name : String) : String :=
  match droppedEndings.find? fun ending => Text.endsIn ending (Text.lower name) with
  | some ending => String.ofList (name.toList.take (name.toList.length - ending.toList.length))
  | none => name

end Archive

end PageMacro
