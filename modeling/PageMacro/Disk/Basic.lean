import PageMacro.Bundle.Archive
import PageMacro.Cache.Database
import PageMacro.Disk.Fault
import PageMacro.Path

/-!
# Files

A disk is a tree of directories and files. What a file holds is a text, an archive, a compressed
text, a table of encrypted secrets or a database. A path is looked up part by part from the
directory it is taken from; `.` and `..` are followed as they come, so every part before them must
be a directory.
-/

namespace PageMacro

/-- What a file holds. -/
inductive FileContent where
  | text (s : String)
  /-- An archive without its last `cut` bytes. -/
  | archive (a : Archive) (cut : Nat)
  /-- A compressed text without its last `cut` bytes. -/
  | compressed (s : String) (cut : Nat)
  /-- Secrets encrypted for a service. -/
  | sealed (service : String) (secrets : List (String × String))
  | database (db : Cache.Database)
  deriving BEq, DecidableEq, Repr

/-- A file or a directory. -/
inductive DiskNode where
  | directory
  | file (content : FileContent)
  deriving BEq, DecidableEq, Repr

/-- All files and directories below the root, by the parts of their paths. -/
structure Disk where
  nodes : List (List String × DiskNode) := []
  deriving Repr, Inhabited

/-- What is read from a file as text; a content of another kind reads as no text. -/
def FileContent.asText : FileContent → String
  | text s => s
  | _ => ""

namespace Disk

/-- What is at a place. -/
def node? (d : Disk) (place : List String) : Option DiskNode :=
  if place.isEmpty then some .directory else d.nodes.lookup place

/-- Whether a place is a directory. -/
def isDirectory (d : Disk) (place : List String) : Bool := d.node? place == some .directory

/-- Puts something at a place. -/
def put (d : Disk) (place : List String) (n : DiskNode) : Disk :=
  ⟨d.nodes.filter (·.1 != place) ++ [(place, n)]⟩

/-- Removes a place and all below it. -/
def removeTree (d : Disk) (place : List String) : Disk :=
  ⟨d.nodes.filter fun (p, _) => !place.isPrefixOf p⟩

/-- Follows parts from a place. -/
def follow (d : Disk) : List String → List String → Except FileFault (List String)
  | place, [] => .ok place
  | place, part :: rest =>
    if !d.isDirectory place then .error .notDirectory
    else if part == "" || part == "." then d.follow place rest
    else if part == ".." then d.follow place.dropLast rest
    else if (d.node? (place ++ [part])).isSome then d.follow (place ++ [part]) rest
    else .error .missing

/-- The parts of an absolute path. -/
def placeOf (path : String) : List String := Path.walk path

/-- The place that a path leads to from a directory. -/
def locate (d : Disk) (here path : String) : Except FileFault (List String) :=
  if path.isEmpty then .error .missing
  else d.follow (if Path.isAbsolute path then [] else placeOf here) (Path.parts path)

/-- Whether a path leads anywhere. -/
def has (d : Disk) (here path : String) : Bool := (d.locate here path).toOption.isSome

/-- What the file at a path holds. -/
def read (d : Disk) (here path : String) : Except FileError FileContent :=
  match d.locate here path with
  | .error fault => .error ⟨.opening, path, fault⟩
  | .ok place =>
    match d.node? place with
    | some (.file content) => .ok content
    | some .directory => .error ⟨.reading, path, .isDirectory⟩
    | none => .error ⟨.opening, path, .missing⟩

/-- Writes a file; its directory must be there. -/
def write (d : Disk) (here path : String) (content : FileContent) : Except FileError Disk :=
  let parts := Path.parts path
  let start := if Path.isAbsolute path then [] else placeOf here
  match d.follow start parts.dropLast, parts.getLast? with
  | .ok parent, some name =>
    if !d.isDirectory parent then .error ⟨.opening, path, .notDirectory⟩
    else if path.isEmpty then .error ⟨.opening, path, .missing⟩
    else if name == "" || name == "." || name == ".." || d.isDirectory (parent ++ [name]) then
      .error ⟨.opening, path, .isDirectory⟩
    else .ok (d.put (parent ++ [name]) (.file content))
  | .error fault, _ => .error ⟨.opening, path, fault⟩
  | _, none => .error ⟨.opening, path, .missing⟩

/-- Makes the directories of a path from the first on; `made` is the part that is there. -/
def makeFrom (d : Disk) (here made : String) : List String → Except FileError Disk
  | [] => .ok d
  | part :: rest =>
    let path := if made.isEmpty then part else if made == "/" then made ++ part
      else made ++ "/" ++ part
    match d.locate here (if path.isEmpty then "/" else path) with
    | .ok place =>
      if d.isDirectory place then d.makeFrom here (if path.isEmpty then "/" else path) rest
      else .error ⟨.making, path, .notDirectory⟩
    | .error .missing =>
      (d.put (placeOf (Path.absolute here path)) .directory).makeFrom here path rest
    | .error fault => .error ⟨.making, path, fault⟩

/-- Makes a directory and those it is in; one that is there already is left alone. -/
def makeAll (d : Disk) (here path : String) : Except FileError Disk :=
  d.makeFrom here "" (Path.parts path)

/-- What is below a place: relative paths, sorted, those of directories with a slash at the end. -/
def listing (d : Disk) (place : List String) : List String :=
  Text.sortNames (d.nodes.filterMap fun (p, n) =>
    if place.isPrefixOf p && p != place then
      some (Text.join "/" (p.drop place.length) ++ if n == .directory then "/" else "")
    else none)

end Disk

end PageMacro
