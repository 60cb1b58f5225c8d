import PageMacro.Cache.Manager
import PageMacro.Disk.Basic

/-!
# The cache on the disk
-/

namespace PageMacro.Cache

/-- Why the database cannot be opened. -/
inductive OpenError where
  | directory (cause : FileError)
  | file (cause : FileError)
  /-- The file holds something else. -/
  | foreign
  deriving BEq, DecidableEq, Repr

/-- The wording of a database that cannot be opened. -/
def OpenError.message : OpenError → String
  | directory cause => "failed to create cache directory: " ++ cause.message
  | file cause => "failed to open cache database: " ++ cause.message
  | foreign => "failed to open cache database: not a database"

/-- What a database that cannot be opened is about. -/
def OpenError.concerns : OpenError → List Concern
  | directory cause => cause.concerns
  | file cause => cause.concerns
  | foreign => []

/-- The place of the database: the one asked for, or the usual one below a home directory. -/
def placeOf (home path : String) : String := if path.isEmpty then defaultPath home else path

/-- Opens the database at a path; a new one is made if there is none. -/
def openFile (disk : Disk) (here path : String) : Except OpenError (Manager × Disk) := do
  let disk ← (disk.makeAll here (Path.directory path)).mapError .directory
  match disk.read here path with
  | .ok (.database database) => return ({ database }, disk)
  | .ok content =>
    if content == .text "" then
      let disk ← (disk.write here path (.database {})).mapError .file
      return ({}, disk)
    else throw .foreign
  | .error cause =>
    if cause.fault == .isDirectory then throw (.file ⟨.opening, path, .isDirectory⟩)
    else
      let disk ← (disk.write here path (.database {})).mapError .file
      return ({}, disk)

/-- Writes the database back. -/
def Manager.saveFile (m : Manager) (disk : Disk) (here path : String) : Disk :=
  (disk.write here path (.database m.database)).toOption.getD disk

end PageMacro.Cache
