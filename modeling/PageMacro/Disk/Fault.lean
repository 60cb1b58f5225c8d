import PageMacro.Concern

/-!
# Faults of files
-/

namespace PageMacro

/-- Why a file or directory cannot be used. -/
inductive FileFault where
  | missing
  | isDirectory
  | notDirectory
  | alreadyThere
  deriving BEq, DecidableEq, Repr

/-- The wording of a file fault. -/
def FileFault.message : FileFault → String
  | missing => "no such file or directory"
  | isDirectory => "is a directory"
  | notDirectory => "not a directory"
  | alreadyThere => "file exists"

/-- What was done to a file. -/
inductive FileAction where
  | opening | reading | making | moving
  deriving BEq, DecidableEq, Repr

/-- The word for an action. -/
def FileAction.word : FileAction → String
  | opening => "open"
  | reading => "read"
  | making => "mkdir"
  | moving => "rename"

/-- A failed action, with the path as it was given; that of a move is both paths. -/
structure FileError where
  action : FileAction
  path : String
  fault : FileFault
  deriving BEq, DecidableEq, Repr

/-- The wording of a failed action. -/
def FileError.message (e : FileError) : String :=
  e.action.word ++ " " ++ e.path ++ ": " ++ e.fault.message

/-- What a failed action is about. -/
def FileError.concerns (e : FileError) : List Concern :=
  if e.fault == .missing then [.fileNotFound] else []

end PageMacro
