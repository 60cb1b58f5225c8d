import PageMacro.Format

/-!
# What a fault is about

A caller that handles some faults and passes on others asks a fault what it is about, instead of
reading its wording. A fault with a cause is about what its cause is about.
-/

namespace PageMacro

/-- What a fault can be about. -/
inductive Concern where
  /-- An execution that was given up. -/
  | abandoned
  | unknownEntry
  | missingArgument
  | secretNotFound
  | invalidKey
  | invalidNamespace
  | valueTooLarge
  | fileNotFound
  /-- Text in an embedded format. -/
  | format (f : Format)
  /-- The status of an answer from the network. -/
  | status
  deriving BEq, DecidableEq, Repr

end PageMacro
