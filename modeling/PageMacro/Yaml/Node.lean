/-!
# YAML documents

A document is a tree of scalars, lists and maps. What a scalar means is left to its reader: a plain
scalar may stand for nothing or for a flag, one between quotes is always a text.
-/

namespace PageMacro.Yaml

/-- A piece of text, with or without quotes. -/
structure Scalar where
  text : String
  quoted : Bool := false
  deriving BEq, DecidableEq, Repr, Inhabited

/-- A node of a document. -/
inductive Node where
  | scalar (s : Scalar)
  | list (items : List Node)
  | map (fields : List (Scalar × Node))
  deriving Repr, Inhabited

namespace Scalar

/-- Whether a scalar stands for nothing. -/
def isNull (s : Scalar) : Bool :=
  !s.quoted && ["", "~", "null", "Null", "NULL"].contains s.text

/-- Whether a scalar is a whole number. -/
def isWhole (s : Scalar) : Bool :=
  let digits := match s.text.toList with
    | '-' :: rest => rest
    | '+' :: rest => rest
    | cs => cs
  !s.quoted && !digits.isEmpty && digits.all Char.isDigit

/-- The flag that a scalar stands for. Words for yes and no count with quotes as well, `true` and
`false` do not. -/
def flag? (s : Scalar) : Option Bool :=
  if ["y", "Y", "yes", "Yes", "YES", "on", "On", "ON"].contains s.text then some true
  else if ["n", "N", "no", "No", "NO", "off", "Off", "OFF"].contains s.text then some false
  else if s.quoted then none
  else if ["true", "True", "TRUE"].contains s.text then some true
  else if ["false", "False", "FALSE"].contains s.text then some false
  else none

end Scalar

/-- The node that stands for nothing. -/
def Node.null : Node := .scalar { text := "" }

/-- Whether a node stands for nothing. -/
def Node.isNull : Node → Bool
  | .scalar s => s.isNull
  | _ => false

end PageMacro.Yaml
