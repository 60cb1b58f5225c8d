import PageMacro.Decimal.Layout
import PageMacro.Text.Pieces

/-!
# Trees of host data

An object value carries data that scripts pass around without looking inside: decoded JSON, lists
and tables made by a script, a page element, or a small record of the host. A tree prints in one
line: a list between brackets, a map as `map[key:value …]` with sorted keys.
-/

namespace PageMacro

/-- The identity of a node of the page. It survives the node's removal from the page. -/
structure NodeId where
  index : Nat
  deriving BEq, DecidableEq, Repr, Inhabited, Hashable, Ord

/-- The data inside an object value. -/
inductive Tree where
  | null
  | bool (b : Bool)
  | num (x : Float)
  /-- A whole number kept exactly. -/
  | int (n : Int)
  | str (s : String)
  | list (items : List Tree)
  | map (fields : List (String × Tree))
  /-- A map from whole numbers to text. -/
  | intMap (fields : List (Int × String))
  /-- A host record with one whole number in it. -/
  | record (field : Int)
  | element (node : NodeId)
  deriving Inhabited

namespace Tree

/-- The text of a flag. -/
def boolText (b : Bool) : String := if b then "true" else "false"

/-- Sorts fields by name. -/
def sortFields {α : Type} (fields : List (String × α)) : List (String × α) :=
  fields.mergeSort fun a b => decide (a.1 ≤ b.1)

/-- Sorts fields by number. -/
def sortIntFields {α : Type} (fields : List (Int × α)) : List (Int × α) :=
  fields.mergeSort fun a b => decide (a.1 ≤ b.1)

mutual

/-- The one-line text of a tree; `label` names the elements. -/
def text (label : NodeId → String) : Tree → String
  | null => "<nil>"
  | bool b => boolText b
  | num x => Decimal.Layout.general.write x
  | int n => toString n
  | str s => s
  | list items => "[" ++ Text.join " " (itemTexts label items) ++ "]"
  | map fields =>
    let shown := sortFields (fieldTexts label fields)
    "map[" ++ Text.join " " (shown.map fun (key, value) => key ++ ":" ++ value) ++ "]"
  | intMap fields =>
    let shown := sortIntFields fields
    "map[" ++ Text.join " " (shown.map fun (key, value) => toString key ++ ":" ++ value) ++ "]"
  | record field => "\x7b" ++ toString field ++ "\x7d"
  | element node => label node

/-- The texts of the items of a list. -/
def itemTexts (label : NodeId → String) : List Tree → List String
  | [] => []
  | item :: rest => text label item :: itemTexts label rest

/-- The texts of the fields of a map. -/
def fieldTexts (label : NodeId → String) : List (String × Tree) → List (String × String)
  | [] => []
  | (key, value) :: rest => (key, text label value) :: fieldTexts label rest

end

/-- Whether two trees are the same by comparison: numbers, texts, flags, records and elements can
be compared; lists and maps equal nothing, not even themselves. -/
def same : Tree → Tree → Bool
  | bool a, bool b => a == b
  | num a, num b => a == b
  | int a, int b => a == b
  | str a, str b => a == b
  | record a, record b => a == b
  | element a, element b => a == b
  | _, _ => false

/-- The value of a field. -/
def field? (name : String) : Tree → Option Tree
  | map fields => fields.lookup name
  | _ => none

end Tree

end PageMacro
