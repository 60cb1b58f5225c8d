import PageMacro.Value.Basic

/-!
# Script data

The data that passes between a page and its scripts. `Data.ofValue` is what a script sees of a
pipeline value, `Data.toValue` what the page gets back. Whole numbers of a size that a double holds
exactly come to a script as whole numbers; lists and maps keep their shape.
-/

namespace PageMacro.Script

/-- A script value with everything it holds. -/
inductive Data where
  | none
  | bool (b : Bool)
  | int (n : Int)
  | float (x : Float)
  | str (s : String)
  | bytes (s : String)
  | list (items : List Data)
  | tuple (items : List Data)
  | dict (entries : List (Data × Data))
  | set (items : List Data)
  /-- Anything else: the name of its type, its text, and a number that tells it from others. -/
  | other (type text : String) (id : Nat)
  deriving Inhabited

namespace Data

/-- The name of a value's type. -/
def type : Data → String
  | none => "NoneType"
  | bool _ => "bool"
  | int _ => "int"
  | float _ => "float"
  | str _ => "string"
  | bytes _ => "bytes"
  | list _ => "list"
  | tuple _ => "tuple"
  | dict _ => "dict"
  | set _ => "set"
  | other type _ _ => type

/-! ## Text -/

/-- The text of a double: never mistaken for that of a whole number. -/
def floatText (x : Float) : String :=
  if x.isNaN then "nan"
  else if x.isInf then if x < 0.0 then "-inf" else "+inf"
  else
    let s := Decimal.Layout.general.write x
    if s.contains '.' || s.contains 'e' then s else s ++ ".0"

mutual

/-- The text of a value as a script shows it: texts are quoted. -/
def repr : Data → String
  | none => "None"
  | bool b => if b then "True" else "False"
  | int n => toString n
  | float x => floatText x
  | str s => Text.quoted s
  | bytes s => "b" ++ Text.quoted s
  | list items => "[" ++ Text.join ", " (reprs items) ++ "]"
  | tuple [item] => "(" ++ repr item ++ ",)"
  | tuple items => "(" ++ Text.join ", " (reprs items) ++ ")"
  | dict entries => "\x7b" ++ Text.join ", " (entryReprs entries) ++ "\x7d"
  | set items => "set([" ++ Text.join ", " (reprs items) ++ "])"
  | other _ text _ => text

/-- The texts of several values. -/
def reprs : List Data → List String
  | [] => []
  | item :: rest => repr item :: reprs rest

/-- The texts of the entries of a dictionary. -/
def entryReprs : List (Data × Data) → List String
  | [] => []
  | (key, value) :: rest => (repr key ++ ": " ++ repr value) :: entryReprs rest

end

/-- The text of a value on its own: a text stands for itself. -/
def text : Data → String
  | str s => s
  | d => repr d

/-! ## Between values and data -/

mutual

/-- What a script sees of host data; `label` names the elements. -/
def ofTree (label : NodeId → String) : Tree → Data
  | .null => none
  | .bool b => bool b
  | .num x => float x
  | .int n => int n
  | .str s => str s
  | .list items => list (ofTrees label items)
  | .map fields => dict (ofFields label fields)
  | .intMap fields => dict (fields.map fun (key, value) => (str (toString key), str value))
  | t@(.record _) => str (t.text label)
  | t@(.element _) => str (t.text label)

/-- What a script sees of several trees. -/
def ofTrees (label : NodeId → String) : List Tree → List Data
  | [] => []
  | item :: rest => ofTree label item :: ofTrees label rest

/-- What a script sees of the fields of a map. -/
def ofFields (label : NodeId → String) : List (String × Tree) → List (Data × Data)
  | [] => []
  | (key, value) :: rest => (str key, ofTree label value) :: ofFields label rest

end

/-- A number for a script: whole if it is a whole number below `2 ^ 53` in size. -/
def ofNumber (x : Float) : Data :=
  let n := Value.truncate x
  if Float.ofInt n == x && n.natAbs < 0x20000000000000 then int n else float x

/-- What a script sees of a value. -/
def ofValue (label : NodeId → String) : Value → Data
  | .undefined => none
  | .boolean b => bool b
  | .number x => ofNumber x
  | .string s => str s
  | .object t => ofTree label t

/-- The name of a field made from a key: a key that is no text goes by the text shown for it. -/
def fieldName : Data → String
  | str s => s
  | d => repr d

mutual

/-- The host data that a script value stands for. -/
def toTree : Data → Tree
  | none => .null
  | bool b => .bool b
  | int n => .num (Float.ofInt n)
  | float x => .num x
  | str s => .str s
  | list items => .list (toTrees items)
  | tuple items => .list (toTrees items)
  | dict entries => .map (toFields entries [])
  | d@(bytes _) => .str (repr d)
  | d@(set _) => .str (repr d)
  | other _ text _ => .str text

/-- The host data of several values. -/
def toTrees : List Data → List Tree
  | [] => []
  | item :: rest => toTree item :: toTrees rest

/-- The fields of a dictionary; of two keys with one name the later gives the value. -/
def toFields : List (Data × Data) → List (String × Tree) → List (String × Tree)
  | [], fields => fields
  | (key, value) :: rest, fields =>
    let name := fieldName key
    let tree := toTree value
    toFields rest (if fields.any (·.1 == name) then
      fields.map fun f => if f.1 == name then (name, tree) else f
      else fields ++ [(name, tree)])

end

/-- The value a page gets back. -/
def toValue (d : Data) : Value := Value.ofTree d.toTree

/-! ## Comparison -/

/-- Whether a whole number equals a double. -/
def intIsFloat (n : Int) (x : Float) : Bool :=
  match Decimal.classify x with
  | .finite negative ⟨significand, exponent, _⟩ =>
    let m := if negative then -n else n
    m * Nat.pow 2 (-exponent).toNat == significand * Nat.pow 2 exponent.toNat
  | _ => false

/-- How two numbers compare; a double that is not a number is above all others and equal to
itself. -/
def compareFloats (x y : Float) : Ordering :=
  if x < y then .lt else if y < x then .gt else if x == y then .eq
  else if x.isNaN then (if y.isNaN then .eq else .gt) else .lt

/-- How a whole number compares with a double. -/
def compareIntFloat (n : Int) (x : Float) : Ordering :=
  match Decimal.classify x with
  | .nan => .lt
  | .infinite negative => if negative then .gt else .lt
  | .finite negative ⟨significand, exponent, _⟩ =>
    let m : Int := significand * Nat.pow 2 exponent.toNat
    compare (n * Nat.pow 2 (-exponent).toNat) (if negative then -m else m)

mutual

/-- Whether two values are equal. Dictionaries and sets are equal when each finds the keys of the
other. -/
def same : Data → Data → Bool
  | none, none => true
  | bool a, bool b => a == b
  | int a, int b => a == b
  | int a, float b => intIsFloat a b
  | float a, int b => intIsFloat b a
  | float a, float b => compareFloats a b == .eq
  | str a, str b => a == b
  | bytes a, bytes b => a == b
  | list a, list b => sames a b
  | tuple a, tuple b => sames a b
  | dict a, dict b => a.length == b.length && entriesIn a b
  | set a, set b => a.length == b.length && allIn a b
  | other t a i, other u b j => t == u && a == b && i == j
  | _, _ => false

/-- Whether two lists are equal item by item. -/
def sames : List Data → List Data → Bool
  | [], [] => true
  | a :: as, b :: bs => same a b && sames as bs
  | _, _ => false

/-- Whether every entry of the first dictionary is in the second. -/
def entriesIn : List (Data × Data) → List (Data × Data) → Bool
  | [], _ => true
  | (key, value) :: rest, b =>
    b.any (fun e => same key e.1 && same value e.2) && entriesIn rest b

/-- Whether every item of the first list is in the second. -/
def allIn : List Data → List Data → Bool
  | [], _ => true
  | a :: rest, b => b.any (fun e => same a e) && allIn rest b

end

/-- Byte sequences compare by their first differing bytes. -/
def compareBytes : List UInt8 → List UInt8 → Ordering
  | [], [] => .eq
  | [], _ :: _ => .lt
  | _ :: _, [] => .gt
  | a :: as, b :: bs => if a < b then .lt else if b < a then .gt else compareBytes as bs

mutual

/-- How two values of an ordered type compare. -/
def order? : Data → Data → Option Ordering
  | bool a, bool b => some (compare a.toNat b.toNat)
  | int a, int b => some (compare a b)
  | int a, float b => some (compareIntFloat a b)
  | float a, int b => some (compareIntFloat b a).swap
  | float a, float b => some (compareFloats a b)
  | str a, str b => some (compareBytes (Text.bytes a) (Text.bytes b))
  | bytes a, bytes b => some (compareBytes (Text.bytes a) (Text.bytes b))
  | list a, list b => orders? a b
  | tuple a, tuple b => orders? a b
  | _, _ => Option.none

/-- Lists compare by their first differing items. -/
def orders? : List Data → List Data → Option Ordering
  | [], [] => some .eq
  | [], _ :: _ => some .lt
  | _ :: _, [] => some .gt
  | a :: as, b :: bs => if same a b then orders? as bs else order? a b

end

mutual

/-- Whether a value can be a key. -/
def hashable : Data → Bool
  | list _ => false
  | dict _ => false
  | set _ => false
  | other type _ _ => type != "range"
  | tuple items => hashables items
  | _ => true

/-- Whether all values can be keys. -/
def hashables : List Data → Bool
  | [] => true
  | item :: rest => hashable item && hashables rest

end

end Data

end PageMacro.Script
