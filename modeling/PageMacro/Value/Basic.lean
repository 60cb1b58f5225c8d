import PageMacro.Decimal.Literal
import PageMacro.Text.Quoted
import PageMacro.Value.Tree
import PageMacro.Word

/-!
# Pipeline values

The values that flow through a pipeline and live in its variables: undefined, a boolean, a number,
a text or an object. A word of a script becomes a value by `Value.parse`; a value becomes text
again by `Value.text`, in which whole numbers within the range of 64-bit integers have no point.
-/

namespace PageMacro

/-- A pipeline value. -/
inductive Value where
  | undefined
  | boolean (b : Bool)
  | number (x : Float)
  | string (s : String)
  | object (t : Tree)
  deriving Inhabited

/-- The kinds of values. -/
inductive Value.Kind where
  | undefined | boolean | number | string | object
  deriving BEq, DecidableEq, Repr

/-- The name of a kind. -/
def Value.Kind.name : Value.Kind → String
  | .undefined => "undefined"
  | .boolean => "boolean"
  | .number => "number"
  | .string => "string"
  | .object => "object"

namespace Value

/-- The kind of a value. -/
def kind : Value → Kind
  | undefined => .undefined
  | boolean _ => .boolean
  | number _ => .number
  | string _ => .string
  | object _ => .object

/-- Whether nothing is there. -/
def isUndefined : Value → Bool
  | undefined => true
  | _ => false

/-- Wraps host data as an object; the null tree is undefined. -/
def ofObject : Tree → Value
  | .null => undefined
  | t => object t

/-- The value that host data stands for: flags, numbers and texts get their own kind. -/
def ofTree : Tree → Value
  | .null => undefined
  | .bool b => boolean b
  | .num x => number x
  | .int n => number (Float.ofInt n)
  | .str s => string s
  | t => object t

/-- The host data a value stands for. -/
def toTree : Value → Tree
  | undefined => .null
  | boolean b => .bool b
  | number x => .num x
  | string s => .str s
  | object t => t

/-! ## Numbers -/

/-- The whole number nearest to `x` toward zero, within the range of 64-bit integers. A number
outside that range, or not a number, becomes the least one. -/
def truncate (x : Float) : Int :=
  if x.isNaN then Word.least
  else
    match Decimal.classify x with
    | .finite negative ⟨significand, exponent, _⟩ =>
      let magnitude : Int :=
        (significand * Nat.pow 2 exponent.toNat / Nat.pow 2 (-exponent).toNat : Nat)
      let n := if negative then -magnitude else magnitude
      if Word.fits n then n else Word.least
    | _ => Word.least

/-- The text of a number: its digits if it is whole and fits 64 bits, else the general layout. -/
def numberText (x : Float) : String :=
  if x == Float.ofInt (truncate x) then toString (truncate x)
  else Decimal.Layout.general.write x

/-- Reads a text that is a numeric literal up to blanks around it. -/
def parseNumber (cs : List Char) : Option Float :=
  (Decimal.Literal.parse? (Text.trimChars cs)).bind Decimal.Literal.toFloat?

/-- The number read from the longest front part of `cs`, no longer than `n`, that reads as one. -/
def parseFront (cs : List Char) : Nat → Option Float
  | 0 => none
  | n + 1 => (parseNumber (cs.take (n + 1))).orElse fun _ => parseFront cs n

/-- The number at the front of a text. -/
def numberAtFront (s : String) : Option Float :=
  let cs := Text.trimChars s.toList
  parseFront cs cs.length

/-- The number a value counts as: booleans count 1 and 0, texts by the number at their front. -/
def asNumber : Value → Option Float
  | number x => some x
  | boolean b => some (if b then 1.0 else 0.0)
  | string s => numberAtFront s
  | _ => none

/-! ## Text -/

/-- The value of a word: `true` and `false` are booleans, numeric literals numbers, and anything
else is text. -/
def parse (raw : String) : Value :=
  if raw == "true" then boolean true
  else if raw == "false" then boolean false
  else match parseNumber raw.toList with
    | some x => number x
    | none => string raw

/-- The text of a value; `label` names the elements. -/
def text (label : NodeId → String) : Value → String
  | undefined => ""
  | boolean b => Tree.boolText b
  | number x => numberText x
  | string s => s
  | object t => t.text label

/-- The text written into an element: booleans show as `ON` and `OFF`. -/
def display (label : NodeId → String) : Value → String
  | boolean b => if b then "ON" else "OFF"
  | v => v.text label

/-- The text of a value in debug output: texts are quoted. -/
def debugText (label : NodeId → String) : Value → String
  | undefined => "undefined"
  | string s => Text.quoted s
  | v => v.text label

/-! ## Conditions -/

/-- Whether a value counts as true. -/
def truthy : Value → Bool
  | undefined => false
  | boolean b => b
  | number x => x != 0.0
  | string s => !s.isEmpty
  | object _ => true

/-- Whether two values have the same kind and content. -/
def same : Value → Value → Bool
  | undefined, undefined => true
  | boolean a, boolean b => a == b
  | number a, number b => a == b
  | string a, string b => a == b
  | object a, object b => a.same b
  | _, _ => false

end Value

end PageMacro
