import PageMacro.Decimal.Shortest
import PageMacro.Text.Blank

/-!
# Numeric literals

A literal is an optional sign, digits with an optional point (digits on at least one side of it)
and an optional exponent. `Literal.scan` cuts the longest literal off the front of a text;
`Literal.toFloat?` gives its value, rounded to the nearest double, and refuses one beyond the range
of doubles.
-/

namespace PageMacro.Decimal

/-- A literal taken apart: sign, digits before and after the point, exponent. -/
structure Literal where
  negative : Bool
  whole : List Char
  fraction : List Char
  exponent : Int
  deriving Repr, BEq

/-- The number written by decimal digits. -/
def natOfDigits (ds : List Char) : Nat :=
  ds.foldl (fun n c => n * 10 + (c.toNat - '0'.toNat)) 0

/-- The run of digits at the front, and the rest. -/
def spanDigits (cs : List Char) : List Char × List Char :=
  (cs.takeWhile Char.isDigit, cs.dropWhile Char.isDigit)

/-- The optional sign at the front: whether it is a minus, and the rest. -/
def takeSign : List Char → Bool × List Char
  | '+' :: rest => (false, rest)
  | '-' :: rest => (true, rest)
  | cs => (false, cs)

/-- The digits around the optional point, and the rest. -/
def takeMantissa (cs : List Char) : Option (List Char × List Char × List Char) :=
  let (whole, rest) := spanDigits cs
  match rest with
  | '.' :: after =>
    let (fraction, rest') := spanDigits after
    if whole.isEmpty && fraction.isEmpty then none else some (whole, fraction, rest')
  | _ => if whole.isEmpty then none else some (whole, [], rest)

/-- The optional exponent; a mark without digits is not one. -/
def takeExponent (cs : List Char) : Int × List Char :=
  match cs with
  | c :: rest =>
    if c == 'e' || c == 'E' then
      let (negative, rest') := takeSign rest
      let (digits, rest'') := spanDigits rest'
      if digits.isEmpty then (0, cs)
      else
        let n : Int := natOfDigits digits
        (if negative then -n else n, rest'')
    else (0, cs)
  | [] => (0, [])

/-- The longest literal at the front of `cs`, and the rest. -/
def Literal.scan (cs : List Char) : Option (Literal × List Char) :=
  let (negative, rest) := takeSign cs
  (takeMantissa rest).map fun (whole, fraction, rest') =>
    let (exponent, rest'') := takeExponent rest'
    (⟨negative, whole, fraction, exponent⟩, rest'')

/-- The literal that is the whole of `cs`. -/
def Literal.parse? (cs : List Char) : Option Literal :=
  match Literal.scan cs with
  | some (x, []) => some x
  | _ => none

/-- The double nearest to `digits · 10 ^ exponent`; infinite beyond the range of doubles. -/
def nearest (digits : Nat) (exponent : Int) : Float :=
  let top := (digitCount digits : Int) + exponent
  if digits == 0 || top < -400 then 0.0
  else if 400 < top then 1.0 / 0.0
  else if exponent < 0 then Float.ofScientific digits true exponent.natAbs
  else Float.ofScientific digits false exponent.natAbs

/-- The double nearest to the literal's value. -/
def Literal.toFloat (x : Literal) : Float :=
  let magnitude := nearest (natOfDigits (x.whole ++ x.fraction)) (x.exponent - x.fraction.length)
  if x.negative then -magnitude else magnitude

/-- The literal's value, unless it lies beyond the range of doubles. -/
def Literal.toFloat? (x : Literal) : Option Float :=
  if x.toFloat.isInf then none else some x.toFloat

end PageMacro.Decimal
