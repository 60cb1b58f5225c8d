import PageMacro.Decimal.Shortest
import PageMacro.Word

/-!
# Products of doubles

A finite double is a whole number below `2 ^ 53` times a power of two. The product of two is rounded
to the nearest such number, of two the one with the even significand. Powers multiply by squaring,
and only the result is checked against the range of doubles.
-/

namespace PageMacro.Decimal

/-- A whole number times a power of two. -/
structure Scaled where
  significand : Int
  exponent : Int
  deriving BEq, DecidableEq, Repr

/-- A double: finite, beyond the range, or no number. -/
inductive Double where
  | finite (x : Scaled)
  | infinite (negative : Bool)
  | nan
  deriving BEq, DecidableEq, Repr

/-- The bits of a significand. -/
def precision : Nat := 53

/-- A whole number divided by a power of two, rounded to the nearest, of two to the even one. -/
def shiftRounded (n shift : Nat) : Nat :=
  let q := n / Nat.pow 2 shift
  let r := n % Nat.pow 2 shift
  if Nat.pow 2 shift < 2 * r || (2 * r == Nat.pow 2 shift && q % 2 == 1) then q + 1 else q

namespace Scaled

/-- Rounds the significand to the precision. -/
def rounded (x : Scaled) : Scaled :=
  let n := x.significand.natAbs
  let shift := Nat.log2 n + 1 - precision
  let m : Int := shiftRounded n shift
  ⟨if x.significand < 0 then -m else m, x.exponent + shift⟩

/-- The rounded product. -/
def mul (x y : Scaled) : Scaled :=
  rounded ⟨x.significand * y.significand, x.exponent + y.exponent⟩

/-- The powers of a base, by squaring: `acc` times the base to the `n`. -/
def powFrom (acc base : Scaled) (n : Nat) : Scaled :=
  if h : n = 0 then acc
  else powFrom (if n % 2 == 1 then mul acc base else acc) (mul base base) (n / 2)
termination_by n
decreasing_by omega

/-- A power. -/
def pow (x : Scaled) (n : Nat) : Scaled := powFrom ⟨1, 0⟩ x n

/-- The double of a number, which may be beyond the range. -/
def toDouble (x : Scaled) : Double :=
  if 1024 ≤ (Nat.log2 x.significand.natAbs : Int) + x.exponent && x.significand != 0 then
    .infinite (x.significand < 0)
  else .finite x

/-- The number without its fraction. -/
def truncated (x : Scaled) : Int :=
  let n := x.significand.natAbs * Nat.pow 2 x.exponent.toNat / Nat.pow 2 (-x.exponent).toNat
  if x.significand < 0 then -n else n

end Scaled

namespace Double

/-- A whole number, rounded. -/
def ofInt (n : Int) : Double := (Scaled.rounded ⟨n, 0⟩).toDouble

/-- The double of a machine number. -/
def ofFloat (x : Float) : Double :=
  match classify x with
  | .nan => .nan
  | .infinite negative => .infinite negative
  | .finite negative ⟨significand, exponent, _⟩ =>
    .finite ⟨if negative then -significand else significand, exponent⟩

/-- The power of a double. -/
def pow : Double → Nat → Double
  | .finite x, n => (x.pow n).toDouble
  | _, 0 => .finite ⟨1, 0⟩
  | .infinite negative, n => .infinite (negative && n % 2 == 1)
  | .nan, _ => .nan

/-- Whether a double is below zero. -/
def isNegative : Double → Bool
  | .finite x => x.significand < 0
  | .infinite negative => negative
  | .nan => false

/-- The product of two doubles. -/
def mul : Double → Double → Double
  | .finite x, .finite y => (x.mul y).toDouble
  | .finite x, .infinite negative =>
    if x.significand == 0 then .nan else .infinite ((x.significand < 0) != negative)
  | .infinite negative, .finite x =>
    if x.significand == 0 then .nan else .infinite ((x.significand < 0) != negative)
  | .infinite a, .infinite b => .infinite (a != b)
  | _, _ => .nan

/-- The 64-bit integer of a double, without its fraction; the least one stands for everything out of
range. -/
def toInt64 : Double → Int
  | .finite x => if Word.fits x.truncated then x.truncated else Word.least
  | _ => Word.least

end Double

end PageMacro.Decimal
