import PageMacro.Decimal.Layout

/-!
# A fixed number of decimal places

Where a number is written with a given number of places, its exact value is rounded to the nearest
decimal, a tie to the even one.
-/

namespace PageMacro.Decimal

/-- The whole number nearest to a quotient; of two the even one. -/
def roundedQuotient (num den : Nat) : Nat :=
  let q := num / den
  let r := num % den
  if den < 2 * r || (2 * r == den && q % 2 == 1) then q + 1 else q

/-- `num / den · 10 ^ shift`, rounded to a whole number. -/
def roundedScaled (num den : Nat) (shift : Int) : Nat :=
  roundedQuotient (num * Nat.pow 10 shift.toNat) (den * Nat.pow 10 (-shift).toNat)

/-- Numerator and denominator of a magnitude. -/
def Binary.ratio (x : Binary) : Nat × Nat :=
  (x.significand * Nat.pow 2 x.exponent.toNat, Nat.pow 2 (-x.exponent).toNat)

/-- The digits with `places` of them after the point. -/
def withPlaces (n places : Nat) : List Char :=
  let digits := digitsOf n
  let padded := List.replicate (places + 1 - digits.length) '0' ++ digits
  let whole := padded.length - places
  padded.take whole ++ '.' :: padded.drop whole

/-- The exponent of the leading digit of a positive quotient. -/
def leadingExponent (num den : Nat) : Int :=
  let guess : Int := (digitCount num : Int) - digitCount den
  if num * Nat.pow 10 (-guess).toNat < den * Nat.pow 10 guess.toNat then guess - 1 else guess

/-- A magnitude with `places` digits after the point. -/
def fixed (places : Nat) (x : Binary) : List Char :=
  let (num, den) := x.ratio
  withPlaces (roundedScaled num den places) places

/-- A magnitude with one digit before the point, `places` after it, and an exponent of at least two
digits. -/
def scientific (places : Nat) (x : Binary) : List Char :=
  let (num, den) := x.ratio
  if num == 0 then withPlaces 0 places ++ "e+00".toList
  else
    let k := leadingExponent num den
    let n := roundedScaled num den ((places : Int) - k)
    let (n, k) := if Nat.pow 10 (places + 1) ≤ n then (n / 10, k + 1) else (n, k)
    let magnitude := digitsOf k.natAbs
    withPlaces n places ++ ['e', if k < 0 then '-' else '+'] ++
      List.replicate (2 - magnitude.length) '0' ++ magnitude

end PageMacro.Decimal
