/-!
# The shortest decimal that reads back

A finite double is `significand · 2 ^ exponent`. The reals that round to it form an interval around
it, whose ends belong to it when the significand is even. `shortest` gives the decimal with the
fewest digits inside that interval and, among those, the one nearest to the double. All arithmetic
is exact.
-/

namespace PageMacro.Decimal

/-- A finite non-negative double: `significand · 2 ^ exponent`. `narrowBelow` says that the gap to
the next smaller double is half the gap to the next larger one. -/
structure Binary where
  significand : Nat
  exponent : Int
  narrowBelow : Bool
  deriving Repr

/-- The three classes of doubles, with the sign. -/
inductive Class where
  | nan
  | infinite (negative : Bool)
  | finite (negative : Bool) (magnitude : Binary)
  deriving Repr

/-- Takes the bits of a double apart. -/
def classify (x : Float) : Class :=
  let bits := x.toBits.toNat
  let negative := bits / 0x8000000000000000 == 1
  let biased := bits / 0x10000000000000 % 0x800
  let fraction := bits % 0x10000000000000
  if biased == 2047 then
    if fraction == 0 then .infinite negative else .nan
  else if biased == 0 then .finite negative ⟨fraction, -1074, false⟩
  else .finite negative ⟨0x10000000000000 + fraction, Int.ofNat biased - 1075, fraction == 0 && biased != 1⟩

/-- The decimal `digits · 10 ^ exponent`. -/
structure Scientific where
  digits : Nat
  exponent : Int
  deriving Repr, BEq

/-- A non-negative rational as numerator and denominator of `n · 2 ^ p · 10 ^ d`. -/
private def ratio (n : Nat) (p d : Int) : Nat × Nat :=
  (n * Nat.pow 2 p.toNat * Nat.pow 10 d.toNat, Nat.pow 2 (-p).toNat * Nat.pow 10 (-d).toNat)

/-- How many decimal digits a number has; none for zero. -/
def digitCount (n : Nat) : Nat :=
  if n == 0 then 0 else (Nat.toDigits 10 n).length

/-- The position `k` with `10 ^ (k - 1) ≤ x < 10 ^ k`, for a positive double `x`. -/
def leading (x : Binary) : Int :=
  let (n, d) := ratio x.significand x.exponent 400
  Int.ofNat (digitCount (n / d)) - 400

/-- Whether `c · 10 ^ s` rounds to `x`. The ends of the interval are counted in quarters of the
last binary place. -/
def roundsTo (x : Binary) (c : Nat) (s : Int) : Bool :=
  let even := x.significand % 2 == 0
  let low := 4 * x.significand - (if x.narrowBelow then 1 else 2)
  let high := 4 * x.significand + 2
  let (n, d) := ratio c (-(x.exponent - 2)) s
  if even then low * d ≤ n && n ≤ high * d else low * d < n && n < high * d

/-- The better of the two `count`-digit neighbours of `x`, if one of them rounds to `x`. -/
def neighbour (x : Binary) (count : Nat) : Option Scientific :=
  let s := leading x - count
  let (n, d) := ratio x.significand x.exponent (-s)
  let below := n / d
  let above := below + 1
  let upperNearer := d < 2 * (n % d)
  let okBelow := roundsTo x below s
  let okAbove := roundsTo x above s
  if okBelow && !(okAbove && upperNearer) then some ⟨below, s⟩
  else if okAbove then some ⟨above, s⟩
  else none

/-- Moves trailing zeros of the digits into the exponent. -/
def stripZeros : Nat → Scientific → Scientific
  | 0, x => x
  | fuel + 1, x =>
    if x.digits != 0 && x.digits % 10 == 0 then stripZeros fuel ⟨x.digits / 10, x.exponent + 1⟩
    else x

/-- The shortest decimal that rounds to the double; 17 digits always suffice. -/
def shortest (x : Binary) : Scientific :=
  if x.significand == 0 then ⟨0, 0⟩
  else
    let found := (List.range 17).findSome? fun i => neighbour x (i + 1)
    stripZeros 20 (found.getD ⟨0, 0⟩)

end PageMacro.Decimal
