import PageMacro.Decimal.Shortest

/-!
# Writing numbers

All number texts use the shortest digits that read back; they differ in when an exponent is
written and how. The `general` layout goes over to an exponent below `10 ^ -4` and from `10 ^ 6`
on; the `interchange` layout is the one JSON uses.
-/

namespace PageMacro.Decimal

/-- The decimal digits of a number. -/
def digitsOf (n : Nat) : List Char := Nat.toDigits 10 n

/-- Digits with a point so that the value is `0.digits · 10 ^ point`. -/
def positional (digits : List Char) (point : Int) : List Char :=
  if point ≤ 0 then ['0', '.'] ++ List.replicate (-point).toNat '0' ++ digits
  else
    let whole := digits.take point.toNat
    let zeros := List.replicate (point.toNat - digits.length) '0'
    let fraction := digits.drop point.toNat
    whole ++ zeros ++ (if fraction.isEmpty then [] else '.' :: fraction)

/-- Digits with an exponent: one digit, the rest after a point, then `e`, the sign and at least
`width` digits of exponent. -/
def exponential (digits : List Char) (exponent : Int) (width : Nat) : List Char :=
  let mantissa := match digits with
    | [] => ['0']
    | [d] => [d]
    | d :: rest => d :: '.' :: rest
  let magnitude := digitsOf exponent.natAbs
  mantissa ++ ['e', if exponent < 0 then '-' else '+'] ++
    List.replicate (width - magnitude.length) '0' ++ magnitude

/-- When and how a layout writes an exponent. -/
structure Layout where
  /-- Exponents from here on are written. -/
  atLeast : Int
  /-- Exponents below this are written. -/
  below : Int
  /-- The least number of exponent digits. -/
  width : Nat

/-- The layout of numbers in texts and of numbers inside objects. -/
def Layout.general : Layout := ⟨6, -4, 2⟩

/-- The layout of numbers in JSON. -/
def Layout.interchange : Layout := ⟨21, -6, 1⟩

/-- Writes a non-zero magnitude. -/
def Layout.magnitude (layout : Layout) (x : Binary) : List Char :=
  if x.significand == 0 then ['0']
  else
    let d := shortest x
    let digits := digitsOf d.digits
    let point := d.exponent + digits.length
    let exponent := point - 1
    if exponent < layout.below || layout.atLeast ≤ exponent then
      exponential digits exponent layout.width
    else positional digits point

/-- Writes a double; the sign of zero is kept. -/
def Layout.write (layout : Layout) (x : Float) : String :=
  match classify x with
  | .nan => "NaN"
  | .infinite true => "-Inf"
  | .infinite false => "+Inf"
  | .finite negative magnitude =>
    String.ofList ((if negative then ['-'] else []) ++ layout.magnitude magnitude)

end PageMacro.Decimal
