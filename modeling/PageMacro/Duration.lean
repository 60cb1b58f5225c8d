import PageMacro.Decimal.Literal
import PageMacro.Text.Quoted
import PageMacro.Word

/-!
# Durations

A duration is a number of nanoseconds within the range of 64-bit integers. It is written with the
largest fitting units, as in `1h2m3.5s`, and read from a sequence of decimal numbers with units.
-/

namespace PageMacro

/-- A span of time in nanoseconds. -/
structure Duration where
  nanoseconds : Int
  deriving BEq, DecidableEq, Repr, Inhabited

namespace Duration

/-- The nanoseconds of a second. -/
def second : Nat := 1000000000

/-- The nanoseconds of a unit. -/
def unit? : String → Option Nat
  | "ns" => some 1
  | "us" => some 1000
  | "µs" => some 1000
  | "μs" => some 1000
  | "ms" => some 1000000
  | "s" => some second
  | "m" => some (60 * second)
  | "h" => some (3600 * second)
  | _ => none

/-- A number of seconds. -/
def seconds (n : Nat) : Duration := ⟨n * second⟩

/-! ## Writing -/

/-- A quotient by a power of ten with as many places as it needs. -/
def fractionText (n places : Nat) : String :=
  let whole := n / Nat.pow 10 places
  let digits := Nat.toDigits 10 (n % Nat.pow 10 places)
  let padded := List.replicate (places - digits.length) '0' ++ digits
  let trimmed := Text.dropEndWhile (· == '0') padded
  toString whole ++ if trimmed.isEmpty || places == 0 then "" else "." ++ String.ofList trimmed

/-- How a number of nanoseconds is written. -/
def magnitudeText (n : Nat) : String :=
  if n == 0 then "0s"
  else if n < 1000 then toString n ++ "ns"
  else if n < 1000000 then fractionText n 3 ++ "µs"
  else if n < second then fractionText n 6 ++ "ms"
  else
    let minutes := n / (60 * second)
    let rest := fractionText (n % (60 * second)) 9 ++ "s"
    if minutes == 0 then rest
    else if minutes < 60 then toString minutes ++ "m" ++ rest
    else toString (minutes / 60) ++ "h" ++ toString (minutes % 60) ++ "m" ++ rest

/-- How a duration is written. -/
def text (d : Duration) : String :=
  (if d.nanoseconds < 0 then "-" else "") ++ magnitudeText d.nanoseconds.natAbs

/-! ## Reading -/

/-- Why a text is no duration. -/
inductive Fault where
  | invalid
  | missingUnit
  | unknownUnit (unit : String)
  deriving BEq, DecidableEq, Repr

/-- A text between quotes in a message about durations: only plain ASCII is shown as it is. -/
def shown (s : String) : String :=
  let shownChar (c : Char) : List Char :=
    if c.toNat < 0x20 || 0x80 ≤ c.toNat then
      (Text.charBytes c).flatMap fun b => '\\' :: 'x' :: Text.hexPadded 2 b.toNat
    else if c == '"' || c == '\\' then ['\\', c]
    else [c]
  String.ofList ('"' :: s.toList.flatMap shownChar ++ ['"'])

/-- The wording of the fault of a text. -/
def Fault.message (s : String) : Fault → String
  | invalid => "time: invalid duration " ++ shown s
  | missingUnit => "time: missing unit in duration " ++ shown s
  | unknownUnit unit => "time: unknown unit " ++ shown unit ++ " in duration " ++ shown s

/-- One more than the largest number of nanoseconds. -/
def limit : Nat := Word.half

/-- A fraction as a numerator and a count of places; digits beyond the range of 64-bit integers do
not count. -/
def fractionOf : List Char → Nat → Nat → Nat × Nat
  | [], n, places => (n, places)
  | c :: rest, n, places =>
    let next := n * 10 + (c.toNat - '0'.toNat)
    if next < limit then fractionOf rest next (places + 1) else (n, places)

/-- Splits a number, a fraction and a unit off the front. -/
def takeTerm (cs : List Char) : Except Fault (Nat × List Char) := do
  let (whole, rest) := Decimal.spanDigits cs
  let (fraction, rest) :=
    match rest with
    | '.' :: after => Decimal.spanDigits after
    | _ => ([], rest)
  let isUnitChar (c : Char) : Bool := c != '.' && !c.isDigit
  let name := String.ofList (rest.takeWhile isUnitChar)
  if whole.isEmpty && fraction.isEmpty then throw .invalid
  if limit < Decimal.natOfDigits whole then throw .invalid
  if name.isEmpty then throw .missingUnit
  let some unit := unit? name | throw (.unknownUnit name)
  let (n, places) := fractionOf fraction 0 0
  let total := Decimal.natOfDigits whole * unit + n * unit / Nat.pow 10 places
  if limit < total then throw .invalid
  return (total, rest.dropWhile isUnitChar)

/-- The sum of all terms; `fuel` bounds their number. -/
def takeTerms : Nat → Nat → List Char → Except Fault Nat
  | _, total, [] => .ok total
  | 0, _, _ => .error .invalid
  | fuel + 1, total, cs => do
    let (n, rest) ← takeTerm cs
    if limit < total + n then .error .invalid else takeTerms fuel (total + n) rest

/-- Reads a duration. -/
def read (s : String) : Except Fault Duration := do
  let (negative, body) := Decimal.takeSign s.toList
  if body == ['0'] then return ⟨0⟩
  else if body.isEmpty then throw .invalid
  else
    let n ← takeTerms body.length 0 body
    if negative then return ⟨-n⟩
    else if n < limit then return ⟨n⟩
    else throw .invalid

end Duration

end PageMacro
