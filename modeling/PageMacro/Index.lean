import PageMacro.Decimal.Literal
import PageMacro.Text.Pieces
import PageMacro.Word

/-!
# Index expressions

An index expression narrows the list of elements a class selector matches: one position, a list
of positions, or a slice `start:stop:step`. Negative positions count from the end. Positions are
64-bit integers, and the slice steps through them with the arithmetic of such integers.
-/

namespace PageMacro

/-- A parsed index expression. -/
inductive Index where
  /-- Every match. -/
  | all
  /-- One position. -/
  | single (position : Int)
  /-- Positions in the order written. -/
  | list (positions : List Int)
  /-- Every `step`-th position from `start` up to `stop`. -/
  | slice (start stop : Option Int) (step : Int)
  deriving BEq, DecidableEq, Repr

namespace Index

/-- Reads a whole number with an optional sign, blanks around it ignored, that fits 64 bits. -/
def parseInt? (s : String) : Option Int :=
  let (negative, digits) := Decimal.takeSign (Text.trimChars s.toList)
  if digits.isEmpty || !digits.all Char.isDigit then none
  else
    let magnitude : Int := Decimal.natOfDigits digits
    let n := if negative then -magnitude else magnitude
    if Word.fits n then some n else none

/-- Reads an index expression; one that makes no sense selects every match. -/
def parse (expression : String) : Index :=
  let trimmed := Text.trim expression
  if trimmed.isEmpty then .all
  else if trimmed.toList.contains ',' then
    .list ((Text.splitAtChar ',' trimmed).filterMap parseInt?)
  else if trimmed.toList.contains ':' then
    let bounds := (Text.splitAtChar ':' trimmed).map parseInt?
    let step := ((bounds[2]?).bind id).filter fun n => 0 < n
    .slice ((bounds[0]?).bind id) ((bounds[1]?).bind id) (step.getD 1)
  else match parseInt? trimmed with
    | some n => .single n
    | none => .all

/-- A position among `count` matches, negative ones counted from the end. -/
def fromEnd (count : Nat) (position : Int) : Int :=
  if position < 0 then position + count else position

/-- The positions that exist among those written. -/
def pick (count : Nat) (positions : List Int) : List Int :=
  (positions.map (fromEnd count)).filter fun p => 0 ≤ p && p < count

/-- Steps from `position` while it is below `stop`. -/
def walk (stop step : Int) : Nat → Int → List Int
  | 0, _ => []
  | fuel + 1, position =>
    if position < stop then position :: walk stop step fuel (Word.wrap (position + step)) else []

/-- The positions selected among `count` matches, in order. -/
def apply (index : Index) (count : Nat) : List Int :=
  match index with
  | all => (List.range count).map Int.ofNat
  | single position => pick count [position]
  | list positions => pick count positions
  | slice start stop step =>
    let first := max 0 (fromEnd count (start.getD 0))
    let last := min (count : Int) (fromEnd count (stop.getD count))
    walk last step (2 * count + 4) first

end Index

end PageMacro
