/-!
# Edit distance

The least number of insertions, deletions and replacements that turn one sequence into another.
-/

namespace PageMacro.Text

/-- The next row of distances: `left` and `diagonal` are the entries before this one in the new and
in the old row. -/
def distanceRow {α : Type} [BEq α] (a : α) : List α → List Nat → Nat → Nat → List Nat
  | b :: bs, above :: old, left, diagonal =>
    let here := min (min (above + 1) (left + 1)) (diagonal + if a == b then 0 else 1)
    here :: distanceRow a bs old here above
  | _, _, _, _ => []

/-- The distances of a sequence to all fronts of another. -/
def distances {α : Type} [BEq α] (bs : List α) : List α → Nat → List Nat → List Nat
  | [], _, row => row
  | a :: rest, n, row =>
    match row with
    | [] => []
    | first :: old => distances bs rest (n + 1) ((n + 1) :: distanceRow a bs old (n + 1) first)

/-- The edit distance of two sequences. -/
def distance {α : Type} [BEq α] (xs ys : List α) : Nat :=
  ((distances ys xs 0 (List.range (ys.length + 1))).getLast?).getD 0

example : distance "kitten".toList "sitting".toList = 3 := by decide +kernel
example : distance "".toList "ab".toList = 2 := by decide +kernel

end PageMacro.Text
