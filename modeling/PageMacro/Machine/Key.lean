import PageMacro.Digest
import PageMacro.Text.Bytes

/-!
# Made-up keys

An entry without a name gets a key that no other entry has: a number as wide as it takes, written in
groups of hexadecimal digits.
-/

namespace PageMacro

/-- The key that is the `n`th for a seed. -/
def madeUpKey (seed n : Nat) : String :=
  let bytes := Text.bytes (toString seed ++ ":" ++ toString n)
  let digits := (Text.hex (Digest.sha256 bytes)).toList
  let part (start length : Nat) : String := String.ofList ((digits.drop start).take length)
  part 0 8 ++ "-" ++ part 8 4 ++ "-4" ++ part 12 3 ++ "-8" ++ part 15 3 ++ "-" ++ part 18 12

end PageMacro
