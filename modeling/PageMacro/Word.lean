/-!
# 64-bit integers

Whole numbers are kept in words of 64 bits. A sum or product that does not fit wraps around.
-/

namespace PageMacro.Word

/-- How many words there are. -/
def count : Nat := 0x10000000000000000

/-- One more than the greatest word. -/
def half : Nat := 0x8000000000000000

/-- The least word. -/
def least : Int := -0x8000000000000000

/-- Whether a number fits a word. -/
def fits (n : Int) : Bool := least ≤ n && n < half

/-- The word that a number wraps around to. -/
def wrap (n : Int) : Int := n.bmod count

end PageMacro.Word
