import PageMacro.Decimal.Double
import PageMacro.Duration

/-!
# Waiting between attempts

The wait before each further attempt grows by a factor up to a limit. The limit is compared with
the wait as a 64-bit integer.
-/

namespace PageMacro.Fetch

/-- How waits grow. -/
structure Backoff where
  base : Duration
  /-- The longest wait; none if it is not positive. -/
  limit : Duration := ⟨0⟩
  /-- The factor; zero stands for two. -/
  factor : Decimal.Double := .finite ⟨2, 0⟩
  deriving BEq, DecidableEq, Repr

/-- Whether a factor is zero. -/
def isZero : Decimal.Double → Bool
  | .finite x => x.significand == 0
  | _ => false

/-- The wait before attempt `n + 2`, that is, after `n + 1` attempts. -/
def Backoff.wait (b : Backoff) (n : Nat) : Duration :=
  let factor := if isZero b.factor then .finite ⟨2, 0⟩ else b.factor
  let base := Decimal.Double.ofInt b.base.nanoseconds
  let grown := base.mul (factor.pow n)
  let capped :=
    if 0 < b.limit.nanoseconds && b.limit.nanoseconds < grown.toInt64 then
      Decimal.Double.ofInt b.limit.nanoseconds
    else grown
  ⟨(if capped.isNegative then base else capped).toInt64⟩

end PageMacro.Fetch
