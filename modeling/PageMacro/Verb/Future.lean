import PageMacro.Verb.Basic

/-!
# Futures

A future is settled at most once: the first value or failure it gets stays, later ones are ignored.
-/

namespace PageMacro

/-- Something that will be settled once. -/
structure Future where
  settled : Option Answer := none

namespace Future

/-- Settles a future that is not settled yet. -/
def settle (f : Future) (answer : Answer) : Future :=
  match f.settled with
  | some _ => f
  | none => ⟨some answer⟩

/-- Whether a future is still open. -/
def pending (f : Future) : Bool := f.settled.isNone

end Future

end PageMacro
