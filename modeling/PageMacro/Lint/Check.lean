import PageMacro.Lint.Problem
import PageMacro.Machine.Table
import PageMacro.Segment.Basic

/-!
# Checking the scripts of a page

Without running anything, every segment that no shape fits and every call of a verb that is not
registered is reported, entry by entry in the order of registration.
-/

namespace PageMacro.Lint

/-- What is wrong with a segment, if anything. -/
def causeOf? (verbs : Registry) (segment : String) : Option Cause :=
  if Segment.classify segment == .malformed then some .malformed
  else match Segment.verbName? segment with
    | some name => if (verbs.lookup name).isSome then none else some (.unknownVerb name)
    | none => none

/-- The problems of the segments of one script. -/
def problemsOf (verbs : Registry) (key : String) (segments : List String) : List Problem :=
  segments.zipIdx.filterMap fun (segment, i) =>
    (causeOf? verbs segment).map fun cause => ⟨key, i, segment, cause⟩

end PageMacro.Lint

namespace PageMacro

/-- The problems of all scripts of a page. -/
def World.lint (w : World) : List Lint.Problem :=
  w.order.flatMap fun key =>
    match w.lookup? key with
    | some e => Lint.problemsOf w.verbs key (Segment.split (w.entry e).script)
    | none => []

end PageMacro
