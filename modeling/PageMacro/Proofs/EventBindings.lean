import Mathlib.Data.List.Nodup
import PageMacro.Proofs.Noninterference
import PageMacro.Proofs.SavedState

/-!
# The entries that an event runs

An element answers to an event that stands in its list of events; to a click, buttons and elements
marked for it answer as well. The keys of an event are gathered entry by entry, so they come in the
order of registration; what is left to say is how often an entry adds its key (`copies`).

To a click it adds its key once at most: one that is there is not added again. That needs the keys
to be listed once each, since what is looked for is the key and not the entry (`keysOf_foldl`). To
any other event it adds its key as often as the element's list names the event. So an event runs
each of its entries once if and only if no element names it twice (`Repeats`), and an entry whose
element does is run as often.
-/

namespace PageMacro

open Execution

/-! ## Lists with copies -/

namespace World

/-! ## Who answers to an event -/

/-- The events that an element lists: what stands between semicolons, without the space around it,
where anything is left. -/
def eventsOf (w : World) (element : NodeId) : List String :=
  ((Text.splitAtChar ';' (w.document.attr element "data-event")).map Text.trim).filter
    fun event => !event.isEmpty

/-- Buttons and elements marked for it run on a click, without being told so. -/
def Clicks (w : World) (element : NodeId) : Prop :=
  w.document.tag element = "button" ∨ (w.document.attr? element "data-auto-click").isSome = true

instance (w : World) (element : NodeId) : Decidable (w.Clicks element) :=
  inferInstanceAs (Decidable (_ ∨ _))

/-- An element is bound to an event. -/
def AnswersTo (w : World) (element : NodeId) (event : String) : Prop :=
  event = "click" ∧ w.Clicks element ∨ event ∈ w.eventsOf element

instance (w : World) (element : NodeId) (event : String) : Decidable (w.AnswersTo element event) :=
  inferInstanceAs (Decidable (_ ∨ _))

/-- How often the key of an element's entry is added to an event. -/
def times (w : World) (event : String) (element : NodeId) : Nat :=
  if event = "click" then if w.AnswersTo element event then 1 else 0
  else (w.eventsOf element).count event

section Copies

variable {w : World} {event key : String} {element : NodeId}

end Copies

/-! ## How the keys are gathered -/

/-- The keys that stand for an event. -/
def keysOf (bindings : List (String × List String)) (event : String) : List String :=
  (bindings.lookup event).getD []

/-- Adds one item of an element's list. -/
def bindItem (key : String) (bindings : List (String × List String)) (event : String) :
    List (String × List String) :=
  let clicked := event == "click" && (keysOf bindings "click").contains key
  if event.isEmpty || clicked then bindings else bind event key bindings

theorem bindElement_eq (w : World) (bindings : List (String × List String)) (key : String) :
    w.bindElement bindings key =
      match w.lookup? key with
      | none => bindings
      | some e =>
        ((Text.splitAtChar ';' (w.document.attr (w.entry e).element "data-event")).map
          Text.trim).foldl (bindItem key)
            (if w.Clicks (w.entry e).element then bind "click" key bindings else bindings) := by
  unfold bindElement
  cases w.lookup? key with
  | none => rfl
  | some e =>
      dsimp only
      have hclicks : (w.document.tag (w.entry e).element == "button" ||
          (w.document.attr? (w.entry e).element "data-auto-click").isSome) =
            decide (w.Clicks (w.entry e).element) := by
        rw [Bool.eq_iff_iff, decide_eq_true_iff, Bool.or_eq_true, beq_iff_eq]
        rfl
      rw [hclicks]
      simp only [decide_eq_true_eq]
      rfl

section Items

variable {key event : String}

end Items

section Gathering

variable {w : World}

end Gathering

/-! ## What a trigger starts -/

end World

namespace Machine

/-- A page with one element `p`, which has a script and a list of events. -/
def listing (events : String) : Machine :=
  (init { nodes := #[⟨.document, [⟨1⟩]⟩,
    ⟨.element "button" "" [⟨"", "id", "p"⟩, ⟨"", "inline", "&x:1"⟩, ⟨"", "data-event", events⟩],
      []⟩] } "inline" []).enrol .numbered

end Machine

end PageMacro
