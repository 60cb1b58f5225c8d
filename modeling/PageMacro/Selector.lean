import PageMacro.Document
import PageMacro.Index

/-!
# Selectors

A target of a write is named by id or by class. An index expression narrows the matches of a
class; an id names at most one element whatever the index says.

The positions that an index expression selects are looked up among the matches as they are. One that
lies outside of them is not passed over: the lookup fails, and nothing is there to catch that.
-/

namespace PageMacro

/-- A selector. -/
inductive Selector where
  | id (name : String)
  | classOf (name : String)
  deriving BEq, DecidableEq, Repr

namespace Selector

/-- Reads a selector: `.name` is a class; `#name`, `$name` and `name` are ids. -/
def parse (token : String) : Selector :=
  match Text.trimChars token.toList with
  | '.' :: rest => classOf (String.ofList rest)
  | '#' :: rest => id (String.ofList rest)
  | '$' :: rest => id (String.ofList rest)
  | cs => id (String.ofList cs)

/-- The name in a selector. -/
def name : Selector → String
  | id name => name
  | classOf name => name

/-- The selector in its usual spelling. -/
def text : Selector → String
  | id name => "#" ++ name
  | classOf name => "." ++ name

/-- The elements that a selector names, in order. -/
def found (d : Document) : Selector → List NodeId
  | id name => (d.elementById? name).toList
  | classOf name => d.elementsByClass name

/-- All elements that a target names, in order. -/
def named (d : Document) (token : String) : List NodeId := (parse token).found d

/-- The elements at positions among matches, in the order of the positions; nothing if one of the
positions lies outside of the matches. -/
def lookUp (matched : List NodeId) (positions : List Int) : Option (List NodeId) :=
  if positions.all fun p => 0 ≤ p && p < matched.length then
    some (positions.filterMap fun p => matched[p.toNat]?)
  else none

/-- The elements that a target and an index expression name, in order; nothing if a position is
looked up outside of the matches. -/
def resolve (d : Document) (token index : String) : Option (List NodeId) :=
  match parse token with
  | id name => some (found d (id name))
  | classOf name =>
    let matched := found d (classOf name)
    lookUp matched ((Index.parse index).apply matched.length)

end Selector

end PageMacro
