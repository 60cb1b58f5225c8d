import PageMacro.Html.Builder

/-!
# Reading and writing markup

A library of markup reads a whole page, reads a fragment that will be put into an element, and
writes a tree. The pages of a program are read and written by one library; the standard one is made
of the builder and the writer.
-/

namespace PageMacro.Html

/-- What reads and writes markup. -/
structure Library where
  /-- The trees under the root of a page. -/
  parse : String → Except ParseError (List Markup)
  /-- The trees of a fragment in the context of an element. -/
  fragment : Build.Context → String → Except ParseError (List Markup)
  write : Markup → Written

namespace Library

/-- The builder and the writer. -/
def standard : Library := ⟨parseDocument, parseFragment, Markup.write false⟩

instance : Inhabited Library := ⟨standard⟩

/-- Writes trees one after the other, up to what cannot be written. -/
def writeAll (html : Library) : List Markup → Written
  | [] => {}
  | m :: rest => (html.write m).andThen (html.writeAll rest)

end Library

end PageMacro.Html
