import PageMacro.Text.Pieces

/-!
# Inline styles

The style attribute of an element is a list of declarations `name: value;`. Style names are
accepted in the dashed form and in camel case. Writing a style reads the attribute, replaces the
first declaration of the name, drops the others of that name, and writes the attribute back.
-/

namespace PageMacro.Style

/-- The style names an element accepts, besides custom ones that start with two dashes. -/
def knownNames : List String := [
  "align-content", "align-items", "align-self", "animation", "background", "background-color",
  "background-image", "background-position", "background-repeat", "background-size", "border",
  "border-bottom", "border-collapse", "border-color", "border-left", "border-radius",
  "border-right", "border-style", "border-top", "border-width", "bottom", "box-shadow",
  "box-sizing", "clear", "color", "column-gap", "content", "cursor", "display", "fill", "filter",
  "flex", "flex-basis", "flex-direction", "flex-grow", "flex-shrink", "flex-wrap", "float", "font",
  "font-family", "font-size", "font-style", "font-weight", "gap", "grid", "grid-area",
  "grid-column", "grid-row", "grid-template-columns", "grid-template-rows", "height",
  "justify-content", "justify-items", "left", "letter-spacing", "line-height", "list-style",
  "margin", "margin-bottom", "margin-left", "margin-right", "margin-top", "max-height",
  "max-width", "min-height", "min-width", "object-fit", "opacity", "order", "outline", "overflow",
  "overflow-x", "overflow-y", "padding", "padding-bottom", "padding-left", "padding-right",
  "padding-top", "pointer-events", "position", "resize", "right", "row-gap", "stroke",
  "text-align", "text-decoration", "text-overflow", "text-shadow", "text-transform", "top",
  "transform", "transition", "user-select", "vertical-align", "visibility", "white-space",
  "width", "word-break", "word-wrap", "z-index"]

/-- The dashed form of the characters after the first. -/
def dashedTail : List Char → List Char
  | [] => []
  | c :: rest => if c.isUpper then '-' :: c.toLower :: dashedTail rest else c :: dashedTail rest

/-- The dashed form of a style name; a custom name stays as it is. -/
def dashedName (name : String) : String :=
  match name.toList with
  | '-' :: '-' :: _ => name
  | c :: rest => String.ofList ((if c.isUpper then c.toLower else c) :: dashedTail rest)
  | [] => ""

/-- Whether a name, in either form, is a style that can be written. -/
def isKnown (name : String) : Bool :=
  let css := dashedName name
  knownNames.contains css || Text.beginsWith "--" css

/-- One declaration of a style attribute. -/
structure Declaration where
  name : String
  value : String
  deriving BEq, DecidableEq, Repr

/-- The declaration written by one part of the attribute, if it is one. -/
def declaration? (part : String) : Option Declaration := do
  let (name, value) ← Text.cut ':' part
  let name := Text.trim name
  if name.isEmpty then none else some ⟨name, Text.trim value⟩

/-- The declarations of a style attribute. -/
def parse (styles : String) : List Declaration :=
  (Text.splitAtChar ';' styles).filterMap declaration?

/-- The style attribute with the given declarations. -/
def format (declarations : List Declaration) : String :=
  if declarations.isEmpty then ""
  else Text.join "; " (declarations.map fun d => d.name ++ ": " ++ d.value) ++ ";"

/-- The value of a style in an attribute; empty if it is not declared. -/
def get (styles name : String) : String :=
  match (parse styles).find? fun d => d.name == dashedName name with
  | some d => d.value
  | none => ""

/-- Replaces the value of the first declaration of `css` and drops the later ones. -/
def replaceFirst (css value : String) : List Declaration → List Declaration
  | [] => []
  | d :: rest =>
    if d.name == css then ⟨css, value⟩ :: rest.filter (fun e => e.name != css)
    else d :: replaceFirst css value rest

/-- The declarations after a write; the empty value removes the style. -/
def assign (css value : String) (declarations : List Declaration) : List Declaration :=
  if value.isEmpty then declarations.filter fun d => d.name != css
  else if declarations.any fun d => d.name == css then replaceFirst css value declarations
  else declarations ++ [⟨css, value⟩]

/-- The attribute after a write. -/
def set (styles name value : String) : String :=
  format (assign (dashedName name) value (parse styles))

end PageMacro.Style
