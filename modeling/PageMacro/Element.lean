import PageMacro.Document
import PageMacro.Style
import PageMacro.Text.Case
import PageMacro.Value.Basic

/-!
# Reading and writing elements

Attributes, content, properties and inline styles of one element. Some properties reflect an
attribute of their own or another name, some reflect whether an attribute is there, and some are
views of the content. Every write changes the node of its element only, and adds new nodes.
-/

namespace PageMacro

/-- Why an element refuses a write. -/
inductive WriteError where
  | unknownStyle (name : String)
  | unknownProperty (name : String)
  | badContent (element : String) (cause : Html.ParseError)
  deriving BEq, DecidableEq, Repr

/-- The wording of a refusal. -/
def WriteError.message : WriteError → String
  | unknownStyle name => "unknown style property: " ++ name
  | unknownProperty name => "unknown element property: " ++ name
  | badContent element cause =>
    "failed to parse content for " ++ element ++ ": " ++ cause.message

namespace Document

/-! ## Attributes -/

/-- Sets the first attribute of a plain name, or adds it at the end. -/
def putAttr (name value : String) : List Html.Attr → List Html.Attr
  | [] => [⟨"", name, value⟩]
  | a :: rest =>
    if a.space.isEmpty && a.name == name then { a with value } :: rest
    else a :: putAttr name value rest

/-- Removes the attributes of a plain name. -/
def eraseAttr (name : String) (attrs : List Html.Attr) : List Html.Attr :=
  attrs.filter fun a => !(a.space.isEmpty && a.name == name)

/-- Changes the attributes of an element. -/
def modifyAttrs (d : Document) (id : NodeId) (f : List Html.Attr → List Html.Attr) : Document :=
  d.modify id fun node =>
    match node.content with
    | .element tag space attrs => { node with content := .element tag space (f attrs) }
    | _ => node

/-- Sets or replaces an attribute. -/
def setAttr (d : Document) (id : NodeId) (name value : String) : Document :=
  d.modifyAttrs id (putAttr name value)

/-- Removes an attribute. -/
def removeAttr (d : Document) (id : NodeId) (name : String) : Document :=
  d.modifyAttrs id (eraseAttr name)

/-! ## Content -/

/-- The markup inside an element, up to what cannot be written. -/
def content (d : Document) (id : NodeId) : String :=
  (d.html.writeAll (d.innerTrees id)).text

/-- An element as the context of its content. -/
def context (d : Document) (id : NodeId) : Html.Build.Context :=
  { tag := d.tag id, space := d.space id, attrs := d.attrs id
    insideForm := d.insideForm d.depth id }

/-- Replaces the content of an element by markup. -/
def setContent (d : Document) (id : NodeId) (markup : String) : Except WriteError Document :=
  match d.html.fragment (d.context id) markup with
  | .ok trees => .ok (d.replaceChildren id trees)
  | .error cause => .error (.badContent (d.label id) cause)

/-- The texts inside an element, joined. -/
def innerText (d : Document) (id : NodeId) : String :=
  Html.innerTextAll (d.innerTrees id)

/-- Replaces the content of an element by one text. -/
def setText (d : Document) (id : NodeId) (s : String) : Document :=
  d.replaceChildren id [.text s]

/-! ## Properties -/

/-- Properties that reflect the text of an attribute, with its name. -/
def textProperties : List (String × String) :=
  [("id", "id"), ("className", "class"), ("title", "title"), ("href", "href"), ("src", "src"),
    ("name", "name"), ("type", "type"), ("placeholder", "placeholder"), ("lang", "lang"),
    ("dir", "dir"), ("alt", "alt")]

/-- Properties that reflect whether an attribute is there. -/
def flagProperties : List (String × String) :=
  [("checked", "checked"), ("disabled", "disabled"), ("hidden", "hidden"),
    ("readOnly", "readonly"), ("required", "required"), ("selected", "selected")]

/-- The markup of an element itself, if it can be written. -/
def outerMarkup? (d : Document) (id : NodeId) : Option String :=
  (d.html.writeAll (d.tree d.depth id)).whole?

/-- Reads a property. -/
def property? (d : Document) (id : NodeId) (name : String) : Option Value :=
  match textProperties.lookup name with
  | some attr => some (.string (d.attr id attr))
  | none =>
    match flagProperties.lookup name with
    | some attr => some (.boolean (d.attr? id attr).isSome)
    | none =>
      if name == "innerHTML" then some (.string (d.content id))
      else if name == "textContent" || name == "innerText" then some (.string (d.innerText id))
      else if name == "outerHTML" then (d.outerMarkup? id).map .string
      else if name == "tagName" then some (.string (Text.upper (d.tag id)))
      else if name == "value" then
        some (.string (if d.tag id == "textarea" then d.innerText id else d.attr id "value"))
      else none

/-- Writes a property. -/
def setProperty (d : Document) (id : NodeId) (name : String) (value : Value) :
    Except WriteError Document :=
  let text := value.text d.label
  match textProperties.lookup name with
  | some attr => .ok (d.setAttr id attr text)
  | none =>
    match flagProperties.lookup name with
    | some attr => .ok (if value.truthy then d.setAttr id attr "" else d.removeAttr id attr)
    | none =>
      if name == "innerHTML" then d.setContent id text
      else if name == "textContent" || name == "innerText" then .ok (d.setText id text)
      else if name == "value" then
        .ok (if d.tag id == "textarea" then d.setText id text else d.setAttr id "value" text)
      else .error (.unknownProperty name)

/-! ## Styles -/

/-- The inline value of a style. -/
def style (d : Document) (id : NodeId) (name : String) : String :=
  Style.get (d.attr id "style") name

/-- Sets an inline style; the empty value removes it. -/
def setStyle (d : Document) (id : NodeId) (name value : String) : Except WriteError Document :=
  if Style.isKnown name then
    let styles := Style.set (d.attr id "style") name value
    .ok (if styles.isEmpty then d.removeAttr id "style" else d.setAttr id "style" styles)
  else .error (.unknownStyle name)

end Document

end PageMacro
