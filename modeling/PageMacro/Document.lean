import PageMacro.Html.Library
import PageMacro.Value.Tree

/-!
# The page

A document is a table of nodes; a node's place in the table is its identity and never changes.
Replacing the content of an element detaches the old nodes: they stay in the table, and whoever
holds their identity can still read and change them, but they are no longer reached from the root.
New nodes are only ever added at the end of the table. The document knows the library that its
markup is read and written by.
-/

namespace PageMacro

/-- What a node is. -/
inductive Content where
  | document
  | doctype (name publicId systemId : String)
  | element (tag space : String) (attrs : List Html.Attr)
  | text (s : String)
  | comment (s : String)
  deriving BEq, DecidableEq, Repr, Inhabited

/-- A node and the nodes directly inside it, in order. -/
structure Node where
  content : Content
  children : List NodeId := []
  deriving BEq, DecidableEq, Repr, Inhabited

/-- The nodes of a page. Node 0 is the root. -/
structure Document where
  nodes : Array Node
  html : Html.Library := .standard
  deriving Inhabited

namespace Document

/-- The identity of the root. -/
def root : NodeId := ⟨0⟩

/-- The page with nothing in it. -/
def empty (html : Html.Library := .standard) : Document := { nodes := #[⟨.document, []⟩], html }

/-- The node of an identity. -/
def node? (d : Document) (id : NodeId) : Option Node := d.nodes[id.index]?

/-- Adds a node at the end of the table. -/
def add (d : Document) (node : Node) : NodeId × Document :=
  (⟨d.nodes.size⟩, { d with nodes := d.nodes.push node })

/-- Changes one node. -/
def modify (d : Document) (id : NodeId) (f : Node → Node) : Document :=
  { d with nodes := d.nodes.modify id.index f }

/-! ## Trees in and out -/

mutual

/-- Adds the nodes of a tree, attached nowhere. -/
def insert (d : Document) : Html.Markup → NodeId × Document
  | .doctype name publicId systemId => d.add ⟨.doctype name publicId systemId, []⟩
  | .text s => d.add ⟨.text s, []⟩
  | .comment s => d.add ⟨.comment s, []⟩
  | .element tag space attrs children =>
    let (ids, d) := insertAll d children
    d.add ⟨.element tag space attrs, ids⟩

/-- Adds the nodes of several trees. -/
def insertAll (d : Document) : List Html.Markup → List NodeId × Document
  | [] => ([], d)
  | tree :: rest =>
    let (id, d) := insert d tree
    let (ids, d) := insertAll d rest
    (id :: ids, d)

end

/-- Replaces what is directly inside a node by new trees. -/
def replaceChildren (d : Document) (id : NodeId) (trees : List Html.Markup) : Document :=
  let (ids, d) := d.insertAll trees
  d.modify id fun node => { node with children := ids }

/-- Reads a page. -/
def parse (html : Html.Library) (markup : String) : Except Html.ParseError Document := do
  let trees ← html.parse markup
  return (empty html).replaceChildren root trees

/-- The tree under a node. The number bounds the depth; a page is never deeper than its table is
long. -/
def tree (d : Document) : Nat → NodeId → List Html.Markup
  | 0, _ => []
  | depth + 1, id =>
    match d.node? id with
    | none => []
    | some ⟨content, children⟩ =>
      let inner := children.flatMap (tree d depth)
      match content with
      | .document => inner
      | .doctype name publicId systemId => [.doctype name publicId systemId]
      | .element tag space attrs => [.element tag space attrs inner]
      | .text s => [.text s]
      | .comment s => [.comment s]

/-- The bound on the depth of the page. -/
def depth (d : Document) : Nat := d.nodes.size + 1

/-- The trees directly inside a node. -/
def innerTrees (d : Document) (id : NodeId) : List Html.Markup :=
  match d.node? id with
  | some node => node.children.flatMap (d.tree d.depth)
  | none => []

/-- The page as it is written. -/
def written (d : Document) : Html.Written := d.html.writeAll (d.tree d.depth root)

/-- The whole page as markup, if it can be written. -/
def render? (d : Document) : Option String := d.written.whole?

/-- The whole page as markup; empty if it cannot be written. -/
def render (d : Document) : String := d.render?.getD ""

/-! ## Elements -/

/-- The nodes at and below a node, in document order. -/
def below (d : Document) : Nat → NodeId → List NodeId
  | 0, _ => []
  | depth + 1, id =>
    match d.node? id with
    | none => []
    | some node => id :: node.children.flatMap (below d depth)

/-- The attributes of an element; none for other nodes. -/
def attrs (d : Document) (id : NodeId) : List Html.Attr :=
  match d.node? id with
  | some ⟨.element _ _ attrs, _⟩ => attrs
  | _ => []

/-- The tag of an element; empty for other nodes. -/
def tag (d : Document) (id : NodeId) : String :=
  match d.node? id with
  | some ⟨.element tag _ _, _⟩ => tag
  | _ => ""

/-- The namespace of an element; empty for HTML. -/
def space (d : Document) (id : NodeId) : String :=
  match d.node? id with
  | some ⟨.element _ space _, _⟩ => space
  | _ => ""

/-- Whether a node is an element. -/
def isElement (d : Document) (id : NodeId) : Bool :=
  match d.node? id with
  | some ⟨.element .., _⟩ => true
  | _ => false

/-- The elements on the page, in document order. -/
def elements (d : Document) : List NodeId :=
  (d.below d.depth root).filter d.isElement

/-- The value of an attribute. -/
def attr? (d : Document) (id : NodeId) (name : String) : Option String :=
  Html.attrValue? name (d.attrs id)

/-- The value of an attribute; empty if it is missing. -/
def attr (d : Document) (id : NodeId) (name : String) : String :=
  (d.attr? id name).getD ""

/-- The first element with an id. -/
def elementById? (d : Document) (name : String) : Option NodeId :=
  if name.isEmpty then none else d.elements.find? fun id => d.attr id "id" == name

/-- Whether an element carries a class. -/
def hasClass (d : Document) (id : NodeId) (name : String) : Bool :=
  (Text.words (d.attr id "class")).contains name

/-- The elements that carry a class, in document order. -/
def elementsByClass (d : Document) (name : String) : List NodeId :=
  if name.isEmpty then [] else d.elements.filter fun id => d.hasClass id name

/-- The elements that have an attribute, in document order. -/
def elementsWithAttr (d : Document) (name : String) : List NodeId :=
  d.elements.filter fun id => (d.attr? id name).isSome

/-- How an element is named in texts and messages: by its id, else by its tag. -/
def label (d : Document) (id : NodeId) : String :=
  let name := d.attr id "id"
  if name.isEmpty then "<" ++ d.tag id ++ ">" else "#" ++ name

/-- The node directly around a node, if it is in one. -/
def parent? (d : Document) (id : NodeId) : Option NodeId :=
  (d.nodes.findIdx? fun node => node.children.contains id).map NodeId.mk

/-- Whether a node is a form or inside one. The number bounds the steps outwards. -/
def insideForm (d : Document) : Nat → NodeId → Bool
  | 0, _ => false
  | steps + 1, id =>
    d.tag id == "form" || (match d.parent? id with
      | some outer => insideForm d steps outer
      | none => false)

end Document

end PageMacro
