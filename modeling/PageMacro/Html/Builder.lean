import PageMacro.Html.Token
import PageMacro.Text.Case

/-!
# From tokens to trees

Markup is forgiving: missing tags are supplied, paragraphs and list items close by themselves, and
misnested formatting elements are taken apart and put together again. The builder follows the
insertion modes of the HTML standard for documents without tables and frames. It works on a table
of nodes of its own, in which nodes can still be moved, and hands out finished trees.

Nesting is limited: more than 512 open elements are an error.
-/

namespace PageMacro.Html

/-- The limit on open elements was passed. -/
inductive ParseError where
  | tooDeep
  deriving BEq, DecidableEq, Repr

/-- The wording of the error. -/
def ParseError.message : ParseError → String
  | .tooDeep => "html: open stack of elements exceeds 512 nodes"

/-- The most elements that can be open at once. -/
def maxOpenElements : Nat := 512

namespace Build

/-- A node under construction. -/
structure Draft where
  content : Markup
  parent : Option Nat := none
  children : Array Nat := #[]
  deriving Inhabited

/-- The insertion modes. -/
inductive Mode where
  | initial | beforeHtml | beforeHead | inHead | afterHead | inBody | text | afterBody
  | afterAfterBody
  deriving BEq, Repr

/-- What surrounds a fragment: the element it will be put into, and whether a form is around. -/
structure Context where
  tag : String
  space : String := ""
  attrs : List Attr := []
  insideForm : Bool := false

/-- The state of the builder. Node 0 stands for the document. -/
structure State where
  nodes : Array Draft := #[⟨.text "", none, #[]⟩]
  /-- The open elements, outermost first. -/
  open_ : Array Nat := #[]
  /-- The active formatting elements; `none` is a marker. -/
  formatting : Array (Option Nat) := #[]
  mode : Mode := .initial
  returnMode : Mode := .inBody
  head : Option Nat := none
  hasForm : Bool := false
  form : Option Nat := none
  context : Option Context := none
  scanner : Scanner

/-- Steps of the builder. -/
abbrev Step := StateT State (Except ParseError)

/-! ## Nodes -/

/-- The tag of a node; empty for texts and comments. -/
def tagOf (s : State) (n : Nat) : String :=
  match s.nodes[n]? with
  | some ⟨.element tag _ _ _, _, _⟩ => tag
  | _ => ""

/-- The namespace of a node; empty for HTML. -/
def spaceOf (s : State) (n : Nat) : String :=
  match s.nodes[n]? with
  | some ⟨.element _ space _ _, _, _⟩ => space
  | _ => ""

/-- The attributes of a node. -/
def attrsOf (s : State) (n : Nat) : List Attr :=
  match s.nodes[n]? with
  | some ⟨.element _ _ attrs _, _, _⟩ => attrs
  | _ => []

/-- Adds a node that is nowhere in the tree yet. -/
def newNode (content : Markup) : Step Nat := fun s =>
  .ok (s.nodes.size, { s with nodes := s.nodes.push { content } })

/-- Changes one node. -/
def modifyNode (n : Nat) (f : Draft → Draft) : Step Unit :=
  modify fun s => { s with nodes := s.nodes.modify n f }

/-- Takes a node out of its parent. -/
def detach (n : Nat) : Step Unit := do
  let s ← get
  match (s.nodes[n]?).bind (·.parent) with
  | some p =>
    modifyNode p fun d => { d with children := d.children.filter (· != n) }
    modifyNode n fun d => { d with parent := none }
  | none => pure ()

/-- Makes a node the last child of another. -/
def append (parent n : Nat) : Step Unit := do
  detach n
  modifyNode parent fun d => { d with children := d.children.push n }
  modifyNode n fun d => { d with parent := some parent }

/-- The innermost open element; the document if none is open. -/
def current (s : State) : Nat := s.open_.back?.getD 0

/-- Opens an element. -/
def push (n : Nat) : Step Unit := do
  modify fun s => { s with open_ := s.open_.push n }
  if maxOpenElements < (← get).open_.size then throw .tooDeep

/-- Closes the innermost element. -/
def pop : Step Unit := modify fun s => { s with open_ := s.open_.pop }

/-- Closes all elements from a position on. -/
def closeFrom (i : Nat) : Step Unit := modify fun s => { s with open_ := s.open_.take i }

/-- Adds an element to the innermost open one and opens it. -/
def insertElement (tag : String) (attrs : List Attr) (space : String := "") : Step Unit := do
  let n ← newNode (.element tag space attrs [])
  append (current (← get)) n
  push n

/-- Adds a comment to a node. -/
def insertComment (parent : Nat) (text : String) : Step Unit := do
  let n ← newNode (.comment text)
  append parent n

/-- Adds text to the innermost open element, joining it with a text already at its end. -/
def insertText (text : List Char) : Step Unit := do
  if text.isEmpty then return
  let s ← get
  let here := current s
  let last := (s.nodes[here]?).bind (·.children.back?)
  match last with
  | some n =>
    match (s.nodes[n]?).map Draft.content with
    | some (.text old) =>
      modifyNode n fun d => { d with content := .text (old ++ String.ofList text) }
    | _ => append here (← newNode (.text (String.ofList text)))
  | none => append here (← newNode (.text (String.ofList text)))

/-! ## Scopes -/

/-- The kinds of scope in which an open element is looked for. -/
inductive Scope where
  | default | listItem | button
  deriving BEq

/-- The elements at which every search stops. -/
def scopeStops (space : String) : List String :=
  if space == "" then
    ["applet", "caption", "html", "table", "td", "th", "marquee", "object", "template"]
  else if space == "math" then ["annotation-xml", "mi", "mn", "mo", "ms", "mtext"]
  else if space == "svg" then ["desc", "foreignObject", "title"]
  else []

/-- The position of the innermost open element with one of the tags, unless the scope ends
before it. The number counts the open elements still to be looked at. -/
def findInScope (s : State) (scope : Scope) (tags : List String) : Nat → Option Nat
  | 0 => none
  | i + 1 =>
    match s.open_[i]? with
    | none => none
    | some n =>
      let tag := tagOf s n
      let space := spaceOf s n
      if space == "" && tags.contains tag then some i
      else if space == "" && scope == .listItem && ["ol", "ul"].contains tag then none
      else if space == "" && scope == .button && tag == "button" then none
      else if (scopeStops space).contains tag then none
      else findInScope s scope tags i

/-- Whether an element with one of the tags is open in the scope. -/
def inScope (scope : Scope) (tags : List String) : Step Bool := do
  let s ← get
  return (findInScope s scope tags s.open_.size).isSome

/-- Closes elements up to and with the innermost of the given tags in the scope. -/
def popUntil (scope : Scope) (tags : List String) : Step Bool := do
  let s ← get
  match findInScope s scope tags s.open_.size with
  | some i => closeFrom i; return true
  | none => return false

/-- Closes an open paragraph. -/
def closeParagraph : Step Unit := do discard (popUntil .button ["p"])

/-- The elements of HTML that bound the effect of a closing tag. -/
def specialTags : List String :=
  ["address", "applet", "area", "article", "aside", "base", "basefont", "bgsound", "blockquote",
    "body", "br", "button", "caption", "center", "col", "colgroup", "dd", "details", "dir", "div",
    "dl", "dt", "embed", "fieldset", "figcaption", "figure", "footer", "form", "frame",
    "frameset", "h1", "h2", "h3", "h4", "h5", "h6", "head", "header", "hgroup", "hr", "html",
    "iframe", "img", "input", "keygen", "li", "link", "listing", "main", "marquee", "menu", "meta",
    "nav", "noembed", "noframes", "noscript", "object", "ol", "p", "param", "plaintext", "pre",
    "script", "section", "select", "source", "style", "summary", "table", "tbody", "td",
    "template", "textarea", "tfoot", "th", "thead", "title", "tr", "track", "ul", "wbr", "xmp"]

/-- Whether an open element bounds the effect of a closing tag. -/
def isSpecial (s : State) (n : Nat) : Bool :=
  let tag := tagOf s n
  match spaceOf s n with
  | "" => specialTags.contains tag
  | "math" => ["mi", "mo", "mn", "ms", "mtext", "annotation-xml"].contains tag
  | "svg" => ["foreignObject", "desc", "title"].contains tag
  | _ => false

/-! ## Formatting elements -/

/-- A copy of an element without its children. -/
def cloneNode (n : Nat) : Step Nat := do
  let s ← get
  newNode (.element (tagOf s n) (spaceOf s n) (attrsOf s n) [])

/-- How many of the last formatting elements are not open any more, up to a marker. -/
def closedFormatting (s : State) : Nat :=
  (s.formatting.toList.reverse.takeWhile fun
    | some n => !s.open_.contains n
    | none => false).length

/-- Opens copies of the formatting elements that were closed by an outer element. -/
def reconstruct : Step Unit := do
  let s ← get
  let start := s.formatting.size - closedFormatting s
  for i in [start:s.formatting.size] do
    match (← get).formatting[i]? with
    | some (some n) =>
      let copy ← cloneNode n
      append (current (← get)) copy
      push copy
      modify fun s => { s with formatting := s.formatting.setIfInBounds i (some copy) }
    | _ => pure ()

/-- Removes an element from the active formatting elements. -/
def dropFormatting (n : Nat) : Step Unit :=
  modify fun s => { s with formatting := s.formatting.filter (· != some n) }

/-- Removes an element from the open elements. -/
def dropOpen (n : Nat) : Step Unit :=
  modify fun s => { s with open_ := s.open_.filter (· != n) }

/-- The active formatting elements after the last marker, innermost first. -/
def recentFormatting (s : State) : List Nat :=
  (s.formatting.toList.reverse.takeWhile Option.isSome).filterMap id

/-- Inserts a formatting element. Of elements that look alike, at most three stay active. -/
def insertFormatting (tag : String) (attrs : List Attr) : Step Unit := do
  insertElement tag attrs
  let s ← get
  let same (n : Nat) : Bool :=
    tagOf s n == tag && spaceOf s n == "" && (attrsOf s n).length == attrs.length &&
      (attrsOf s n).all attrs.contains
  for n in ((recentFormatting s).filter same).drop 2 do dropFormatting n
  modify fun s => { s with formatting := s.formatting.push (some (current s)) }

/-- Closes the innermost element of a tag unless a special element is in the way. The number
counts the open elements still to be looked at. -/
def closeOther (s : State) (tag : String) : Nat → Option Nat
  | 0 => none
  | i + 1 =>
    match s.open_[i]? with
    | none => none
    | some n =>
      if tagOf s n == tag then some i
      else if isSpecial s n then none
      else closeOther s tag i

/-- A closing tag without rules of its own. -/
def endOther (tag : String) : Step Unit := do
  let s ← get
  match closeOther s tag s.open_.size with
  | some i => closeFrom i
  | none => pure ()

/-- Inserts into an array, at most at its end. -/
def insertAtIndex {α : Type} (xs : Array α) (i : Nat) (x : α) : Array α :=
  (xs.toList.take i ++ x :: xs.toList.drop i).toArray

/-- What the inner loop of `adopt` carries along. -/
structure Climb where
  last : Nat
  bookmark : Nat

/-- Climbs from the furthest block to the formatting element and copies the formatting elements on
the way around the block. `x` is the position of the open element below the next one. -/
def climb (formattingElement block : Nat) : Nat → Nat → Nat → Climb → Step Climb
  | 0, _, _, c => pure c
  | fuel + 1, x, count, c => do
    let s ← get
    match s.open_[x - 1]? with
    | none => pure c
    | some node =>
      if node == formattingElement then pure c
      else
        match s.formatting.findIdx? (· == some node) with
        | some i =>
          if 3 < count + 1 then
            dropFormatting node
            let bookmark := if i ≤ c.bookmark then c.bookmark - 1 else c.bookmark
            climb formattingElement block fuel (x - 1) (count + 1) { c with bookmark }
          else
            let copy ← cloneNode node
            modify fun s => { s with
              formatting := s.formatting.map fun f => if f == some node then some copy else f
              open_ := s.open_.map fun o => if o == node then copy else o }
            let bookmark := if c.last == block then i + 1 else c.bookmark
            append copy c.last
            climb formattingElement block fuel (x - 1) (count + 1) { last := copy, bookmark }
        | none =>
          dropOpen node
          climb formattingElement block fuel (x - 1) (count + 1) c

/-- One round of taking misnested formatting elements apart; gives whether to go on. -/
def adoptOnce (tag : String) : Step Bool := do
  let s ← get
  match (recentFormatting s).find? fun n => tagOf s n == tag with
  | none => endOther tag; return false
  | some element =>
    match s.open_.findIdx? (· == element) with
    | none => dropFormatting element; return false
    | some position =>
      if !(← inScope .default [tag]) then return false
      match (s.open_.toList.drop position).find? (isSpecial s) with
      | none =>
        closeFrom position
        dropFormatting element
        return false
      | some block =>
        let ancestor := (s.open_[position - 1]?).getD 0
        let bookmark := (s.formatting.findIdx? (· == some element)).getD 0
        let start := (s.open_.findIdx? (· == block)).getD 0
        let c ← climb element block (s.open_.size + 1) start 0 { last := block, bookmark }
        append ancestor c.last
        let copy ← cloneNode element
        for child in (((← get).nodes[block]?).map (·.children)).getD #[] do append copy child
        append block copy
        let s ← get
        let at_ := match s.formatting.findIdx? (· == some element) with
          | some i => if i < c.bookmark then c.bookmark - 1 else c.bookmark
          | none => c.bookmark
        dropFormatting element
        modify fun s => { s with formatting := insertAtIndex s.formatting at_ (some copy) }
        dropOpen element
        modify fun s => { s with
          open_ := insertAtIndex s.open_ ((s.open_.findIdx? (· == block)).getD 0 + 1) copy }
        return true

/-- The closing tag of a formatting element. -/
def endFormatting (tag : String) : Step Unit := do
  let s ← get
  let here := current s
  if tagOf s here == tag && !s.formatting.contains (some here) then pop
  else
    for _ in [0:8] do
      if !(← adoptOnce tag) then return

/-! ## Foreign content -/

/-- Tags that end a drawing. -/
def breakoutTags : List String :=
  ["b", "big", "blockquote", "body", "br", "center", "code", "dd", "div", "dl", "dt", "em",
    "embed", "h1", "h2", "h3", "h4", "h5", "h6", "head", "hr", "i", "img", "li", "listing", "menu",
    "meta", "nobr", "ol", "p", "pre", "ruby", "s", "small", "span", "strong", "strike", "sub",
    "sup", "table", "tt", "u", "ul", "var"]

/-- Names of drawing elements that are not in lower case. -/
def drawingTags : List String :=
  ["altGlyph", "altGlyphDef", "altGlyphItem", "animateColor", "animateMotion",
    "animateTransform", "clipPath", "feBlend", "feColorMatrix", "feComponentTransfer",
    "feComposite", "feConvolveMatrix", "feDiffuseLighting", "feDisplacementMap",
    "feDistantLight", "feFlood", "feFuncA", "feFuncB", "feFuncG", "feFuncR", "feGaussianBlur",
    "feImage", "feMerge", "feMergeNode", "feMorphology", "feOffset", "fePointLight",
    "feSpecularLighting", "feSpotLight", "feTile", "feTurbulence", "foreignObject", "glyphRef",
    "linearGradient", "radialGradient", "textPath"]

/-- Names of drawing attributes that are not in lower case. -/
def drawingAttrs : List String :=
  ["attributeName", "attributeType", "baseFrequency", "baseProfile", "calcMode",
    "clipPathUnits", "diffuseConstant", "edgeMode", "filterUnits", "glyphRef",
    "gradientTransform", "gradientUnits", "kernelMatrix", "kernelUnitLength", "keyPoints",
    "keySplines", "keyTimes", "lengthAdjust", "limitingConeAngle", "markerHeight",
    "markerUnits", "markerWidth", "maskContentUnits", "maskUnits", "numOctaves", "pathLength",
    "patternContentUnits", "patternTransform", "patternUnits", "pointsAtX", "pointsAtY",
    "pointsAtZ", "preserveAlpha", "preserveAspectRatio", "primitiveUnits", "refX", "refY",
    "repeatCount", "repeatDur", "requiredExtensions", "requiredFeatures", "specularConstant",
    "specularExponent", "spreadMethod", "startOffset", "stdDeviation", "stitchTiles",
    "surfaceScale", "systemLanguage", "tableValues", "targetX", "targetY", "textLength",
    "viewBox", "viewTarget", "xChannelSelector", "yChannelSelector", "zoomAndPan"]

/-- The spelling in the list that equals a lower-case name. -/
def spelled (names : List String) (name : String) : String :=
  (names.find? fun n => lowerName n.toList == name).getD name

/-- Attributes of foreign elements: spelling, and the part before a colon set apart. -/
def foreignAttr (space : String) (a : Attr) : Attr :=
  let name :=
    if space == "svg" then spelled drawingAttrs a.name
    else if space == "math" && a.name == "definitionurl" then "definitionURL"
    else a.name
  let known := ["xlink:actuate", "xlink:arcrole", "xlink:href", "xlink:role", "xlink:show",
    "xlink:title", "xlink:type", "xml:base", "xml:lang", "xml:space", "xmlns:xlink"]
  if known.contains name then
    match Text.cut ':' name with
    | some (before, after) => { a with space := before, name := after }
    | none => { a with name }
  else { a with name }

/-- An element as the context of what is inside it. -/
def contextOf (s : State) (n : Nat) : Context :=
  { tag := tagOf s n, space := spaceOf s n, attrs := attrsOf s n }

/-- Whether HTML goes on inside an element of a drawing or a formula. -/
def Context.continuesHtml (c : Context) : Bool :=
  if c.space == "svg" then ["desc", "foreignObject", "title"].contains c.tag
  else c.space == "math" && c.tag == "annotation-xml" && c.attrs.any fun a =>
    a.name == "encoding" && ["text/html", "application/xhtml+xml"].contains (Text.lower a.value)

/-- Whether an element of a formula holds text. -/
def Context.holdsText (c : Context) : Bool :=
  c.space == "math" && ["mi", "mo", "mn", "ms", "mtext"].contains c.tag

/-- What the next token falls into. -/
def surrounding (s : State) : Context :=
  match s.context with
  | some c => if s.open_.size == 1 then c else contextOf s (current s)
  | none => contextOf s (current s)

/-- Whether a token belongs to a drawing or a formula. -/
def inForeign (s : State) (token : Token) : Bool :=
  let around := surrounding s
  if around.space == "" || s.open_.isEmpty then false
  else
    match token with
    | .finish => false
    | .startTag name .. =>
      !(around.continuesHtml ||
        (around.holdsText && name != "mglyph" && name != "malignmark") ||
        (around.space == "math" && around.tag == "annotation-xml" && name == "svg"))
    | .text _ => !(around.continuesHtml || around.holdsText)
    | _ => true

/-- The position below which a breakout tag closes. -/
def breakoutDepth (s : State) : Nat → Nat
  | 0 => 0
  | i + 1 =>
    match s.open_[i]? with
    | none => 0
    | some n =>
      let around := contextOf s n
      if around.space == "" || around.continuesHtml || around.holdsText then i + 1
      else breakoutDepth s i

/-- The position of the open element that a closing tag in a drawing closes. -/
def foreignClose (s : State) (name : String) : Nat → Option Nat
  | 0 => none
  | i + 1 =>
    match s.open_[i]? with
    | none => none
    | some n =>
      if lowerName (tagOf s n).toList == name then some i
      else if 0 < i && (s.open_[i - 1]?).any (fun m => spaceOf s m == "") then none
      else foreignClose s name i

/-- Opens a foreign element; one that closes itself is closed at once. -/
def insertForeign (name : String) (attrs : List Attr) (selfClosing : Bool) (space : String) :
    Step Unit := do
  let tag := if space == "svg" then spelled drawingTags name else name
  insertElement tag (attrs.map (foreignAttr space)) space
  modify fun s => { s with scanner := { s.scanner with rawTag := none } }
  if selfClosing then pop

/-! ## Insertion modes

Each gives whether it has used up the token. -/

/-- The white space that comes first, and the rest. -/
def spanSpace (text : List Char) : List Char × List Char :=
  (text.takeWhile isTagSpace, text.dropWhile isTagSpace)

/-- Switches the mode. -/
def become (mode : Mode) : Step Unit := modify fun s => { s with mode }

/-- An element with raw content: the mode comes back after its end. -/
def insertRaw (tag : String) (attrs : List Attr) : Step Unit := do
  insertElement tag attrs
  modify fun s => { s with returnMode := s.mode, mode := .text }

/-- Adds attributes that an element does not have yet. -/
def addAttrs (n : Nat) (attrs : List Attr) : Step Unit :=
  modifyNode n fun d =>
    match d.content with
    | .element tag space old children =>
      let fresh := attrs.filter fun a => !old.any (·.name == a.name)
      { d with content := .element tag space (old ++ fresh) children }
    | _ => d

/-- The name and the identifiers of a document type. -/
def doctypeOf (text : List Char) : Markup :=
  let name := lowerName (text.takeWhile (!isTagSpace ·))
  let rest := (text.dropWhile (!isTagSpace ·)).dropWhile isTagSpace
  let identifier (cs : List Char) : Option (String × List Char) :=
    match cs.dropWhile isTagSpace with
    | '"' :: more => let (id, after) := (Text.cutChars '"' more).getD (more, [])
      some (String.ofList id, after)
    | '\'' :: more => let (id, after) := (Text.cutChars '\'' more).getD (more, [])
      some (String.ofList id, after)
    | _ => none
  let keyword := lowerName (rest.take 6)
  if keyword == "public" then
    match identifier (rest.drop 6) with
    | some (publicId, after) => .doctype name publicId ((identifier after).map (·.1) |>.getD "")
    | none => .doctype name "" ""
  else if keyword == "system" then .doctype name "" ((identifier (rest.drop 6)).map (·.1) |>.getD "")
  else .doctype name "" ""

/-- Tags that stand in the head. -/
def headTags : List String :=
  ["base", "basefont", "bgsound", "link", "meta", "noframes", "script", "style", "title"]

/-- A start tag of the head. -/
def startInHead (name : String) (attrs : List Attr) : Step Unit := do
  if ["base", "basefont", "bgsound", "link", "meta"].contains name then
    insertElement name attrs
    pop
  else insertRaw name attrs

/-- Tags of block elements, which close an open paragraph. -/
def blockTags : List String :=
  ["address", "article", "aside", "blockquote", "center", "details", "dialog", "dir", "div", "dl",
    "fieldset", "figcaption", "figure", "footer", "header", "hgroup", "main", "menu", "nav", "ol",
    "p", "search", "section", "summary", "ul"]

/-- Headings. -/
def headingTags : List String := ["h1", "h2", "h3", "h4", "h5", "h6"]

/-- Formatting elements. -/
def formattingTags : List String :=
  ["a", "b", "big", "code", "em", "font", "i", "nobr", "s", "small", "strike", "strong", "tt", "u"]

/-- The open item of a list that a new item closes. The number counts the open elements still to
be looked at. -/
def openItem (s : State) (items : List String) : Nat → Option Nat
  | 0 => none
  | i + 1 =>
    match s.open_[i]? with
    | none => none
    | some n =>
      let tag := tagOf s n
      if items.contains tag then some i
      else if ["address", "div", "p"].contains tag || !isSpecial s n then openItem s items i
      else none

/-- Closes the open item of a list, and a paragraph. -/
def closeItem (items : List String) : Step Unit := do
  let s ← get
  match openItem s items s.open_.size with
  | some i => closeFrom i
  | none => pure ()
  closeParagraph

/-- An element without content. -/
def insertVoid (name : String) (attrs : List Attr) : Step Unit := do
  insertElement name attrs
  pop

/-- A start tag in the body. -/
def startInBody (name : String) (attrs : List Attr) (selfClosing : Bool) : Step Unit := do
  if name == "html" then
    match (← get).open_[0]? with
    | some n => addAttrs n attrs
    | none => pure ()
  else if headTags.contains name then startInHead name attrs
  else if name == "body" then
    let s ← get
    match s.open_[1]? with
    | some n => if tagOf s n == "body" then addAttrs n attrs
    | none => pure ()
  else if blockTags.contains name then
    closeParagraph
    insertElement name attrs
  else if headingTags.contains name then
    closeParagraph
    let s ← get
    if headingTags.contains (tagOf s (current s)) then pop
    insertElement name attrs
  else if ["pre", "listing", "plaintext"].contains name then
    closeParagraph
    insertElement name attrs
  else if name == "form" then
    if (← get).hasForm then return
    closeParagraph
    insertElement name attrs
    modify fun s => { s with hasForm := true, form := some (current s) }
  else if name == "li" then
    closeItem ["li"]
    insertElement name attrs
  else if name == "dd" || name == "dt" then
    closeItem ["dd", "dt"]
    insertElement name attrs
  else if name == "button" then
    discard (popUntil .default ["button"])
    reconstruct
    insertElement name attrs
  else if name == "a" then
    let s ← get
    match (recentFormatting s).find? fun n => tagOf s n == "a" with
    | some n =>
      endFormatting "a"
      dropOpen n
      dropFormatting n
    | none => pure ()
    reconstruct
    insertFormatting name attrs
  else if name == "nobr" then
    reconstruct
    if ← inScope .default ["nobr"] then
      endFormatting "nobr"
      reconstruct
    insertFormatting name attrs
  else if formattingTags.contains name then
    reconstruct
    insertFormatting name attrs
  else if ["applet", "marquee", "object"].contains name then
    reconstruct
    insertElement name attrs
    modify fun s => { s with formatting := s.formatting.push none }
  else if ["area", "br", "embed", "img", "image", "input", "keygen", "wbr"].contains name then
    reconstruct
    insertVoid (if name == "image" then "img" else name) attrs
  else if ["param", "source", "track"].contains name then insertVoid name attrs
  else if name == "hr" then
    closeParagraph
    insertVoid name attrs
  else if name == "xmp" then
    closeParagraph
    reconstruct
    insertRaw name attrs
  else if ["textarea", "iframe", "noembed", "noscript"].contains name then insertRaw name attrs
  else if name == "optgroup" || name == "option" then
    let s ← get
    if tagOf s (current s) == "option" then pop
    reconstruct
    insertElement name attrs
  else if name == "svg" || name == "math" then
    reconstruct
    insertForeign name attrs selfClosing name
  else if ["caption", "col", "colgroup", "frame", "frameset", "head", "tbody", "td", "tfoot", "th",
      "thead", "tr"].contains name then return
  else
    reconstruct
    insertElement name attrs

/-- Drops the formatting elements after the last marker, and the marker. -/
def clearFormatting : Step Unit :=
  modify fun s => { s with
    formatting :=
      ((s.formatting.toList.reverse.dropWhile Option.isSome).drop 1).reverse.toArray }

/-- A closing tag in the body. -/
def endInBody (name : String) : Step Unit := do
  if name == "body" || name == "html" then
    if ← inScope .default ["body"] then become .afterBody
  else if name == "p" then
    if !(← inScope .button ["p"]) then insertElement "p" []
    closeParagraph
  else if blockTags.contains name || ["button", "listing", "pre"].contains name then
    discard (popUntil .default [name])
  else if name == "form" then
    let s ← get
    modify fun s => { s with hasForm := false, form := none }
    match s.form, findInScope s .default ["form"] s.open_.size with
    | some n, some i => if s.open_[i]? == some n then dropOpen n
    | _, _ => pure ()
  else if name == "li" then discard (popUntil .listItem ["li"])
  else if name == "dd" || name == "dt" then discard (popUntil .default [name])
  else if headingTags.contains name then discard (popUntil .default headingTags)
  else if formattingTags.contains name then endFormatting name
  else if ["applet", "marquee", "object"].contains name then
    if ← popUntil .default [name] then clearFormatting
  else if name == "br" then
    reconstruct
    insertVoid "br" []
  else endOther name

/-- Drops the line feed at the start of an element. -/
def dropLineFeed (text : List Char) : List Char :=
  match text with
  | '\r' :: '\n' :: rest => rest
  | '\n' :: rest => rest
  | '\r' :: rest => rest
  | _ => text

/-- Whether the innermost open element has one of the tags and nothing in it. -/
def atStartOf (tags : List String) : Step Bool := do
  let s ← get
  let n := current s
  return tags.contains (tagOf s n) && ((s.nodes[n]?).map (·.children.isEmpty)).getD false

/-- A token in the body. -/
def inBody (token : Token) : Step Unit := do
  match token with
  | .text text =>
    let text := if ← atStartOf ["pre", "listing"] then dropLineFeed text else text
    let text := text.filter (· != '\x00')
    if text.isEmpty then return
    reconstruct
    insertText text
  | .startTag name attrs selfClosing => startInBody name attrs selfClosing
  | .endTag name =>
    endInBody name
  | .comment text => insertComment (current (← get)) text
  | .doctype _ => pure ()
  | .finish => pure ()

/-- A token in a drawing; gives whether it is used up. -/
def foreign (token : Token) : Step Bool := do
  match token with
  | .text text =>
    insertText (text.map fun c => if c == '\x00' then '\ufffd' else c)
    return true
  | .comment text => insertComment (current (← get)) text; return true
  | .startTag name attrs selfClosing =>
    let s ← get
    if s.context.isNone && breakoutTags.contains name then
      closeFrom (breakoutDepth s s.open_.size)
      return false
    insertForeign name attrs selfClosing (surrounding s).space
    return true
  | .endTag name =>
    let s ← get
    match foreignClose s name s.open_.size with
    | some i => closeFrom i
    | none => inBody token
    return true
  | _ => return true

/-- Supplies the element `html`. -/
def supplyHtml : Step Unit := do
  insertElement "html" []
  become .beforeHead

/-- Supplies the head. -/
def supplyHead : Step Unit := do
  insertElement "head" []
  modify fun s => { s with head := some (current s), mode := .inHead }

/-- Supplies the body. -/
def supplyBody : Step Unit := do
  insertElement "body" []
  become .inBody

/-- Whether a text is all white space. -/
def isSpaceOnly (text : List Char) : Bool := text.all isTagSpace

/-- One token in the current mode: what is left of it. -/
def dispatch (token : Token) : Step (Option Token) := do
  match (← get).mode with
  | .initial =>
    match token with
    | .text text =>
      let rest := (spanSpace text).2
      if rest.isEmpty then return none
      become .beforeHtml
      return some (.text rest)
    | .comment text => insertComment 0 text; return none
    | .doctype text =>
      let n ← newNode (doctypeOf text)
      append 0 n
      become .beforeHtml
      return none
    | _ => become .beforeHtml; return some token
  | .beforeHtml =>
    match token with
    | .doctype _ => return none
    | .text text =>
      let rest := (spanSpace text).2
      if rest.isEmpty then return none
      supplyHtml
      return some (.text rest)
    | .startTag "html" attrs _ =>
      insertElement "html" attrs
      become .beforeHead
      return none
    | .endTag name =>
      if !(["head", "body", "html", "br"].contains name) then return none
      supplyHtml
      return some token
    | .comment text => insertComment 0 text; return none
    | _ => supplyHtml; return some token
  | .beforeHead =>
    match token with
    | .text text =>
      let rest := (spanSpace text).2
      if rest.isEmpty then return none
      supplyHead
      return some (.text rest)
    | .startTag "head" attrs _ =>
      insertElement "head" attrs
      modify fun s => { s with head := some (current s), mode := .inHead }
      return none
    | .startTag "html" _ _ => inBody token; return none
    | .endTag name =>
      if !(["head", "body", "html", "br"].contains name) then return none
      supplyHead
      return some token
    | .comment text => insertComment (current (← get)) text; return none
    | .doctype _ => return none
    | _ => supplyHead; return some token
  | .inHead =>
    match token with
    | .text text =>
      let (space, rest) := spanSpace text
      insertText space
      if rest.isEmpty then return none
      pop
      become .afterHead
      return some (.text rest)
    | .startTag name attrs _ =>
      if name == "html" then inBody token; return none
      if headTags.contains name || name == "noscript" then startInHead name attrs; return none
      if name == "head" then return none
      pop
      become .afterHead
      return some token
    | .endTag name =>
      if name == "head" then pop; become .afterHead; return none
      if !(["body", "html", "br"].contains name) then return none
      pop
      become .afterHead
      return some token
    | .comment text => insertComment (current (← get)) text; return none
    | .doctype _ => return none
    | .finish => pop; become .afterHead; return some token
  | .afterHead =>
    match token with
    | .text text =>
      let (space, rest) := spanSpace text
      insertText space
      if rest.isEmpty then return none
      supplyBody
      return some (.text rest)
    | .startTag name attrs _ =>
      if name == "html" then inBody token; return none
      if name == "body" then insertElement "body" attrs; become .inBody; return none
      if headTags.contains name then
        let head := (← get).head.getD 0
        modify fun s => { s with open_ := s.open_.push head }
        startInHead name attrs
        dropOpen head
        return none
      if name == "head" then return none
      supplyBody
      return some token
    | .endTag name =>
      if !(["body", "html", "br"].contains name) then return none
      supplyBody
      return some token
    | .comment text => insertComment (current (← get)) text; return none
    | .doctype _ => return none
    | .finish => supplyBody; return some token
  | .inBody => inBody token; return none
  | .text =>
    match token with
    | .text text =>
      insertText (if ← atStartOf ["textarea"] then dropLineFeed text else text)
      return none
    | .endTag _ =>
      pop
      modify fun s => { s with mode := s.returnMode }
      return none
    | .finish =>
      pop
      modify fun s => { s with mode := s.returnMode }
      return some token
    | _ =>
      modify fun s => { s with mode := s.returnMode }
      return some token
  | .afterBody =>
    match token with
    | .finish => return none
    | .text text =>
      if isSpaceOnly text then inBody token; return none
      become .inBody
      return some token
    | .startTag "html" _ _ => inBody token; return none
    | .endTag "html" =>
      if (← get).context.isNone then become .afterAfterBody
      return none
    | .comment text => insertComment (((← get).open_[0]?).getD 0) text; return none
    | .doctype _ => return none
    | _ => become .inBody; return some token
  | .afterAfterBody =>
    match token with
    | .finish => return none
    | .text text =>
      if isSpaceOnly text then inBody token; return none
      become .inBody
      return some token
    | .startTag "html" _ _ => inBody token; return none
    | .comment text => insertComment 0 text; return none
    | .doctype _ => return none
    | _ => become .inBody; return some token

/-- Works on a token until it is used up. Every mode that hands a token on comes later in the
order of the modes, or leaves a drawing, so a few rounds suffice. -/
def feed : Nat → Token → Step Unit
  | 0, _ => pure ()
  | rounds + 1, token => do
    if inForeign (← get) token then
      if !(← foreign token) then feed rounds token
    else
      match ← dispatch token with
      | some rest => feed rounds rest
      | none => pure ()

/-- Feeds all tokens. Each token takes at least one character, so the length of the text bounds
their number. -/
def feedAll : Nat → Step Unit
  | 0 => pure ()
  | fuel + 1 => do
    let (token, scanner) := (← get).scanner.next
    modify fun s => { s with scanner }
    feed 16 token
    match token with
    | .finish => pure ()
    | _ => feedAll fuel

/-- The finished tree of a node. The number bounds the depth. -/
def finished (s : State) : Nat → Nat → List Markup
  | 0, _ => []
  | depth + 1, n =>
    match s.nodes[n]? with
    | none => []
    | some draft =>
      match draft.content with
      | .element tag space attrs _ =>
        [.element tag space attrs (draft.children.toList.flatMap (finished s depth))]
      | content => [content]

/-- The finished trees of the children of a node. -/
def childrenOf (s : State) (n : Nat) : List Markup :=
  match s.nodes[n]? with
  | some draft => draft.children.toList.flatMap (finished s (s.nodes.size + 1))
  | none => []

end Build

/-- Reads a whole document: the trees under its root. -/
def parseDocument (markup : String) : Except ParseError (List Markup) := do
  let text := markup.toList
  let start : Build.State := { scanner := ⟨text, none⟩ }
  let (_, s) ← (Build.feedAll (text.length + 2)).run start
  return Build.childrenOf s 0

/-- The mode in which a fragment inside the given element starts. -/
def fragmentMode (tag : String) : Build.Mode :=
  if tag == "html" then .beforeHead else .inBody

/-- Reads a fragment that will be put into an element. -/
def parseFragment (context : Build.Context) (markup : String) :
    Except ParseError (List Markup) := do
  let text := markup.toList
  let raw := if context.space == "" && rawTags.contains context.tag then some context.tag else none
  let start : Build.State :=
    { nodes := #[⟨.text "", none, #[1]⟩, ⟨.element "html" "" [] [], some 0, #[]⟩]
      open_ := #[1]
      mode := fragmentMode context.tag
      hasForm := context.insideForm
      context := some context
      scanner := ⟨text, raw⟩ }
  let (_, s) ← (Build.feedAll (text.length + 2)).run start
  return Build.childrenOf s 1

end PageMacro.Html
