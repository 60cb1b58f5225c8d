import PageMacro.Text.Pieces

/-!
# Markup trees

A piece of HTML as a tree, and how it is written. Writing stops at an element that cannot have
content, such as `input`, but has some: `Written` holds what was written up to there and the tag
of that element.
-/

namespace PageMacro.Html

/-- An attribute; `space` is the part before the colon of the few attributes that have one. -/
structure Attr where
  space : String := ""
  name : String
  value : String
  deriving BEq, DecidableEq, Repr, Inhabited

/-- The value of the attribute of a given plain name. -/
def attrValue? (name : String) (attrs : List Attr) : Option String :=
  (attrs.find? fun a => a.space.isEmpty && a.name == name).map (·.value)

/-- A node of a tree of markup. -/
inductive Markup where
  | doctype (name publicId systemId : String)
  | element (tag space : String) (attrs : List Attr) (children : List Markup)
  | text (s : String)
  | comment (s : String)
  deriving Inhabited

/-- The elements that have no content. -/
def voidTags : List String :=
  ["area", "base", "br", "col", "embed", "hr", "img", "input", "keygen", "link", "meta", "param",
    "source", "track", "wbr"]

/-- The elements whose text is written as it is. -/
def literalTags : List String :=
  ["iframe", "noembed", "noframes", "noscript", "plaintext", "script", "style", "xmp"]

/-- How one character of a text or an attribute value is written. -/
def escapeChar (c : Char) : List Char :=
  if c == '&' then "&amp;".toList
  else if c == '\'' then "&#39;".toList
  else if c == '<' then "&lt;".toList
  else if c == '>' then "&gt;".toList
  else if c == '"' then "&#34;".toList
  else if c == '\r' then "&#13;".toList
  else [c]

/-- How a text or an attribute value is written. -/
def escapeText (s : String) : String :=
  String.ofList (s.toList.flatMap escapeChar)

/-- How the text of a comment is written: `&` always escaped, `>` only where it could end the
comment, that is at the start and after `!` and `-`. -/
def escapeCommentChars (atStart : Bool) (previous : Char) : List Char → List Char
  | [] => []
  | c :: rest =>
    let shown :=
      if c == '&' then "&amp;".toList
      else if c == '>' && (atStart || previous == '!' || previous == '-') then "&gt;".toList
      else [c]
    shown ++ escapeCommentChars false c rest

/-- An identifier of a document type between the quotes it does not contain. -/
def quoteIdentifier (s : String) : String :=
  if s.toList.contains '"' then "'" ++ s ++ "'" else "\"" ++ s ++ "\""

/-- How an attribute is written. -/
def Attr.render (a : Attr) : String :=
  " " ++ (if a.space.isEmpty then "" else a.space ++ ":") ++ a.name ++ "=\"" ++
    escapeText a.value ++ "\""

/-- What was written, and the tag of the element that stopped the writing. -/
structure Written where
  text : String := ""
  stopped : Option String := none
  deriving Repr, BEq

/-- Whether nothing stopped the writing. -/
def Written.complete (w : Written) : Bool := w.stopped.isNone

/-- The whole text, if nothing stopped the writing. -/
def Written.whole? (w : Written) : Option String := if w.complete then some w.text else none

/-- Goes on writing unless the writing has stopped. -/
def Written.andThen (w : Written) (next : Written) : Written :=
  if w.complete then ⟨w.text ++ next.text, next.stopped⟩ else w

/-- The text with nothing in the way. -/
def Written.plain (s : String) : Written := ⟨s, none⟩

/-- The tag that opens an element, without its end. -/
def openTag (tag : String) (attrs : List Attr) : String :=
  "<" ++ tag ++ String.join (attrs.map Attr.render)

/-- A line feed at the start of these elements would be dropped when read, so one more is
written. -/
def guardLineFeed (tag : String) : List Markup → String
  | .text s :: _ =>
    if Text.beginsWith "\n" s && ["pre", "listing", "textarea"].contains tag then "\n" else ""
  | _ => ""

/-- Whether the text inside an element is written as it is. -/
def isLiteral (tag space : String) : Bool := space.isEmpty && literalTags.contains tag

mutual

/-- Writes a tree; the flag says that texts are written as they are. -/
def Markup.write (literal : Bool) : Markup → Written
  | .doctype name publicId systemId =>
    let identifiers :=
      if !publicId.isEmpty then
        " PUBLIC " ++ quoteIdentifier publicId ++
          (if systemId.isEmpty then "" else " " ++ quoteIdentifier systemId)
      else if !systemId.isEmpty then " SYSTEM " ++ quoteIdentifier systemId
      else ""
    .plain ("<!DOCTYPE " ++ escapeText name ++ identifiers ++ ">")
  | .text s => .plain (if literal then s else escapeText s)
  | .comment s =>
    .plain ("<!--" ++ String.ofList (escapeCommentChars true ' ' s.toList) ++ "-->")
  | .element tag space attrs children =>
    if voidTags.contains tag then
      if children.isEmpty then .plain (openTag tag attrs ++ "/>") else ⟨openTag tag attrs, some tag⟩
    else
      ((Written.plain (openTag tag attrs ++ ">" ++ guardLineFeed tag children)).andThen
        (writeAll (isLiteral tag space) children)).andThen (.plain ("</" ++ tag ++ ">"))

/-- Writes trees one after the other. -/
def writeAll (literal : Bool) : List Markup → Written
  | [] => {}
  | m :: rest => (m.write literal).andThen (writeAll literal rest)

end

mutual

/-- The texts inside a tree, joined. -/
def Markup.innerText : Markup → String
  | .text s => s
  | .element _ _ _ children => innerTextAll children
  | _ => ""

/-- The texts inside a list of trees, joined. -/
def innerTextAll : List Markup → String
  | [] => ""
  | m :: rest => m.innerText ++ innerTextAll rest

end

end PageMacro.Html
