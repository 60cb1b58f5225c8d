import PageMacro.Html.Entity
import PageMacro.Html.Markup

/-!
# Tokens of markup

A text of markup is a sequence of tags, comments, declarations and texts. `Scanner.next` takes one
token off the front. After the tag of an element with raw content, everything up to its closing tag
is one text. A tag that the end of the text cuts short is dropped together with what is in it.
-/

namespace PageMacro.Html

/-- One token. -/
inductive Token where
  | text (s : List Char)
  | startTag (name : String) (attrs : List Attr) (selfClosing : Bool)
  | endTag (name : String)
  | comment (s : String)
  | doctype (s : List Char)
  | finish
  deriving Repr

/-- What is still to be read, and the element whose raw content comes next. -/
structure Scanner where
  rest : List Char
  rawTag : Option String := none

/-- The spaces of the tag grammar. -/
def isTagSpace (c : Char) : Bool :=
  c == ' ' || c == '\n' || c == '\r' || c == '\t' || c == '\x0c'

/-- Line ends become line feeds. -/
def convertNewlines : List Char → List Char
  | '\r' :: '\n' :: rest => '\n' :: convertNewlines rest
  | '\r' :: rest => '\n' :: convertNewlines rest
  | c :: rest => c :: convertNewlines rest
  | [] => []

/-- Lower case of the ASCII letters. -/
def lowerName (cs : List Char) : String := String.ofList (cs.map Char.toLower)

/-- The elements whose content is one raw text. -/
def rawTags : List String :=
  ["iframe", "noembed", "noframes", "noscript", "plaintext", "script", "style", "textarea",
    "title", "xmp"]

/-- The elements whose raw text can hold character references. -/
def referenceTags : List String := ["textarea", "title"]

/-! ## Tags -/

/-- An attribute name and the rest; an equals sign at the very start belongs to the name. -/
def attrName (cs : List Char) : List Char × List Char :=
  let stops (c : Char) : Bool := isTagSpace c || c == '/' || c == '>' || c == '='
  match cs with
  | '=' :: rest => ('=' :: rest.takeWhile (!stops ·), rest.dropWhile (!stops ·))
  | _ => (cs.takeWhile (!stops ·), cs.dropWhile (!stops ·))

/-- A value up to the given quote; nothing if the quote is missing. -/
def quotedValue (quote : Char) (cs : List Char) : Option (List Char × List Char) :=
  Text.cutChars quote cs

/-- An attribute value after the name, and the rest; nothing if the text ends in it. -/
def attrContent (cs : List Char) : Option (List Char × List Char) :=
  match cs.dropWhile isTagSpace with
  | [] => none
  | '/' :: rest => some ([], rest)
  | '=' :: rest =>
    match rest.dropWhile isTagSpace with
    | [] => none
    | '>' :: more => some ([], '>' :: more)
    | '\'' :: more => quotedValue '\'' more
    | '"' :: more => quotedValue '"' more
    | more =>
      let stops (c : Char) : Bool := isTagSpace c || c == '>'
      match more.dropWhile (!stops ·) with
      | [] => none
      | after => some (more.takeWhile (!stops ·), after)
  | rest => some ([], rest)

/-- The attributes up to the end of a tag, first of each name only, and the rest; nothing if the
text ends before the tag does. -/
def attrsOf : Nat → List Char → List Attr → Option (List Attr × List Char)
  | 0, _, _ => none
  | fuel + 1, cs, found =>
    match cs.dropWhile isTagSpace with
    | [] => none
    | '>' :: rest => some (found.reverse, rest)
    | cs =>
      let (name, afterName) := attrName cs
      match attrContent afterName with
      | none => none
      | some (value, rest) =>
        let key := lowerName name
        if name.isEmpty || found.any (·.name == key) then attrsOf fuel rest found
        else
          let attr : Attr := ⟨"", key, String.ofList (unescape true (convertNewlines value))⟩
          attrsOf fuel rest (attr :: found)

/-- The name, the attributes and the rest of a tag, starting at its name. -/
def tagOf (cs : List Char) : Option (String × List Attr × List Char) :=
  let stops (c : Char) : Bool := isTagSpace c || c == '/' || c == '>'
  let name := cs.takeWhile (!stops ·)
  let rest := cs.dropWhile (!stops ·)
  (attrsOf (rest.length + 1) rest []).map fun (attrs, after) => (lowerName name, attrs, after)

/-- Whether a tag, given with what follows it, ends in `/>`. -/
def endsInSlash (tag after : List Char) : Bool :=
  match (tag.take (tag.length - after.length)).reverse with
  | '>' :: '/' :: _ => true
  | _ => false

/-! ## Comments -/

/-- Takes a dash run cut short by the end of the text off the end of a comment. -/
def cutAbruptEnd (reversed : List Char) : List Char :=
  match reversed with
  | '!' :: '-' :: '-' :: rest => rest.reverse
  | '-' :: '-' :: rest => rest.reverse
  | '-' :: rest => rest.reverse
  | _ => reversed.reverse

/-- The text of a comment after `<!--`, and the rest. The characters read so far are kept in
reverse; `dashes` counts those directly before, `start` says that only dashes were read. -/
def commentText : List Char → List Char → Nat → Bool → List Char × List Char
  | [], read, _, _ => (cutAbruptEnd read, [])
  | c :: rest, read, dashes, start =>
    if c == '-' then commentText rest (c :: read) (dashes + 1) start
    else if c == '>' && (2 ≤ dashes || start) then ((read.drop 2).reverse, rest)
    else if c == '>' && 2 < read.length && read.take 3 == ['!', '-', '-'] && dashes == 0 then
      ((read.drop 3).reverse, rest)
    else commentText rest (c :: read) 0 false

/-- The text up to the next `>`, and the rest. -/
def untilAngle (cs : List Char) : List Char × List Char :=
  (Text.cutChars '>' cs).getD (cs, [])

/-- A comment token with this text. -/
def commentToken (cs : List Char) : Token :=
  let shown := (convertNewlines cs).map fun c => if c == '\x00' then '\ufffd' else c
  .comment (String.ofList (unescape false shown))

/-- What a declaration after `<!` is: a comment, a document type or a bogus comment. -/
def declaration (cs : List Char) : Token × List Char :=
  match cs with
  | '-' :: '-' :: rest =>
    let (text, after) := commentText rest [] 0 true
    (commentToken text, after)
  | _ =>
    if lowerName (cs.take 7) == "doctype" then
      let (text, after) := untilAngle ((cs.drop 7).dropWhile isTagSpace)
      (.doctype (unescape false (convertNewlines text)), after)
    else
      let (text, after) := untilAngle cs
      (commentToken text, after)

/-! ## Texts -/

/-- Whether a closing tag of `tag` starts here, after its `</`. -/
def closes (tag : String) (cs : List Char) : Bool :=
  let name := tag.toList
  lowerName (cs.take name.length) == tag &&
    (match cs.drop name.length with
      | c :: _ => isTagSpace c || c == '/' || c == '>'
      | [] => false)

/-- The raw text up to the closing tag of `tag`, and the rest from that tag on. -/
def rawText (tag : String) : List Char → List Char × List Char
  | [] => ([], [])
  | c :: rest =>
    if c == '<' && rest.head? == some '/' && closes tag (rest.drop 1) then ([], c :: rest)
    else
      let (text, after) := rawText tag rest
      (c :: text, after)

/-- Whether a tag, a comment or a declaration starts with the character after a `<`. -/
def startsToken : List Char → Bool
  | c :: _ => c.isAlpha || c == '/' || c == '!' || c == '?'
  | [] => false

/-- The text up to the next token, and the rest. -/
def plainText : List Char → List Char × List Char
  | [] => ([], [])
  | c :: rest =>
    if c == '<' && startsToken rest then ([], c :: rest)
    else
      let (text, after) := plainText rest
      (c :: text, after)

/-- Takes the token that starts with `<` off the front. -/
def markupToken (cs : List Char) : Token × Scanner :=
  match cs.drop 1 with
  | '/' :: rest =>
    match rest with
    | [] => (.text ['<', '/'], ⟨[], none⟩)
    | '>' :: after => (.comment "", ⟨after, none⟩)
    | c :: _ =>
      if c.isAlpha then
        match tagOf rest with
        | some (name, _, after) => (.endTag name, ⟨after, none⟩)
        | none => (.finish, ⟨[], none⟩)
      else
        let (text, after) := untilAngle rest
        (commentToken text, ⟨after, none⟩)
  | '!' :: rest =>
    let (token, after) := declaration rest
    (token, ⟨after, none⟩)
  | '?' :: rest =>
    let (text, after) := untilAngle ('?' :: rest)
    (commentToken text, ⟨after, none⟩)
  | rest =>
    match tagOf rest with
    | some (name, attrs, after) =>
      let raw := if rawTags.contains name then some name else none
      (.startTag name attrs (endsInSlash rest after), ⟨after, raw⟩)
    | none => (.finish, ⟨[], none⟩)

/-- Takes one token off the front. -/
def Scanner.next (s : Scanner) : Token × Scanner :=
  let (raw, rest) := match s.rawTag with
    | some tag => if tag == "plaintext" then (s.rest, []) else rawText tag s.rest
    | none => ([], s.rest)
  if !raw.isEmpty then
    let shown := (convertNewlines raw).map fun c => if c == '\x00' then '\ufffd' else c
    let references := s.rawTag.any referenceTags.contains
    (.text (if references then unescape false shown else shown), ⟨rest, none⟩)
  else
    let (text, after) := plainText rest
    if !text.isEmpty then (.text (unescape false (convertNewlines text)), ⟨after, none⟩)
    else if after.isEmpty then (.finish, ⟨[], none⟩)
    else markupToken after

end PageMacro.Html
