import PageMacro.Text.Blank
import PageMacro.Text.Pieces
import PageMacro.Yaml.Node
import PageMacro.Yaml.Quoted

/-!
# Reading YAML

Maps and lists are laid out by indentation, one field or item a line, or written between brackets.
Scalars are plain or between quotes. Anchors, aliases, tags, block scalars and keys that are no
scalars are refused. A document is read from the characters that are left; a block always starts at
the start of a line. `fuel` bounds the steps and is taken from the length of the text.
-/

namespace PageMacro.Yaml

/-! ## Lines -/

/-- The rest of the line and the lines after it. -/
def splitLine (cs : List Char) : List Char × List Char :=
  (cs.takeWhile (· != '\n'), (cs.dropWhile (· != '\n')).drop 1)

/-- How far a line is indented. -/
def indentOf (cs : List Char) : Nat := (cs.takeWhile (· == ' ')).length

/-- Whether a rest of a line says nothing: blanks and a comment. -/
def isIdle (line : List Char) : Bool :=
  match line.dropWhile isSpace with
  | [] => true
  | c :: _ => c == '#'

/-- Whether a character ends a word of the layout. -/
def endsWord : List Char → Bool
  | [] => true
  | c :: _ => isSpace c || c == '\n'

/-- Passes lines that say nothing. A line that starts with a tab is refused. -/
def skipIdle : Nat → List Char → Option (List Char)
  | 0, cs => some cs
  | fuel + 1, cs =>
    let (line, rest) := splitLine cs
    match line.dropWhile (· == ' ') with
    | [] => if rest.isEmpty then some [] else skipIdle fuel rest
    | '#' :: _ => skipIdle fuel rest
    | '\t' :: _ => none
    | _ => some cs

/-- What comes after a finished value: only the lines below it. -/
def endLine (cs : List Char) : Option (List Char) :=
  let (line, rest) := splitLine cs
  match line with
  | [] => some rest
  | c :: _ => if isSpace c && isIdle line then some rest else none

/-! ## Plain scalars -/

/-- Cuts a comment off a line of a plain scalar; gives whether there was one. -/
def cutComment : List Char → List Char × Bool
  | [] => ([], false)
  | c :: rest =>
    if isSpace c && (match rest with
      | '#' :: _ => true
      | _ => false) then ([], true)
    else
      let (kept, found) := cutComment rest
      (c :: kept, found)

/-- Whether a line has a colon that would make it a field. -/
def hasField : List Char → Bool
  | [] => false
  | ':' :: rest => endsWord rest || hasField rest
  | _ :: rest => hasField rest

/-- Whether a plain scalar can start here. -/
def startsPlain : List Char → Bool
  | [] => false
  | c :: rest =>
    if c == '-' || c == '?' || c == ':' then !endsWord rest
    else !([',', '[', ']', '\x7b', '\x7d', '#', '&', '*', '!', '|', '>', '\'', '"', '%', '@',
      '\x60'].contains c)

/-- A line of a plain scalar; nothing if it is a field. -/
def plainLine? (line : List Char) : Option (List Char × Bool) :=
  let (kept, comment) := cutComment line
  let kept := Text.dropEndWhile isSpace (kept.dropWhile isSpace)
  if hasField kept then none else some (kept, comment)

/-- Goes on with a plain scalar on the lines that are indented more than `parent`. -/
def plainMore (parent : Int) : Nat → List Char → List Char → Nat → Option (List Char × List Char)
  | 0, cs, done, _ => some (done, cs)
  | fuel + 1, cs, done, blankLines =>
    let (line, rest) := splitLine cs
    if line.all isSpace then
      if rest.isEmpty then some (done, []) else plainMore parent fuel rest done (blankLines + 1)
    else if parent < (indentOf line : Int) && !isIdle line then do
      let (kept, comment) ← plainLine? line
      let all := done ++ Fold.chars { further := blankLines } ++ kept
      if comment then some (all, rest) else plainMore parent fuel rest all 0
    else some (done, cs)

/-- A plain scalar and the lines after it. -/
def plain? (parent : Int) (fuel : Nat) (cs : List Char) : Option (Scalar × List Char) := do
  let (line, rest) := splitLine cs
  if !startsPlain line then none
  else
    let (kept, comment) ← plainLine? line
    let (all, rest) ← if comment then some (kept, rest) else plainMore parent fuel rest kept 0
    return ({ text := String.ofList all }, rest)

/-! ## Quotes and brackets -/

/-- A scalar between quotes. -/
def quoted? (cs : List Char) : Option (Scalar × List Char) :=
  let scalar (r : List Char × List Char) : Scalar × List Char :=
    ({ text := String.ofList r.1, quoted := true }, r.2)
  match cs with
  | '"' :: rest => (doubleQuoted rest [] none).map scalar
  | '\'' :: rest => (singleQuoted rest [] none).map scalar
  | _ => none

/-- Passes blanks, line breaks and comments between brackets. -/
def skipFlow : Nat → List Char → List Char
  | 0, cs => cs
  | fuel + 1, cs =>
    match cs with
    | [] => []
    | c :: rest =>
      if c == '#' then skipFlow fuel (rest.dropWhile (· != '\n'))
      else if isSpace c || c == '\n' then skipFlow fuel rest
      else cs

/-- The characters that stand for themselves between brackets. -/
def isFlowMark (c : Char) : Bool := [',', '[', ']', '\x7b', '\x7d'].contains c

/-- A plain scalar between brackets. -/
def flowPlain : List Char → List Char × List Char
  | [] => ([], [])
  | c :: rest =>
    let colon := c == ':' && (match rest with
      | [] => true
      | d :: _ => isSpace d || d == '\n' || isFlowMark d)
    let comment := isSpace c && (match rest with
      | '#' :: _ => true
      | _ => false)
    if isFlowMark c || colon || comment || c == '\n' then ([], c :: rest)
    else
      let (text, left) := flowPlain rest
      (c :: text, left)

/-- A scalar between brackets. -/
def flowScalar? (cs : List Char) : Option (Scalar × List Char) :=
  match cs with
  | [] => none
  | c :: _ =>
    if c == '"' || c == '\'' then quoted? cs
    else if !startsPlain cs then none
    else
      let (text, rest) := flowPlain cs
      some ({ text := String.ofList (Text.dropEndWhile isSpace text) }, rest)

mutual

/-- A value between brackets or inside them. -/
def flowNode : Nat → List Char → Option (Node × List Char)
  | 0, _ => none
  | fuel + 1, cs =>
    match skipFlow fuel cs with
    | '[' :: rest => flowItems fuel rest []
    | '\x7b' :: rest => flowFields fuel rest []
    | cs => (flowScalar? cs).map fun (s, rest) => (.scalar s, rest)

/-- The items up to the closing bracket, after those already read. -/
def flowItems : Nat → List Char → List Node → Option (Node × List Char)
  | 0, _, _ => none
  | fuel + 1, cs, done =>
    match skipFlow fuel cs with
    | ']' :: rest => some (.list done, rest)
    | cs => do
      let (item, rest) ← flowNode fuel cs
      match skipFlow fuel rest with
      | ',' :: rest => flowItems fuel rest (done ++ [item])
      | ']' :: rest => some (.list (done ++ [item]), rest)
      | _ => none

/-- The fields up to the closing brace, after those already read. -/
def flowFields : Nat → List Char → List (Scalar × Node) → Option (Node × List Char)
  | 0, _, _ => none
  | fuel + 1, cs, done =>
    match skipFlow fuel cs with
    | '\x7d' :: rest => some (.map done, rest)
    | cs => do
      let (key, rest) ← flowScalar? cs
      let (value, rest) ← match skipFlow fuel rest with
        | ':' :: rest =>
          match skipFlow fuel rest with
          | ',' :: _ => some (Node.null, skipFlow fuel rest)
          | '\x7d' :: _ => some (Node.null, skipFlow fuel rest)
          | _ => flowNode fuel rest
        | rest => some (Node.null, rest)
      let fields := done ++ [(key, value)]
      match skipFlow fuel rest with
      | ',' :: rest => flowFields fuel rest fields
      | '\x7d' :: rest => some (.map fields, rest)
      | _ => none

end

/-! ## Blocks -/

/-- The key of a field and the rest of its line, if a line is a field. -/
def field? (cs : List Char) : Option (Scalar × List Char) :=
  let afterKey (key : Scalar) (rest : List Char) : Option (Scalar × List Char) :=
    match rest.dropWhile isSpace with
    | ':' :: rest => if endsWord rest then some (key, rest) else none
    | _ => none
  let rec plainKey (done : List Char) : List Char → Option (Scalar × List Char)
    | [] => none
    | c :: rest =>
      if c == '\n' then none
      else if c == ':' && endsWord rest then
        some ({ text := String.ofList (Text.dropEndWhile isSpace done.reverse) }, rest)
      else if c == '#' && (match done with
        | d :: _ => isSpace d
        | [] => false) then none
      else plainKey (c :: done) rest
  match quoted? cs with
  | some (key, rest) => if (splitLine cs).1.length < cs.length - rest.length then none
      else afterKey key rest
  | none => if startsPlain cs then plainKey [] cs else none

/-- Whether a line is an item of a list. -/
def isItem : List Char → Bool
  | '-' :: rest => endsWord rest
  | _ => false

/-- A value that starts in the middle of a line, and the lines after it. -/
def inline? (parent : Int) (fuel : Nat) (cs : List Char) : Option (Node × List Char) := do
  let closed (r : Node × List Char) : Option (Node × List Char) :=
    (endLine r.2).map fun rest => (r.1, rest)
  match cs with
  | [] => none
  | c :: _ =>
    if c == '"' || c == '\'' then
      let (s, rest) ← quoted? cs
      closed (.scalar s, rest)
    else if c == '[' || c == '\x7b' then closed (← flowNode fuel cs)
    else
      let (s, rest) ← plain? parent fuel cs
      return (.scalar s, rest)

mutual

/-- The block that starts at this line; `parent` is the indentation of what it is in. -/
def block : Nat → Int → List Char → Option (Node × List Char)
  | 0, _, _ => none
  | fuel + 1, parent, cs =>
    let n := indentOf cs
    let line := cs.drop n
    if isItem line then items fuel n cs []
    else if (field? line).isSome then fields fuel n cs []
    else inline? parent fuel line

/-- The block or nothing on the lines below a key or a dash. A list may stand right below its
key. -/
def below : Nat → Nat → Bool → List Char → Option (Node × List Char)
  | 0, _, _, _ => none
  | fuel + 1, n, isField, cs => do
    let cs ← skipIdle fuel cs
    let m := indentOf cs
    if cs.isEmpty then some (.null, cs)
    else if n < m then block fuel n cs
    else if isField && m == n && isItem (cs.drop m) then items fuel n cs []
    else some (.null, cs)

/-- The items of a list at an indentation, after those already read. -/
def items : Nat → Nat → List Char → List Node → Option (Node × List Char)
  | 0, _, _, _ => none
  | fuel + 1, n, cs, done => do
    let cs ← skipIdle fuel cs
    if cs.isEmpty || indentOf cs != n || !isItem (cs.drop n) then some (.list done, cs)
    else
      let rest := cs.drop (n + 1)
      let (item, rest) ←
        if isIdle (splitLine rest).1 then below fuel n false (splitLine rest).2
        else block fuel n (List.replicate (n + 1) ' ' ++ rest)
      items fuel n rest (done ++ [item])

/-- The fields of a map at an indentation, after those already read. -/
def fields : Nat → Nat → List Char → List (Scalar × Node) → Option (Node × List Char)
  | 0, _, _, _ => none
  | fuel + 1, n, cs, done => do
    let cs ← skipIdle fuel cs
    if cs.isEmpty || indentOf cs < n then some (.map done, cs)
    else if indentOf cs != n then none
    else
      let (key, rest) ← field? (cs.drop n)
      let (value, rest) ←
        if isIdle (splitLine rest).1 then below fuel n true (splitLine rest).2
        else inline? n fuel (rest.dropWhile isSpace)
      fields fuel n rest (done ++ [(key, value)])

end

/-! ## Documents -/

/-- Whether a character may stand in a document. -/
def isAllowed (c : Char) : Bool :=
  let n := c.toNat
  n == 0x09 || n == 0x0A || (0x20 ≤ n && n ≤ 0x7E) || n == 0x85 || (0xA0 ≤ n && n ≤ 0xD7FF) ||
    (0xE000 ≤ n && n ≤ 0xFFFD && n != 0xFEFF) || 0x10000 ≤ n

/-- Whether a line starts with a mark between documents. -/
def isMark (mark : String) (line : String) : Bool :=
  Text.beginsWith mark line && endsWord (line.toList.drop mark.length)

/-- The lines of the first document: from the mark that starts it, if there is one, to the mark that
ends it. -/
def firstDocument (lines : List String) : List String :=
  let idle := lines.takeWhile fun line => isIdle line.toList || Text.beginsWith "%" line
  let rest := lines.drop idle.length
  let started := match rest with
    | line :: more =>
      if isMark "---" line then ("   " ++ Text.withoutStart "---" line) :: more else lines
    | [] => []
  started.takeWhile fun line => !isMark "---" line && !isMark "..." line

/-- The document of a text, nothing inside if it is empty; or nothing at all if the text is not
well-formed. -/
def parse? (text : String) : Option (Option Node) := do
  let text := Text.replace "\r" "\n" (Text.replace "\r\n" "\n" (Text.withoutStart "\uFEFF" text))
  if !text.toList.all isAllowed then none
  else
    let cs := (Text.join "\n" (firstDocument (Text.splitAtChar '\n' text))).toList
    let fuel := 4 * cs.length + 8
    let cs ← skipIdle fuel cs
    if cs.isEmpty then some none
    else
      let (node, rest) ← block fuel (-1) cs
      let rest ← skipIdle fuel rest
      if rest.isEmpty then some (some node) else none

end PageMacro.Yaml
