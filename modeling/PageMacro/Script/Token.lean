import PageMacro.Decimal.Literal
import PageMacro.Text.Bytes
import PageMacro.Text.Printable

/-!
# Words of a script

A script is read as a sequence of tokens. Lines end statements and indentation groups them, so line
ends and changes of indentation are tokens too, except between brackets. `Token.ofText?` gives the
tokens of a text, or nothing if some part of it is no token.
-/

namespace PageMacro.Script

/-- One token. -/
inductive Token where
  | name (s : String)
  /-- A word with a fixed meaning. -/
  | keyword (s : String)
  /-- An operator or a punctuation mark. -/
  | mark (s : String)
  | int (n : Int)
  | float (x : Float)
  | str (s : String)
  | bytes (s : String)
  | newline
  | indent
  | outdent
  deriving BEq, Inhabited

namespace Token

/-- The words with a fixed meaning. -/
def keywords : List String :=
  ["and", "break", "continue", "def", "elif", "else", "for", "if", "in", "lambda", "load", "not",
    "or", "pass", "return", "while"]

/-- The words that no script may use. -/
def reserved : List String :=
  ["as", "async", "await", "class", "del", "except", "finally", "from", "global", "import", "is",
    "nonlocal", "raise", "try", "with", "yield"]

/-- The marks, longer ones before their beginnings. -/
def marks : List (List Char) :=
  ["//=", "<<=", ">>=", "**", "//", "<<", ">>", "==", "!=", "<=", ">=", "+=", "-=", "*=", "/=",
    "%=", "&=", "|=", "^=", "+", "-", "*", "/", "%", "&", "|", "^", "~", "<", ">", "=", "(", ")",
    "[", "]", "\x7b", "\x7d", ",", ";", ":", "."].map String.toList

/-- Whether a character beyond ASCII counts as a letter. -/
def isWideLetter (c : Char) : Bool :=
  let n := c.toNat
  Text.isPrintable c &&
    (n == 0xAA || n == 0xB5 || n == 0xBA || (0xC0 ≤ n && n != 0xD7 && n != 0xF7 && n < 0x2000) ||
      (0x2C00 ≤ n && n < 0x2E00) || (0x3005 ≤ n && n < 0xFE00) || (0x10000 ≤ n && n < 0x1F000) ||
      (0x20000 ≤ n && n < 0x40000))

/-- Whether a name can start with a character. -/
def startsName (c : Char) : Bool := c.isAlpha || c == '_' || isWideLetter c

/-- Whether a name can go on with a character. -/
def inName (c : Char) : Bool := startsName c || c.isDigit

/-! ## Numbers -/

/-- The value of a digit in any base up to 36. -/
def digitValue (c : Char) : Nat :=
  if c.isDigit then c.toNat - '0'.toNat
  else if c.isLower then c.toNat - 'a'.toNat + 10
  else if c.isUpper then c.toNat - 'A'.toNat + 10
  else 99

/-- The number written by digits of a base; nothing if one is no digit of it or there are none. -/
def ofDigits? (base : Nat) (ds : List Char) : Option Nat :=
  if ds.isEmpty || ds.any (base ≤ digitValue ·) then none
  else some (ds.foldl (fun n c => n * base + digitValue c) 0)

/-- The base that the letter after a leading zero names. -/
def baseOf? (c : Char) : Option Nat :=
  match c.toLower with
  | 'x' => some 16
  | 'o' => some 8
  | 'b' => some 2
  | _ => none

/-- A whole number with digits in front of `rest`; leading zeros are for zero alone. -/
def wholeNumber? (digits rest : List Char) : Option (Token × List Char) :=
  if digits.head? == some '0' && digits.any (· != '0') then none
  else some (.int (Decimal.natOfDigits digits), rest)

/-- The number at the front of a text that starts with a digit, or with a point and a digit. -/
def number? (cs : List Char) : Option (Token × List Char) :=
  match cs with
  | '0' :: c :: rest =>
    match baseOf? c with
    | some base =>
      let digits := rest.takeWhile (digitValue · < base)
      (ofDigits? base digits).map fun n => (.int n, rest.drop digits.length)
    | none => decimal? cs
  | _ => decimal? cs
where
  /-- A decimal number: whole unless it has a point or an exponent. -/
  decimal? (cs : List Char) : Option (Token × List Char) :=
    let (digits, rest) := Decimal.spanDigits cs
    match rest with
    | '.' :: _ => double? cs
    | 'e' :: _ => double? cs
    | 'E' :: _ => double? cs
    | _ => wholeNumber? digits rest
  /-- A number with a point or an exponent; an exponent has digits. -/
  double? (cs : List Char) : Option (Token × List Char) :=
    match Decimal.Literal.scan cs with
    | some (_, 'e' :: _) => none
    | some (_, 'E' :: _) => none
    | some (x, rest) => x.toFloat?.map fun x => (.float x, rest)
    | none => none

/-! ## Quoted text -/

/-- The characters up to the closing quotes and the rest after them; a backslash keeps the next
character from closing. A text in single quotes ends on its line. -/
def quotedBody? (quote : Char) (triple : Bool) :
    List Char → List Char → Option (List Char × List Char)
  | [], _ => none
  | '\\' :: c :: rest, body => quotedBody? quote triple rest (c :: '\\' :: body)
  | c :: rest, body =>
    if c == quote && (!triple || rest.take 2 == [quote, quote]) then
      some (body.reverse, rest.drop (if triple then 2 else 0))
    else if c == '\n' && !triple then none
    else quotedBody? quote triple rest (c :: body)

/-- The character of a one-letter escape. -/
def escapeChar? : Char → Option Char
  | 'a' => some '\x07'
  | 'b' => some '\x08'
  | 'f' => some '\x0c'
  | 'n' => some '\n'
  | 'r' => some '\r'
  | 't' => some '\t'
  | 'v' => some '\x0b'
  | '\\' => some '\\'
  | '\'' => some '\''
  | '"' => some '"'
  | _ => none

/-- The character with a number, if there is one. -/
def charOf? (n : Nat) : Option Char :=
  if n.isValidChar then some (Char.ofNat n) else none

/-- The character for a byte given by number: in texts only ASCII is given so. -/
def byteChar? (isBytes : Bool) (n : Nat) : Option Char :=
  if n < 0x80 then some (Char.ofNat n)
  else if isBytes && n < 0x100 then some (Text.strayByte n.toUInt8)
  else none

/-- Resolves the escapes of a quoted text. The number counts characters of an escape that are
still to be skipped. -/
def unescape? (isBytes : Bool) : Nat → List Char → Option (List Char)
  | _, [] => some []
  | skip + 1, _ :: rest => unescape? isBytes skip rest
  | 0, c :: rest =>
    if c != '\\' then (unescape? isBytes 0 rest).map (c :: ·)
    else match rest with
      | [] => none
      | '\n' :: _ => unescape? isBytes 1 rest
      | e :: after =>
        let digits (n : Nat) := ofDigits? 16 (after.take n) |>.filter fun _ => n ≤ after.length
        let go (skip : Nat) (c? : Option Char) : Option (List Char) := do
          let c ← c?
          (unescape? isBytes skip rest).map (c :: ·)
        match escapeChar? e with
        | some c => go 1 (some c)
        | none =>
          if e == 'x' then go 3 ((digits 2).bind (byteChar? isBytes))
          else if e == 'u' then go 5 ((digits 4).bind charOf?)
          else if e == 'U' then go 9 ((digits 8).bind charOf?)
          else
            let octal := (rest.take 3).takeWhile (digitValue · < 8)
            go octal.length ((ofDigits? 8 octal).bind (byteChar? isBytes))

/-- The quoted text after an opening `quote`; `raw` keeps backslashes. -/
def quoted? (raw isBytes : Bool) (quote : Char) (cs : List Char) : Option (Token × List Char) := do
  let triple := cs.take 2 == [quote, quote]
  let (body, rest) ← quotedBody? quote triple (if triple then cs.drop 2 else cs) []
  let body ← if raw then some body else unescape? isBytes 0 body
  let text := Text.ofBytes (Text.bytes (String.ofList body))
  return (if isBytes then .bytes text else .str text, rest)

/-! ## Lines and tokens -/

/-- Where the reader stands. -/
structure Reader where
  /-- The tokens so far, the last one first. -/
  out : List Token := []
  /-- The indentations of the open blocks, the innermost first. -/
  indents : List Nat := [0]
  /-- How many brackets are open. -/
  depth : Nat := 0

/-- The indentation at the start of a line and the rest of the line; a tab goes to the next
multiple of eight. -/
def indentation : List Char → Nat → Nat × List Char
  | ' ' :: rest, col => indentation rest (col + 1)
  | '\t' :: rest, col => indentation rest (col + (8 - col % 8))
  | cs, col => (col, cs)

/-- Opens or closes blocks so that the innermost has the indentation `col`. -/
def Reader.indentTo? (r : Reader) (col : Nat) : Option Reader :=
  let closed := r.indents.takeWhile (col < ·)
  let left := r.indents.drop closed.length
  let out := closed.map (fun _ => outdent) ++ r.out
  match left with
  | top :: _ =>
    if top == col then some { r with out, indents := left }
    else if closed.isEmpty then some { r with out := indent :: out, indents := col :: left }
    else none
  | [] => none

/-- Adds a token. -/
def Reader.add (r : Reader) (t : Token) : Reader := { r with out := t :: r.out }

/-- Adds a mark; brackets count. -/
def Reader.addMark? (r : Reader) (m : List Char) : Option Reader :=
  let r' := r.add (.mark (String.ofList m))
  if m == ['('] || m == ['['] || m == ['\x7b'] then some { r' with depth := r.depth + 1 }
  else if m == [')'] || m == [']'] || m == ['\x7d'] then
    if r.depth == 0 then none else some { r' with depth := r.depth - 1 }
  else some r'

/-- Adds a name, or the keyword it is. -/
def Reader.addName? (r : Reader) (s : String) : Option Reader :=
  if reserved.contains s then none
  else some (r.add (if keywords.contains s then .keyword s else .name s))

/-- The quoted text at the front, after letters that say how to read it. -/
def prefixed? : List Char → Option (Option (Token × List Char))
  | 'r' :: 'b' :: '"' :: rest => some (quoted? true true '"' rest)
  | 'r' :: 'b' :: '\'' :: rest => some (quoted? true true '\'' rest)
  | 'r' :: '"' :: rest => some (quoted? true false '"' rest)
  | 'r' :: '\'' :: rest => some (quoted? true false '\'' rest)
  | 'b' :: '"' :: rest => some (quoted? false true '"' rest)
  | 'b' :: '\'' :: rest => some (quoted? false true '\'' rest)
  | '"' :: rest => some (quoted? false false '"' rest)
  | '\'' :: rest => some (quoted? false false '\'' rest)
  | _ => none

/-- Reads one token that is no line end. -/
def Reader.token? (r : Reader) (cs : List Char) : Option (Reader × List Char) :=
  match prefixed? cs with
  | some found => found.map fun (t, rest) => (r.add t, rest)
  | none =>
    match cs with
    | [] => none
    | c :: rest =>
      if startsName c then
        (r.addName? (String.ofList (cs.takeWhile inName))).map fun r => (r, cs.dropWhile inName)
      else if c.isDigit || (c == '.' && (rest.head?.map Char.isDigit).getD false) then
        (number? cs).map fun (t, rest) => (r.add t, rest)
      else do
        let m ← marks.find? (·.isPrefixOf cs)
        let r ← r.addMark? m
        return (r, cs.drop m.length)

/-- Reads on; `start` says whether a line starts here. Every step reads a character or ends, so as
many steps as characters, and one more, are enough. -/
def read? : Nat → Bool → Reader → List Char → Option Reader
  | 0, _, _, _ => none
  | n + 1, true, r, cs =>
    let (col, rest) := indentation cs 0
    match rest with
    | [] => read? n false r []
    | '\n' :: more => read? n true r more
    | '#' :: more => read? n true r (more.dropWhile (· != '\n') |>.drop 1)
    | _ =>
      if r.depth == 0 then do read? n false (← r.indentTo? col) rest
      else read? n false r rest
  | n + 1, false, r, cs =>
    match cs with
    | [] =>
      if r.indents.length == 1 then some r
      else
        let r := if r.out.head? == some newline then r else r.add newline
        some { r with out := List.replicate (r.indents.length - 1) outdent ++ r.out }
    | ' ' :: rest => read? n false r rest
    | '\t' :: rest => read? n false r rest
    | '\\' :: '\n' :: rest => read? n false r rest
    | '#' :: rest => read? n false r (rest.dropWhile (· != '\n'))
    | '\n' :: rest => read? n true (if r.depth == 0 then r.add newline else r) rest
    | cs => do
      let (r, rest) ← r.token? cs
      read? n false r rest

/-- Line ends of all kinds as one. -/
def plainLines : List Char → List Char
  | '\r' :: '\n' :: rest => '\n' :: plainLines rest
  | '\r' :: rest => '\n' :: plainLines rest
  | c :: rest => c :: plainLines rest
  | [] => []

/-- The tokens of a text. -/
def ofText? (s : String) : Option (List Token) :=
  let cs := plainLines s.toList
  (read? (2 * cs.length + 4) true {} cs).map fun r => r.out.reverse

end Token

end PageMacro.Script
