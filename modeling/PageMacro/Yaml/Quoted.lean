import PageMacro.Text.Blank

/-!
# Scalars between quotes

A scalar between quotes may go over several lines: a line break with the blanks around it stands for
one blank, and further line breaks stand for themselves.
-/

namespace PageMacro.Yaml

/-- Blanks within a line. -/
def isSpace (c : Char) : Bool := c == ' ' || c == '\t'

/-- Line breaks that are being passed; `joined` says that the first one leaves nothing behind. -/
structure Fold where
  joined : Bool := false
  further : Nat := 0
  deriving BEq, DecidableEq, Repr

/-- What passed line breaks stand for. -/
def Fold.chars (f : Fold) : List Char :=
  if f.further == 0 && !f.joined then [' '] else List.replicate f.further '\n'

/-- The characters read so far, the last one first, after passed line breaks. -/
def afterFold (done : List Char) : Option Fold → List Char
  | some fold => fold.chars ++ done
  | none => done

/-- Passes one more line break. -/
def passBreak (done : List Char) : Option Fold → List Char × Option Fold
  | some fold => (done, some { fold with further := fold.further + 1 })
  | none => (done.dropWhile isSpace, some {})

/-- The character that a letter after a backslash stands for. -/
def escaped? (c : Char) : Option Char :=
  [('0', '\x00'), ('a', '\x07'), ('b', '\x08'), ('t', '\t'), ('\t', '\t'), ('n', '\n'),
    ('v', '\x0b'), ('f', '\x0c'), ('r', '\r'), ('e', '\x1b'), (' ', ' '), ('"', '"'), ('/', '/'),
    ('\\', '\\'), ('N', '\u0085'), ('_', '\u00a0'), ('L', '\u2028'), ('P', '\u2029')].lookup c

/-- The value of a hexadecimal digit. -/
def hexDigit? (c : Char) : Option Nat :=
  if c.isDigit then some (c.toNat - '0'.toNat)
  else if 'a' ≤ c && c ≤ 'f' then some (c.toNat - 'a'.toNat + 10)
  else if 'A' ≤ c && c ≤ 'F' then some (c.toNat - 'A'.toNat + 10)
  else none

/-- The character of hexadecimal digits. -/
def hexChar? (digits : List Char) : Option Char := do
  let values ← digits.mapM hexDigit?
  let n := values.foldl (fun n d => 16 * n + d) 0
  if n < 0xD800 || (0xDFFF < n && n ≤ 0x10FFFF) then some (Char.ofNat n) else none

/-- Reads a scalar up to the closing single quote; a quote inside is written twice. Gives the
characters and what comes after. -/
def singleQuoted : List Char → List Char → Option Fold → Option (List Char × List Char)
  | [], _, _ => none
  | '\'' :: '\'' :: rest, done, fold => singleQuoted rest ('\'' :: afterFold done fold) none
  | '\'' :: rest, done, fold => some ((afterFold done fold).reverse, rest)
  | c :: rest, done, fold =>
    if c == '\n' then
      let (done, fold) := passBreak done fold
      singleQuoted rest done fold
    else if isSpace c && fold.isSome then singleQuoted rest done fold
    else singleQuoted rest (c :: afterFold done fold) none

/-- Reads a scalar up to the closing double quote; a backslash starts an escape. -/
def doubleQuoted : List Char → List Char → Option Fold → Option (List Char × List Char)
  | [], _, _ => none
  | '"' :: rest, done, fold => some ((afterFold done fold).reverse, rest)
  | '\\' :: '\n' :: rest, done, fold =>
    doubleQuoted rest (afterFold done fold) (some { joined := true })
  | '\\' :: 'x' :: a :: b :: rest, done, fold => do
    doubleQuoted rest ((← hexChar? [a, b]) :: afterFold done fold) none
  | '\\' :: 'u' :: a :: b :: c :: d :: rest, done, fold => do
    doubleQuoted rest ((← hexChar? [a, b, c, d]) :: afterFold done fold) none
  | '\\' :: 'U' :: a :: b :: c :: d :: e :: f :: g :: h :: rest, done, fold => do
    doubleQuoted rest ((← hexChar? [a, b, c, d, e, f, g, h]) :: afterFold done fold) none
  | '\\' :: c :: rest, done, fold => do
    doubleQuoted rest ((← escaped? c) :: afterFold done fold) none
  | c :: rest, done, fold =>
    if c == '\\' then none
    else if c == '\n' then
      let (done, fold) := passBreak done fold
      doubleQuoted rest done fold
    else if isSpace c && fold.isSome then doubleQuoted rest done fold
    else doubleQuoted rest (c :: afterFold done fold) none

end PageMacro.Yaml
