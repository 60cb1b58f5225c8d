import PageMacro.Decimal.Literal
import PageMacro.Store

/-!
# Reading JSON

A reader for JSON texts. Of several fields with one name the last counts; half a surrogate pair
reads as the replacement character; a number beyond the range of doubles is a fault, and so are
lists and maps that stand more than ten thousand deep in each other. The reader is a recursive
descent whose fuel is the length of the text.
-/

namespace PageMacro.Json

/-- The space between tokens. -/
def isSpace (c : Char) : Bool := c == ' ' || c == '\t' || c == '\n' || c == '\r'

/-- Skips space. -/
def skipSpace (cs : List Char) : List Char := cs.dropWhile isSpace

/-- The value of a hexadecimal digit. -/
def hexDigit? (c : Char) : Option Nat :=
  if c.isDigit then some (c.toNat - 48)
  else if 'a' ≤ c && c ≤ 'f' then some (c.toNat - 87)
  else if 'A' ≤ c && c ≤ 'F' then some (c.toNat - 55)
  else none

/-- Four hexadecimal digits, and the rest. -/
def unit? : List Char → Option (Nat × List Char)
  | a :: b :: c :: d :: rest => do
    let a ← hexDigit? a
    let b ← hexDigit? b
    let c ← hexDigit? c
    let d ← hexDigit? d
    return (((a * 16 + b) * 16 + c) * 16 + d, rest)
  | _ => none

/-- The character of one unit, or of a pair of units if the second one follows. -/
def pair (high : Nat) (rest : List Char) : Char × List Char :=
  if 0xD800 ≤ high && high ≤ 0xDBFF then
    match rest with
    | '\\' :: 'u' :: more =>
      match unit? more with
      | some (low, after) =>
        if 0xDC00 ≤ low && low ≤ 0xDFFF then
          (Char.ofNat (0x10000 + (high - 0xD800) * 0x400 + (low - 0xDC00)), after)
        else ('\ufffd', rest)
      | none => ('\ufffd', rest)
    | _ => ('\ufffd', rest)
  else if 0xDC00 ≤ high && high ≤ 0xDFFF then ('\ufffd', rest)
  else (Char.ofNat high, rest)

/-- The characters of a string after its opening quote, and the rest. -/
def chars? : Nat → List Char → Option (List Char × List Char)
  | 0, _ => none
  | _ + 1, [] => none
  | _ + 1, '"' :: rest => some ([], rest)
  | fuel + 1, '\\' :: c :: rest => do
    let (read, rest) ←
      match c with
      | '"' => some ('"', rest)
      | '\\' => some ('\\', rest)
      | '/' => some ('/', rest)
      | 'b' => some ('\x08', rest)
      | 'f' => some ('\x0c', rest)
      | 'n' => some ('\n', rest)
      | 'r' => some ('\r', rest)
      | 't' => some ('\t', rest)
      | 'u' => (unit? rest).map fun (high, rest) => pair high rest
      | _ => none
    let (more, after) ← chars? fuel rest
    return (read :: more, after)
  | fuel + 1, c :: rest => do
    if c.toNat < 0x20 then none
    else
      let (more, after) ← chars? fuel rest
      return (c :: more, after)

/-- A number, and the rest: no leading zeros, digits on both sides of a point. -/
def number? (cs : List Char) : Option (Float × List Char) := do
  let (negative, unsigned) := match cs with
    | '-' :: rest => (true, rest)
    | _ => (false, cs)
  let (whole, rest) := Decimal.spanDigits unsigned
  if whole.isEmpty || (1 < whole.length && whole.head? == some '0') then none
  else
    let (fraction, rest) ←
      match rest with
      | '.' :: after =>
        let (fraction, rest) := Decimal.spanDigits after
        if fraction.isEmpty then none else some (fraction, rest)
      | _ => some ([], rest)
    let (exponent, rest') := Decimal.takeExponent rest
    if (rest'.head?.any fun c => c == 'e' || c == 'E') then none
    else
      let x ← (Decimal.Literal.mk negative whole fraction exponent).toFloat?
      return (x, rest')

mutual

/-- A value, and the rest. -/
def value? : Nat → List Char → Option (Tree × List Char)
  | 0, _ => none
  | fuel + 1, cs =>
    match skipSpace cs with
    | 'n' :: 'u' :: 'l' :: 'l' :: rest => some (.null, rest)
    | 't' :: 'r' :: 'u' :: 'e' :: rest => some (.bool true, rest)
    | 'f' :: 'a' :: 'l' :: 's' :: 'e' :: rest => some (.bool false, rest)
    | '"' :: rest => (chars? (rest.length + 1) rest).map fun (s, rest) =>
      (.str (String.ofList s), rest)
    | '[' :: rest =>
      match skipSpace rest with
      | ']' :: after => some (.list [], after)
      | _ => (items? fuel rest).map fun (items, after) => (.list items, after)
    | '\x7b' :: rest =>
      match skipSpace rest with
      | '\x7d' :: after => some (.map [], after)
      | _ => (fields? fuel rest []).map fun (fields, after) => (.map fields, after)
    | rest => (number? rest).map fun (x, after) => (.num x, after)

/-- The items of a list after its bracket, and the rest. -/
def items? : Nat → List Char → Option (List Tree × List Char)
  | 0, _ => none
  | fuel + 1, cs => do
    let (item, rest) ← value? fuel cs
    match skipSpace rest with
    | ',' :: more =>
      let (items, after) ← items? fuel more
      return (item :: items, after)
    | ']' :: after => return ([item], after)
    | _ => none

/-- The fields of a map after its brace, and the rest. -/
def fields? : Nat → List Char → List (String × Tree) → Option (List (String × Tree) × List Char)
  | 0, _, _ => none
  | fuel + 1, cs, found =>
    match skipSpace cs with
    | '"' :: rest => do
      let (name, rest) ← chars? (rest.length + 1) rest
      match skipSpace rest with
      | ':' :: rest =>
        let (value, rest) ← value? fuel rest
        let found := putField (String.ofList name) value found
        match skipSpace rest with
        | ',' :: more => fields? fuel more found
        | '\x7d' :: after => return (found, after)
        | _ => none
      | _ => none
    | _ => none

end

/-- How deep lists and maps stand in each other, brackets and braces inside strings apart. The flag
says that a string is open; `depth` lists and maps are, and there have been up to `most`. -/
def deepest : List Char → Bool → (depth most : Nat) → Nat
  | [], _, _, most => most
  | '\\' :: _ :: rest, true, depth, most => deepest rest true depth most
  | c :: rest, true, depth, most => deepest rest (c != '"') depth most
  | c :: rest, false, depth, most =>
    if c == '[' || c == '\x7b' then deepest rest false (depth + 1) (max most (depth + 1))
    else if c == ']' || c == '\x7d' then deepest rest false (depth - 1) most
    else deepest rest (c == '"') depth most

/-- How deep lists and maps may stand in each other. -/
def depthLimit : Nat := 10000

/-- The value that is the whole of a text. -/
def parse? (text : String) : Option Tree :=
  let cs := text.toList
  if depthLimit < deepest cs false 0 0 then none
  else match value? (cs.length + 1) cs with
    | some (tree, rest) => if (skipSpace rest).isEmpty then some tree else none
    | none => none

/-- The fields of a text that holds a map; `null` counts as the map without fields. -/
def parseFields? (text : String) : Option (List (String × Tree)) :=
  match parse? text with
  | some (.map fields) => some fields
  | some .null => some []
  | _ => none

end PageMacro.Json
