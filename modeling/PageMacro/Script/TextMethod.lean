import PageMacro.Script.Operator
import PageMacro.Script.Token
import PageMacro.Text.Case

/-!
# Methods of texts

Positions count bytes; letters, digits and blanks are told apart by character.
-/

namespace PageMacro.Script

namespace Words

/-- Whether a character is a letter. -/
def isLetter (c : Char) : Bool := c.isAlpha || Token.isWideLetter c

/-- Whether a character is an upper-case letter. -/
def isUpper (c : Char) : Bool := Text.lowerChar c != c

/-- Whether a character is a lower-case letter. -/
def isLower (c : Char) : Bool := Text.upperChar c != c

/-- Whether a character has a case. -/
def isCased (c : Char) : Bool := isUpper c || isLower c

/-- The first character in upper case, the others in lower case. -/
def capitalize : List Char → List Char
  | [] => []
  | c :: rest => Text.upperChar c :: rest.map Text.lowerChar

/-- Every letter that follows none in upper case, the others in lower case. -/
def title : Bool → List Char → List Char
  | _, [] => []
  | inWord, c :: rest =>
    (if inWord then Text.lowerChar c else Text.upperChar c) :: title (isCased c) rest

/-- Whether upper-case letters follow none and lower-case letters only others; some letter must be
there. -/
def isTitle : Bool → Bool → List Char → Bool
  | _, found, [] => found
  | inWord, found, c :: rest =>
    if isUpper c then !inWord && isTitle true true rest
    else if isLower c then inWord && isTitle true true rest
    else isTitle false found rest

/-- The words between runs of blanks; the last piece holds the rest once `limit` cuts are made. -/
def splitBlanks (limit : Option Nat) (cs : List Char) : List String :=
  go cs.length limit (cs.dropWhile Text.isBlank)
where
  /-- Splits a text that starts with no blank. -/
  go : Nat → Option Nat → List Char → List String
    | _, _, [] => []
    | 0, _, _ => []
    | _, some 0, cs => [String.ofList (Text.trimChars cs)]
    | n + 1, limit, cs =>
      let word := cs.takeWhile (!Text.isBlank ·)
      let rest := (cs.drop word.length).dropWhile Text.isBlank
      String.ofList word :: go n (limit.map (· - 1)) rest

/-- The pieces between occurrences of a separator, of which at most `limit` are used. -/
def splitAt (sep : List Char) : Nat → Option Nat → List Char → List Char → List (List Char)
  | 0, _, cs, piece => [piece.reverse ++ cs]
  | _, some 0, cs, piece => [piece.reverse ++ cs]
  | _, _, [], piece => [piece.reverse]
  | n + 1, limit, c :: rest, piece =>
    if sep.isPrefixOf (c :: rest) then
      piece.reverse :: splitAt sep n (limit.map (· - 1)) ((c :: rest).drop sep.length) []
    else splitAt sep n limit rest (c :: piece)

/-- `splitAt` on a whole text. -/
def split (sep : String) (limit : Option Nat) (s : String) : List String :=
  (splitAt sep.toList (s.length + 1) limit s.toList []).map String.ofList

/-- The text read backwards. -/
def backwards (s : String) : String := String.ofList s.toList.reverse

/-- `split` with the separators used from the right. -/
def splitRight (sep : String) (limit : Option Nat) (s : String) : List String :=
  ((split (backwards sep) limit (backwards s)).map backwards).reverse

/-- Replaces the first occurrences of a text, `limit` at most; an empty one stands before every
character and at the end. -/
def replace (old new : String) (limit : Option Nat) (s : String) : String :=
  if old.isEmpty then
    let cs := s.toList
    let n := match limit with
      | some k => min k (cs.length + 1)
      | none => cs.length + 1
    let fronted := (cs.take n).map fun c => new ++ c.toString
    String.join (fronted ++ [String.ofList (cs.drop n)] ++ if cs.length < n then [new] else [])
  else Text.join new (split old limit s)

/-- How often a text occurs, without overlap. -/
def count (part s : String) : Nat :=
  if part.isEmpty then s.length + 1 else (split part none s).length - 1

/-- The lines of a text, with or without their ends. -/
def lines (keepEnds : Bool) (s : String) : List String :=
  if s.isEmpty then []
  else
    let pieces := Text.splitAtChar '\n' s
    let ended := Text.endsIn "\n" s
    let pieces := if ended then pieces.dropLast else pieces
    if !keepEnds then pieces
    else if ended then pieces.map (· ++ "\n")
    else pieces.dropLast.map (· ++ "\n") ++ pieces.getLast?.toList

/-- The value that hashing a text gives: over its UTF-16 units, in 32 bits. -/
def hash (s : String) : Int :=
  let units := s.toList.flatMap fun c =>
    if c.toNat < 0x10000 then [c.toNat]
    else [0xD800 + (c.toNat - 0x10000) / 1024, 0xDC00 + (c.toNat - 0x10000) % 1024]
  let h : Nat := units.foldl (fun h u => (h * 31 + u) % 0x100000000) 0
  if h < 0x80000000 then h else (h : Int) - 0x100000000

end Words

namespace Run

/-- The values of parameters filled by position: between `least` and `most` of them. -/
def positional (least most : Nat) (args : List Val) : Run Unit :=
  if args.length < least || most < args.length then throw .badArguments else return

/-- A text. -/
def asText : Val → Run String
  | .str s => return s
  | _ => throw .badType

/-- An argument that is a text, or nothing if it is left out. -/
def textArg? (args : List Val) (i : Nat) : Run (Option String) := do
  match args[i]? with
  | none => return none
  | some .none => return none
  | some v => return some (← asText v)

/-- An argument that must be a text. -/
def textArg (args : List Val) (i : Nat) : Run String := do
  match args[i]? with
  | some v => asText v
  | none => throw .badArguments

/-- The part of a text that the bounds from argument `i` on select. -/
def boundedPart (s : String) (args : List Val) (i : Nat) : Run (Nat × String) := do
  let n := Text.byteCount s
  let (a, count, _) ← partBounds n ((args[i]?).getD .none) ((args[i + 1]?).getD .none) .none
  return (a.toNat, Text.byteSlice s a.toNat (a.toNat + count))

/-- Where a text first occurs in the selected part; `fromRight` for the last occurrence. -/
def find (s : String) (args : List Val) (fromRight : Bool) : Run (Option Nat) := do
  positional 1 3 args
  let part := Text.bytes (← textArg args 0)
  let (start, inside) ← boundedPart s args 1
  let whole := Text.bytes inside
  let found := if fromRight then
      (findBytes? part.reverse whole.reverse 0).map fun i => whole.length - part.length - i
    else findBytes? part whole 0
  return found.map (· + start)

/-- Where a text occurs, or -1; `needed` if it must occur. -/
def findResult (s : String) (args : List Val) (fromRight needed : Bool) : Run Val := do
  match ← find s args fromRight with
  | some i => return .int i
  | none => if needed then throw .badValue else return .int (-1)

/-- Whether the selected part begins or ends with a text, or with one of a tuple. -/
def beginsOrEnds (s : String) (args : List Val) (test : String → String → Bool) : Run Val := do
  positional 1 3 args
  let (_, inside) ← boundedPart s args 1
  match args.head? with
  | some (.str t) => return .bool (test t inside)
  | some (.tuple items) =>
    let texts ← items.mapM asText
    return .bool (texts.any (test · inside))
  | _ => throw .badType

/-- A text without the characters of a set at the sides asked for; blanks if no set is given. -/
def stripped (s : String) (args : List Val) (left right : Bool) : Run Val := do
  positional 0 1 args
  let gone : Char → Bool ← match ← textArg? args 0 with
    | some set => pure fun c => set.toList.contains c
    | none => pure Text.isBlank
  let cs := if left then s.toList.dropWhile gone else s.toList
  let cs := if right then (cs.reverse.dropWhile gone).reverse else cs
  return .str (String.ofList cs)

/-- The limit that an argument gives; negative for none. -/
def limitArg (args : List Val) (i : Nat) : Run (Option Nat) := do
  match args[i]? with
  | some v =>
    let n ← asInt v
    return if n < 0 then none else some n.toNat
  | none => return none

/-- Splits a text at a separator, or at blanks. -/
def splitText (s : String) (args : List Val) (fromRight : Bool) : Run Val := do
  positional 0 2 args
  let limit ← limitArg args 1
  match ← textArg? args 0 with
  | some sep =>
    if sep.isEmpty then throw .badValue
    else
      newList (((if fromRight then Words.splitRight else Words.split) sep limit s).map .str)
  | none =>
    if fromRight then
      let pieces := Words.splitBlanks limit (Words.backwards s).toList
      newList (pieces.reverse.map fun p => .str (Words.backwards p))
    else newList ((Words.splitBlanks limit s.toList).map .str)

/-- The text before the first or last separator, the separator, and the text after it. -/
def partitioned (s : String) (args : List Val) (fromRight : Bool) : Run Val := do
  positional 1 1 args
  let sep ← textArg args 0
  if sep.isEmpty then throw .badValue
  let pieces := (if fromRight then Words.splitRight else Words.split) sep (some 1) s
  match pieces with
  | [a, b] => return .tuple [.str a, .str sep, .str b]
  | _ => return .tuple (if fromRight then [.str "", .str "", .str s] else [.str s, .str "", .str ""])

/-! ## Filling in fields -/

/-- Which kind of numbering the fields of a pattern use. -/
inductive Numbering where
  | unknown | automatic (next : Nat) | written

/-- The value of a field. -/
def fieldValue (args : List Val) (named : List (String × Val)) (name : String) :
    Numbering → Run (Val × Numbering)
  | numbering => do
    let positionalArg (i : Nat) : Run Val :=
      match args[i]? with
      | some v => return v
      | none => throw .badArguments
    if name.isEmpty then
      match numbering with
      | .written => throw .badValue
      | .unknown => return (← positionalArg 0, .automatic 1)
      | .automatic i => return (← positionalArg i, .automatic (i + 1))
    else if name.toList.all Char.isDigit then
      match numbering with
      | .automatic _ => throw .badValue
      | _ => return (← positionalArg (Decimal.natOfDigits name.toList), .written)
    else
      match named.lookup name with
      | some v => return (v, numbering)
      | none => throw .badArguments

/-- The text of a field: a name, and after an exclamation mark how to show it. -/
def fieldText (args : List Val) (named : List (String × Val)) (field : String)
    (numbering : Numbering) : Run (String × Numbering) := do
  let (head, spec) := (Text.cut ':' field).getD (field, "")
  let (name, conversion) := (Text.cut '!' head).getD (head, "s")
  let (v, numbering) ← fieldValue args named name numbering
  if !spec.isEmpty then throw .badValue
  if conversion == "s" then return (← text v, numbering)
  else if conversion == "r" then return (← repr v, numbering)
  else throw .badValue

/-- Fills in the fields between braces; doubled braces stand for themselves. -/
def format (args : List Val) (named : List (String × Val)) :
    Nat → List Char → Numbering → Run String
  | 0, _, _ => return ""
  | _, [], _ => return ""
  | n + 1, '\x7b' :: '\x7b' :: rest, k => return "\x7b" ++ (← format args named n rest k)
  | n + 1, '\x7d' :: '\x7d' :: rest, k => return "\x7d" ++ (← format args named n rest k)
  | _, '\x7d' :: _, _ => throw .badValue
  | n + 1, '\x7b' :: rest, k => do
    match Text.cutChars '\x7d' rest with
    | some (field, rest) =>
      let (s, k) ← fieldText args named (String.ofList field) k
      return Text.append s (← format args named n rest k)
    | none => throw .badValue
  | n + 1, c :: rest, k => return c.toString ++ (← format args named n rest k)

/-! ## All methods -/

/-- The names of the methods of texts. -/
def textMethods : List String :=
  ["capitalize", "codepoint_ords", "codepoints", "count", "elem_ords", "elems", "endswith", "find",
    "format", "index", "isalnum", "isalpha", "isdigit", "islower", "isspace", "istitle", "isupper",
    "join", "lower", "lstrip", "partition", "removeprefix", "removesuffix", "replace", "rfind",
    "rindex", "rpartition", "rsplit", "rstrip", "split", "splitlines", "startswith", "strip",
    "title", "upper"]

/-- Calls a method of a text. -/
def textMethod (s : String) (name : String) (args : List Val) (named : List (String × Val)) :
    Run Val := do
  if !named.isEmpty && name != "format" then throw .badArguments
  let cs := s.toList
  let none_ : Run Unit := positional 0 0 args
  let all (p : Char → Bool) : Run Val := do none_; return .bool (!cs.isEmpty && cs.all p)
  let changed (t : String) : Run Val := do none_; return .str t
  let view (type : String) (items : List Val) : Run Val := do
    none_
    return .view ("string." ++ type) (Text.quoted s ++ "." ++ name ++ "()") items
  match name with
  | "capitalize" => changed (String.ofList (Words.capitalize cs))
  | "title" => changed (String.ofList (Words.title false cs))
  | "lower" => changed (Text.lower s)
  | "upper" => changed (Text.upper s)
  | "isalnum" => all fun c => Words.isLetter c || c.isDigit
  | "isalpha" => all Words.isLetter
  | "isdigit" => all Char.isDigit
  | "isspace" => all Text.isBlank
  | "islower" => none_; return .bool (cs.any Words.isCased && Text.lower s == s)
  | "isupper" => none_; return .bool (cs.any Words.isCased && Text.upper s == s)
  | "istitle" => none_; return .bool (Words.isTitle false false cs)
  | "elems" => view "elems" ((Text.bytes s).map fun b => .str (Text.ofBytes [b]))
  | "elem_ords" => view "elems" ((Text.bytes s).map fun b => .int b.toNat)
  | "codepoints" => view "codepoints" (cs.map fun c => .str c.toString)
  | "codepoint_ords" => view "codepoints" (cs.map fun c => .int c.toNat)
  | "count" =>
    positional 1 3 args
    let (_, inside) ← boundedPart s args 1
    return .int (Words.count (← textArg args 0) inside)
  | "find" => findResult s args false false
  | "rfind" => findResult s args true false
  | "index" => findResult s args false true
  | "rindex" => findResult s args true true
  | "startswith" => beginsOrEnds s args Text.beginsWith
  | "endswith" => beginsOrEnds s args Text.endsIn
  | "strip" => stripped s args true true
  | "lstrip" => stripped s args true false
  | "rstrip" => stripped s args false true
  | "split" => splitText s args false
  | "rsplit" => splitText s args true
  | "partition" => partitioned s args false
  | "rpartition" => partitioned s args true
  | "removeprefix" => positional 1 1 args; return .str (Text.withoutStart (← textArg args 0) s)
  | "removesuffix" => positional 1 1 args; return .str (Text.withoutEnd (← textArg args 0) s)
  | "replace" =>
    positional 2 3 args
    return .str (Words.replace (← textArg args 0) (← textArg args 1) (← limitArg args 2) s)
  | "splitlines" =>
    positional 0 1 args
    let keep ← match args.head? with
      | some (.bool b) => pure b
      | some _ => throw .badType
      | none => pure false
    newList ((Words.lines keep s).map .str)
  | "join" =>
    positional 1 1 args
    let pieces ← (← items (args.headD .none)).mapM asText
    return .str (Text.ofBytes (Text.bytes (Text.join s pieces)))
  | "format" => return .str (← format args named cs.length cs .unknown)
  | _ => throw .badType

end Run

end PageMacro.Script
