import PageMacro.Script.TextMethod

/-!
# Functions and methods that are always there

A function that takes a function, such as the key of a sort, is given the way to call it.
-/

namespace PageMacro.Script.Run

/-- The way to call a value with plain arguments. -/
abbrev Apply := Val → List Val → Run Val

/-! ## Methods of lists, dictionaries and sets -/

/-- The names of the methods of lists. -/
def listMethods : List String := ["append", "clear", "extend", "index", "insert", "pop", "remove"]

/-- Calls a method of the list at an address. -/
def listMethod (a : Nat) (name : String) (args : List Val) : Run Val := do
  let xs ← listAt a
  let first := args.headD .none
  match name with
  | "append" => positional 1 1 args; push a first; return .none
  | "clear" => positional 0 0 args; putList a #[]; return .none
  | "extend" =>
    positional 1 1 args
    let more ← items first
    putList a (xs ++ more.toArray)
    return .none
  | "insert" =>
    positional 2 2 args
    needMutable a
    let i ← asInt first
    let i := if i < 0 then i + xs.size else i
    let k := min i.toNat xs.size
    putList a (xs.toList.take k ++ args[1]?.toList ++ xs.toList.drop k).toArray
    return .none
  | "index" =>
    positional 1 3 args
    let (start, count, _) ← partBounds xs.size ((args[1]?).getD .none) ((args[2]?).getD .none) .none
    match ← findItem (xs.extract start.toNat (start.toNat + count)) first with
    | some i => return .int (start + i)
    | none => throw .badValue
  | "pop" =>
    positional 0 1 args
    needMutable a
    let i ← match args.head? with
      | some v => asSmall v
      | none => pure (xs.size - 1 : Int)
    let k ← position xs.size i
    putList a (xs.toList.take k ++ xs.toList.drop (k + 1)).toArray
    return (xs[k]?).getD .none
  | "remove" =>
    positional 1 1 args
    needMutable a
    match ← findItem xs first with
    | some k => putList a (xs.toList.take k ++ xs.toList.drop (k + 1)).toArray; return .none
    | none => throw .badValue
  | _ => throw .badType

/-- The names of the methods of dictionaries. -/
def dictMethods : List String :=
  ["clear", "get", "items", "keys", "pop", "popitem", "setdefault", "update", "values"]

/-- A pair of a sequence of pairs. -/
def asPair (v : Val) : Run (Val × Val) := do
  match ← items v with
  | [a, b] => return (a, b)
  | _ => throw .badValue

/-- The entries that the arguments of `dict` and `update` give. -/
def entriesOf (args : List Val) (named : List (String × Val)) : Run (List (Val × Val)) := do
  positional 0 1 args
  let given ← match args.head? with
    | none => pure []
    | some (.dict b) => pure (← dictAt b).toList
    | some v => (← items v).mapM asPair
  return given ++ named.map fun (key, value) => (.str key, value)

/-- Calls a method of the dictionary at an address. -/
def dictMethod (a : Nat) (name : String) (args : List Val) (named : List (String × Val)) :
    Run Val := do
  if !named.isEmpty && name != "update" then throw .badArguments
  let entries ← dictAt a
  let first := args.headD .none
  let found : Run (Option Nat) := do needKey first; findKey entries first
  let valueAt (i : Nat) : Val := (entries[i]?.map (·.2)).getD .none
  let without (i : Nat) : Array (Val × Val) :=
    (entries.toList.take i ++ entries.toList.drop (i + 1)).toArray
  match name with
  | "clear" => positional 0 0 args; putDict a #[]; return .none
  | "get" =>
    positional 1 2 args
    match ← found with
    | some i => return valueAt i
    | none => return (args[1]?).getD .none
  | "items" =>
    positional 0 0 args
    newList (entries.toList.map fun (key, value) => .tuple [key, value])
  | "keys" => positional 0 0 args; newList (entries.toList.map (·.1))
  | "values" => positional 0 0 args; newList (entries.toList.map (·.2))
  | "pop" =>
    positional 1 2 args
    needMutable a
    match ← found with
    | some i => putDict a (without i); return valueAt i
    | none =>
      match args[1]? with
      | some v => return v
      | none => throw .missingKey
  | "popitem" =>
    positional 0 0 args
    match entries[0]? with
    | some (key, value) => putDict a (without 0); return .tuple [key, value]
    | none => throw .missingKey
  | "setdefault" =>
    positional 1 2 args
    match ← found with
    | some i => return valueAt i
    | none =>
      let v := (args[1]?).getD .none
      putEntry a first v
      return v
  | "update" =>
    for (key, value) in ← entriesOf args named do putEntry a key value
    return .none
  | _ => throw .badType

/-- The names of the methods of sets. -/
def setMethods : List String :=
  ["add", "clear", "difference", "discard", "intersection", "issubset", "issuperset", "pop",
    "remove", "symmetric_difference", "union"]

/-- Calls a method of the set at an address. -/
def setMethod (a : Nat) (name : String) (args : List Val) : Run Val := do
  let xs ← setAt a
  let first := args.headD .none
  let without (i : Nat) : Array Val := (xs.toList.take i ++ xs.toList.drop (i + 1)).toArray
  let other : Run (Array Val) := do positional 1 1 args; distinct (← items first) #[]
  match name with
  | "add" => positional 1 1 args; putSet a (← distinct [first] xs); return .none
  | "clear" => positional 0 0 args; putSet a #[]; return .none
  | "discard" =>
    positional 1 1 args
    needKey first
    match ← findItem xs first with
    | some i => putSet a (without i); return .none
    | none => return .none
  | "remove" =>
    positional 1 1 args
    needKey first
    match ← findItem xs first with
    | some i => putSet a (without i); return .none
    | none => throw .missingKey
  | "pop" =>
    positional 0 0 args
    match xs[0]? with
    | some v => putSet a (without 0); return v
    | none => throw .missingKey
  | "union" =>
    let mut all := xs.toList
    for v in args do all := all ++ (← items v)
    newSet all
  | "difference" => setArith .sub xs (← other)
  | "intersection" => setArith .bitAnd xs (← other)
  | "symmetric_difference" => setArith .bitXor xs (← other)
  | "issubset" => return .bool (← setFilter xs (← other) false).isEmpty
  | "issuperset" => return .bool (← setFilter (← other) xs false).isEmpty
  | _ => throw .badType

/-- The names of the methods of a value. -/
def methodNames : Val → List String
  | .str _ => textMethods
  | .bytes _ => ["elems"]
  | .list _ => listMethods
  | .dict _ => dictMethods
  | .set _ => setMethods
  | _ => []

/-- Calls a method. -/
def method (self : Val) (name : String) (args : List Val) (named : List (String × Val)) :
    Run Val :=
  match self with
  | .str s => textMethod s name args named
  | .dict a => dictMethod a name args named
  | .list a => if named.isEmpty then listMethod a name args else throw .badArguments
  | .set a => if named.isEmpty then setMethod a name args else throw .badArguments
  | .bytes s =>
    return .view "bytes.elems" ("b" ++ Text.quoted s ++ ".elems()")
      ((Text.bytes s).map fun b => .int b.toNat)
  | _ => throw .badType

/-! ## Functions -/

/-- The number that a text writes in a base; base 0 lets the text say which. -/
def parseInt? (base : Nat) (s : String) : Option Int :=
  let (negative, cs) := Decimal.takeSign s.toList
  let signed (n : Option Nat) : Option Int := n.map fun n => if negative then -(n : Int) else n
  let plain (cs : List Char) := signed (Token.ofDigits? (if base == 0 then 10 else base) cs)
  match cs with
  | '0' :: c :: d :: rest =>
    match Token.baseOf? c with
    | some b =>
      if base == 0 || b == base then signed (Token.ofDigits? b (d :: rest)) else plain cs
    | none =>
      if base == 0 then if cs.all (· == '0') then some 0 else none else plain cs
  | ['0', c] => if base == 0 then if c == '0' then some 0 else none else plain cs
  | _ => plain cs

/-- The double that a text writes. -/
def parseFloat? (s : String) : Option Float :=
  let (negative, cs) := Decimal.takeSign s.toList
  let word := (String.ofList cs).toLower
  let inf : Float := 1.0 / 0.0
  if word == "inf" || word == "infinity" then some (if negative then -inf else inf)
  else if word == "nan" then some (0.0 / 0.0)
  else (Decimal.Literal.parse? s.toList).bind Decimal.Literal.toFloat?

/-- The values of named parameters, filled by position and then by name. -/
def fillNamed (names : List String) (args : List Val) (named : List (String × Val)) :
    Run (List (Option Val)) := do
  if names.length < args.length then throw .badArguments
  for (name, _) in named do
    if !(names.drop args.length).contains name then throw .badArguments
  return names.zipIdx.map fun (name, i) => (args[i]?).orElse fun _ => named.lookup name

/-- Values sorted by their keys; equal ones keep their order. -/
def sortByKey (reverse : Bool) (keyed : List (Data × Val)) : List Val :=
  let le (a b : Data × Val) : Bool :=
    let o := (a.1.order? b.1).getD .eq
    if reverse then o != .lt else o != .gt
  (keyed.mergeSort le).map (·.2)

/-- The keys of values under an optional function. -/
def keysOf (apply : Apply) (key : Option Val) (vs : List Val) : Run (List (Data × Val)) :=
  vs.mapM fun v => do
    match key with
    | some .none => return (← whole v, v)
    | some f => return (← whole (← apply f [v]), v)
    | none => return (← whole v, v)

/-- Every two neighbours must compare. -/
def needOrdered : List (Data × Val) → Run Unit
  | a :: b :: rest => do
    if (a.1.order? b.1).isNone then throw .badType
    needOrdered (b :: rest)
  | _ => return

/-- The first value that comes before or after all others. -/
def extreme (wanted : Ordering) : List (Data × Val) → Option (Data × Val) → Run Val
  | [], some best => return best.2
  | [], none => throw .badValue
  | v :: rest, none => extreme wanted rest (some v)
  | v :: rest, some best =>
    match v.1.order? best.1 with
    | some o => extreme wanted rest (some (if o == wanted then v else best))
    | none => throw .badType

/-- The smallest or largest of the items of one argument, or of several arguments. -/
def minMax (apply : Apply) (wanted : Ordering) (args : List Val) (named : List (String × Val)) :
    Run Val := do
  if named.any (·.1 != "key") then throw .badArguments
  let vs ← match args with
    | [] => throw .badArguments
    | [v] => items v
    | vs => pure vs
  extreme wanted (← keysOf apply (named.lookup "key") vs) none

/-- The texts of several values with a separator between them. -/
def joined (args : List Val) (named : List (String × Val)) : Run String := do
  if named.any (·.1 != "sep") then throw .badArguments
  let sep ← match named.lookup "sep" with
    | some v => asText v
    | none => pure " "
  return Text.join sep (← args.mapM text)

/-- The tuples of the items at the same place, as long as all have one. -/
def zipAll (lists : List (List Val)) : List Val :=
  match lists.map List.length with
  | [] => []
  | n :: ns =>
    (List.range (ns.foldl min n)).map fun i => .tuple (lists.filterMap (·[i]?))

/-- A field of a value: a method. -/
def field? (v : Val) (name : String) : Option Val :=
  if (methodNames v).contains name then some (.method v name) else none

/-- The functions that take named arguments. -/
def takesNames : List String :=
  ["bool", "dict", "enumerate", "fail", "int", "max", "min", "print", "sorted"]

/-- Calls a function that is always there. -/
def builtin (apply : Apply) (name : String) (args : List Val) (named : List (String × Val)) :
    Run Val := do
  if !named.isEmpty && !takesNames.contains name then throw .badArguments
  let first := args.headD .none
  let one : Run Unit := positional 1 1 args
  match name with
  | "abs" =>
    one
    match first with
    | .int n => return .int n.natAbs
    | .float x => return .float x.abs
    | _ => throw .badType
  | "all" => one; return .bool (← (← items first).allM truth)
  | "any" => one; return .bool (← (← items first).anyM truth)
  | "bool" =>
    match ← fillNamed ["x"] args named with
    | [some v] => return .bool (← truth v)
    | _ => return .bool false
  | "bytes" =>
    one
    match first with
    | .bytes s => return .bytes s
    | .str s => return .bytes s
    | v =>
      let bs ← (← items v).mapM fun v => do
        let n ← asInt v
        if 0 ≤ n && n < 256 then pure n.toNat.toUInt8 else throw .badValue
      return .bytes (Text.ofBytes bs)
  | "chr" =>
    one
    let n ← asSmall first
    if 0 ≤ n && n.toNat.isValidChar then return .str (Char.ofNat n.toNat).toString
    else throw .badValue
  | "dict" => newDict (← entriesOf args named)
  | "dir" => one; newList ((Text.sortNames (methodNames first)).map .str)
  | "enumerate" =>
    match ← fillNamed ["iterable", "start"] args named with
    | [some v, start] =>
      let start ← match start with
        | some v => asInt v
        | none => pure 0
      newList ((← items v).zipIdx.map fun (v, i) => .tuple [.int (start + i), v])
    | _ => throw .badArguments
  | "fail" =>
    let _ ← joined args named
    throw .failed
  | "float" =>
    positional 0 1 args
    match args.head? with
    | none => return .float 0.0
    | some (.bool b) => return .float (if b then 1.0 else 0.0)
    | some (.str s) =>
      match parseFloat? s with
      | some x => return .float x
      | none => throw .badValue
    | some v => return .float (← asFloat v)
  | "getattr" =>
    positional 2 3 args
    match field? first (← textArg args 1), args[2]? with
    | some v, _ => return v
    | none, some v => return v
    | none, none => throw .badType
  | "hasattr" => positional 2 2 args; return .bool (field? first (← textArg args 1)).isSome
  | "hash" =>
    one
    match first with
    | .str s => return .int (Words.hash s)
    | .bytes s =>
      return .int ((Text.bytes s).foldl (fun h b =>
        Nat.xor h b.toNat * 16777619 % 0x100000000) 2166136261 : Nat)
    | _ => throw .badType
  | "int" =>
    match ← fillNamed ["x", "base"] args named with
    | [some (.str s), base] =>
      let base ← match base with
        | some v => asSmall v
        | none => pure 10
      if base != 0 && (base < 2 || 36 < base) then throw .badValue
      match parseInt? base.toNat s with
      | some n => return .int n
      | none => throw .badValue
    | [some (.bool b), none] => return .int (if b then 1 else 0)
    | [some v, none] => return .int (← asWhole v)
    | _ => throw .badArguments
  | "len" => one; return .int (← length first)
  | "list" =>
    positional 0 1 args
    newList (← match args.head? with
      | some v => items v
      | none => pure [])
  | "max" => minMax apply .gt args named
  | "min" => minMax apply .lt args named
  | "ord" =>
    one
    match first with
    | .str s =>
      match s.toList with
      | [c] => return .int c.toNat
      | _ => throw .badValue
    | .bytes s =>
      match Text.bytes s with
      | [b] => return .int b.toNat
      | _ => throw .badValue
    | _ => throw .badType
  | "print" =>
    let line ← joined args named
    modify fun h => { h with printed := line :: h.printed }
    return .none
  | "range" =>
    positional 1 3 args
    match ← args.mapM asSmall with
    | [stop] => return .range 0 stop 1
    | [start, stop] => return .range start stop 1
    | [start, stop, step] =>
      if step == 0 then throw .badValue else return .range start stop step
    | _ => throw .badArguments
  | "repr" => one; return .str (← repr first)
  | "reversed" => one; newList (← items first).reverse
  | "set" =>
    positional 0 1 args
    newSet (← match args.head? with
      | some v => items v
      | none => pure [])
  | "sorted" =>
    match ← fillNamed ["iterable", "key", "reverse"] args named with
    | [some v, key, reverse] =>
      let keyed ← keysOf apply key (← items v)
      needOrdered keyed
      let reverse ← match reverse with
        | some (.bool b) => pure b
        | some _ => throw .badType
        | none => pure false
      newList (sortByKey reverse keyed)
    | _ => throw .badArguments
  | "str" => one; return .str (← text first)
  | "tuple" =>
    positional 0 1 args
    return .tuple (← match args.head? with
      | some v => items v
      | none => pure [])
  | "type" => one; return .str first.type
  | "zip" => newList (zipAll (← args.mapM items))
  | _ => throw .badType

end PageMacro.Script.Run
