import PageMacro.Decimal.Rounded
import PageMacro.Script.Heap

/-!
# Operators of scripts

Arithmetic on whole numbers is exact; division and remainder go to the floor. A whole number and a
double meet as doubles. Texts are sequences of bytes: an index or a part of one counts bytes.
-/

namespace PageMacro.Script.Run

/-! ## Numbers -/

/-- The double for a whole number, which must be within the range of doubles. -/
def floatOfInt (n : Int) : Run Float :=
  let x := Float.ofInt n
  if x.isInf then throw .badValue else return x

/-- The number a value is, as a double. -/
def asFloat : Val → Run Float
  | .int n => floatOfInt n
  | .float x => return x
  | _ => throw .badType

/-- The whole part of a double. -/
def wholePart? (x : Float) : Option Int :=
  match Decimal.classify x with
  | .finite negative b =>
    let (num, den) := b.ratio
    let n : Int := (num / den : Nat)
    some (if negative then -n else n)
  | _ => none

/-- A number without its fraction. -/
def asWhole : Val → Run Int
  | .int n => return n
  | .float x =>
    match wholePart? x with
    | some n => return n
    | none => throw .badValue
  | _ => throw .badType

/-- A whole number. -/
def asInt : Val → Run Int
  | .int n => return n
  | _ => throw .badType

/-- A whole number that fits 32 bits. -/
def asSmall (v : Val) : Run Int := do
  let n ← asInt v
  if -(0x80000000) ≤ n && n < 0x80000000 then return n else throw .badValue

/-- The remainder of doubles with the sign of the divisor. -/
def floatMod (x y : Float) : Float :=
  match Decimal.classify x, Decimal.classify y with
  | .finite nx bx, .finite ny by_ =>
    let (a, b) := bx.ratio
    let (c, d) := by_.ratio
    -- the exact remainder of a/b by c/d, over the common denominator b·d
    let r := (a * d) % (c * b)
    let twos := Nat.log2 (Nat.gcd r (Nat.pow 2 (Nat.log2 r)))
    let m := Float.ofNat (r / Nat.pow 2 twos)
    let z := (if nx then -m else m).scaleB (twos - Nat.log2 (b * d) : Int)
    if nx != ny && r != 0 then z + y else z
  | .finite nx _, .infinite ny => if nx != ny && x != 0.0 then y else x
  | _, _ => 0.0 / 0.0

/-- Whether a value is a number. -/
def isNumber : Val → Bool
  | .int _ => true
  | .float _ => true
  | _ => false

/-- Arithmetic on numbers that are not both whole. -/
def floatArith (op : BinaryOp) (x y : Float) : Run Val :=
  match op with
  | .add => return .float (x + y)
  | .sub => return .float (x - y)
  | .mul => return .float (x * y)
  | .div => if y == 0.0 then throw .divisionByZero else return .float (x / y)
  | .floorDiv => if y == 0.0 then throw .divisionByZero else return .float (x / y).floor
  | .mod => if y == 0.0 then throw .divisionByZero else return .float (floatMod x y)
  | _ => throw .badType

/-- The two's-complement combination of whole numbers, bit by bit. -/
def bitwise (f : Bool → Bool → Bool) (x y : Int) : Int :=
  let bit (n : Int) (i : Nat) : Bool := (n / (Nat.pow 2 i : Int)) % 2 == 1
  let width := Nat.max (Nat.log2 x.natAbs) (Nat.log2 y.natAbs) + 2
  let low : Int := (List.range width).foldl (fun acc (i : Nat) =>
    if f (bit x i) (bit y i) then acc + (Nat.pow 2 i : Int) else acc) 0
  if f (x < 0) (y < 0) then low - (Nat.pow 2 width : Int) else low

/-- Arithmetic on whole numbers. -/
def intArith (op : BinaryOp) (x y : Int) : Run Val :=
  match op with
  | .add => return .int (x + y)
  | .sub => return .int (x - y)
  | .mul => return .int (x * y)
  | .div => do floatArith .div (← floatOfInt x) (← floatOfInt y)
  | .floorDiv => if y == 0 then throw .divisionByZero else return .int (x.fdiv y)
  | .mod => if y == 0 then throw .divisionByZero else return .int (x.fmod y)
  | .bitOr => return .int (bitwise (· || ·) x y)
  | .bitXor => return .int (bitwise xor x y)
  | .bitAnd => return .int (bitwise (· && ·) x y)
  | .shiftLeft => if y < 0 || 512 ≤ y then throw .badValue else return .int (x * Nat.pow 2 y.toNat)
  | .shiftRight =>
    if y < 0 || 0x80000000 ≤ y then throw .badValue
    else if Nat.log2 x.natAbs + 1 < y.toNat then return .int (if x < 0 then -1 else 0)
    else return .int (x.fdiv (Nat.pow 2 y.toNat))
  | _ => throw .badType

/-! ## Sequences -/

/-- The largest sequence that repetition may make. -/
def maxLength : Nat := 0x40000000

/-- How often a sequence of a length is repeated. -/
def repeatCount (length : Nat) (n : Int) : Run Nat :=
  if n ≤ 0 || length == 0 then return 0
  else if maxLength ≤ length * n.toNat then throw .badValue
  else return n.toNat

/-- A sequence repeated. -/
def repeated (v : Val) (n : Int) : Run Val := do
  match v with
  | .str s => return .str (Text.times (← repeatCount (Text.byteCount s) n) s)
  | .bytes s => return .bytes (Text.times (← repeatCount (Text.byteCount s) n) s)
  | .tuple items =>
    return .tuple (List.replicate (← repeatCount items.length n) items).flatten
  | .list a =>
    let items ← listAt a
    newList (List.replicate (← repeatCount items.size n) items.toList).flatten
  | _ => throw .badType

/-- Whether some bytes stand at the front of others. -/
def bytesBegin (part whole : List UInt8) : Bool := part.isPrefixOf whole

/-- Where some bytes first stand among others. -/
def findBytes? (part : List UInt8) : List UInt8 → Nat → Option Nat
  | [], at_ => if part.isEmpty then some at_ else Option.none
  | b :: rest, at_ =>
    if bytesBegin part (b :: rest) then some at_ else findBytes? part rest (at_ + 1)

/-- Whether a value is among those of another. -/
def isIn (x y : Val) : Run Bool := do
  match y with
  | .str s =>
    match x with
    | .str part => return (findBytes? (Text.bytes part) (Text.bytes s) 0).isSome
    | _ => throw .badType
  | .bytes s =>
    match x with
    | .bytes part => return (findBytes? (Text.bytes part) (Text.bytes s) 0).isSome
    | .int n => return (Text.bytes s).any fun b => (b.toNat : Int) == n
    | _ => throw .badType
  | .dict a => needKey x; return (← findKey (← dictAt a) x).isSome
  | .set a => needKey x; return (← findItem (← setAt a) x).isSome
  | .range start stop step =>
    let n ← asInt x
    let d := n - start
    return (d % step == 0) && 0 ≤ d / step && d / step < rangeCount start stop step
  | .list a => return (← findItem (← listAt a) x).isSome
  | .tuple items => return (← findItem items.toArray x).isSome
  | _ => throw .badType

/-- The items of the first set, without repetition, for which being in the second is as asked. -/
def setFilter (xs ys : Array Val) (wanted : Bool) : Run (List Val) :=
  xs.toList.filterM fun x => return (← findItem ys x).isSome == wanted

/-- Combinations of sets. -/
def setArith (op : BinaryOp) (xs ys : Array Val) : Run Val := do
  match op with
  | .bitOr => newSet (xs.toList ++ ys.toList)
  | .bitAnd => newSet (← setFilter xs ys true)
  | .sub => newSet (← setFilter xs ys false)
  | .bitXor => newSet ((← setFilter xs ys false) ++ (← setFilter ys xs false))
  | _ => throw .badType

/-! ## Text from a pattern -/

/-- A number with a fixed number of places, as `%e` and `%f` write it. -/
def placesText (f : Decimal.Binary → List Char) (x : Float) : String :=
  match Decimal.classify x with
  | .finite negative b => String.ofList ((if negative then ['-'] else []) ++ f b)
  | _ => Data.floatText x

/-- A whole number in a base. -/
def inBase (base : Nat) (n : Int) : String :=
  (if n < 0 then "-" else "") ++ String.ofList (Nat.toDigits base n.natAbs)

/-- The text of one value for a conversion letter. -/
def converted (c : Char) (v : Val) : Run String := do
  match c with
  | 's' => text v
  | 'r' => repr v
  | 'd' => return toString (← asWhole v)
  | 'i' => return toString (← asWhole v)
  | 'o' => return inBase 8 (← asWhole v)
  | 'x' => return inBase 16 (← asWhole v)
  | 'X' => return (inBase 16 (← asWhole v)).toUpper
  | 'e' => return placesText (Decimal.scientific 6) (← asFloat v)
  | 'E' => return (placesText (Decimal.scientific 6) (← asFloat v)).toUpper
  | 'f' => return placesText (Decimal.fixed 6) (← asFloat v)
  | 'F' => return placesText (Decimal.fixed 6) (← asFloat v)
  | 'g' => return Data.floatText (← asFloat v)
  | 'G' => return (Data.floatText (← asFloat v)).toUpper
  | 'c' =>
    match v with
    | .int n =>
      if 0 ≤ n && n.toNat.isValidChar then return (Char.ofNat n.toNat).toString
      else throw .badValue
    | .str s => if s.length == 1 then return s else throw .badValue
    | _ => throw .badType
  | _ => throw .badValue

/-- Fills in a pattern: `%` and a letter stands for the next value, with a name in brackets for an
entry of the dictionary. Gives the text and how many values were used. -/
def fill (arg : Val) (values : List Val) : Nat → List Char → Nat → Run (String × Nat)
  | 0, _, used => return ("", used)
  | _, [], used => return ("", used)
  | n + 1, '%' :: '%' :: rest, used => do
    let (s, used) ← fill arg values n rest used
    return ("%" ++ s, used)
  | n + 1, '%' :: '(' :: rest, used => do
    match Text.cutChars ')' rest, arg with
    | some (key, c :: rest), .dict a =>
      let entries ← dictAt a
      match ← findKey entries (.str (String.ofList key)) with
      | some i =>
        let s ← converted c ((entries[i]?.map (·.2)).getD .none)
        let (t, used) ← fill arg values n rest (used + 1)
        return (Text.append s t, used)
      | none => throw .missingKey
    | _, _ => throw .badValue
  | n + 1, '%' :: c :: rest, used => do
    match values[used]? with
    | some v =>
      let s ← converted c v
      let (t, used) ← fill arg values n rest (used + 1)
      return (Text.append s t, used)
    | none => throw .badArguments
  | _, ['%'], _ => throw .badValue
  | n + 1, c :: rest, used => do
    let (s, used) ← fill arg values n rest used
    return (c.toString ++ s, used)

/-- A pattern filled in with a value, or with the items of a tuple; all must be used. -/
def filled (pattern : String) (arg : Val) : Run Val := do
  let values := match arg with
    | .tuple items => items
    | v => [v]
  let cs := pattern.toList
  let (s, used) ← fill arg values cs.length cs 0
  if used < values.length then throw .badArguments else return .str s

/-! ## All binary operators -/

/-- Comparison of sets: by inclusion. -/
def setOrder (op : BinaryOp) (xs ys : Array Val) : Run Bool := do
  let below := (← setFilter xs ys false).isEmpty
  let above := (← setFilter ys xs false).isEmpty
  match op with
  | .le => return below
  | .lt => return below && !above
  | .ge => return above
  | _ => return above && !below

/-- Whether an ordering satisfies a comparison. -/
def holds (op : BinaryOp) (o : Ordering) : Bool :=
  match op with
  | .lt => o == .lt
  | .le => o != .gt
  | .gt => o == .gt
  | .ge => o != .lt
  | _ => false

/-- Applies a binary operator. -/
def binary (op : BinaryOp) (x y : Val) : Run Val := do
  match op with
  | .eq => return .bool (← same x y)
  | .ne => return .bool !(← same x y)
  | .isIn => return .bool (← isIn x y)
  | .notIn => return .bool !(← isIn x y)
  | _ =>
    if op == .lt || op == .le || op == .gt || op == .ge then
      match x, y with
      | .set a, .set b => return .bool (← setOrder op (← setAt a) (← setAt b))
      | _, _ => return .bool (holds op (← order x y))
    else match op, x, y with
      | op, .int a, .int b => intArith op a b
      | .mod, .str pattern, arg => filled pattern arg
      | .add, .str a, .str b => return .str (Text.append a b)
      | .add, .bytes a, .bytes b => return .bytes (Text.append a b)
      | .add, .tuple a, .tuple b => return .tuple (a ++ b)
      | .add, .list a, .list b => newList ((← listAt a).toList ++ (← listAt b).toList)
      | .bitOr, .dict a, .dict b => newDict ((← dictAt a).toList ++ (← dictAt b).toList)
      | op, .set a, .set b => setArith op (← setAt a) (← setAt b)
      | .mul, .int n, v =>
        if isNumber v then floatArith .mul (← floatOfInt n) (← asFloat v)
        else repeated v n
      | .mul, v, .int n =>
        if isNumber v then floatArith .mul (← asFloat v) (← floatOfInt n)
        else repeated v n
      | op, a, b =>
        if isNumber a && isNumber b then floatArith op (← asFloat a) (← asFloat b)
        else throw .badType

/-- Applies a unary operator. -/
def unary (op : UnaryOp) (x : Val) : Run Val := do
  match op, x with
  | .not, v => return .bool !(← truth v)
  | .plus, v => if isNumber v then return v else throw .badType
  | .minus, .int n => return .int (-n)
  | .minus, .float f => return .float (-f)
  | .complement, .int n => return .int (-n - 1)
  | _, _ => throw .badType

/-! ## Indices and parts -/

/-- How many items a value has. -/
def length : Val → Run Nat
  | .str s => return Text.byteCount s
  | .bytes s => return Text.byteCount s
  | .tuple items => return items.length
  | .list a => return (← listAt a).size
  | .dict a => return (← dictAt a).size
  | .set a => return (← setAt a).size
  | .range a b c => return rangeCount a b c
  | .view _ _ items => return items.length
  | _ => throw .badType

/-- A position counted from the end if it is negative. -/
def position (n : Nat) (i : Int) : Run Nat :=
  let i := if i < 0 then i + n else i
  if 0 ≤ i && i < n then return i.toNat else throw .badIndex

/-- The item of a list, or nothing if there is none. -/
def pick (items : List Val) (i : Int) : Run Val := do
  return (items[← position items.length i]?).getD .none

/-- What stands at an index or under a key. -/
def index (x i : Val) : Run Val := do
  match x with
  | .dict a =>
    needKey i
    let entries ← dictAt a
    match ← findKey entries i with
    | some k => return (entries[k]?.map (·.2)).getD .none
    | none => throw .missingKey
  | .list a =>
    let items ← listAt a
    return (items[← position items.size (← asSmall i)]?).getD .none
  | .tuple items => pick items (← asSmall i)
  | .view _ _ items => pick items (← asSmall i)
  | .range start stop step =>
    let k ← position (rangeCount start stop step) (← asSmall i)
    return .int (start + step * (k : Int))
  | .str s =>
    let k ← position (Text.byteCount s) (← asSmall i)
    return .str (Text.byteSlice s k (k + 1))
  | .bytes s =>
    let k ← position (Text.byteCount s) (← asSmall i)
    return .int (((Text.bytes s)[k]?).getD 0).toNat
  | _ => throw .badType

/-- Assigns to an index or a key. -/
def setIndex (x i v : Val) : Run Unit := do
  match x with
  | .dict a => putEntry a i v
  | .list a =>
    needMutable a
    let items ← listAt a
    let k ← position items.size (← asSmall i)
    putList a (items.set! k v)
  | _ => throw .badType

/-- The positions of a part of `n` items: where it starts, how many there are, and how far apart. -/
def partBounds (n : Nat) (start stop step : Val) : Run (Int × Nat × Int) := do
  let step ← match step with
    | .none => pure 1
    | v => asSmall v
  if step == 0 then throw .badValue
  let bound (v : Val) (absent low high : Int) : Run Int := do
    match v with
    | .none => return absent
    | v =>
      let i ← asInt v
      let i := if i < 0 then i + n else i
      return if i < low then low else if high < i then high else i
  if 0 < step then
    let a ← bound start 0 0 n
    let b ← bound stop n 0 n
    return (a, rangeCount a b step, step)
  else
    let a ← bound start (n - 1 : Int) (-1) (n - 1 : Int)
    let b ← bound stop (-1) (-1) (n - 1 : Int)
    return (a, rangeCount a b step, step)

/-- The items of a part. -/
def part {α : Type} (items : Array α) (start : Int) (count : Nat) (step : Int) : List α :=
  (List.range count).filterMap fun i : Nat => items[(start + step * (i : Int)).toNat]?

/-- A part of a sequence. -/
def slice (x start stop step : Val) : Run Val := do
  let (a, count, d) ← partBounds (← length x) start stop step
  match x with
  | .str s => return .str (Text.ofBytes (part (Text.bytes s).toArray a count d))
  | .bytes s => return .bytes (Text.ofBytes (part (Text.bytes s).toArray a count d))
  | .tuple items => return .tuple (part items.toArray a count d)
  | .list at_ => newList (part (← listAt at_) a count d)
  | .range first _ by_ =>
    return .range (first + by_ * a) (first + by_ * (a + d * (count : Int))) (by_ * d)
  | _ => throw .badType

end PageMacro.Script.Run
