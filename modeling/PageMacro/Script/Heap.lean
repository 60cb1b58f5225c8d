import PageMacro.Script.Scope

/-!
# The state of a running script

Lists, dictionaries and sets are shared: a value holds the address of the object, and the object
lives in the heap. Variables live in cells, so that a function can hold on to those around it. What
was there when a file had been loaded is frozen and cannot change any more.
-/

namespace PageMacro.Script

/-- Why a script fails. -/
inductive Fault where
  | unbound (name : String)
  | badType
  | badArguments
  | badIndex
  | missingKey
  | badValue
  | divisionByZero
  /-- The object is frozen or being iterated over. -/
  | immutable
  /-- A function was called while it was running. -/
  | recursion
  | tooManySteps
  | cancelled
  /-- The script gave up. -/
  | failed
  deriving BEq, DecidableEq, Repr

/-- A value of a running script. -/
inductive Val where
  | none
  | bool (b : Bool)
  | int (n : Int)
  | float (x : Float)
  | str (s : String)
  | bytes (s : String)
  | tuple (items : List Val)
  | list (address : Nat)
  | dict (address : Nat)
  | set (address : Nat)
  | range (start stop step : Int)
  /-- A sequence seen through something else, such as the bytes of a text. -/
  | view (type text : String) (items : List Val)
  | function (address : Nat) (name : String)
  | builtin (name : String)
  | method (self : Val) (name : String)
  deriving Inhabited

/-- What the heap holds at an address, and how many loops are going over it. -/
inductive Object where
  | list (items : Array Val) (loops : Nat)
  | dict (entries : Array (Val × Val)) (loops : Nat)
  | set (items : Array Val) (loops : Nat)
  deriving Inhabited

/-- The variables that a place sees, each with its cell. -/
abbrev Env := List (String × Nat)

/-- A function made by a script. -/
structure Closure where
  name : String
  /-- Which function of the text it is. -/
  id : Nat
  params : List Param
  /-- The values of parameters that may be left out. -/
  defaults : List (String × Val)
  body : List Stmt
  env : Env

/-- The state of a running script. -/
structure Heap where
  objects : Array Object := #[]
  cells : Array (Option Val) := #[]
  functions : Array Closure := #[]
  /-- Objects at addresses below this one cannot change. -/
  frozen : Nat := 0
  steps : Nat := 0
  /-- The functions being called, by number. -/
  active : List Nat := []
  /-- The lines printed, the last one first. -/
  printed : List String := []

/-- A computation of a script. -/
abbrev Run := EStateM Fault Heap

/-- How many steps a run may take. -/
def maxSteps : Nat := 10000000

namespace Run

/-- Counts a step. -/
@[inline] def tick : Run Unit := do
  modify fun h => { h with steps := h.steps + 1 }
  if (← get).steps ≥ maxSteps then throw .tooManySteps

/-! ## Cells -/

/-- A new variable without a value. -/
def newCell : Run Nat :=
  modifyGet fun h => (h.cells.size, { h with cells := h.cells.push none })

/-- New variables in front of those of an environment. -/
def bindCells (env : Env) : List String → Run Env
  | [] => return env
  | name :: rest => do return (name, ← newCell) :: (← bindCells env rest)

/-- Gives a variable a value. -/
def setCell (cell : Nat) (v : Val) : Run Unit :=
  modify fun h => { h with cells := h.cells.set! cell (some v) }

/-- The value of a name: of the variable, or of a name that is always there. -/
def lookup (env : Env) (name : String) : Run Val := do
  let h ← get
  match (env.lookup name).bind fun cell => (h.cells[cell]?).join with
  | some v => return v
  | none =>
    match name with
    | "None" => return .none
    | "True" => return .bool true
    | "False" => return .bool false
    | _ => if builtinNames.contains name then return .builtin name else throw (.unbound name)

/-- Assigns to a name. -/
def assign (env : Env) (name : String) (v : Val) : Run Unit := do
  match env.lookup name with
  | some cell => setCell cell v
  | none => throw (.unbound name)

/-! ## Objects -/

/-- Puts an object into the heap. -/
def alloc (o : Object) : Run Nat :=
  modifyGet fun h => (h.objects.size, { h with objects := h.objects.push o })

/-- A new list. -/
def newList (items : List Val) : Run Val := return .list (← alloc (.list items.toArray 0))

/-- The items of the list at an address. -/
def listAt (a : Nat) : Run (Array Val) := do
  match (← get).objects[a]? with
  | some (.list items _) => return items
  | _ => throw .badType

/-- The entries of the dictionary at an address. -/
def dictAt (a : Nat) : Run (Array (Val × Val)) := do
  match (← get).objects[a]? with
  | some (.dict entries _) => return entries
  | _ => throw .badType

/-- The items of the set at an address. -/
def setAt (a : Nat) : Run (Array Val) := do
  match (← get).objects[a]? with
  | some (.set items _) => return items
  | _ => throw .badType

/-- How many loops are going over an object. -/
def Object.loops : Object → Nat
  | .list _ n => n
  | .dict _ n => n
  | .set _ n => n

/-- The object may change: it is neither frozen nor being iterated over. -/
def needMutable (a : Nat) : Run Unit := do
  let h ← get
  if a < h.frozen || (h.objects[a]?.map Object.loops).getD 0 > 0 then throw .immutable

/-- Replaces what a list holds. -/
def putList (a : Nat) (items : Array Val) : Run Unit := do
  needMutable a
  modify fun h => { h with objects := h.objects.set! a (.list items 0) }

/-- Adds an item to the end of a list. -/
def push (a : Nat) (v : Val) : Run Unit := do
  needMutable a
  modify fun h => { h with
    objects := h.objects.modify a fun
      | .list items n => .list (items.push v) n
      | o => o }

/-- Replaces what a dictionary holds. -/
def putDict (a : Nat) (entries : Array (Val × Val)) : Run Unit := do
  needMutable a
  modify fun h => { h with objects := h.objects.set! a (.dict entries 0) }

/-- Replaces what a set holds. -/
def putSet (a : Nat) (items : Array Val) : Run Unit := do
  needMutable a
  modify fun h => { h with objects := h.objects.set! a (.set items 0) }

/-- Changes how many loops are going over an object. -/
def shiftLoops (a : Nat) (f : Nat → Nat) : Run Unit :=
  modify fun h => { h with
    objects := h.objects.modify a fun
      | .list items n => .list items (f n)
      | .dict entries n => .dict entries (f n)
      | .set items n => .set items (f n) }

end Run

/-! ## Whole values -/

/-- How many numbers a range has. -/
def rangeCount (start stop step : Int) : Nat :=
  if 0 < step then if start < stop then ((stop - start - 1) / step + 1).toNat else 0
  else if step < 0 then if stop < start then ((start - stop - 1) / (-step) + 1).toNat else 0
  else 0

/-- The text of a range: what has its usual value is left out. -/
def rangeText (start stop step : Int) : String :=
  let shown :=
    if step != 1 then [start, stop, step] else if start != 0 then [start, stop] else [stop]
  "range(" ++ Text.join ", " (shown.map toString) ++ ")"

/-- The name of a value's type. -/
def Val.type : Val → String
  | none => "NoneType"
  | bool _ => "bool"
  | int _ => "int"
  | float _ => "float"
  | str _ => "string"
  | bytes _ => "bytes"
  | tuple _ => "tuple"
  | list _ => "list"
  | dict _ => "dict"
  | set _ => "set"
  | range .. => "range"
  | view type _ _ => type
  | function .. => "function"
  | builtin _ => "builtin_function_or_method"
  | method .. => "builtin_function_or_method"

/-- The text of a value that holds no others. -/
def Val.plainText : Val → String
  | range start stop step => rangeText start stop step
  | view _ text _ => text
  | function _ name => "<function " ++ name ++ ">"
  | builtin name => "<built-in function " ++ name ++ ">"
  | method self name => "<built-in method " ++ name ++ " of " ++ self.type ++ " value>"
  | _ => ""

/-- The items of the list at an address; none if there is no list. -/
def Heap.listItems (h : Heap) (a : Nat) : List Val :=
  match h.objects[a]? with
  | some (.list items _) => items.toList
  | _ => []

/-- The entries of the dictionary at an address; none if there is no dictionary. -/
def Heap.dictEntries (h : Heap) (a : Nat) : List (Val × Val) :=
  match h.objects[a]? with
  | some (.dict entries _) => entries.toList
  | _ => []

/-- The items of the set at an address; none if there is no set. -/
def Heap.setItems (h : Heap) (a : Nat) : List Val :=
  match h.objects[a]? with
  | some (.set items _) => items.toList
  | _ => []

mutual

/-- A value with everything it holds. At most `n` objects are entered within each other, and one
that holds itself is shown by dots. -/
def Heap.whole (h : Heap) : Nat → List Nat → Val → Data
  | _, _, .none => .none
  | _, _, .bool b => .bool b
  | _, _, .int k => .int k
  | _, _, .float x => .float x
  | _, _, .str s => .str s
  | _, _, .bytes s => .bytes s
  | n, path, .tuple items => .tuple (h.wholes n path items)
  | n + 1, path, .list a =>
    if path.contains a then .other "list" "[...]" a
    else .list (h.wholes n (a :: path) (h.listItems a))
  | n + 1, path, .dict a =>
    if path.contains a then .other "dict" "\x7b...\x7d" a
    else
      let entries := h.dictEntries a
      .dict ((h.wholes n (a :: path) (entries.map (·.1))).zip
        (h.wholes n (a :: path) (entries.map (·.2))))
  | n + 1, path, .set a => .set (h.wholes n (a :: path) (h.setItems a))
  | _, _, v@(.function a _) => .other v.type v.plainText a
  | _, _, v => .other v.type v.plainText 0
termination_by n _ v => (n, sizeOf v)

/-- Several values with everything they hold. -/
def Heap.wholes (h : Heap) : Nat → List Nat → List Val → List Data
  | _, _, [] => []
  | n, path, v :: rest => h.whole n path v :: h.wholes n path rest
termination_by n _ vs => (n, sizeOf vs)

end

namespace Run

/-- A value with everything it holds. -/
def whole (v : Val) : Run Data := return (← get).whole ((← get).objects.size + 1) [] v

/-- Whether two values are equal. -/
def same : Val → Val → Run Bool
  | .int a, .int b => return a == b
  | .str a, .str b => return a == b
  | a, b => return (← whole a).same (← whole b)

/-- How two values compare, if they do. -/
def order (a b : Val) : Run Ordering := do
  match (← whole a).order? (← whole b) with
  | some o => return o
  | none => throw .badType

/-- The text of a value as a script shows it. -/
def repr (v : Val) : Run String := return (← whole v).repr

/-- The text of a value on its own. -/
def text (v : Val) : Run String := return (← whole v).text

/-- The value must be able to be a key. -/
def needKey (v : Val) : Run Unit := do
  if !(← whole v).hashable then throw .badType

/-- Where a key is among entries. -/
def findKey (entries : Array (Val × Val)) (key : Val) : Run (Option Nat) := do
  let k ← whole key
  let h ← get
  return entries.findIdx? fun e => k.same (h.whole (h.objects.size + 1) [] e.1)

/-- Where a value is among others. -/
def findItem (items : Array Val) (v : Val) : Run (Option Nat) := do
  let d ← whole v
  let h ← get
  return items.findIdx? fun e => d.same (h.whole (h.objects.size + 1) [] e)

/-- Puts an entry into a dictionary: a key that is there keeps its place. -/
def putEntry (a : Nat) (key value : Val) : Run Unit := do
  needMutable a
  needKey key
  let entries ← dictAt a
  match ← findKey entries key with
  | some i => putDict a (entries.modify i fun e => (e.1, value))
  | none => putDict a (entries.push (key, value))

/-- Values without repetition, the first of each kept. -/
def distinct : List Val → Array Val → Run (Array Val)
  | [], kept => return kept
  | v :: rest, kept => do
    needKey v
    distinct rest (if (← findItem kept v).isSome then kept else kept.push v)

/-- A new set. -/
def newSet (items : List Val) : Run Val := return .set (← alloc (.set (← distinct items #[]) 0))

/-- A new dictionary; of two entries with one key the later gives the value. -/
def newDict (entries : List (Val × Val)) : Run Val := do
  let a ← alloc (.dict #[] 0)
  for (key, value) in entries do putEntry a key value
  return .dict a

/-- Brings data into the heap. -/
def ofData : Data → Run Val
  | .none => return .none
  | .bool b => return .bool b
  | .int n => return .int n
  | .float x => return .float x
  | .str s => return .str s
  | .bytes s => return .bytes s
  | .list items => do newList (← ofDatas items)
  | .tuple items => return .tuple (← ofDatas items)
  | .dict entries => do newDict (← ofEntries entries)
  | .set items => do newSet (← ofDatas items)
  | .other _ text _ => return .str text
where
  /-- Brings several values into the heap. -/
  ofDatas : List Data → Run (List Val)
    | [] => return []
    | d :: rest => return (← ofData d) :: (← ofDatas rest)
  /-- Brings the entries of a dictionary into the heap. -/
  ofEntries : List (Data × Data) → Run (List (Val × Val))
    | [] => return []
    | (key, value) :: rest => return ((← ofData key), (← ofData value)) :: (← ofEntries rest)

/-- Whether a value counts as true. -/
def truth : Val → Run Bool
  | .none => return false
  | .bool b => return b
  | .int n => return n != 0
  | .float x => return x != 0.0
  | .str s => return !s.isEmpty
  | .bytes s => return !s.isEmpty
  | .tuple items => return !items.isEmpty
  | .list a => return !(← listAt a).isEmpty
  | .dict a => return !(← dictAt a).isEmpty
  | .set a => return !(← setAt a).isEmpty
  | .range a b c => return rangeCount a b c != 0
  | .view _ _ items => return !items.isEmpty
  | _ => return true

/-- The numbers of a range. -/
def rangeItems (start step : Int) (count : Nat) : List Val :=
  (List.range count).map fun i : Nat => .int (start + step * (i : Int))

/-- The items of a value that can be iterated over. -/
def items : Val → Run (List Val)
  | .tuple items => return items
  | .list a => return (← listAt a).toList
  | .dict a => return (← dictAt a).toList.map (·.1)
  | .set a => return (← setAt a).toList
  | .range start stop step => return rangeItems start step (rangeCount start stop step)
  | .view _ _ items => return items
  | _ => throw .badType

end Run

end PageMacro.Script
