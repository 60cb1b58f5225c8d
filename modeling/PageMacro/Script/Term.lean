import PageMacro.Script.Data

/-!
# Expressions and statements of a script
-/

namespace PageMacro.Script

/-- The unary operators. -/
inductive UnaryOp where
  | plus | minus | complement | not
  deriving BEq, DecidableEq, Repr

/-- The binary operators whose operands are both evaluated. -/
inductive BinaryOp where
  | add | sub | mul | div | floorDiv | mod | bitOr | bitXor | bitAnd | shiftLeft | shiftRight
  | eq | ne | lt | le | gt | ge | isIn | notIn
  deriving BEq, DecidableEq, Repr

mutual

/-- An expression. -/
inductive Expr where
  | const (d : Data)
  | name (s : String)
  | list (items : List Expr)
  | tuple (items : List Expr)
  | dict (entries : List Entry)
  /-- The list of the values of `body` for every way through the clauses. -/
  | listOf (body : Expr) (clauses : List Clause)
  /-- The dictionary of the keys and values for every way through the clauses. -/
  | dictOf (key value : Expr) (clauses : List Clause)
  | unary (op : UnaryOp) (x : Expr)
  | binary (op : BinaryOp) (x y : Expr)
  | both (x y : Expr)
  | either (x y : Expr)
  | cond (test yes no : Expr)
  | field (x : Expr) (name : String)
  | index (x i : Expr)
  /-- A part of a sequence; a bound left out is the constant for nothing. -/
  | slice (x start stop step : Expr)
  | call (f : Expr) (args : List Arg)
  /-- A function without a name; `id` tells the functions of a text apart. -/
  | lambda (id : Nat) (params : List Param) (body : Expr)

/-- A key and a value of a dictionary. -/
inductive Entry where
  | mk (key value : Expr)

/-- An argument of a call. -/
inductive Arg where
  | plain (x : Expr)
  | named (name : String) (x : Expr)
  /-- All items of a sequence. -/
  | items (x : Expr)
  /-- All entries of a dictionary, by name. -/
  | entries (x : Expr)

/-- A clause of a comprehension. -/
inductive Clause where
  | each (target source : Expr)
  | test (x : Expr)

/-- A parameter of a function. -/
inductive Param where
  | required (name : String)
  | optional (name : String) (x : Expr)
  /-- The remaining positional arguments; without a name there may be none. -/
  | items (name : Option String)
  /-- The remaining named arguments. -/
  | entries (name : String)

end

instance : Inhabited Expr := ⟨.const .none⟩

/-- A statement. -/
inductive Stmt where
  | expr (x : Expr)
  | assign (target x : Expr)
  | update (op : BinaryOp) (target x : Expr)
  | pass
  | leave
  | next
  | give (x : Expr)
  /-- Takes names from another file. -/
  | load (names : List String)
  | cond (test : Expr) (yes no : List Stmt)
  | each (target source : Expr) (body : List Stmt)
  | repeated (test : Expr) (body : List Stmt)
  | define (name : String) (id : Nat) (params : List Param) (body : List Stmt)

/-- The name of a parameter. -/
def Param.name? : Param → Option String
  | .required name => some name
  | .optional name _ => some name
  | .items name => name
  | .entries name => some name

end PageMacro.Script
