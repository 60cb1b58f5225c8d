import PageMacro.Script.Term

/-!
# Names of a script

Before a script runs, every name it uses must be bound somewhere it can see: by the script itself or
among the names that are always there. A function sees every name that its own body and the texts
around it bind anywhere; a statement outside functions sees only what is bound before it. A
comprehension binds its targets for itself. `Stmt.wellScoped` checks this, and that assignments have
something to assign to and that every `return`, `break` and `continue` has something to leave.
-/

namespace PageMacro.Script

/-- The functions that are always there. -/
def builtinNames : List String :=
  ["abs", "all", "any", "bool", "bytes", "chr", "dict", "dir", "enumerate", "fail", "float",
    "getattr", "hasattr", "hash", "int", "len", "list", "max", "min", "ord", "print", "range",
    "repr", "reversed", "set", "sorted", "str", "tuple", "type", "zip"]

/-- The names that are always there. -/
def universalNames : List String := ["None", "True", "False"] ++ builtinNames

mutual

/-- The names that an assignment to a target binds; nothing if it is no target. -/
def Expr.targets? : Expr → Option (List String)
  | .name s => some [s]
  | .tuple items => Expr.targetsOf? items
  | .list items => Expr.targetsOf? items
  | .index _ _ => some []
  | .field _ _ => some []
  | _ => none

/-- The names that several targets bind. -/
def Expr.targetsOf? : List Expr → Option (List String)
  | [] => some []
  | x :: rest => do return (← Expr.targets? x) ++ (← Expr.targetsOf? rest)

end

mutual

/-- The names that a statement binds, functions inside it apart. -/
def Stmt.binds : Stmt → List String
  | .assign target _ => target.targets?.getD []
  | .update _ target _ => target.targets?.getD []
  | .load names => names
  | .cond _ yes no => Stmt.bindsAll yes ++ Stmt.bindsAll no
  | .each target _ body => target.targets?.getD [] ++ Stmt.bindsAll body
  | .repeated _ body => Stmt.bindsAll body
  | .define name _ _ _ => [name]
  | _ => []

/-- The names that several statements bind. -/
def Stmt.bindsAll : List Stmt → List String
  | [] => []
  | s :: rest => Stmt.binds s ++ Stmt.bindsAll rest

end

/-- What is visible at a place of a script. -/
structure Scope where
  /-- The names that can be used right here. -/
  here : List String
  /-- The names that functions and comprehensions in this place can use. -/
  inner : List String
  inFunction : Bool := false
  inLoop : Bool := false
  /-- Whether the place is a statement of the text itself, in no block. -/
  outermost : Bool := false

namespace Scope

/-- Adds names that are bound from here on. -/
def bind (s : Scope) (names : List String) : Scope :=
  { s with here := names ++ s.here, inner := names ++ s.inner }

/-- The scope inside a comprehension, with more names. -/
def inside (s : Scope) (names : List String) : Scope :=
  { s with here := names ++ s.inner, inner := names ++ s.inner }

/-- The scope of a function that binds some names. -/
def ofFunction (s : Scope) (names : List String) : Scope :=
  { here := names ++ s.inner, inner := names ++ s.inner, inFunction := true }

end Scope

mutual

/-- Whether every name in an expression is visible. -/
def Expr.scoped (s : Scope) : Expr → Bool
  | .const _ => true
  | .name n => s.here.contains n
  | .list items => Expr.allScoped s items
  | .tuple items => Expr.allScoped s items
  | .dict entries => Entry.allScoped s entries
  | .listOf body clauses =>
    match Clause.bindings? s clauses with
    | some inner => Expr.scoped inner body
    | none => false
  | .dictOf key value clauses =>
    match Clause.bindings? s clauses with
    | some inner => Expr.scoped inner key && Expr.scoped inner value
    | none => false
  | .unary _ x => Expr.scoped s x
  | .binary _ x y => Expr.scoped s x && Expr.scoped s y
  | .both x y => Expr.scoped s x && Expr.scoped s y
  | .either x y => Expr.scoped s x && Expr.scoped s y
  | .cond c x y => Expr.scoped s c && Expr.scoped s x && Expr.scoped s y
  | .field x _ => Expr.scoped s x
  | .index x i => Expr.scoped s x && Expr.scoped s i
  | .slice x a b c =>
    Expr.scoped s x && Expr.scoped s a && Expr.scoped s b && Expr.scoped s c
  | .call f args => Expr.scoped s f && Arg.allScoped s args
  | .lambda _ params body =>
    Param.allScoped s params && Expr.scoped (s.ofFunction (params.filterMap Param.name?)) body

/-- Whether several expressions are well scoped. -/
def Expr.allScoped (s : Scope) : List Expr → Bool
  | [] => true
  | x :: rest => Expr.scoped s x && Expr.allScoped s rest

/-- Whether the entries of a dictionary are well scoped. -/
def Entry.allScoped (s : Scope) : List Entry → Bool
  | [] => true
  | .mk key value :: rest =>
    Expr.scoped s key && Expr.scoped s value && Entry.allScoped s rest

/-- Whether arguments are well scoped. -/
def Arg.allScoped (s : Scope) : List Arg → Bool
  | [] => true
  | .plain x :: rest => Expr.scoped s x && Arg.allScoped s rest
  | .named _ x :: rest => Expr.scoped s x && Arg.allScoped s rest
  | .items x :: rest => Expr.scoped s x && Arg.allScoped s rest
  | .entries x :: rest => Expr.scoped s x && Arg.allScoped s rest

/-- Whether the values of parameters that may be left out are well scoped. -/
def Param.allScoped (s : Scope) : List Param → Bool
  | [] => true
  | .optional _ x :: rest => Expr.scoped s x && Param.allScoped s rest
  | _ :: rest => Param.allScoped s rest

/-- The scope after the clauses of a comprehension, if they are well scoped. The first source is
still outside of it. -/
def Clause.bindings? (s : Scope) : List Clause → Option Scope
  | [] => some s
  | .each target source :: rest =>
    if Expr.scoped s source then
      match target.targets? with
      | some names =>
        let inner := s.inside names
        if Expr.scoped inner target then Clause.bindings? inner rest else none
      | none => none
    else none
  | .test x :: rest => if Expr.scoped s x then Clause.bindings? s rest else none

end

/-- Whether the parts of a target that are evaluated are well scoped. -/
def Expr.targetScoped (s : Scope) (target : Expr) : Bool :=
  match target.targets? with
  | some names => Expr.scoped (s.bind names) target
  | none => false

/-- Whether a target can be updated. -/
def Expr.updatable : Expr → Bool
  | .name _ => true
  | .index _ _ => true
  | .field _ _ => true
  | _ => false

mutual

/-- The scope after a statement, if it is well scoped. -/
def Stmt.scope? (s : Scope) : Stmt → Option Scope
  | .expr x => if Expr.scoped s x then some s else none
  | .assign target x =>
    if Expr.scoped s x && target.targetScoped s then some (s.bind (target.targets?.getD []))
    else none
  | .update _ target x =>
    if Expr.scoped s x && target.updatable && target.targetScoped s then
      some (s.bind (target.targets?.getD []))
    else none
  | .pass => some s
  | .leave => if s.inLoop then some s else none
  | .next => if s.inLoop then some s else none
  | .give x => if s.inFunction && Expr.scoped s x then some s else none
  | .load names => if s.outermost then some (s.bind names) else none
  | .cond c yes no => do
    if !Expr.scoped s c then failure
    let s' ← Stmt.scopeAll? { s with outermost := false } yes
    let s' ← Stmt.scopeAll? s' no
    return { s' with outermost := s.outermost }
  | .each target source body => do
    if !(Expr.scoped s source && target.targetScoped s) then failure
    let s' := s.bind (target.targets?.getD [])
    let s' ← Stmt.scopeAll? { s' with outermost := false, inLoop := true } body
    return { s' with outermost := s.outermost, inLoop := s.inLoop }
  | .repeated c body => do
    if !Expr.scoped s c then failure
    let s' ← Stmt.scopeAll? { s with outermost := false, inLoop := true } body
    return { s' with outermost := s.outermost, inLoop := s.inLoop }
  | .define name _ params body => do
    let s := s.bind [name]
    if !Param.allScoped s params then failure
    let _ ← Stmt.scopeAll?
      (s.ofFunction (params.filterMap Param.name? ++ Stmt.bindsAll body)) body
    return s

/-- The scope after several statements, if they are well scoped. -/
def Stmt.scopeAll? (s : Scope) : List Stmt → Option Scope
  | [] => some s
  | stmt :: rest => do Stmt.scopeAll? (← Stmt.scope? s stmt) rest

end

/-- Whether the statements of a text are well scoped. -/
def Stmt.wellScoped (stmts : List Stmt) : Bool :=
  let start : Scope :=
    { here := universalNames
      inner := Stmt.bindsAll stmts ++ universalNames
      outermost := true }
  (Stmt.scopeAll? start stmts).isSome

end PageMacro.Script
