import PageMacro.Failure
import PageMacro.Log
import PageMacro.Script.Eval
import PageMacro.Script.Grammar
import PageMacro.Verb.Basic

/-!
# Modules and expressions

A module is a script file that has been run: its functions can be called by name, and nothing it
made can change any more, so that a call depends on its arguments alone. An expression is evaluated
with the variables of a page. What a script prints becomes records.
-/

namespace PageMacro.Script

/-- A loaded script file. -/
structure Module where
  path : String
  /-- The variables of the file. -/
  env : Env
  /-- What the file has made. -/
  heap : Heap
  /-- How deep calls can go. -/
  depth : Nat

/-- The file cannot be run. -/
structure LoadError where
  path : String
  deriving BEq, DecidableEq, Repr

/-- The wording of a load error. -/
def LoadError.message (e : LoadError) : String :=
  "failed to load script " ++ e.path ++ ": " ++ Format.starlark.mark

/-- A bound on how deep the calls of a text go: each of its functions once, and between two of them
a function that is always there. -/
def depthOf (source : String) : Nat := 3 * (source.length + 2)

/-- The records of what was printed under a name. -/
def printedRecords (thread : String) (h : Heap) : List Record :=
  h.printed.reverse.map fun line => ⟨.info, line, [("thread", .text thread)]⟩

/-- Whether a value can be called. -/
def Val.callable : Val → Bool
  | .function .. => true
  | .builtin _ => true
  | .method .. => true
  | _ => false

namespace Module

/-- Runs a file; the records are those of what it printed, also if it fails. -/
def load (path source : String) : Except LoadError Module × List Record :=
  match Stmt.ofText? source with
  | none => (.error ⟨path⟩, [])
  | some stmts =>
    if !Stmt.wellScoped stmts then (.error ⟨path⟩, [])
    else
      let depth := depthOf source
      let run : Run Env := do
        let env ← Run.bindCells [] (Stmt.bindsAll stmts).eraseDups
        let _ ← Run.execAll (Run.callWithin depth) env stmts
        return env
      let printed := printedRecords ("load " ++ path)
      match run.run {} with
      | .ok env h => (.ok ⟨path, env, { h with frozen := h.objects.size }, depth⟩, printed h)
      | .error _ h => (.error ⟨path⟩, printed h)

/-- The value of a variable of the file. -/
def value? (m : Module) (name : String) : Option Val :=
  (m.env.lookup name).bind fun cell => (m.heap.cells[cell]?).join

/-- The function of a name. -/
def function? (m : Module) (name : String) : Option Val :=
  (m.value? name).filter Val.callable

/-- The names of the functions, sorted. -/
def names (m : Module) : List String :=
  Text.sortNames ((m.env.map (·.1)).filter fun name => (m.function? name).isSome)

/-- Calls a function with data; a call that was cancelled before it began fails. -/
def callData (m : Module) (f : Val) (args : List Data) (cancelled : Bool) :
    Except Fault Data × Heap :=
  let run : Run Data := do
    if cancelled then throw .cancelled
    let args ← Run.ofData.ofDatas args
    Run.whole (← Run.callWithin m.depth f args [])
  match run.run { m.heap with steps := 0, printed := [] } with
  | .ok d h => (.ok d, h)
  | .error e h => (.error e, h)

/-- Calls a function by name with pipeline values. -/
def call (m : Module) (name : String) (args : List Value) (cancelled : Bool := false) :
    CallOutcome :=
  match m.function? name with
  | none => { answer := .error (.badCall name) }
  | some f =>
    let (result, h) := m.callData f (args.map (Data.ofValue fun _ => "")) cancelled
    { answer := match result with
        | .ok d => .ok d.toValue
        | .error _ => .error (.badCall name)
      log := printedRecords name h }

/-- The functions of a module for the verb `call`. -/
def globals (m : Module) : Globals := ⟨m.names, fun name args => m.call name args⟩

end Module

/-- The value of an expression with variables; `label` names the elements. -/
def evaluate (label : NodeId → String) (expression : String) (vars : List (String × Value)) :
    Answer :=
  let failed : Answer := .error (.badExpression expression)
  match Expr.ofText? expression with
  | none => failed
  | some x =>
    let names := vars.map (·.1)
    let visible := names ++ universalNames
    if !x.scoped { here := visible, inner := visible } then failed
    else
      let run : Run Data := do
        let env ← Run.bindCells [] names
        for (name, v) in vars do Run.assign env name (← Run.ofData (Data.ofValue label v))
        Run.whole (← Run.eval (Run.callWithin (depthOf expression)) env x)
      match run.run {} with
      | .ok d _ => .ok d.toValue
      | .error _ _ => failed

end PageMacro.Script
