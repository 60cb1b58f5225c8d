import PageMacro.Script.Builtin

/-!
# Running a script

Expressions and statements are evaluated along their structure. A call goes through `Call`, which
the evaluator is given; `callWithin` ties the two together and counts how deep calls go. No function
may be called while it is running, so calls cannot go deeper than there are functions.
-/

namespace PageMacro.Script.Run

/-- The way to call a value with plain and named arguments. -/
abbrev Call := Val → List Val → List (String × Val) → Run Val

/-- How a statement ends. -/
inductive Flow where
  | onward
  | leave
  | next
  | give (v : Val)

/-- Runs the body as long as it asks for more, at most `n` times. -/
def whileTrue (body : Run (Option Flow)) : Nat → Run Flow
  | 0 => throw .tooManySteps
  | n + 1 => do
    match ← body with
    | none => return .onward
    | some .leave => return .onward
    | some (.give v) => return .give v
    | some _ => whileTrue body n

/-- Runs the body for each value until one asks to stop. -/
def eachOf (body : Val → Run Flow) : List Val → Run Flow
  | [] => return .onward
  | v :: rest => do
    match ← body v with
    | .leave => return .onward
    | .give v => return .give v
    | _ => eachOf body rest

/-- Runs the body for `n` numbers that lie `step` apart. -/
def eachFrom (body : Val → Run Flow) (step : Int) : Nat → Int → Run Flow
  | 0, _ => return .onward
  | n + 1, k => do
    match ← body (.int k) with
    | .leave => return .onward
    | .give v => return .give v
    | _ => eachFrom body step n (k + step)

/-- Runs the body for each item of a value; an object cannot change meanwhile. -/
def eachIn (source : Val) (body : Val → Run Flow) : Run Flow := do
  let guarded (a : Nat) : Run Flow := do
    let vs ← items source
    shiftLoops a (· + 1)
    let flow ← eachOf body vs
    shiftLoops a (· - 1)
    return flow
  match source with
  | .range start stop step => eachFrom body step (rangeCount start stop step) start
  | .list a => guarded a
  | .dict a => guarded a
  | .set a => guarded a
  | v => do eachOf body (← items v)

/-- The names that a target binds. -/
def targetNames (target : Expr) : List String := (target.targets?.getD []).eraseDups

/-- Makes a function. -/
def closure (c : Closure) : Run Val :=
  modifyGet fun h =>
    (.function h.functions.size c.name, { h with functions := h.functions.push c })

mutual

/-- The value of an expression. -/
def eval (call : Call) (env : Env) : Expr → Run Val
  | .const d => do tick; ofData d
  | .name s => do tick; lookup env s
  | .list items => do newList (← evalAll call env items)
  | .tuple items => return .tuple (← evalAll call env items)
  | .dict entries => do
    let a ← alloc (.dict #[] 0)
    for (key, value) in ← evalEntries call env entries do
      needKey key
      if (← findKey (← dictAt a) key).isSome then throw .badValue
      putEntry a key value
    return .dict a
  | .listOf body clauses => do
    let a ← alloc (.list #[] 0)
    evalClauses call env (fun env => do push a (← eval call env body)) clauses
    return .list a
  | .dictOf key value clauses => do
    let a ← alloc (.dict #[] 0)
    evalClauses call env (fun env => do
      let k ← eval call env key
      putEntry a k (← eval call env value)) clauses
    return .dict a
  | .unary op x => do
    tick
    unary op (← eval call env x)
  | .binary op x y => do
    tick
    let a ← eval call env x
    binary op a (← eval call env y)
  | .both x y => do
    let v ← eval call env x
    if ← truth v then eval call env y else return v
  | .either x y => do
    let v ← eval call env x
    if ← truth v then return v else eval call env y
  | .cond c x y => do
    if ← truth (← eval call env c) then eval call env x else eval call env y
  | .field x name => do
    match field? (← eval call env x) name with
    | some v => return v
    | none => throw .badType
  | .index x i => do
    let v ← eval call env x
    index v (← eval call env i)
  | .slice x start stop step => do
    let v ← eval call env x
    let a ← eval call env start
    let b ← eval call env stop
    slice v a b (← eval call env step)
  | .call f args => do
    tick
    let v ← eval call env f
    let (plain, named) ← evalArgs call env args
    call v plain named
  | .lambda id params body => do
    let defaults ← evalDefaults call env params
    closure { name := "lambda", id, params, defaults, body := [.give body], env }

/-- The values of several expressions. -/
def evalAll (call : Call) (env : Env) : List Expr → Run (List Val)
  | [] => return []
  | x :: rest => do
    let v ← eval call env x
    return v :: (← evalAll call env rest)

/-- The keys and values of a dictionary. -/
def evalEntries (call : Call) (env : Env) : List Entry → Run (List (Val × Val))
  | [] => return []
  | .mk key value :: rest => do
    let k ← eval call env key
    let v ← eval call env value
    return (k, v) :: (← evalEntries call env rest)

/-- The plain and the named arguments of a call. -/
def evalArgs (call : Call) (env : Env) : List Arg → Run (List Val × List (String × Val))
  | [] => return ([], [])
  | .plain x :: rest => do
    let v ← eval call env x
    let (plain, named) ← evalArgs call env rest
    return (v :: plain, named)
  | .named name x :: rest => do
    let v ← eval call env x
    let (plain, named) ← evalArgs call env rest
    return (plain, (name, v) :: named)
  | .items x :: rest => do
    let vs ← items (← eval call env x)
    let (plain, named) ← evalArgs call env rest
    return (vs ++ plain, named)
  | .entries x :: rest => do
    match ← eval call env x with
    | .dict a =>
      let given ← (← dictAt a).toList.mapM fun (key, value) => do return (← asText key, value)
      let (plain, named) ← evalArgs call env rest
      return (plain, given ++ named)
    | _ => throw .badType

/-- The values of the parameters that may be left out. -/
def evalDefaults (call : Call) (env : Env) : List Param → Run (List (String × Val))
  | [] => return []
  | .optional name x :: rest => do
    let v ← eval call env x
    return (name, v) :: (← evalDefaults call env rest)
  | _ :: rest => evalDefaults call env rest

/-- Goes every way through the clauses of a comprehension. -/
def evalClauses (call : Call) (env : Env) (found : Env → Run Unit) : List Clause → Run Unit
  | [] => found env
  | .each target source :: rest => do
    let xs ← eval call env source
    let env ← bindCells env (targetNames target)
    let _ ← eachIn xs fun v => do
      tick
      assignTo call env v target
      evalClauses call env found rest
      return .onward
  | .test x :: rest => do
    if ← truth (← eval call env x) then evalClauses call env found rest

/-- Assigns a value to a target. -/
def assignTo (call : Call) (env : Env) (v : Val) : Expr → Run Unit
  | .name s => assign env s v
  | .tuple targets => do assignAll call env (← items v) targets
  | .list targets => do assignAll call env (← items v) targets
  | .index x i => do
    let a ← eval call env x
    setIndex a (← eval call env i) v
  | _ => throw .badType

/-- Assigns as many values to as many targets. -/
def assignAll (call : Call) (env : Env) : List Val → List Expr → Run Unit
  | [], [] => return
  | v :: vs, target :: rest => do
    assignTo call env v target
    assignAll call env vs rest
  | _, _ => throw .badValue

end

/-- The result of updating a value: lists and dictionaries are changed in place. -/
def updated (op : BinaryOp) (x y : Val) : Run Val := do
  match op, x, y with
  | .add, .list a, y =>
    let more ← items y
    putList a ((← listAt a) ++ more.toArray)
    return x
  | .bitOr, .dict a, .dict b =>
    for (key, value) in ← dictAt b do putEntry a key value
    return x
  | op, x, y => binary op x y

mutual

/-- Runs a statement. -/
def exec (call : Call) (env : Env) : Stmt → Run Flow
  | .expr x => do
    let _ ← eval call env x
    return .onward
  | .assign target x => do
    tick
    assignTo call env (← eval call env x) target
    return .onward
  | .update op target x => do
    tick
    match target with
    | .name s =>
      let old ← lookup env s
      assign env s (← updated op old (← eval call env x))
      return .onward
    | .index y i =>
      let a ← eval call env y
      let k ← eval call env i
      let old ← index a k
      setIndex a k (← updated op old (← eval call env x))
      return .onward
    | _ => throw .badType
  | .pass => do tick; return .onward
  | .leave => do tick; return .leave
  | .next => do tick; return .next
  | .give x => return .give (← eval call env x)
  | .load _ => throw .failed
  | .cond c yes no => do
    if ← truth (← eval call env c) then execAll call env yes else execAll call env no
  | .each target source body => do
    let xs ← eval call env source
    eachIn xs fun v => do
      tick
      assignTo call env v target
      execAll call env body
  | .repeated c body =>
    whileTrue (do
      tick
      if ← truth (← eval call env c) then return some (← execAll call env body)
      else return none) maxSteps
  | .define name id params body => do
    let defaults ← evalDefaults call env params
    let f ← closure { name, id, params, defaults, body, env }
    assign env name f
    return .onward

/-- Runs statements in order. -/
def execAll (call : Call) (env : Env) : List Stmt → Run Flow
  | [] => return .onward
  | s :: rest => do
    match ← exec call env s with
    | .onward => execAll call env rest
    | flow => return flow

end

/-! ## Calls -/

/-- The parameters that are filled by position. -/
def positionalNames : List Param → List String
  | .required name :: rest => name :: positionalNames rest
  | .optional name _ :: rest => name :: positionalNames rest
  | _ => []

/-- The parameters that take one argument. -/
def singleNames (params : List Param) : List String :=
  params.filterMap fun
    | .required name => some name
    | .optional name _ => some name
    | _ => none

/-- The name of the parameter for the remaining positional arguments. -/
def itemsName? (params : List Param) : Option String :=
  params.findSome? fun
    | .items name => name
    | _ => none

/-- The name of the parameter for the remaining named arguments. -/
def entriesName? (params : List Param) : Option String :=
  params.findSome? fun
    | .entries name => some name
    | _ => none

/-- The values of a function's parameters for a call. -/
def bindParams (c : Closure) (args : List Val) (named : List (String × Val)) :
    Run (List (String × Val)) := do
  let slots := positionalNames c.params
  let given := slots.zip args
  let extra := args.drop slots.length
  let singles := singleNames c.params
  let names := named.map (·.1)
  if names.any (given.map (·.1)).contains || names.eraseDups.length != names.length then
    throw .badArguments
  let (known, unknown) := named.partition fun (name, _) => singles.contains name
  let rest ← match itemsName? c.params with
    | some name => pure [(name, Val.tuple extra)]
    | none => if extra.isEmpty then pure [] else throw .badArguments
  let table ← match entriesName? c.params with
    | some name => pure [(name, ← newDict (unknown.map fun (k, v) => (.str k, v)))]
    | none => if unknown.isEmpty then pure [] else throw .badArguments
  let single ← singles.mapM fun name => do
    match ((given ++ known).lookup name).orElse fun _ => c.defaults.lookup name with
    | some v => return (name, v)
    | none => throw .badArguments
  return single ++ rest ++ table

/-- Calls a function made by a script, with the way to call others. -/
def callClosure (call : Call) (a : Nat) (args : List Val) (named : List (String × Val)) :
    Run Val := do
  match (← get).functions[a]? with
  | none => throw .badType
  | some c =>
    if (← get).active.contains c.id then throw .recursion
    let values ← bindParams c args named
    let locals := (values.map (·.1) ++ Stmt.bindsAll c.body).eraseDups
    let env ← bindCells c.env locals
    for (name, v) in values do assign env name v
    modify fun h => { h with active := c.id :: h.active }
    let flow ← execAll call env c.body
    modify fun h => { h with active := h.active.tail }
    match flow with
    | .give v => return v
    | _ => return .none

/-- Calls a value, with calls at most `depth` deep. -/
def callWithin : Nat → Call
  | 0, _, _, _ => throw .recursion
  | depth + 1, f, args, named => do
    tick
    match f with
    | .function a _ => callClosure (callWithin depth) a args named
    | .builtin name => builtin (fun f args => callWithin depth f args []) name args named
    | .method self name => method self name args named
    | _ => throw .badType

end PageMacro.Script.Run
