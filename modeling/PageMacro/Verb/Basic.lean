import PageMacro.Failure
import PageMacro.Log
import PageMacro.Store

/-!
# Verbs

A verb is a named operation that a segment calls. It sees its arguments and the variables of the
active scope, nothing else of the interpreter's state: what it may change is its `Desk`, the
variables and the log. A verb completes at once, or it asks for a job and says how to go on when the
job is done. The verb `call`, which calls other verbs, is the one verb that sees the registry.
-/

namespace PageMacro

/-- What a verb works on: the variables of the active scope and the records it writes. -/
structure Desk where
  vars : Store
  log : List Record := []

/-- What came of a verb, a job or a continuation. -/
abbrev Answer := Except Failure Value

/-- A function call of the page's module: what it gives and the records it writes. -/
structure CallOutcome where
  answer : Answer
  log : List Record := []

/-- Work that goes on while an execution waits. -/
inductive Job where
  /-- Waits for a number of nanoseconds. -/
  | sleep (nanoseconds : Int)
  /-- Makes a request. -/
  | fetch (request : Fetch.Request)
  /-- Calls a function of the page's module. -/
  | call (run : Unit → CallOutcome)
  /-- Waits for the host to settle it, under a name of the host's choice. -/
  | external (name : String)

/-- How a verb completes. -/
inductive Outcome where
  | value (v : Value)
  | failure (f : Failure)
  /-- The verb broke down. -/
  | crash (text : String)
  | pending (job : Job)

/-- What a verb hands back: the outcome, what to do with a value, and how to recover from a failure
of the verb, its job or its continuation. -/
structure Result where
  outcome : Outcome
  onValue : Option (Value → StateM Desk Answer) := none
  onFailure : Option (Failure → StateM Desk Answer) := none

namespace Result

/-- Completes at once with a value. -/
def done (v : Value) : Result := { outcome := .value v }

/-- Fails at once. -/
def fail (f : Failure) : Result := { outcome := .failure f }

/-- Waits for a job. -/
def await (job : Job) : Result := { outcome := .pending job }

/-- Applies the continuation to a value and the recovery to a failure. -/
def settle (r : Result) (answer : Answer) : StateM Desk Answer := do
  let answer ←
    match answer, r.onValue with
    | .ok v, some next => next v
    | answer, _ => pure answer
  match answer, r.onFailure with
  | .error f, some recover => recover f
  | answer, _ => pure answer

end Result

/-- Everything a verb sees for one call. -/
structure Invocation where
  name : String
  /-- The arguments, references replaced by their values. -/
  args : List Value
  /-- The parameters as written. -/
  raw : List String
  scopeName : String
  scopeElement : NodeId
  trigger : NodeId
  /-- How elements are named at the moment of the call. -/
  label : NodeId → String
  /-- The attributes that every record of the call starts with. -/
  logAttrs : LogAttrs := []

namespace Invocation

/-- The argument at a position; undefined if there is none. -/
def arg (inv : Invocation) (i : Nat) : Value := (inv.args[i]?).getD .undefined

/-- Writes a record. -/
def report (inv : Invocation) (level : Level) (message : String) (attrs : LogAttrs) :
    StateM Desk Unit :=
  modify fun d => { d with log := d.log ++ [⟨level, message, inv.logAttrs ++ attrs⟩] }

end Invocation

/-- A verb. -/
inductive Verb where
  /-- An ordinary verb. -/
  | plain (run : Invocation → StateM Desk Result)
  /-- The verb that calls other verbs and the functions of the page's module. -/
  | call

/-- The verbs of a page, by name. -/
abbrev Registry := List (String × Verb)

/-- The functions of the page's module that `call` can reach. -/
structure Globals where
  functions : List String
  call : String → List Value → CallOutcome

namespace Verb

/-- A value for a function of the page's module: elements go by their name. -/
def plainArg (label : NodeId → String) : Value → Value
  | .object (.element node) => .string (label node)
  | v => v

/-- The arguments that `call` passes on: the word `this` is the triggering element. -/
def callArgs (inv : Invocation) : List Value :=
  ((inv.raw.zip inv.args).drop 1).map fun (raw, arg) =>
    if raw == "this" then .object (.element inv.trigger) else arg

/-- Turns a breakdown into a failure. -/
def Outcome.recovered : Outcome → Outcome
  | .crash text => .failure (.crashed text)
  | outcome => outcome

/-- Reports a failed call and goes on without a value. -/
def swallow (inv : Invocation) (function : String) (f : Failure) : StateM Desk Answer := do
  inv.report .error "call failed" [("function", .text function), ("error", .text f.message)]
  return .ok .undefined

/-- Calls a verb. A call through `call` has one argument less, so `depth` arguments allow that many
calls through each other. -/
def invokeWithin (verbs : Registry) (globals : Option Globals) :
    Nat → Verb → Invocation → StateM Desk Result
  | _, .plain run, inv => do
    let r ← run inv
    return { r with outcome := Outcome.recovered r.outcome }
  | 0, .call, _ => return .fail (.missingArgument "function name")
  | depth + 1, .call, inv => do
    match inv.args with
    | [] => return .fail (.missingArgument "function name")
    | target :: _ =>
      let name := target.text inv.label
      let args := callArgs inv
      match verbs.lookup name with
      | some verb =>
        let inner := { inv with
          name, args
          raw := inv.raw.drop 1
          logAttrs := inv.logAttrs ++ [("function", .text name)] }
        let r ← invokeWithin verbs globals depth verb inner
        return { r with onFailure := some (swallow inv name) }
      | none =>
        match globals with
        | some g =>
          if g.functions.contains name then
            let plain := args.map (plainArg inv.label)
            return { outcome := .pending (.call fun _ => g.call name plain)
                     onFailure := some (swallow inv name) }
          else missing inv name
        | none => missing inv name
where
  /-- There is nothing of that name to call. -/
  missing (inv : Invocation) (name : String) : StateM Desk Result := do
    inv.report .error "call target not found" [("function", .text name)]
    return .done .undefined

/-- Calls a verb. -/
def invoke (verbs : Registry) (globals : Option Globals) (verb : Verb) (inv : Invocation) :
    StateM Desk Result :=
  invokeWithin verbs globals (inv.args.length + 1) verb inv

end Verb

end PageMacro
