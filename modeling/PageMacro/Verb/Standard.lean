import PageMacro.Json.Read
import PageMacro.Segment.Escape
import PageMacro.Text.Case
import PageMacro.Verb.Basic
import PageMacro.Word

/-!
# The standard verbs

Twelve verbs: numbers (`inc`, `dec`, `clamp`), flags (`toggle`), values (`exc`, `eval`, `secret`),
the network (`ajax`, `vars`), and `log`, `sleep` and `call`. A verb checks all its arguments before
it changes a variable.
-/

namespace PageMacro.Verb

/-- What the verbs reach outside the interpreter. -/
structure Deps where
  /-- Whether requests can be made. -/
  canFetch : Bool := false
  /-- Reads a secret by namespace and key. -/
  secrets : Option (String → String → Except Failure String) := none
  /-- The namespace of secrets; the empty one is the default namespace. -/
  space : String := ""
  /-- Evaluates an expression over variables. -/
  evaluate : (NodeId → String) → String → List (String × Value) → Except Failure Value

/-- Steps that may end with a failure of the verb. -/
abbrev Attempt := ExceptT Failure (StateM Desk)

/-- Runs the steps of a verb. -/
def attempt (steps : Attempt Result) : StateM Desk Result := do
  match ← steps.run with
  | .ok r => return r
  | .error f => return .fail f

/-- The variable that a numeric verb works on: the first argument without a leading `$`. -/
def varName (inv : Invocation) : Attempt String := do
  let name := Text.withoutStart "$" ((inv.arg 0).text inv.label)
  if inv.args.isEmpty || name.isEmpty then throw (.missingArgument "variable name")
  return name

/-- An optional numeric argument. -/
def numberArg (inv : Invocation) (i : Nat) (default : Float) : Attempt Float := do
  match inv.args[i]? with
  | none => return default
  | some v =>
    match v.asNumber with
    | some x => return x
    | none => throw (.notANumber (v.text inv.label))

/-- A variable as a number; one that is none counts as zero. -/
def numberOf (vars : Store) (name : String) : Float := (vars.get name).asNumber.getD 0.0

/-- Sets a variable and completes with its value. -/
def assignTo (name : String) (v : Value) : Attempt Result := do
  modify fun d => { d with vars := d.vars.set name v }
  return .done v

/-- `log:a:b` writes its arguments to the log and passes the first one on. -/
def log (inv : Invocation) : StateM Desk Result := do
  inv.report .info (Text.join " " (inv.args.map (·.text inv.label)))
    [("scope", .text inv.scopeName)]
  return .done (inv.arg 0)

/-- `inc:name:step` and `dec:name:step` move a variable; the step defaults to one. -/
def step (sign : Float) (inv : Invocation) : StateM Desk Result := attempt do
  let name ← varName inv
  let amount ← numberArg inv 1 1.0
  assignTo name (.number (numberOf (← get).vars name + sign * amount))

/-- `toggle:name` flips a flag; an unset one counts as false. -/
def toggle (inv : Invocation) : StateM Desk Result := attempt do
  let name ← varName inv
  assignTo name (.boolean (!((← get).vars.get name).truthy))

/-- The smaller of two numbers. A number that is none wins, and of two zeros the negative one. -/
def minNumber (a b : Float) : Float :=
  if a.isInf && a < 0.0 then a
  else if b.isInf && b < 0.0 then b
  else if a.isNaN || b.isNaN then 0.0 / 0.0
  else if a == 0.0 && b == 0.0 then (if 1.0 / a < 0.0 then a else b)
  else if a < b then a else b

/-- The larger of two numbers. A number that is none wins, and of two zeros the positive one. -/
def maxNumber (a b : Float) : Float :=
  if a.isInf && 0.0 < a then a
  else if b.isInf && 0.0 < b then b
  else if a.isNaN || b.isNaN then 0.0 / 0.0
  else if a == 0.0 && b == 0.0 then (if 1.0 / a < 0.0 then b else a)
  else if b < a then a else b

/-- `clamp:name:min:max` bounds a variable; the bounds default to 0 and 100. -/
def clamp (inv : Invocation) : StateM Desk Result := attempt do
  let name ← varName inv
  let low ← numberArg inv 1 0.0
  let high ← numberArg inv 2 100.0
  assignTo name (.number (minNumber (maxNumber (numberOf (← get).vars name) low) high))

/-- `exc:word` feeds a value into the pipeline: `this` is the triggering element, a name reads the
variable, and anything else passes through. -/
def exc (inv : Invocation) : StateM Desk Result := do
  match inv.raw with
  | [] => return .done .undefined
  | raw :: _ =>
    if raw == "this" then return .done (.object (.element inv.trigger))
    if !Text.beginsWith "!" raw then
      match (← get).vars.lookup? raw with
      | some v => return .done v
      | none => pure ()
    return .done (inv.arg 0)

/-- `sleep:milliseconds` waits. -/
def sleep (inv : Invocation) : StateM Desk Result :=
  let x := (inv.arg 0).asNumber.getD 0.0
  let milliseconds := if x < 0.0 then 0 else Value.truncate x
  return .await (.sleep (Word.wrap (milliseconds * 1000000)))

/-- `eval:expression` evaluates an expression over the variables of the scope. -/
def eval (deps : Deps) (inv : Invocation) : StateM Desk Result := do
  let expression := Text.trim (Text.join ":" inv.raw)
  if expression.isEmpty then return .fail (.missingArgument "expression")
  match deps.evaluate inv.label expression (← get).vars.vars with
  | .ok v => return .done v
  | .error f => return .fail f

/-- The words that name a request method. -/
def methods : List String := ["GET", "POST", "PUT", "PATCH", "DELETE", "HEAD", "OPTIONS"]

/-- The position of the last method word after the first part, among the first `count` parts. -/
def methodAt (parts : List String) : Nat → Option Nat
  | 0 => none
  | 1 => none
  | i + 2 =>
    match parts[i + 1]? with
    | some part => if methods.contains (Text.upper part) then some (i + 1) else methodAt parts (i + 1)
    | none => methodAt parts (i + 1)

/-- The request that the parts `url:method:body` write. The parts are cut at colons, which also
stand in urls and bodies: the last method word divides them. -/
def requestOf (parts : List String) : Fetch.Request :=
  match methodAt parts parts.length with
  | some i =>
    { method := Text.upper ((parts[i]?).getD "")
      url := Text.join ":" (parts.take i)
      body := Text.join ":" (parts.drop (i + 1)) }
  | none => { method := "GET", url := Text.join ":" parts }

/-- The request of a call, if requests can be made. -/
def requestArg (deps : Deps) (inv : Invocation) : Attempt Fetch.Request := do
  if !deps.canFetch then throw .noFetcher
  let request := requestOf (inv.args.map (·.text inv.label))
  if request.url.isEmpty then throw (.missingArgument "url")
  return request

/-- `ajax:url:method:body` gives the body of an answer. -/
def ajax (deps : Deps) (inv : Invocation) : StateM Desk Result := attempt do
  let request ← requestArg deps inv
  inv.report .debug "fetching" [("method", .text request.method), ("url", .text request.url)]
  return .await (.fetch request)

/-- Sets the fields of a fetched JSON object in the scope. -/
def loadFields (inv : Invocation) (url : String) (body : Value) : StateM Desk Answer := do
  match Json.parseFields? (body.text inv.label) with
  | none => return .error (.badJson url)
  | some fields =>
    modify fun d =>
      { d with vars := d.vars.setAll (fields.map fun (name, field) => (name, .ofTree field)) }
    inv.report .debug "loaded variables"
      [("url", .text url), ("count", .text (toString fields.length))]
    return .ok (.object (.map fields))

/-- `vars:url` sets the fields of a fetched JSON object. A failure is reported and gives
undefined. -/
def vars (deps : Deps) (inv : Invocation) : StateM Desk Result := attempt do
  let request ← requestArg deps inv
  return { outcome := .pending (.fetch request)
           onValue := some (loadFields inv request.url)
           onFailure := some fun f => do
             inv.report .error "failed to load variables"
               [("url", .text request.url), ("error", .text f.message)]
             return .ok .undefined }

/-- `secret:key:default` reads a secret. -/
def secret (deps : Deps) (inv : Invocation) : StateM Desk Result := do
  let space := if deps.space.isEmpty then "default" else deps.space
  match inv.args with
  | [] => return .fail (.missingArgument "secret key")
  | first :: rest =>
    let key := first.text inv.label
    let found : Except Failure String :=
      match deps.secrets with
      | none => .error .noSecrets
      | some read =>
        match read space key with
        | .ok value => .ok value
        | .error f => .error (.secret space key f)
    match found, rest with
    | .ok value, _ => return .done (.string value)
    | .error _, fallback :: _ => return .done fallback
    | .error f, [] => return .fail f

/-- The standard verbs. -/
def standard (deps : Deps) : Registry :=
  [("log", .plain log), ("inc", .plain (step 1.0)), ("dec", .plain (step (-1.0))),
    ("toggle", .plain toggle), ("clamp", .plain clamp), ("exc", .plain exc),
    ("sleep", .plain sleep), ("call", .call), ("eval", .plain (eval deps)),
    ("ajax", .plain (ajax deps)), ("vars", .plain (vars deps)),
    ("secret", .plain (secret deps))]

/-- The names of verbs, sorted. -/
def names (verbs : Registry) : List String := Text.sortNames (verbs.map (·.1))

end PageMacro.Verb
