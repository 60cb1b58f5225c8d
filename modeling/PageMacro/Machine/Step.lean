import PageMacro.Element
import PageMacro.Machine.World
import PageMacro.Segment.Interpolate
import PageMacro.Selector

/-!
# One segment

An execution works through the segments of its entry's script. `Execution` is what belongs to one
execution alone; `step` applies one segment to it and to the shared world. Variables are read and
written in the active scope only, which is the shell the execution is in, or else its entry.

A closed shell leaves the list of open shells at once, but its variables go into the entry later:
at the next suspension, at the end, or when a shell of that name is opened again. Names that the
entry itself has written after the close are then left alone.
-/

namespace PageMacro

/-- The stages of an execution. -/
inductive ExecState where
  | idle | running | suspended | finished | abandoned
  deriving BEq, DecidableEq, Repr

/-- The name of a stage. -/
def ExecState.name : ExecState → String
  | .idle => "idle"
  | .running => "running"
  | .suspended => "suspended"
  | .finished => "finished"
  | .abandoned => "abandoned"

/-- A closed shell that is not merged yet, with the entry's revision at the close. -/
structure PendingClose where
  shell : ShellId
  mark : Nat
  deriving BEq, DecidableEq, Repr

/-- What a suspended execution waits for. -/
structure Wait where
  result : Result
  job : Job
  /-- The segment that asked for it. -/
  segment : String

/-- One traversal of an entry's script. -/
structure Execution where
  entry : EntryId
  /-- The key of the entry; empty if there was none. -/
  key : String
  trigger : NodeId
  segments : List String
  /-- How many of the segments have been stepped. -/
  pos : Nat := 0
  /-- The shell that the execution is in. -/
  shell : Option ShellId := none
  current : Value := .undefined
  closing : List PendingClose := []
  state : ExecState := .idle
  failure : Option Failure := none
  /-- The running value at the end. -/
  value : Value := .undefined
  wait : Option Wait := none
  /-- When the wait began. -/
  since : Int := 0
  /-- Executions of one context are cancelled together. -/
  context : Nat := 0

namespace Execution

/-- What a segment means for the run. -/
inductive Verdict where
  | next
  | abandon (f : Failure)
  | await (wait : Wait)
  /-- The program ends here. -/
  | crash

/-- The world and the execution after a segment, and the verdict. -/
abbrev Stepped := World × Execution × Verdict

/-! ## The active scope -/

/-- The name of the active scope. -/
def scopeName (x : Execution) (w : World) : String :=
  match x.shell with
  | some s => (w.shell s).name
  | none => (w.entry x.entry).key

/-- The variables of the active scope. -/
def vars (x : Execution) (w : World) : Store :=
  match x.shell with
  | some s => (w.shell s).vars
  | none => (w.entry x.entry).vars

/-- The element of the active scope. -/
def scopeElement (x : Execution) (w : World) : NodeId :=
  match x.shell with
  | some s => (w.shell s).element
  | none => (w.entry x.entry).element

/-- Changes the variables of the active scope. -/
def modifyVars (x : Execution) (w : World) (f : Store → Store) : World :=
  match x.shell with
  | some s => w.modifyShellVars s f
  | none => w.modifyEntryVars x.entry f

/-- Replaces the references in a right-hand side by the texts of variables. -/
def resolve (x : Execution) (w : World) (rhs : String) : String :=
  Segment.resolve (fun name => ((x.vars w).get name).text w.document.label) rhs

/-- Reports something missing. -/
def miss (x : Execution) (w : World) (message : String) (attrs : LogAttrs) : World :=
  w.report .warn message
    ([("key", .text x.key), ("scope", .text (x.scopeName w))] ++ attrs)

/-- The wording of a selector without matches. -/
def noMatch : LogValue := .text "selector matched no elements"

/-! ## Writing elements -/

/-- Sets or, without a value, removes an attribute of an element. -/
def putAttr (attr : String) (value : Option String) (w : World) (element : NodeId) : World :=
  match value with
  | some value => { w with document := w.document.setAttr element attr value }
  | none => { w with document := w.document.removeAttr element attr }

/-- `target[attr]:rhs` sets an attribute of every target. A right-hand side that is one reference
to an unset variable removes it. -/
def writeAttr (x : Execution) (w : World) (target attr rhs : String) : Stepped :=
  let removes := match rhs.toList with
    | '!' :: name => Segment.isIdent (String.ofList name) && !(x.vars w).has (String.ofList name)
    | _ => false
  let value := if removes then none else some (x.resolve w rhs)
  let elements := Selector.named w.document target
  let w := if elements.isEmpty then
      x.miss w "selector matched no elements" [("selector", .text target), ("error", noMatch)]
    else w
  let w := elements.foldl (putAttr attr value) w
  (w, { x with current := (value.map Value.string).getD .undefined }, .next)

/-- Reports new content that an element refused. -/
def contentRefused (x : Execution) (w : World) (element : NodeId) (e : WriteError) : World :=
  x.miss w "content write failed" [("element", .text (w.document.label element)),
    ("error", .text ("host rejected assignment: " ++ e.message))]

/-- Replaces the content of an element, or reports why it cannot. -/
def putContent (x : Execution) (markup : String) (w : World) (element : NodeId) : World :=
  match w.document.setContent element markup with
  | .ok document => { w with document }
  | .error e => x.contentRefused w element e

/-- Writes a property of an element: `text` and `style` replace the content; any other name is tried
as a style, then as a property, and is an attribute in the end. -/
def putProperty (x : Execution) (property value : String) (w : World) (element : NodeId) : World :=
  if property == "text" || property == "style" then x.putContent value w element
  else match w.document.setStyle element property value with
    | .ok document => { w with document }
    | .error styleError =>
      match w.document.setProperty element property (.parse value) with
      | .ok document => { w with document }
      | .error propertyError =>
        let w := w.report .debug "falling back to attribute"
          [("element", .text (w.document.label element)), ("name", .text property),
            ("style_error", .text styleError.message),
            ("property_error", .text propertyError.message)]
        { w with document := w.document.setAttr element property value }

/-- `target[index].property:rhs` writes a property of the chosen targets. A position outside of the
matches ends the program before anything is written. -/
def writeIndexed (x : Execution) (w : World) (target index property rhs : String) : Stepped :=
  let value := x.resolve w rhs
  match Selector.resolve w.document target index with
  | none => (w, x, .crash)
  | some [] =>
    (x.miss w "selector matched no elements"
      [("selector", .text target), ("index", .text index), ("error", noMatch)],
      { x with current := .undefined }, .next)
  | some elements =>
    (elements.foldl (x.putProperty property value) w, { x with current := .string value }, .next)

/-- `target.property:rhs` writes a property of every target. -/
def writeProp (x : Execution) (w : World) (target property rhs : String) : Stepped :=
  let value := x.resolve w rhs
  match Selector.named w.document target with
  | [] =>
    (x.miss w "selector not found" [("selector", .text target), ("error", noMatch)], x, .next)
  | elements =>
    (elements.foldl (x.putProperty property value) w, { x with current := .string value }, .next)

/-- `$element` shows the running value, `$element:rhs` a text, in an element. -/
def setContent (x : Execution) (w : World) (id rhs : String) : Stepped :=
  match w.document.elementById? id with
  | none => (x.miss w "element not found" [("id", .text id), ("error", noMatch)], x, .next)
  | some element =>
    let label := w.document.label
    let markup :=
      if rhs.isEmpty then x.current.display label
      else Segment.unescape
        (Segment.expandWords (fun name => ((x.vars w).get name).display label) rhs)
    (x.putContent markup w element, x, .next)

/-! ## Variables -/

/-- `#name:element.property` reads a property into a variable. -/
def readProp (x : Execution) (w : World) (name id property : String) : Stepped :=
  let found := w.document.elementById? id
  let w := if found.isNone then
      x.miss w "element not found" [("id", .text id), ("error", noMatch)]
    else w
  let v := (found.bind fun element => w.document.property? element property).getD .undefined
  (x.modifyVars w (·.set name v), { x with current := v }, .next)

/-- `&name:rhs` sets a variable. `&name:!other?fallback` sets `other` to the fallback if it is not
set, and goes on with its value. -/
def assign (x : Execution) (w : World) (name rhs : String) : Stepped :=
  match Segment.fallback? rhs with
  | some (other, fallback) =>
    let w := if (x.vars w).has other then w
      else x.modifyVars w (·.set other (.parse (Segment.unescape fallback)))
    (w, { x with current := (x.vars w).get other }, .next)
  | none =>
    let v := Value.parse (x.resolve w rhs)
    (x.modifyVars w (·.set name v), { x with current := v }, .next)

/-- `nop:name` keeps the running value in a variable. -/
def nop (x : Execution) (w : World) (name : String) : Stepped :=
  (x.modifyVars w (·.set name x.current), x, .next)

/-! ## Shells -/

/-- Merges one closed shell into the entry. -/
def commitOne (x : Execution) (w : World) (p : PendingClose) : World :=
  let shell := w.shell p.shell
  let (vars, skipped) := (w.entry x.entry).vars.mergeSince shell.vars p.mark
  (w.modifyEntryVars x.entry fun _ => vars).report .debug "closed shell"
    [("key", .text x.key), ("shell", .text shell.name), ("kept_parent", .list skipped)]

/-- Merges the closed shells that `which` holds of, in the order of their closing. -/
def commitWhere (which : Shell → Bool) (x : Execution) (w : World) : World × Execution :=
  let due := x.closing.filter fun p => which (w.shell p.shell)
  let kept := x.closing.filter fun p => !which (w.shell p.shell)
  (due.foldl x.commitOne w, { x with closing := kept })

/-- Merges all closed shells. -/
def commitAll (x : Execution) (w : World) : World × Execution := x.commitWhere (fun _ => true) w

/-- `+target:name` hands the rest of the script to a shell. Inside a shell it does nothing. -/
def openShell (x : Execution) (w : World) (target name : String) : Stepped :=
  match x.shell with
  | some _ =>
    (x.miss w "ignoring shell open inside a shell"
      [("shell", .text name), ("error", .text "shell open inside a shell")], x, .next)
  | none =>
    let (w, x) := x.commitWhere (fun shell => shell.name == name) w
    let (w, s, reused) := w.openShell x.entry target name (x.segments.drop x.pos)
    let w := w.report .debug "opened shell"
      [("key", .text x.key), ("shell", .text name), ("target", .text target),
        ("reused", .text (Tree.boolText reused))]
    (w, { x with
      shell := some s, segments := (w.shell s).segments, pos := 0, current := .undefined }, .next)

/-- `-name` closes a shell. If it is the one the execution is in, the entry is active again. -/
def closeShell (x : Execution) (w : World) (name : String) : Stepped :=
  match w.detachShell (w.entry x.entry).key name with
  | none =>
    (x.miss w "tried to close unknown shell"
      [("shell", .text name), ("error", .text "unknown shell")], x, .next)
  | some (w, s) =>
    let mark := (w.entry x.entry).vars.revision
    let x := { x with closing := x.closing ++ [⟨s, mark⟩] }
    (w, if x.shell == some s then { x with shell := none } else x, .next)

/-! ## Verbs -/

/-- Does something at the desk of the active scope. -/
def atDesk {α : Type} (x : Execution) (w : World) (act : StateM Desk α) : World × α :=
  let (a, desk) := act.run { vars := x.vars w }
  let w := x.modifyVars w fun _ => desk.vars
  ({ w with log := w.log ++ desk.log }, a)

/-- The argument that a parameter stands for. -/
def argument (vars : Store) (parameter : String) : Value :=
  match parameter.toList with
  | '!' :: name => vars.get (String.ofList name)
  | _ => .string (Segment.unescape parameter)

/-- The call of a verb with the parameters as written. -/
def invocation (x : Execution) (w : World) (name : String) (parameters : List String) :
    Invocation :=
  { name
    args := parameters.map (argument (x.vars w))
    raw := parameters.map Segment.unescape
    scopeName := x.scopeName w
    scopeElement := x.scopeElement w
    trigger := x.trigger
    label := w.document.label
    logAttrs := [("verb", .text name)] }

/-- Reports a failed verb. -/
def verbFailed (x : Execution) (w : World) (name : String) (args : List String) (f : Failure) :
    World :=
  w.report .error "verb failed" [("key", .text x.key), ("verb", .text name), ("args", .list args),
    ("error", .text f.message)]

/-- Goes on with the answer of a verb. -/
def conclude (x : Execution) (w : World) (name : String) (args : List String) (answer : Answer) :
    Stepped :=
  match answer with
  | .ok v => (w, { x with current := v }, .next)
  | .error f => (x.verbFailed w name args f, x, .abandon (.verb name args f))

/-- `verb:parameters` calls a verb. -/
def callVerb (x : Execution) (w : World) (segment name parameters : String) : Stepped :=
  match w.verbs.lookup name with
  | none =>
    (x.miss w "unknown verb" [("verb", .text name), ("error", .text "unknown verb")], x, .next)
  | some verb =>
    let inv := x.invocation w name (Segment.splitParameters parameters)
    let (w, result) := x.atDesk w (verb.invoke w.verbs w.globals inv)
    match result.outcome with
    | .pending job => (w, x, .await ⟨result, job, segment⟩)
    | .value v =>
      let (w, answer) := x.atDesk w (result.settle (.ok v))
      x.conclude w name inv.raw answer
    | .failure f =>
      let (w, answer) := x.atDesk w (result.settle (.error f))
      x.conclude w name inv.raw answer
    | .crash text =>
      let (w, answer) := x.atDesk w (result.settle (.error (.crashed text)))
      x.conclude w name inv.raw answer

/-- Applies one segment. -/
def step (x : Execution) (w : World) (segment : String) : Stepped :=
  match Segment.ofScript? segment with
  | none =>
    (w.report .warn "dropping malformed segment"
      [("key", .text x.key), ("segment", .text segment)], x, .next)
  | some (.attrWrite target attr rhs) => x.writeAttr w target attr rhs
  | some (.indexedWrite target index property rhs) => x.writeIndexed w target index property rhs
  | some (.shellOpen target name) => x.openShell w target name
  | some (.shellClose name) => x.closeShell w name
  | some (.propRead name element property) => x.readProp w name element property
  | some (.literalAssign name rhs) => x.assign w name rhs
  | some (.propWrite target property rhs) => x.writeProp w target property rhs
  | some (.nopStore name) => x.nop w name
  | some (.contentSet element rhs) => x.setContent w element rhs
  | some (.verbCall verb parameters) => x.callVerb w segment verb parameters

end Execution

end PageMacro
