import PageMacro.Machine.Step
import PageMacro.Machine.Table

/-!
# Executions

A run starts with the entry's script and goes on until the script ends, a verb fails, or a verb
asks for a job. Then it is suspended; when the job is settled it goes on, and when its context is
cancelled it is abandoned. Several executions can be under way at once; they take turns only where
one of them is suspended.

A segment can also end the whole program. The execution is left as it is then, still running, and
that is how such an end is told: between two turns no execution of a program that goes on is
running.

A run between two such points steps at most as many segments as it has left, plus the bodies of the
entry's open shells that it could enter: `Execution.stepBound`.
-/

namespace PageMacro

namespace Execution

/-- Ends an execution, with a failure or without. -/
def finish (failure : Option Failure) (w : World) (x : Execution) : World × Execution :=
  let (w, x) := x.commitAll w
  (w, { x with
    failure, value := x.current, wait := none
    state := if failure.isSome then .abandoned else .finished })

/-- Parks an execution until its job is settled. -/
def suspend (wait : Wait) (w : World) (x : Execution) : World × Execution :=
  let (w, x) := x.commitAll w
  (w, { x with state := .suspended, wait := some wait, since := w.now })

/-- The bodies of the open shells of the entry that the execution is not in. -/
def otherBodies (w : World) (x : Execution) : Nat :=
  let key := (w.entry x.entry).key
  w.openShells.foldl
    (fun n ((k, _), s) =>
      if k == key && x.shell != some s then n + (w.shell s).segments.length else n) 0

/-- How many segments a run can step before it ends or is suspended. -/
def stepBound (w : World) (x : Execution) : Nat :=
  x.segments.length - x.pos + x.otherBodies w

/-- Steps segments, one for each unit of fuel, until the run ends or is suspended. -/
def runFor : Nat → World → Execution → World × Execution
  | 0, w, x => (w, x)
  | fuel + 1, w, x =>
    match x.segments[x.pos]? with
    | none => finish none w x
    | some segment =>
      match { x with pos := x.pos + 1 }.step w segment with
      | (w, x, .next) => runFor fuel w x
      | (w, x, .abandon f) => finish (some f) w x
      | (w, x, .await wait) => suspend wait w x
      | (w, x, .crash) => (w, x)

/-- Runs until the end of the script, a failure or a suspension. -/
def run (w : World) (x : Execution) : World × Execution :=
  runFor (stepBound w x + 1) w x

/-- The program has ended in the last run of the execution. -/
def crashed (x : Execution) : Bool := decide (x.state = .running)

/-- An execution of the entry under a key, ready to run; nothing if there is no script. -/
def ofKey? (w : World) (key : String) (context : Nat) : Option Execution :=
  match w.lookup? key with
  | none => none
  | some e =>
    let entry := w.entry e
    if (Text.trim entry.script).isEmpty then none
    else some { entry := e, key := entry.key, trigger := entry.element,
                segments := Segment.split entry.script, state := .running, context }

/-- Starts an execution of the entry under a key. -/
def start (w : World) (key : String) (context : Nat) : World × Execution :=
  match ofKey? w key context with
  | some x =>
    let w := w.report .debug "run"
      [("key", .text key), ("segments", .text (toString x.segments.length))]
    run w x
  | none =>
    let w := w.report .warn "no script registered" [("key", .text key)]
    finish (some (.unknownEntry key)) w
      { entry := w.entries.size, key := "", trigger := Document.root, segments := [], context }

/-- Abandons an execution whose verb failed while it was suspended. -/
def failWait (wait : Wait) (f : Failure) (w : World) (x : Execution) : World × Execution :=
  let (name, args) := Segment.verbParts wait.segment
  finish (some (.verb name args f)) (x.verbFailed w name args f) x

/-- Goes on with the answer of the job that an execution waits for. -/
def settle (answer : Answer) (w : World) (x : Execution) : World × Execution :=
  match x.state, x.wait with
  | .suspended, some wait =>
    match x.atDesk w (wait.result.settle answer) with
    | (w, .ok v) => run w { x with current := v, state := .running, wait := none }
    | (w, .error f) => failWait wait f w x
  | _, _ => (w, x)

/-- Abandons an execution that is suspended. -/
def interrupt (why : Interruption) (w : World) (x : Execution) : World × Execution :=
  match x.state, x.wait with
  | .suspended, some wait => failWait wait (.abandoned why) w x
  | _, _ => (w, x)

/-- When the job of an execution is done by itself. -/
def due? (x : Execution) : Option Int :=
  match x.wait with
  | some ⟨_, .sleep nanoseconds, _⟩ => some (x.since + max 0 nanoseconds)
  | some ⟨_, .fetch _, _⟩ => some x.since
  | some ⟨_, .call _, _⟩ => some x.since
  | some ⟨_, .external _, _⟩ => none
  | none => none

end Execution

/-- The world and all executions, by the order of their start. -/
structure Machine where
  world : World
  executions : Array Execution := #[]
  /-- The contexts that are cancelled. -/
  cancelled : List Nat := []
  /-- When all executions that are still suspended are abandoned. -/
  deadline : Option Int := none

/-- How a suspended execution goes on. -/
inductive Wake where
  | done
  | interrupted (why : Interruption)
  deriving BEq, DecidableEq, Repr

namespace Machine

/-- Starts an execution; its number is the number of executions before. -/
def start (m : Machine) (key : String) (context : Nat) : Machine :=
  let (world, x) := Execution.start m.world key context
  { m with world, executions := m.executions.push x }

/-- Starts an execution for every entry that an event is bound to. If the program ends in one of
them, `crashed` tells so. -/
def trigger (m : Machine) (event : String) (context : Nat) : Machine :=
  (m.world.boundTo event).foldl (fun m key => m.start key context) m

/-- Changes one execution together with the world. -/
def update (m : Machine) (i : Nat) (f : World → Execution → World × Execution) : Machine :=
  match m.executions[i]? with
  | some x =>
    let (world, x) := f m.world x
    { m with world, executions := m.executions.setIfInBounds i x }
  | none => m

/-- Settles the job of an execution. -/
def settle (m : Machine) (i : Nat) (answer : Answer) : Machine :=
  m.update i (Execution.settle answer)

/-- Cancels a context. Its suspended executions are abandoned by `Machine.drain`. -/
def cancelContext (m : Machine) (context : Nat) : Machine :=
  { m with cancelled := context :: m.cancelled }

/-- The program has ended: no turn follows. -/
def crashed (m : Machine) : Bool := m.executions.any Execution.crashed

/-! ## Jobs that finish by themselves -/

/-- How jobs are done: the host makes the requests, with a state of its own. -/
structure Host (σ : Type) where
  fetch : Fetch.Request → σ → Except Failure String × List Record × σ

/-- When and how an execution goes on; nothing if it waits for the host. -/
def wake? (m : Machine) (x : Execution) : Option (Int × Wake) :=
  if x.state != .suspended then none
  else if m.cancelled.contains x.context then some (x.since, .interrupted .cancelled)
  else match x.due?, m.deadline with
    | some due, some last =>
      if due ≤ last then some (due, .done) else some (last, .interrupted .deadline)
    | some due, none => some (due, .done)
    | none, some last => some (last, .interrupted .deadline)
    | none, none => none

/-- The execution that goes on first, and of several at one time the one started first. -/
def next? (m : Machine) : Option (Nat × Int × Wake) :=
  let waking := m.executions.toList.zipIdx.filterMap fun (x, i) =>
    (m.wake? x).map fun (time, wake) => (i, time, wake)
  waking.foldl
    (fun (best : Option (Nat × Int × Wake)) next =>
      match best with
      | some (_, earliest, _) => if next.2.1 < earliest then some next else best
      | none => some next)
    none

/-- Does the job of an execution and lets it go on. -/
def perform {σ : Type} (host : Host σ) (m : Machine) (state : σ) (i : Nat) : Machine × σ :=
  match (m.executions[i]?).bind (·.wait) with
  | some ⟨_, .sleep _, _⟩ => (m.settle i (.ok .undefined), state)
  | some ⟨_, .fetch request, _⟩ =>
    let (answer, log, state) := host.fetch request state
    let m := { m with world := { m.world with log := m.world.log ++ log } }
    (m.settle i (answer.map Value.string), state)
  | some ⟨_, .call run, _⟩ =>
    let outcome := run ()
    let m := { m with world := { m.world with log := m.world.log ++ outcome.log } }
    (m.settle i outcome.answer, state)
  | _ => (m, state)

/-- Lets an execution go on at a time. -/
def resume {σ : Type} (host : Host σ) (m : Machine) (state : σ) (i : Nat) (time : Int)
    (wake : Wake) : Machine × σ :=
  let m := { m with world := { m.world with now := max m.world.now time } }
  match wake with
  | .done => perform host m state i
  | .interrupted why => (m.update i (Execution.interrupt why), state)

/-- Lets executions go on until all are at their end or wait for the host to settle them, or the
program has ended; at most `fuel` times. -/
def drainFor {σ : Type} (host : Host σ) : Nat → Machine → σ → Machine × σ
  | 0, m, state => (m, state)
  | fuel + 1, m, state =>
    if m.crashed then (m, state)
    else match m.next? with
      | none => (m, state)
      | some (i, time, wake) =>
        let (m, state) := resume host m state i time wake
        drainFor host fuel m state

/-- How many segments all executions have, and all open shells. -/
def workload (m : Machine) : Nat :=
  m.executions.foldl (fun n x => n + x.segments.length + 1)
    (m.world.openShells.foldl (fun n (_, s) => n + (m.world.shell s).segments.length + 1) 0)

/-- Lets executions go on until all are at their end or wait for the host to settle them. Every
suspension takes a segment, and a shell only hands segments on, so the square of the workload is
more than enough. -/
def drain {σ : Type} (host : Host σ) (m : Machine) (state : σ) : Machine × σ :=
  drainFor host ((m.workload + 1) * (m.workload + 1)) m state

end Machine

end PageMacro
