import PageMacro.Bundle.Load
import PageMacro.Cache.File
import PageMacro.Duration
import PageMacro.Fetch.Client
import PageMacro.Json.Write
import PageMacro.Lint.Check
import PageMacro.Machine.Run
import PageMacro.Session.Error

/-!
# A page at work

A session is a loaded page with its entries registered. It can be run, its entries can be listed
and checked, and the page or the variables can be written out.
-/

namespace PageMacro

/-- What is asked of a run. -/
structure RunOptions where
  page : String := ""
  /-- The page inside an archive. -/
  member : String := ""
  /-- The entries to run; without any, those bound to the event. -/
  keys : List String := []
  event : String := "load"
  script : String := ""
  environment : String := ""
  /-- Variables for all entries, as names and values around a `=`. -/
  pairs : List String := []
  /-- Start with the variables of the last run, and save them at the end. -/
  keepState : Bool := false
  /-- Forget the variables of the last run. -/
  resetState : Bool := false
  /-- Write the variables instead of the page. -/
  dumpVars : Bool := false
  /-- How long executions may wait; without end if it is not positive. -/
  timeout : Duration := .seconds 30
  deriving BEq, DecidableEq, Repr, Inhabited

/-- A loaded page. -/
structure Session where
  page : Bundle.Page
  /-- The absolute path of the page's file. -/
  source : String
  world : World
  client : Fetch.Client
  cache : Option Cache.Manager := none

namespace Session

/-! ## Variables -/

/-- What of a value can be written as JSON; an object that cannot is written as its text. -/
def exported (label : NodeId → String) (v : Value) : Tree :=
  match v with
  | .object t => if (Json.compact? t).isSome then t else .str (v.text label)
  | v => v.toTree

/-- The variables of all entries. -/
def vars (s : Session) : Tree :=
  .map (s.world.order.filterMap fun key =>
    (s.world.lookup? key).map fun e =>
      (key, .map ((s.world.entry e).vars.vars.map fun (name, v) =>
        (name, exported s.world.document.label v))))

/-! ## Running -/

/-- The executions of a run, ready to go on. -/
def begin (s : Session) (options : RunOptions) : Machine :=
  let deadline :=
    if 0 < options.timeout.nanoseconds then some (s.world.now + options.timeout.nanoseconds)
    else none
  let m : Machine := { world := s.world, deadline }
  if options.keys.isEmpty then m.trigger options.event 0
  else options.keys.foldl (fun m key => m.start key 0) m

/-- How the session makes requests. -/
def host (s : Session) (disk : Disk) (here : String) (network : Fetch.Sent → Fetch.Outcome) :
    Machine.Host (Fetch.Desk Unit) :=
  ⟨fun request desk =>
    let (answer, desk) := s.client.perform (fun r u => (network r, u)) disk here request false desk
    (answer.mapError .fetch, desk.log, { desk with log := [] })⟩

/-- The faults of executions, in the order of their start. -/
def faultsOf (m : Machine) : List RunFault :=
  m.executions.toList.filterMap fun x => x.failure.map (.entry x.key)

/-- Saves the variables. -/
def save (s : Session) : Except RunFault Session :=
  match s.cache with
  | none => .ok s
  | some m =>
    match m.saveState s.source s.vars with
    | some m => .ok { s with cache := some m }
    | none => .error .unsaved

/-- Runs the entries that are asked for, to their end, and gives the faults of the run; nothing if
the program has ended in it. -/
def run (s : Session) (options : RunOptions) (disk : Disk) (here : String)
    (network : Fetch.Sent → Fetch.Outcome) : Session × Option (List RunFault) :=
  let shelf : Fetch.Shelf := match s.cache with
    | some m => .cache m
    | none => .absent
  let (m, desk) := Machine.drain (s.host disk here network) (s.begin options) { network := (), shelf }
  let cache := match desk.shelf with
    | .cache m => some m
    | _ => none
  let s := { s with world := m.world, cache }
  if m.crashed then (s, none)
  else if options.keepState then
    match s.save with
    | .ok s => (s, some (faultsOf m))
    | .error fault => (s, some (faultsOf m ++ [fault]))
  else (s, some (faultsOf m))

/-! ## Writing -/

/-- The page or its variables as text, and what stopped the writing. -/
def output (s : Session) (dumpVars : Bool) : String × Option Error :=
  if dumpVars then
    match Json.indented? s.vars with
    | some text => (text ++ "\n", none)
    | none => ("", some .unencodable)
  else
    let written := s.world.document.written
    match written.stopped with
    | none => (written.text ++ "\n", none)
    | some tag => (written.text, some (.unwritable tag))

/-! ## Entries -/

/-- An entry as it is listed. -/
structure EntryInfo where
  key : String
  events : List String
  segments : List String
  deriving BEq, DecidableEq, Repr

/-- The events that an entry is bound to, sorted. -/
def eventsOf (w : World) (key : String) : List String :=
  Text.sortNames (w.bindings.flatMap fun (event, keys) =>
    (keys.filter (· == key)).map fun _ => event)

/-- The entries in the order of their registration. -/
def entries (s : Session) : List EntryInfo :=
  s.world.order.filterMap fun key =>
    (s.world.lookup? key).map fun e =>
      ⟨key, eventsOf s.world key, Segment.split (s.world.entry e).script⟩

/-- A number in at least two columns. -/
def twoColumns (n : Nat) : String := (if n < 10 then " " else "") ++ toString n

/-- A text in at least fourteen columns. -/
def fourteenColumns (s : String) : String := s ++ Text.times (14 - s.length) " "

/-- The lines of an entry: its key and events, and below them its segments with their kinds. -/
def EntryInfo.text (e : EntryInfo) : String :=
  let events := if e.events.isEmpty then "" else " (on [" ++ Text.join " " e.events ++ "])"
  e.key ++ events ++ "\n" ++ String.join (e.segments.zipIdx.map fun (segment, i) =>
    "  " ++ twoColumns (i + 1) ++ "  " ++ fourteenColumns (Segment.classify segment).name ++ " " ++
      segment ++ "\n")

end Session

end PageMacro
