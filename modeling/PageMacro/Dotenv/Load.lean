import PageMacro.Disk.Basic
import PageMacro.Dotenv.Line
import PageMacro.Dotenv.Mask
import PageMacro.Log

/-!
# The settings beside a page

Up to four files give the variables a page starts with; a later file overrides an earlier one. A
file that is not there is passed over, one that cannot be read ends the loading.
-/

namespace PageMacro.Dotenv

/-- Why a settings file cannot be read. -/
inductive Fault where
  | file (cause : FileError)
  | lineTooLong
  deriving BEq, DecidableEq, Repr

/-- The wording of a fault. -/
def Fault.message : Fault → String
  | file cause => cause.message
  | lineTooLong => "bufio.Scanner: token too long"

/-- One of the files looked for, with its settings. -/
structure Source where
  path : String
  found : Bool := false
  vars : List (String × String) := []
  fault : Option Fault := none
  deriving BEq, DecidableEq, Repr

/-- Settings taken together. -/
structure Loaded where
  sources : List Source := []
  vars : List (String × String) := []
  log : List Record := []
  /-- The source that ended the loading, and why. -/
  failure : Option (String × Fault) := none

/-- The wording of the failure of a source. -/
def failureText (path : String) (fault : Fault) : String :=
  "failed to load " ++ path ++ ": " ++ fault.message

/-- The files looked for, the weakest first. -/
def candidates (directory environment : String) : List String :=
  let directory := if directory.isEmpty then "." else directory
  let names := [".env", ".env.local"] ++
    if environment.isEmpty then [] else [".env." ++ environment, ".env." ++ environment ++ ".local"]
  names.map (Path.join directory)

/-- Sets the names of a list, a later one overriding an earlier one. -/
def overlay (base upper : List (String × String)) : List (String × String) :=
  upper.foldl (fun vars (name, value) => putField name value vars) base

/-- The assignments of lines, in order. -/
def settingsOf (lines : List String) : List (String × String) :=
  lines.filterMap fun line =>
    match readLine line with
    | .setting name value => some (name, value)
    | _ => none

/-- The records about lines that say nothing readable. -/
def complaints (path : String) (lines : List String) : List Record :=
  lines.zipIdx.filterMap fun (line, i) =>
    match readLine line with
    | .invalid => some ⟨.warn, "skipping invalid line",
        [("file", .text path), ("line", .text (toString (i + 1)))]⟩
    | _ => none

/-- Reads one file. -/
def readSource (disk : Disk) (here path : String) : Source × List Record :=
  match disk.read here path with
  | .error ⟨_, _, .missing⟩ => ({ path }, [])
  | .error cause => ({ path, found := true, fault := some (.file cause) }, [])
  | .ok content =>
    let (lines, tooLong) := readableLines content.asText
    ({ path, found := true, vars := overlay [] (settingsOf lines)
       fault := if tooLong then some .lineTooLong else none },
      complaints path lines)

/-- The records about the variables of a source. -/
def announcements (source : Source) : List Record :=
  source.vars.map fun (name, value) => ⟨.debug, "page variable",
    [("file", .text source.path), ("name", .text name), ("value", .text (mask name value))]⟩

/-- Reads one file after the other. -/
def loadFrom (disk : Disk) (here : String) : List String → Loaded → Loaded
  | [], done => done
  | path :: rest, done =>
    let (source, log) := readSource disk here path
    let done := { done with sources := done.sources ++ [source], log := done.log ++ log }
    match source.fault with
    | some fault => { done with failure := some (path, fault) }
    | none =>
      loadFrom disk here rest { done with
        vars := overlay done.vars source.vars
        log := done.log ++ announcements source }

/-- Loads the settings of a directory for an environment. -/
def load (disk : Disk) (here directory environment : String) : Loaded :=
  loadFrom disk here (candidates directory environment) {}

end PageMacro.Dotenv
