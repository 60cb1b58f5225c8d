import PageMacro.Bundle.Error
import PageMacro.Dotenv.Load
import PageMacro.Failure
import PageMacro.Html.Builder
import PageMacro.Script.Module

/-!
# Faults of working on a page
-/

namespace PageMacro.Session

/-- What went wrong in a run. -/
inductive RunFault where
  /-- The execution of an entry failed. -/
  | entry (key : String) (cause : Failure)
  /-- The variables cannot be written as JSON. -/
  | unsaved
  deriving Repr

/-- The wording of a fault of a run. -/
def RunFault.message : RunFault → String
  | entry key cause => "entry " ++ key ++ ": " ++ cause.message
  | unsaved => "failed to save state: failed to encode state: " ++ Format.json.mark

/-- What a fault of a run is about. -/
def RunFault.concerns : RunFault → List Concern
  | entry _ cause => cause.concerns
  | unsaved => [.format .json]

/-- Why a page cannot be worked on, or what came of it. -/
inductive Error where
  | bundle (cause : Bundle.Error)
  | badMarkup (file : String) (cause : Html.ParseError)
  | script (cause : Script.LoadError)
  | scriptFile (path : String) (cause : FileError)
  | settings (path : String) (cause : Dotenv.Fault)
  /-- A variable was not given as a name and a value. -/
  | badPreset (pair : String)
  /-- The variables cannot be written as JSON. -/
  | unencodable
  /-- An element that cannot have content has some. -/
  | unwritable (tag : String)
  | run (faults : List RunFault)
  /-- The program has ended in a run. -/
  | crashed
  deriving Repr

/-- The wording of a fault. -/
def Error.message : Error → String
  | bundle cause => cause.message
  | badMarkup file cause =>
    "failed to parse page '" ++ file ++ "': failed to parse document: " ++ cause.message
  | script cause => cause.message
  | scriptFile path cause => "failed to load script " ++ path ++ ": " ++ cause.message
  | settings path cause => Dotenv.failureText path cause
  | badPreset pair => "invalid --set " ++ Text.quoted pair ++ ", expected name=value"
  | unencodable => Format.json.mark
  | unwritable tag => "html: void element <" ++ tag ++ "> has child nodes"
  | run faults => Text.join "\n" (faults.map RunFault.message)
  | crashed => "index out of range"

/-- What a fault is about. -/
def Error.concerns : Error → List Concern
  | bundle cause => cause.concerns
  | script _ => [.format .starlark]
  | scriptFile _ cause => cause.concerns
  | settings _ (.file cause) => cause.concerns
  | unencodable => [.format .json]
  | run faults => faults.flatMap RunFault.concerns
  | _ => []

end PageMacro.Session
