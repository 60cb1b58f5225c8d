import PageMacro.Fetch.Client
import PageMacro.Html.Library
import PageMacro.Log.Line
import PageMacro.Machine.Table
import PageMacro.Secret.Backend

/-!
# Where work is done

A site is what surrounds the work on a page: the files, the platform's secrets and the network. A
console is a site together with what has been printed so far. Work may fail, but what it has done
to the console before stays done.
-/

namespace PageMacro

/-- What surrounds the work on a page. -/
structure Site where
  disk : Disk := {}
  keyring : Secret.Keyring := {}
  /-- The directory that paths are taken from. -/
  here : String := "/"
  home : String := "/"
  /-- The directory that archives are extracted to. -/
  scratch : String := "/tmp/page"
  /-- What reads and writes pages. -/
  html : Html.Library := .standard
  /-- What becomes of a request. -/
  network : Fetch.Sent → Fetch.Outcome := Fetch.offline
  /-- The keys of entries without a name. -/
  naming : Naming := { fresh := fun n => "entry-" ++ toString n }
  /-- How many keys have been made up. -/
  generated : Nat := 0

/-- A site and what has been printed. -/
structure Console where
  site : Site
  /-- The least severity that the log shows. -/
  threshold : Int := Level.info.severity
  out : String := ""
  err : String := ""

/-- Work that prints, changes the site and may fail. -/
abbrev Work (ε : Type) := ExceptT ε (StateM Console)

namespace Work

variable {ε : Type}

/-- The site as it is now. -/
def site : Work ε Site := return (← get).site

/-- Changes the files. -/
def setDisk (disk : Disk) : Work ε Unit :=
  modify fun c => { c with site := { c.site with disk } }

/-- Prints a text. -/
def print (text : String) : Work ε Unit := modify fun c => { c with out := c.out ++ text }

/-- Logs records. -/
def log (records : List Record) : Work ε Unit :=
  modify fun c => { c with err := c.err ++ Log.lines c.threshold records }

end Work

end PageMacro
