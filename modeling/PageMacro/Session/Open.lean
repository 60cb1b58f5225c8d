import PageMacro.Config.Basic
import PageMacro.Secret.Manager
import PageMacro.Session.Basic
import PageMacro.Session.Credential
import PageMacro.Session.Site
import PageMacro.Verb.Standard

/-!
# Opening a session

A page is loaded together with what its scripts may use: the cache, the secrets, credentials for
requests and a module. Then its entries are registered and given their first variables: those saved
by the last run, and over them the settings files, the configuration and those given by name.
-/

namespace PageMacro.Session

/-! ## First variables -/

/-- The name and the value around the first `=`; the name is not empty. -/
def pair? (pair : String) : Option (String × String) :=
  (Text.cut '=' pair).filter fun (name, _) => !name.isEmpty

/-- The pairs of a list, up to the first that is none. -/
def pairsOf (pairs : List String) : Except Error (List (String × String)) :=
  pairs.mapM fun pair =>
    match pair? pair with
    | some p => .ok p
    | none => .error (.badPreset pair)

/-- The variables for all entries: the settings, over them those of the configuration, and over
these the given pairs. -/
def presets (settings configured : List (String × String)) (pairs : List String) :
    Except Error (List (String × Value)) := do
  let given ← pairsOf pairs
  let all := Dotenv.overlay (Dotenv.overlay settings configured) given
  return all.map fun (name, raw) => (name, Value.parse raw)

/-- Sets variables in all entries. -/
def loadAll (w : World) (values : List (String × Value)) : World :=
  if values.isEmpty then w else w.order.foldl (fun w key => (w.loadVars key values).1) w

/-- Sets saved variables, entry by entry. -/
def restore (w : World) (stores : List (String × List (String × Tree))) : World :=
  stores.foldl
    (fun w (key, vars) => (w.loadVars key (vars.map fun (name, t) => (name, .ofTree t))).1) w

/-! ## What scripts may use -/

/-- How a page reads secrets. -/
abbrev SecretReader := String → String → Except Failure String

/-- Reads secrets from an open store. -/
def readerOf (ground : Secret.Ground) : SecretReader := fun space key =>
  ((Secret.Manager.get space key).run ground).1.mapError .secretStore

/-- How the configuration wants the secrets. -/
def secretOptions (config : Config) : Secret.Options :=
  { path := config.secrets.path, useFile := config.secrets.useFile }

/-- Opens the secret store; gives nothing if that cannot be done. -/
def openSecrets (config : Config) : Work Error (Option SecretReader) := do
  let site ← Work.site
  match Secret.openStore (secretOptions config) site.disk site.keyring site.here site.home with
  | .error e =>
    Work.log [⟨.debug, "secret store unavailable", [("error", .text e.message)]⟩]
    return none
  | .ok (backend, disk) =>
    Work.setDisk disk
    return some (readerOf ⟨backend, disk, site.keyring, site.here⟩)

/-- Opens the cache; gives nothing if there is to be none or it cannot be opened. -/
def openCache (config : Config) : Work Error (Option Cache.Manager) := do
  let site ← Work.site
  if config.cache.disabled then return none
  else
    match Cache.openFile site.disk site.here (Cache.placeOf site.home config.cache.path) with
    | .error e =>
      Work.log [⟨.warn, "cache unavailable, continuing without it", [("error", .text e.message)]⟩]
      return none
    | .ok (m, disk) =>
      Work.setDisk disk
      return some m

/-- Writes the cache back to the disk. -/
def keepCache (config : Config) : Option Cache.Manager → Work Error Unit
  | none => return
  | some m => do
    let site ← Work.site
    Work.setDisk (m.saveFile site.disk site.here (Cache.placeOf site.home config.cache.path))

/-- Adds the credentials for a host; an entry without credentials is passed over. -/
def addCredential (config : Config) (reader : Option SecretReader) (all : Fetch.Credentials)
    (entry : CredentialEntry) : Work Error Fetch.Credentials := do
  match entry.resolve config.secrets.space reader with
  | .ok auth => return all.add entry.host auth
  | .error e =>
    Work.log [⟨.warn, "skipping request credentials",
      [("host", .text entry.host), ("error", .text e.message)]⟩]
    return all

/-- The script file to use; none if the name is empty. -/
def scriptPath (config : Config) (options : RunOptions) : String :=
  if options.script.isEmpty then config.script else options.script

/-- Loads the module of a script file. -/
def loadScript (path : String) : Work Error (Option Globals) := do
  let site ← Work.site
  if path.isEmpty then return none
  else
    match site.disk.read site.here path with
    | .error cause => throw (.scriptFile path cause)
    | .ok content =>
      let (loaded, records) := Script.Module.load path content.asText
      Work.log records
      match loaded with
      | .ok m => return some m.globals
      | .error cause => throw (.script cause)

/-! ## Opening -/

/-- Registers the entries of a page. -/
def registered (config : Config) (document : Document) (verbs : Registry)
    (globals : Option Globals) : Work Error World := do
  let site ← Work.site
  let w : World := { document, verbs, globals, generated := site.generated }
  let w := if config.scriptAttr.isEmpty then w else { w with scriptAttr := config.scriptAttr }
  let (w, _) := w.register site.naming
  Work.log w.log
  modify fun c => { c with site := { c.site with generated := w.generated } }
  return { w with log := [] }

/-- Forgets or restores the variables of the last run. -/
def withState (config : Config) (options : RunOptions) (s : Session) : Work Error Session := do
  match s.cache with
  | none => return s
  | some m =>
    if options.resetState then
      let m := m.erase (Cache.stateKey s.source)
      keepCache config (some m)
      return { s with cache := some m }
    else if options.keepState then
      let (saved, m) := m.loadStores s.source
      let s := { s with cache := some m }
      match saved with
      | .ok stores => return { s with world := restore s.world (stores.getD []) }
      | .error e =>
        Work.log [⟨.warn, "ignoring unreadable state",
          [("page", .text s.source), ("error", .text e.message)]⟩]
        return s
    else return s

/-- Gives the entries their first variables. -/
def withPresets (config : Config) (options : RunOptions) (s : Session) : Work Error Session := do
  let site ← Work.site
  let environment :=
    if options.environment.isEmpty then config.environment else options.environment
  let loaded := Dotenv.load site.disk site.here s.page.directory environment
  Work.log loaded.log
  if let some (path, cause) := loaded.failure then throw (.settings path cause)
  let values ← MonadExcept.ofExcept
    (presets loaded.vars (config.vars.getD []) options.pairs)
  return { s with world := loadAll s.world values }

/-- Opens a session on a loaded page. -/
def ofPage (config : Config) (options : RunOptions) (version : String) (page : Bundle.Page) :
    Work Error Session := do
  let site ← Work.site
  let document ← MonadExcept.ofExcept
    ((Document.parse site.html page.markup).mapError (.badMarkup options.page))
  let cache ← openCache config
  let reader ← openSecrets config
  let credentials ← config.auth.foldlM (addCredential config reader) []
  let client : Fetch.Client :=
    { base := page.directory, agent := "dotpipe/" ++ version, credentials
      timeout := config.fetchTimeout }
  let verbs := Verb.standard
    { canFetch := true, secrets := reader, space := config.secrets.space
      evaluate := Script.evaluate }
  let globals ← loadScript (scriptPath config options)
  let world ← registered config document verbs globals
  let source := Path.absolute site.here options.page
  withPresets config options
    (← withState config options { page, source, world, client, cache })

/-- Loads a page, opens a session on it and works with it; what was made for the page is removed
afterwards. -/
def withSession {α : Type} (config : Config) (options : RunOptions) (version : String)
    (body : Session → Work Error α) : Work Error α := do
  let site ← Work.site
  let (page, disk) ← MonadExcept.ofExcept
    ((Bundle.load site.disk site.here site.scratch options.page options.member).mapError .bundle)
  Work.setDisk disk
  try
    body (← ofPage config options version page)
  finally
    modify fun c => { c with site := { c.site with disk := page.close c.site.disk } }

/-- Runs a page and prints it, or its variables. A fault of the writing counts more than one of the
run. -/
def execute (config : Config) (options : RunOptions) (version : String) : Work Error Unit :=
  withSession config options version fun s => do
    let site ← Work.site
    let (s, outcome) := s.run options site.disk site.here site.network
    Work.log s.world.log
    let some faults := outcome | throw .crashed
    keepCache config s.cache
    let (text, stopped) := s.output options.dumpVars
    Work.print text
    if let some e := stopped then throw e
    if !faults.isEmpty then throw (.run faults)

end PageMacro.Session
