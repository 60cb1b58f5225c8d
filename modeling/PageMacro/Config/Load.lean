import PageMacro.Config.Basic
import PageMacro.Disk.Basic
import PageMacro.Store
import PageMacro.Yaml.Read

/-!
# Reading the configuration

The settings of the file replace the usual ones, name by name. A name that stands for nothing leaves
its setting alone, and a name that is not known is passed over. A value of the wrong form, or a name
that occurs twice, spoils the whole file.
-/

namespace PageMacro.Config

/-- Whether no name occurs twice. -/
def distinct (fields : List (Yaml.Scalar × Yaml.Node)) : Bool :=
  let names := fields.map fun (key, _) => key.text
  names.length == names.eraseDups.length

/-- A setting that is a text; nothing is an empty change. -/
def text (old : String) : Yaml.Node → Option String
  | .scalar s => some (if s.isNull then old else s.text)
  | _ => none

/-- A setting that is a flag. -/
def flag (old : Bool) : Yaml.Node → Option Bool
  | .scalar s => if s.isNull then some old else s.flag?
  | _ => none

/-- A setting that is a duration; a number without a unit is none. -/
def duration (old : Duration) : Yaml.Node → Option Duration
  | .scalar s =>
    if s.isNull then some old
    else if s.isWhole then none
    else (Duration.read s.text).toOption
  | _ => none

/-- Settings that belong together: each field changes one of them. -/
def group {α : Type} (change : α → String → Yaml.Node → Option α) (old : α) : Yaml.Node → Option α
  | .map fields =>
    if distinct fields then
      (fields.filter fun (key, _) => !key.isNull).foldlM
        (fun settings (key, value) => change settings key.text value) old
    else none
  | .scalar s => if s.isNull then some old else none
  | .list _ => none

/-- Changes a setting of the cache. -/
def changeCache (c : CacheConfig) (name : String) (value : Yaml.Node) : Option CacheConfig :=
  match name with
  | "path" => (text c.path value).map fun path => { c with path }
  | "ttl" => (duration c.ttl value).map fun ttl => { c with ttl }
  | "disabled" => (flag c.disabled value).map fun disabled => { c with disabled }
  | _ => some c

/-- Changes a setting of the secrets. -/
def changeSecrets (c : SecretsConfig) (name : String) (value : Yaml.Node) : Option SecretsConfig :=
  match name with
  | "namespace" => (text c.space value).map fun space => { c with space }
  | "fallback" => (flag c.useFile value).map fun useFile => { c with useFile }
  | "path" => (text c.path value).map fun path => { c with path }
  | _ => some c

/-- Changes a setting of credentials. -/
def changeCredential (c : CredentialEntry) (name : String) (value : Yaml.Node) :
    Option CredentialEntry :=
  match name with
  | "host" => (text c.host value).map fun host => { c with host }
  | "type" => (text c.kind value).map fun kind => { c with kind }
  | "name" => (text c.name value).map fun name => { c with name }
  | "secret" => (text c.secret value).map fun secret => { c with secret }
  | _ => some c

/-- A list of credentials; an item that stands for nothing is left out. -/
def credentials : Yaml.Node → Option (List CredentialEntry)
  | .list items => (items.filter (!·.isNull)).mapM (group changeCredential {})
  | node => if node.isNull then some [] else none

/-- The variables for all entries. -/
def variablesOf : Yaml.Node → Option (List (String × String))
  | .map fields =>
    if distinct fields then
      (fields.filter fun (key, _) => !key.isNull).mapM fun (key, value) =>
        (text "" value).map fun value => (key.text, value)
    else none
  | node => if node.isNull then some [] else none

/-- Changes one setting. -/
def change (c : Config) (name : String) (value : Yaml.Node) : Option Config :=
  match name with
  | "defaultPage" => (text c.defaultPage value).map fun defaultPage => { c with defaultPage }
  | "logLevel" => (text c.logLevel value).map fun logLevel => { c with logLevel }
  | "attribute" => (text c.scriptAttr value).map fun scriptAttr => { c with scriptAttr }
  | "script" => (text c.script value).map fun script => { c with script }
  | "environment" => (text c.environment value).map fun environment => { c with environment }
  | "fetchTimeout" =>
    (duration c.fetchTimeout value).map fun fetchTimeout => { c with fetchTimeout }
  | "auth" => (credentials value).map fun auth => { c with auth }
  | "cache" => (group changeCache c.cache value).map fun cache => { c with cache }
  | "secrets" => (group changeSecrets c.secrets value).map fun secrets => { c with secrets }
  | "variables" => (variablesOf value).map fun vars => { c with vars := some vars }
  | _ => some c

/-- The configuration of a text. -/
def ofText? (source : String) : Option Config := do
  let c : Config := { vars := some [] }
  match ← Yaml.parse? source with
  | some node => group change c node
  | none => return c

/-- Reads the configuration at a path. Only a path that was asked for has to be there. -/
def load (disk : Disk) (here path : String) (asked : Bool) : Except Error Config :=
  match disk.read here path with
  | .error cause =>
    if cause.fault == .missing && !asked then .ok {} else .error (.unreadable path cause)
  | .ok content =>
    match ofText? content.asText with
    | some c => .ok c
    | none => .error (.malformed path)

/-- Writes a configuration with the usual settings; one that is there is only replaced by force. -/
def init (disk : Disk) (here path : String) (force : Bool) : Except Error Disk := do
  if !force && disk.has here path then throw (.present path)
  let disk ← (disk.makeAll here (Path.directory path)).mapError .directory
  (disk.write here path (.text initialText)).mapError .unwritable

end PageMacro.Config
