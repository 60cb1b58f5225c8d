import PageMacro.Disk.Fault
import PageMacro.Duration
import PageMacro.Format

/-!
# The configuration of a workspace
-/

namespace PageMacro

/-- The credentials for the requests to a host: where they go, and which secret they are. -/
structure CredentialEntry where
  host : String := ""
  kind : String := ""
  name : String := ""
  secret : String := ""
  deriving BEq, DecidableEq, Repr, Inhabited

/-- Where fetched answers and saved variables are kept. -/
structure CacheConfig where
  /-- The database; the usual one if empty. -/
  path : String := ""
  ttl : Duration := .seconds 300
  disabled : Bool := false
  deriving BEq, DecidableEq, Repr, Inhabited

/-- Where secrets are read from. -/
structure SecretsConfig where
  space : String := "default"
  /-- Use a file even if there is a store of the platform. -/
  useFile : Bool := false
  /-- The file; the usual one if empty. -/
  path : String := ""
  deriving BEq, DecidableEq, Repr, Inhabited

/-- All settings of a workspace. The values here are those of a workspace without settings. -/
structure Config where
  defaultPage : String := ""
  logLevel : String := "warn"
  /-- The attribute that holds scripts; the usual one if empty. -/
  scriptAttr : String := ""
  script : String := ""
  environment : String := ""
  fetchTimeout : Duration := .seconds 30
  auth : List CredentialEntry := []
  cache : CacheConfig := {}
  secrets : SecretsConfig := {}
  /-- The variables for all entries of a page; nothing if there is no configuration file. -/
  vars : Option (List (String × String)) := none
  deriving BEq, DecidableEq, Repr, Inhabited

namespace Config

/-- Where the configuration is, unless another place is named. -/
def defaultPath : String := ".dotpipe/config.yml"

/-- Why there is no configuration. -/
inductive Error where
  | unreadable (path : String) (cause : FileError)
  | malformed (path : String)
  /-- A configuration is there already. -/
  | present (path : String)
  | directory (cause : FileError)
  | unwritable (cause : FileError)
  deriving BEq, DecidableEq, Repr

/-- The wording of a fault. -/
def Error.message : Error → String
  | unreadable path cause => "failed to read config '" ++ path ++ "': " ++ cause.message
  | malformed path => "failed to parse config '" ++ path ++ "': " ++ Format.yaml.mark
  | present path => "config '" ++ path ++ "' already exists (use --force to overwrite)"
  | directory cause => "failed to create config directory: " ++ cause.message
  | unwritable cause => cause.message

/-- What a fault is about. -/
def Error.concerns : Error → List Concern
  | unreadable _ cause => cause.concerns
  | malformed _ => [.format .yaml]
  | present _ => []
  | directory cause => cause.concerns
  | unwritable cause => cause.concerns

/-- The page to work on: the first argument, or the default page. -/
def page? (c : Config) (args : List String) : Option String :=
  let named := args.headD ""
  if !named.isEmpty then some named
  else if !c.defaultPage.isEmpty then some c.defaultPage
  else none

/-- The wording of a missing page. -/
def noPage : String := "no page given and no defaultPage configured"

/-- The text of a configuration with the usual settings. -/
def initialText : String :=
  let usual : Config := {}
  let flag (b : Bool) : String := if b then "true" else "false"
  String.join ["# dotpipe workspace configuration\n",
    "logLevel: ", usual.logLevel, "\n",
    "fetchTimeout: ", usual.fetchTimeout.text, "\n",
    "cache:\n",
    "    ttl: ", usual.cache.ttl.text, "\n",
    "    disabled: ", flag usual.cache.disabled, "\n",
    "secrets:\n",
    "    namespace: ", usual.secrets.space, "\n",
    "    fallback: ", flag usual.secrets.useFile, "\n"]

end Config

end PageMacro
