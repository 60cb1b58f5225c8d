import PageMacro.Secret.Backend

/-!
# The secret store

The store is a map from namespaces and keys to values, whatever place keeps it. Every operation
checks the names it is given, and a fault is reported with the operation and the secret.
-/

namespace PageMacro.Secret

/-- An operation of the store. -/
abbrev Operation := ExceptT Error (StateM Ground)

/-- Reports the fault of an action. -/
def reporting {α : Type} (operation space key : String) (action : Action α) : Operation α :=
  ExceptT.mk (action.run.map (·.mapError fun cause => ⟨operation, space, key, cause⟩))

/-- Stores a secret. -/
def Manager.set (space key value : String) : Operation Unit := reporting "set" space key do
  checkNames space key
  put (account space key) value

/-- The value of a secret. -/
def Manager.get (space key : String) : Operation String := reporting "get" space key do
  checkNames space key
  match ← find (account space key) with
  | some value => return value
  | none => throw .notFound

/-- Removes a secret; it need not be there. -/
def Manager.delete (space key : String) : Operation Unit := reporting "delete" space key do
  checkNames space key
  remove (account space key)

/-- Whether there is a secret. -/
def Manager.has (space key : String) : Operation Bool := reporting "exists" space key do
  checkNames space key
  return (← find (account space key)).isSome

/-- The keys of a namespace, sorted. -/
def Manager.list (space : String) : Operation (List String) := reporting "list" space "" do
  if !isName space then throw .invalidNamespace
  let front := space ++ ":"
  let keys := (← accounts).filterMap fun account =>
    if Text.beginsWith front account then some (Text.withoutStart front account) else none
  return Text.sortNames keys

/-- The namespaces that hold secrets, sorted. -/
def Manager.namespaces : Operation (List String) := reporting "list-namespaces" "" "" do
  let spaces := (← accounts).filterMap fun account => (Text.cut ':' account).map (·.1)
  return Text.sortNames spaces.eraseDups

/-! ## Opening -/

/-- Where the file of a service is, below a home directory. -/
def defaultPath (home service : String) : String :=
  Path.join (Path.join home ("." ++ service)) "secrets.enc"

/-- The number of bytes that a Base64 text stands for. -/
def base64Size (s : String) : Nat :=
  let chars := s.toList.filter fun c => c != '\n' && c != '\r'
  chars.length / 4 * 3 - (chars.filter (· == '=')).length

/-- What is wrong with a text that should have been an encrypted file. -/
def envelopeFault (path text : String) : OpenError :=
  let isBytes (t : Option Tree) : Bool := match t with
    | none | some .null | some (.str _) => true
    | _ => false
  match Json.parse? text with
  | some (.map fields) =>
    if ["salt", "nonce", "cipher"].any fun name => !isBytes (fields.lookup name) then
      .malformed path
    else match fields.lookup "nonce" with
      | some (.str nonce) => if base64Size nonce == 12 then .notAuthentic path else .wrongNonce path
      | _ => .wrongNonce path
  | some .null => .wrongNonce path
  | _ => .malformed path

/-- The secrets of a file; none if there is no file. -/
def loadFile (disk : Disk) (here path service : String) :
    Except OpenError (List (String × String)) :=
  match disk.read here path with
  | .error ⟨_, _, .missing⟩ => .ok []
  | .error cause => .error (.unreadable path cause)
  | .ok (.sealed owner secrets) =>
    if owner == service then .ok secrets else .error (.notAuthentic path)
  | .ok content => .error (envelopeFault path content.asText)

/-- Opens an encrypted file, making its directory. -/
def openFile (disk : Disk) (here path service : String) : Except OpenError (Backend × Disk) := do
  let disk ← (disk.makeAll here (Path.directory path)).mapError .directory
  let secrets ← loadFile disk here path service
  return (.file path service secrets, disk)

/-- How a store of secrets is opened. -/
structure Options where
  service : String := "dotpipe"
  /-- The encrypted file; the usual one if empty. -/
  path : String := ""
  /-- Keep secrets in a file even if there is a platform's store. -/
  useFile : Bool := false
  deriving BEq, DecidableEq, Repr

/-- Opens a store: the platform's, or a file if that does not answer. -/
def openStore (options : Options) (disk : Disk) (keyring : Keyring) (here home : String) :
    Except OpenError (Backend × Disk) :=
  if options.useFile || keyring.fault.isSome then
    let path := if options.path.isEmpty then defaultPath home options.service else options.path
    openFile disk here path options.service
  else .ok (.keyring options.service, disk)

end PageMacro.Secret
