import PageMacro.Disk.Basic
import PageMacro.Json.Read
import PageMacro.Json.Write
import PageMacro.Secret.Account

/-!
# Where secrets are kept

Secrets are kept in the platform's store, in an encrypted file, or in memory. The platform's store
cannot list what is in it, so the list of keys is kept there as well. The file is read once and
written as a whole after every change, first under another name.
-/

namespace PageMacro.Secret

/-- The platform's store: values by service and account. -/
structure Keyring where
  items : List ((String × String) × String) := []
  /-- Set when the store does not answer. -/
  fault : Option String := none
  deriving BEq, DecidableEq, Repr, Inhabited

namespace Keyring

/-- The value of an account. -/
def get? (k : Keyring) (service account : String) : Option String :=
  k.items.lookup (service, account)

/-- Sets an account. -/
def put (k : Keyring) (service account value : String) : Keyring :=
  { k with items :=
      ((service, account), value) :: k.items.filter fun (name, _) => name != (service, account) }

/-- Removes an account. -/
def erase (k : Keyring) (service account : String) : Keyring :=
  { k with items := k.items.filter fun (name, _) => name != (service, account) }

end Keyring

/-- A place where secrets are kept, by account. -/
inductive Backend where
  | memory (secrets : List (String × String))
  /-- A place that only fails, in these words. -/
  | broken (fault : String)
  /-- An encrypted file and what was read from it. -/
  | file (path service : String) (secrets : List (String × String))
  | keyring (service : String)
  deriving BEq, DecidableEq, Repr

/-- What operations on secrets change: the place, the disk and the platform's store. -/
structure Ground where
  backend : Backend
  disk : Disk := {}
  keyring : Keyring := {}
  /-- The directory that paths are taken from. -/
  here : String := "/"

/-- An operation, which may change things and fail nevertheless. -/
abbrev Action := ExceptT Cause (StateM Ground)

/-- Fails if the platform's store does not answer. -/
def answering : Action Keyring := do
  let keyring := (← get).keyring
  match keyring.fault with
  | some fault => throw (.other fault)
  | none => return keyring

/-! ## The list of keys -/

/-- The key that an item of the list stands for. -/
def indexItem? : Tree → Option String
  | .str s => some s
  | .null => some ""
  | _ => none

/-- The keys of a written list. -/
def readIndex? (text : String) : Option (List String) :=
  match Json.parse? text with
  | some (.list items) => (items.mapM indexItem?).map List.eraseDups
  | some .null => some []
  | _ => none

/-- How a list of keys is written. -/
def indexText (keys : List String) : String :=
  "[" ++ Text.join "," (keys.map Json.stringText) ++ "]"

/-- The keys that the platform's store holds for a service. -/
def readIndex (service : String) : Action (List String) := do
  let keyring ← answering
  match keyring.get? service indexAccount with
  | none => return []
  | some text =>
    match readIndex? text with
    | some keys => return keys
    | none => throw .corruptIndex

/-- Changes the list of keys. -/
def updateIndex (service : String) (change : List String → List String) : Action Unit := do
  let keys ← readIndex service
  modify fun g => { g with
    keyring := g.keyring.put service indexAccount (indexText (change keys)) }

/-! ## The file -/

/-- What is wrong with a draft that cannot take the place of its file. -/
def moveFault (draft path : String) (cause : FileError) : FileError :=
  ⟨.moving, draft ++ " " ++ path,
    if cause.fault == .isDirectory then .alreadyThere else cause.fault⟩

/-- Writes the secrets of a file, first under another name. A draft that cannot take the place of
the file stays where it is. -/
def save (path service : String) (secrets : List (String × String)) : Action Unit := do
  let g ← get
  let content := FileContent.sealed service secrets
  let draft := path ++ ".tmp"
  match g.disk.write g.here draft content with
  | .error cause => throw (.file cause)
  | .ok drafted =>
    set { g with disk := drafted }
    match drafted.write g.here path content with
    | .error cause => throw (.file (moveFault draft path cause))
    | .ok disk =>
      set { g with disk := disk.removeTree (Disk.placeOf (Path.absolute g.here draft)) }

/-- Changes the secrets of a file: first those in memory, then those on the disk. -/
def storeFile (path service : String) (secrets : List (String × String)) : Action Unit := do
  modify fun g => { g with backend := .file path service secrets }
  save path service secrets

/-! ## Operations -/

/-- Sets a secret. -/
def put (account value : String) : Action Unit := do
  match (← get).backend with
  | .memory secrets => modify fun g => { g with backend := .memory (putField account value secrets) }
  | .broken fault => throw (.other fault)
  | .file path service secrets => storeFile path service (putField account value secrets)
  | .keyring service =>
    checkSize account (Text.byteCount value)
    let _ ← answering
    modify fun g => { g with keyring := g.keyring.put service account value }
    updateIndex service fun keys => if keys.contains account then keys else keys ++ [account]

/-- The value of a secret, if there is one. -/
def find (account : String) : Action (Option String) := do
  match (← get).backend with
  | .memory secrets => return secrets.lookup account
  | .broken fault => throw (.other fault)
  | .file _ _ secrets => return secrets.lookup account
  | .keyring service => return (← answering).get? service account

/-- Removes a secret. -/
def remove (account : String) : Action Unit := do
  match (← get).backend with
  | .memory secrets => modify fun g => { g with backend := .memory (eraseField account secrets) }
  | .broken fault => throw (.other fault)
  | .file path service secrets =>
    if (secrets.lookup account).isSome then storeFile path service (eraseField account secrets)
  | .keyring service =>
    let _ ← answering
    modify fun g => { g with keyring := g.keyring.erase service account }
    updateIndex service fun keys => keys.filter (· != account)

/-- All accounts that hold a secret. -/
def accounts : Action (List String) := do
  match (← get).backend with
  | .memory secrets => return secrets.map (·.1)
  | .broken fault => throw (.other fault)
  | .file _ _ secrets => return secrets.map (·.1)
  | .keyring service => readIndex service

end PageMacro.Secret
