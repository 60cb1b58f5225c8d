import PageMacro.Disk.Fault
import PageMacro.Format

/-!
# Faults of the secret store

A fault names the operation and the secret it concerned, and carries the cause, which may be a fault
of that kind itself.
-/

namespace PageMacro.Secret

/-- What stands before the cause of a failed operation. -/
def concerning (operation space key : String) : String :=
  let about :=
    if space.isEmpty then ""
    else if key.isEmpty then " for namespace " ++ space
    else " for " ++ space ++ ":" ++ key
  "secret operation '" ++ operation ++ "' failed" ++ about ++ ": "

/-- The most bytes that the platform's store takes for a secret. -/
def sizeLimit : Nat := 2560

/-- Why an operation on secrets fails. -/
inductive Cause where
  | notFound
  | invalidKey
  | invalidNamespace
  | tooLarge (size : Nat)
  /-- The list of stored keys is not readable. -/
  | corruptIndex
  | file (cause : FileError)
  /-- A fault with its text only. -/
  | other (text : String)
  /-- A failed operation inside the operation. -/
  | nested (operation space key : String) (cause : Cause)
  deriving BEq, DecidableEq, Repr

/-- The wording of a cause. -/
def Cause.message : Cause → String
  | notFound => "secret not found"
  | invalidKey => "invalid secret key"
  | invalidNamespace => "invalid namespace"
  | tooLarge size =>
    "secret value too large: " ++ toString size ++ " bytes exceeds " ++ toString sizeLimit
  | corruptIndex => "corrupt secret index: " ++ Format.json.mark
  | file cause => cause.message
  | other text => text
  | nested operation space key cause => concerning operation space key ++ cause.message

/-- What a cause is about. -/
def Cause.concerns : Cause → List Concern
  | notFound => [.secretNotFound]
  | invalidKey => [.invalidKey]
  | invalidNamespace => [.invalidNamespace]
  | tooLarge _ => [.valueTooLarge]
  | corruptIndex => [.format .json]
  | file cause => cause.concerns
  | other _ => []
  | nested _ _ _ cause => cause.concerns

/-- A failed operation. -/
structure Error where
  operation : String
  space : String
  key : String
  cause : Cause
  deriving BEq, DecidableEq, Repr

/-- The wording of a failed operation. -/
def Error.message (e : Error) : String :=
  concerning e.operation e.space e.key ++ e.cause.message

/-- Why a store of secrets cannot be opened. -/
inductive OpenError where
  | directory (cause : FileError)
  | unreadable (path : String) (cause : FileError)
  /-- The file is not of the right form. -/
  | malformed (path : String)
  | wrongNonce (path : String)
  /-- The file was encrypted by another key, or changed. -/
  | notAuthentic (path : String)
  deriving BEq, DecidableEq, Repr

/-- The wording of a store that cannot be opened. -/
def OpenError.message : OpenError → String
  | directory cause => "create secrets directory: " ++ cause.message
  | unreadable path cause => "load " ++ path ++ ": " ++ cause.message
  | malformed path => "load " ++ path ++ ": " ++ Format.json.mark
  | wrongNonce path => "load " ++ path ++ ": invalid nonce size"
  | notAuthentic path => "load " ++ path ++ ": cipher: message authentication failed"

/-- What a store that cannot be opened is about. -/
def OpenError.concerns : OpenError → List Concern
  | directory cause => cause.concerns
  | unreadable _ cause => cause.concerns
  | malformed _ => [.format .json]
  | _ => []

end PageMacro.Secret
