import PageMacro.Config.Basic
import PageMacro.Failure
import PageMacro.Fetch.Auth

/-!
# Credentials from the secret store
-/

namespace PageMacro

/-- Why a host gets no credentials. -/
inductive CredentialError where
  | noStore
  | secret (cause : Failure)
  | kind (cause : Fetch.Error)
  deriving Repr

/-- The wording of missing credentials. -/
def CredentialError.message : CredentialError → String
  | noStore => "no secret store"
  | secret cause => cause.message
  | kind cause => cause.message

/-- The credentials that an entry of the configuration means, by a reader of secrets. -/
def CredentialEntry.resolve (c : CredentialEntry) (space : String)
    (read : Option (String → String → Except Failure String)) :
    Except CredentialError Fetch.Auth :=
  match read with
  | none => .error .noStore
  | some read => do
    let secret ← (read space c.secret).mapError .secret
    (Fetch.Auth.ofKind c.kind c.name secret).mapError .kind

end PageMacro
