import PageMacro.Secret.Error
import PageMacro.Text.Bytes
import PageMacro.Text.Pieces

/-!
# Accounts

A secret is filed under one name, the account, made of its namespace and its key.
-/

namespace PageMacro.Secret

/-- The account that lists the stored keys. -/
def indexAccount : String := "__index__"

/-- The account of a secret. -/
def account (space key : String) : String := space ++ ":" ++ key

/-- The namespace and the key of an account; one without a colon is in the default namespace. -/
def splitAccount (account : String) : String × String :=
  (Text.cut ':' account).getD ("default", account)

/-- How an account is shown to the user. -/
def label (service account : String) : String :=
  let (space, key) := splitAccount account
  service ++ " secret " ++ space ++ "/" ++ key

/-- Whether an account holds a secret. -/
def isSecret (account : String) : Bool := account != indexAccount && account.contains ':'

/-- Refuses a value that is too large for the platform's store. -/
def checkSize (account : String) (size : Nat) : Except Cause Unit :=
  if size ≤ sizeLimit then .ok ()
  else
    let (space, key) := splitAccount account
    .error (.nested "set" space key (.tooLarge size))

/-- Whether a text can be a namespace or a key. -/
def isName (s : String) : Bool :=
  match s.toList with
  | c :: rest => c.isAlpha && rest.all fun c => c.isAlphanum || c == '_' || c == '-'
  | [] => false

/-- Refuses texts that cannot be a namespace and a key; the namespace is looked at first. -/
def checkNames (space key : String) : Except Cause Unit :=
  if !isName space then .error .invalidNamespace
  else if !isName key then .error .invalidKey
  else .ok ()

end PageMacro.Secret
