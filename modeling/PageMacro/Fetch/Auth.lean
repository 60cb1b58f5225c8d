import PageMacro.Duration
import PageMacro.Fetch.Error
import PageMacro.Store
import PageMacro.Text.Base64
import PageMacro.Text.Case
import PageMacro.Url.Basic
import PageMacro.Url.Query

/-!
# Credentials

A request is decorated by the credentials kept for its host, or else by those kept for any host.
-/

namespace PageMacro.Fetch

/-- A request as it is sent. -/
structure Sent where
  method : String
  url : Url
  headers : List (String × String) := []
  body : String := ""
  /-- How long an answer is waited for; without end if it is not positive. -/
  limit : Duration := ⟨0⟩
  deriving BEq, DecidableEq, Repr

/-- Characters of a word in a header. -/
def isTokenChar (c : Char) : Bool :=
  c.isAlphanum || ['!', '#', '$', '%', '&', '\'', '*', '+', '-', '.', '^', '_', '\x60', '|',
    '~'].contains c

/-- The usual spelling of a header's name: capitals at the start and after dashes. A name that is
no word stays as it is. -/
def headerName (name : String) : String :=
  if name.toList.all isTokenChar then
    Text.join "-" ((Text.splitAtChar '-' name).map fun word =>
      match word.toList with
      | [] => ""
      | c :: rest => String.ofList (c.toUpper :: rest.map Char.toLower))
  else name

/-- Sets a header. -/
def Sent.setHeader (r : Sent) (name value : String) : Sent :=
  { r with headers := putField (headerName name) value r.headers }

/-- What a request is decorated with. -/
inductive Auth where
  | basic (user password : String)
  | bearer (token : String)
  /-- A key in a header. -/
  | header (name value : String)
  /-- A key in the query. -/
  | query (name value : String)
  deriving BEq, DecidableEq, Repr

namespace Auth

/-- The header value for a user and a password. -/
def basicValue (user password : String) : String := "Basic " ++ Text.base64 (user ++ ":" ++ password)

/-- Decorates a request. -/
def apply : Auth → Sent → Sent
  | basic user password, r => r.setHeader "Authorization" (basicValue user password)
  | bearer token, r => r.setHeader "Authorization" ("Bearer " ++ token)
  | header name value, r => r.setHeader name value
  | query name value, r =>
    let pairs := Url.setPair name value (Url.readQuery r.url.query)
    { r with url := { r.url with query := Url.queryText pairs } }

/-- Credentials of a kind, with a name and a secret. -/
def ofKind (kind name secret : String) : Except Error Auth :=
  match Text.lower kind with
  | "basic" => .ok (basic name secret)
  | "bearer" => .ok (bearer secret)
  | "" => .ok (bearer secret)
  | "header" => .ok (header name secret)
  | "query" => .ok (query name secret)
  | _ => .error (.unknownAuth kind)

end Auth

/-- Credentials by host, in lower case; the empty host stands for any. -/
abbrev Credentials := List (String × Auth)

/-- Keeps credentials for a host. -/
def Credentials.add (c : Credentials) (host : String) (auth : Auth) : Credentials :=
  putField (Text.lower host) auth c

/-- Decorates a request by the credentials for its host. -/
def Credentials.apply (c : Credentials) (r : Sent) : Sent :=
  match (c.lookup (Text.lower r.url.hostName)).or (c.lookup "") with
  | some auth => auth.apply r
  | none => r

end PageMacro.Fetch
