import PageMacro.Text.Case
import PageMacro.Url.Encoding

/-!
# Locations

A location has a scheme, perhaps a user and a host, a path, perhaps a query and a fragment; one
with a scheme but no slash after it is opaque. A path and a fragment are kept decoded, together with
the form they were written in if that is not the usual one.
-/

namespace PageMacro

/-- Who asks, as written before the host. -/
structure Url.User where
  name : String
  password : Option String := none
  deriving BEq, DecidableEq, Repr

/-- A location. -/
structure Url where
  scheme : String := ""
  rest : String := ""
  user : Option Url.User := none
  host : String := ""
  path : String := ""
  /-- The path as written, if its usual encoding differs. -/
  rawPath : String := ""
  /-- There is a scheme and a rooted path, but no place for a host. -/
  noHost : Bool := false
  /-- There is a question mark with nothing after it. -/
  emptyQuery : Bool := false
  query : String := ""
  fragment : String := ""
  /-- The fragment as written, if its usual encoding differs. -/
  rawFragment : String := ""
  deriving BEq, DecidableEq, Repr, Inhabited

namespace Url

/-- What stands before and after the first `sep`; nothing stands after one that is not there. -/
def cutOr (sep : Char) (s : String) : String × String := (Text.cut sep s).getD (s, "")

/-- What stands before and after the last `sep`, if there is one. -/
def cutLast (sep : Char) (s : String) : Option (String × String) :=
  (Text.cutChars sep s.toList.reverse).map fun (after, before) =>
    (String.ofList before.reverse, String.ofList after.reverse)

/-! ## Reading -/

/-- A character that may not stand in a location. -/
def isControl (c : Char) : Bool := c.toNat < 0x20 || c.toNat == 0x7F

/-- The characters of a scheme. -/
def isSchemeChar (c : Char) : Bool := c.isAlphanum || c == '+' || c == '-' || c == '.'

/-- The scheme at the front and the rest; none if the location starts with a colon. -/
def takeScheme? (s : String) : Option (String × String) :=
  let front := s.toList.takeWhile isSchemeChar
  match s.toList.dropWhile isSchemeChar with
  | ':' :: rest =>
    match front with
    | [] => none
    | c :: _ => if c.isAlpha then some (String.ofList front, String.ofList rest) else some ("", s)
  | _ => some ("", s)

/-- Whether a text is empty or a port after its colon. -/
def isPortPart (s : String) : Bool :=
  match s.toList with
  | [] => true
  | ':' :: digits => digits.all Char.isDigit
  | _ => false

/-- Reads a host with an address between brackets; `inside` stands before the last closing one. -/
def readBracketed? (inside after : String) : Option String := do
  if !isPortPart after then none
  else if Text.contains "%25" inside then
    let (address, zone) := splitZone inside.toList []
    let address ← unescape? .host address
    let zone ← unescape? .zone zone
    let rest ← unescape? .host ("]" ++ after)
    return address ++ zone ++ rest
  else unescape? .host (inside ++ "]" ++ after)
where
  /-- Splits before the first `%25`. -/
  splitZone : List Char → List Char → String × String
    | [], front => (String.ofList front.reverse, "")
    | c :: rest, front =>
      if ['%', '2', '5'].isPrefixOf (c :: rest) then
        (String.ofList front.reverse, String.ofList (c :: rest))
      else splitZone rest (c :: front)

/-- Reads a host with its port. -/
def readHost? (s : String) : Option String :=
  if Text.beginsWith "[" s then do
    let (inside, after) ← cutLast ']' s
    readBracketed? inside after
  else
    match cutLast ':' s with
    | some (_, port) => if isPortPart (":" ++ port) then unescape? .host s else none
    | none => unescape? .host s

/-- The characters that may stand before the host. -/
def isUserChar (c : Char) : Bool :=
  c.isAlphanum || ['-', '.', '_', ':', '~', '!', '$', '&', '\'', '(', ')', '*', '+', ',', ';', '=',
    '%', '@'].contains c

/-- Reads who asks. -/
def readUser? (s : String) : Option User := do
  if !s.toList.all isUserChar then none
  else
    match Text.cut ':' s with
    | none => return { name := ← unescape? .user s }
    | some (name, password) =>
      return { name := ← unescape? .user name, password := some (← unescape? .user password) }

/-- Sets the path from its encoded form. -/
def withPath? (u : Url) (raw : String) : Option Url := do
  let path ← unescape? .path raw
  return { u with path, rawPath := if escape .path path == raw then "" else raw }

/-- Sets the fragment from its encoded form. -/
def withFragment? (u : Url) (raw : String) : Option Url := do
  let fragment ← unescape? .fragment raw
  return { u with fragment, rawFragment := if escape .fragment fragment == raw then "" else raw }

/-- Splits the query off; a single question mark at the end is an empty query. -/
def splitQuery (s : String) : String × String × Bool :=
  if Text.endsIn "?" s && s.toList.count '?' == 1 then (Text.withoutEnd "?" s, "", true)
  else let (before, query) := cutOr '?' s; (before, query, false)

/-- Reads what stands after two slashes up to the next one: who asks, and the host. -/
def readAuthority? (u : Url) (s : String) : Option Url := do
  match cutLast '@' s with
  | none => return { u with host := ← readHost? s }
  | some (user, host) =>
    let host ← readHost? host
    let user ← readUser? user
    return { u with user := some user, host }

/-- Reads the host, if there is one, and the path. -/
def readHierarchy? (u : Url) (s : String) : Option Url := do
  if Text.beginsWith "//" s && (!u.scheme.isEmpty || !Text.beginsWith "///" s) then
    let body := s.toList.drop 2
    let authority := String.ofList (body.takeWhile (· != '/'))
    let u ← readAuthority? u authority
    u.withPath? (String.ofList (body.dropWhile (· != '/')))
  else
    let u := { u with noHost := !u.scheme.isEmpty && Text.beginsWith "/" s }
    u.withPath? s

/-- Reads a location without a fragment. -/
def parseBody? (s : String) : Option Url := do
  if s.toList.any isControl then none
  else if s == "*" then return { path := "*" }
  else
    let (scheme, rest) ← takeScheme? s
    let (rest, query, emptyQuery) := splitQuery rest
    let u : Url := { scheme := Text.lower scheme, query, emptyQuery }
    if Text.beginsWith "/" rest then readHierarchy? u rest
    else if !u.scheme.isEmpty then return { u with rest }
    else if (cutOr '/' rest).1.contains ':' then none
    else readHierarchy? u rest

/-- Reads a location. -/
def parse? (s : String) : Option Url := do
  let (body, fragment) := cutOr '#' s
  let u ← parseBody? body
  if fragment.isEmpty then return u else u.withFragment? fragment

/-! ## Writing -/

/-- The encoded form of the path: as it was written, if that still stands for the path. -/
def pathText (u : Url) : String :=
  if !u.rawPath.isEmpty && keepsForm .path u.rawPath && unescape? .path u.rawPath == some u.path then
    u.rawPath
  else if u.path == "*" then "*"
  else escape .path u.path

/-- The encoded form of the fragment. -/
def fragmentText (u : Url) : String :=
  if !u.rawFragment.isEmpty && keepsForm .fragment u.rawFragment &&
      unescape? .fragment u.rawFragment == some u.fragment then u.rawFragment
  else escape .fragment u.fragment

/-- How a user is written. -/
def User.text (user : User) : String :=
  match user.password with
  | none => escape .user user.name
  | some password => escape .user user.name ++ ":" ++ escape .user password

/-- What is written between the scheme and the path. -/
def authorityText (u : Url) : String :=
  if (u.scheme.isEmpty && u.host.isEmpty && u.user.isNone) ||
      (u.noHost && u.host.isEmpty && u.user.isNone) then ""
  else
    (if !u.host.isEmpty || !u.path.isEmpty || u.user.isSome then "//" else "") ++
      (match u.user with
        | some user => user.text ++ "@"
        | none => "") ++
      escape .host u.host

/-- What is written between the scheme and the query. -/
def bodyText (u : Url) : String :=
  if !u.rest.isEmpty then u.rest
  else
    let path := u.pathText
    let front := u.authorityText
    let slash := if !path.isEmpty && !Text.beginsWith "/" path && !u.host.isEmpty then "/" else ""
    let dot :=
      if u.scheme.isEmpty && (front ++ slash).isEmpty && (cutOr '/' path).1.contains ':' then "./"
      else ""
    front ++ slash ++ dot ++ path

/-- How a location is written. -/
def text (u : Url) : String :=
  (if u.scheme.isEmpty then "" else u.scheme ++ ":") ++ u.bodyText ++
    (if u.emptyQuery || !u.query.isEmpty then "?" ++ u.query else "") ++
    (if u.fragment.isEmpty then "" else "#" ++ u.fragmentText)

/-- The host without its port and brackets. -/
def hostName (u : Url) : String :=
  let host :=
    match cutLast ':' u.host with
    | some (front, port) => if isPortPart (":" ++ port) then front else u.host
    | none => u.host
  if Text.beginsWith "[" host && Text.endsIn "]" host then
    Text.withoutEnd "]" (Text.withoutStart "[" host)
  else host

/-- The location without a colon that no port follows. -/
def withoutEmptyPort (u : Url) : Url := { u with host := Text.withoutEnd ":" u.host }

end Url

end PageMacro
