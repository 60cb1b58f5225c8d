import PageMacro.Cache.Manager
import PageMacro.Disk.Basic
import PageMacro.Fetch.Auth
import PageMacro.Fetch.Backoff
import PageMacro.Log
import PageMacro.Url.Resolve

/-!
# Making requests

A location is resolved against the base of the page: a directory or a network location. Files are
read from the disk. A `GET` of a network location is answered from the cache if it can be, and its
answer is kept there; it is tried again while the outcomes are inconclusive, but not once an attempt
has been interrupted. The network itself is a function of the request and its own state.
-/

namespace PageMacro.Fetch

/-- An answer from the network. -/
structure Response where
  status : Nat
  body : String := ""
  deriving BEq, DecidableEq, Repr

/-- What becomes of one attempt. -/
inductive Outcome where
  | answered (r : Response)
  /-- There is no answer. -/
  | failed
  /-- The attempt came to its end before there was an answer: its time was up, or the request was
  cancelled. -/
  | interrupted
  deriving BEq, DecidableEq, Repr

/-- Whether another attempt may do better: there is no answer, or the server is at fault or
overloaded. -/
def inconclusive : Outcome → Bool
  | .answered r => 500 ≤ r.status || r.status == 429
  | .failed | .interrupted => true

/-- When requests are tried again. -/
structure Retry where
  /-- How often a request is tried at most; it is always tried once. -/
  attempts : Int
  backoff : Backoff
  deriving BEq, DecidableEq, Repr

/-- The usual attempts and waits. -/
def Retry.standard : Retry :=
  { attempts := 3, backoff := { base := ⟨200000000⟩, limit := .seconds 5 } }

/-- Where answers are kept. -/
inductive Shelf where
  | absent
  /-- A cache that only fails, in these words. -/
  | broken (fault : String)
  | cache (m : Cache.Manager)
  deriving BEq, DecidableEq, Repr

/-- What a client knows of its page. -/
structure Client where
  /-- The directory or network location that references are taken from. -/
  base : String := ""
  agent : String := "dotpipe/dev"
  credentials : Credentials := []
  /-- How long each attempt may take. -/
  timeout : Duration := .seconds 30
  retry : Option Retry := some .standard
  /-- The key under which the answer for a location is kept. -/
  keyOf : String → String := fun target => Cache.key "fetch" ["GET", target]

/-- What requests change: the state of the network, the kept answers and the log. -/
structure Desk (σ : Type) where
  network : σ
  shelf : Shelf := .absent
  log : List Record := []

/-- The network: the outcome of a request. -/
abbrev Network (σ : Type) := Sent → σ → Outcome × σ

/-- The time that it takes to see that there is no network. -/
def glance : Duration := ⟨1000⟩

/-- The outcome of a request where there is no network. -/
def offline (r : Sent) : Outcome :=
  if 0 < r.limit.nanoseconds && r.limit.nanoseconds < glance.nanoseconds then .interrupted
  else .failed

/-! ## Locations -/

/-- Whether references are taken from a network location. -/
def isNetworkBase (base : String) : Bool :=
  Text.beginsWith "http://" base || Text.beginsWith "https://" base

/-- The location that a reference means. -/
def resolve (base raw : String) : Except Error Url := do
  let some reference := Url.parse? raw | throw (.badUrl raw)
  if ["http", "https", "file"].contains reference.scheme then return reference
  else if !reference.scheme.isEmpty then throw (.unsupportedScheme reference.scheme)
  else if isNetworkBase base then
    let some u := Url.parse? base | throw (.badBase base)
    return u.resolve reference
  else
    let path := reference.path
    return { scheme := "file"
             path := if !Path.isAbsolute path || !base.isEmpty then Path.join base path else path }

/-- The content of a file. -/
def readFile (disk : Disk) (here path : String) : Except Error String :=
  match disk.read here path with
  | .ok content => .ok content.asText
  | .error cause => .error (.unreadable path cause)

/-! ## One attempt -/

/-- The type that a body is announced as. -/
def bodyType (body : String) : String :=
  if Text.beginsWith "\x7b" (Text.trim body) then "application/json"
  else "application/x-www-form-urlencoded"

/-- The request that is sent for a location. The location may name a user, who is then asked for
unless there are credentials. -/
def Client.compose (c : Client) (method : String) (url : Url) (body : String) : Sent :=
  let r : Sent := { method, url := url.withoutEmptyPort, body, limit := c.timeout }
  let r := c.credentials.apply (r.setHeader "User-Agent" c.agent)
  let r := if body.isEmpty then r else r.setHeader "Content-Type" (bodyType body)
  match url.user with
  | some user =>
    if ((r.headers.lookup "Authorization").getD "").isEmpty then
      r.setHeader "Authorization" (Auth.basicValue user.name (user.password.getD ""))
    else r
  | none => r

/-- The longest body that is read. -/
def bodyLimit : Nat := 10 * 1024 * 1024

/-- A body up to the limit. -/
def limitedBody (body : String) : String :=
  if Text.byteCount body ≤ bodyLimit then body else Text.byteSlice body 0 bodyLimit

/-- What an outcome means for the request. -/
def conclude (method target : String) : Outcome → Except Error String
  | .answered r =>
    if 200 ≤ r.status && r.status ≤ 299 then .ok (limitedBody r.body)
    else .error (.status method target r.status)
  | .failed | .interrupted => .error (.transport method target)

/-! ## Attempts -/

/-- How often a request is tried. -/
def Client.attempts (c : Client) (method : String) : Nat :=
  match c.retry with
  | some retry => if method == "GET" then (max 1 retry.attempts).toNat else 1
  | none => 1

/-- Reports a further attempt. -/
def retryRecord (target : String) (number : Nat) (wait : Duration) : Record :=
  ⟨.debug, "retrying request", [("url", .text target), ("attempt", .text (toString number)),
    ("delay", .text wait.text)]⟩

/-- Tries a request up to `more` times beyond this one, as long as the outcomes are inconclusive. An
attempt that is interrupted is not made again, and then it is the fault as it is that is given, not
what it means for the request. -/
def tryFrom {σ : Type} (network : Network σ) (backoff : Nat → Duration) (method target : String)
    (r : Sent) : (more number : Nat) → Desk σ → Except Error String × Desk σ
  | 0, _, desk =>
    let (outcome, net) := network r desk.network
    (conclude method target outcome, { desk with network := net })
  | more + 1, number, desk =>
    let (outcome, net) := network r desk.network
    let desk := { desk with network := net }
    if inconclusive outcome then
      if outcome = .interrupted then (.error .interrupted, desk)
      else
        let record := retryRecord target (number + 1) (backoff (number - 1))
        tryFrom network backoff method target r more (number + 1)
          { desk with log := desk.log ++ [record] }
    else (conclude method target outcome, desk)

/-- Whether a method is a word. -/
def isMethod (method : String) : Bool := !method.isEmpty && method.toList.all isTokenChar

/-- Sends a request to a network location, trying it again if that may help. A cancelled request is
interrupted before it is sent. -/
def Client.send {σ : Type} (c : Client) (network : Network σ) (cancelled : Bool)
    (method target body : String) (desk : Desk σ) : Except Error String × Desk σ :=
  if !isMethod method then (.error (.badMethod method target), desk)
  else match Url.parse? target with
    | none => (.error (.transport method target), desk)
    | some url =>
      let reached : Network σ := if cancelled then fun _ state => (.interrupted, state) else network
      let backoff (n : Nat) : Duration := match c.retry with
        | some retry => retry.backoff.wait n
        | none => ⟨0⟩
      tryFrom reached backoff method target (c.compose method url body) (c.attempts method - 1) 1
        desk

/-! ## Kept answers -/

/-- A record about a kept answer. -/
def shelfRecord (level : Level) (message target : String) (fault : Option String) : Record :=
  ⟨level, message, ("url", .text target) :: match fault with
    | some fault => [("error", .text fault)]
    | none => []⟩

/-- The answer kept under a key. -/
def Desk.recall {σ : Type} (desk : Desk σ) (key target : String) : Option String × Desk σ :=
  match desk.shelf with
  | .absent => (none, desk)
  | .broken fault =>
    (none, { desk with
      log := desk.log ++ [shelfRecord .warn "cache read failed" target (some fault)] })
  | .cache m =>
    let (found, m) := m.get key
    let desk := { desk with shelf := .cache m }
    match found with
    | some body =>
      (some body, { desk with log := desk.log ++ [shelfRecord .debug "cache hit" target none] })
    | none => (none, desk)

/-- Keeps an answer under a key. -/
def Desk.keep {σ : Type} (desk : Desk σ) (key target body : String) : Desk σ :=
  match desk.shelf with
  | .absent => desk
  | .broken fault =>
    { desk with log := desk.log ++ [shelfRecord .warn "cache write failed" target (some fault)] }
  | .cache m => { desk with shelf := .cache (m.set key body) }

/-- Gets a network location, from the kept answers if possible. -/
def Client.get {σ : Type} (c : Client) (network : Network σ) (cancelled : Bool) (target : String)
    (desk : Desk σ) : Except Error String × Desk σ :=
  let key := c.keyOf target
  match desk.recall key target with
  | (some body, desk) => (.ok body, desk)
  | (none, desk) =>
    match c.send network cancelled "GET" target "" desk with
    | (.ok body, desk) => (.ok body, desk.keep key target body)
    | (.error e, desk) => (.error e, desk)

/-- The method of a request; none stands for `GET`. -/
def Request.verb (r : Request) : String :=
  let method := Text.upper r.method
  if method.isEmpty then "GET" else method

/-- Makes a request; files are read from the disk. -/
def Client.perform {σ : Type} (c : Client) (network : Network σ) (disk : Disk) (here : String)
    (request : Request) (cancelled : Bool) (desk : Desk σ) : Except Error String × Desk σ :=
  match resolve c.base request.url with
  | .error e => (.error e, desk)
  | .ok location =>
    if location.scheme == "file" then
      if request.verb == "GET" then (readFile disk here location.path, desk)
      else (.error (.notForFiles request.verb location.path), desk)
    else if request.verb == "GET" then c.get network cancelled location.text desk
    else c.send network cancelled request.verb location.text request.body desk

end PageMacro.Fetch
