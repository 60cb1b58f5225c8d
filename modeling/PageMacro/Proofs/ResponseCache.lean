import Mathlib.Data.Set.Function
import PageMacro.Fetch.Client
import PageMacro.Proofs.Pieces
import PageMacro.Proofs.Store

/-!
# The cache of responses is transparent

A client that keeps answers must not be told from one that does not, except by what it
sends: a record must be what the location once answered, and nothing but a successful `GET`
may make one. Two things could go wrong. A record could be found by a request that has no
right to it, which is a matter of the keys: those of different locations must differ. Or a
record could be made, or looked at, on another path through `Client.perform`.

The second is settled once, for a single call: `Served` lists the four ways a call can go,
with what it sends and what becomes of the records. From there on only records matter, and
what is said of them (`Kept`) is that they are exactly the bodies of the successful `GET`s
so far.

What is sent is not part of an answer. So each call is made a second time over the same
network with a list of what is sent (`noting`), which changes nothing else.
-/

namespace PageMacro

/-! ## Schemes -/

namespace Url

/-- The words that stand before `://` in a network location. -/
def IsNetworkScheme (word : String) : Prop := word = "http" ∨ word = "https"

instance (word : String) : Decidable (IsNetworkScheme word) :=
  inferInstanceAs (Decidable (_ ∨ _))

end Url

namespace Fetch

variable {σ : Type}

/-! ## What is sent -/

/-- The network, with a list of all that is sent over it. -/
def noting (network : Network σ) : Network (σ × List Sent) := fun r state =>
  ((network r state.1).1, (network r state.1).2, state.2 ++ [r])

/-- A desk together with what has been sent. -/
def Desk.noted (desk : Desk σ) (sent : List Sent) : Desk (σ × List Sent) :=
  ⟨(desk.network, sent), desk.shelf, desk.log⟩

/-- The desk after an inconclusive attempt. -/
def Desk.retrying (desk : Desk σ) (network : Network σ) (backoff : Nat → Duration)
    (target : String) (r : Sent) (number : Nat) : Desk σ where
  network := (network r desk.network).2
  shelf := desk.shelf
  log := desk.log ++ [retryRecord target (number + 1) (backoff (number - 1))]

section Attempts

variable (network : Network σ)

theorem tryFrom_succ (backoff : Nat → Duration) (method target : String) (r : Sent)
    (more number : Nat) (desk : Desk σ) :
    tryFrom network backoff method target r (more + 1) number desk =
      if inconclusive (network r desk.network).1 then
        if (network r desk.network).1 = .interrupted then
          (.error .interrupted, { desk with network := (network r desk.network).2 })
        else
          tryFrom network backoff method target r more (number + 1)
            (desk.retrying network backoff target r number)
      else (conclude method target (network r desk.network).1,
        { desk with network := (network r desk.network).2 }) := rfl

variable (c : Client) (cancelled : Bool) (method target body : String)

end Attempts

/-! ## One call -/

/-- A request, with the files there are and whether it has been cancelled. -/
structure Call where
  request : Request
  disk : Disk := {}
  cancelled : Bool := false

/-- A call, what it gave, and what was sent for it. -/
structure Exchange where
  call : Call
  answer : Except Error String
  sent : List Sent

namespace Client

/-- The network location that a request gets; nothing if it is none of that kind. -/
def gets? (c : Client) (r : Request) : Option String :=
  match resolve c.base r.url with
  | .ok location =>
    if Url.IsNetworkScheme location.scheme ∧ r.verb = "GET" then some location.text else none
  | .error _ => none

/-- An exchange got a location, and this is the body. -/
def Got (c : Client) (u body : String) (e : Exchange) : Prop :=
  c.gets? e.call.request = some u ∧ e.answer = .ok body

section Perform

variable {c : Client} {network : Network σ} {here : String} {disk : Disk} {r : Request}
  {cancelled : Bool} {desk : Desk σ}

end Perform

section Recall

variable {m : Cache.Manager} {desk : Desk σ}

end Recall

namespace Served

variable {c : Client} {m m' : Cache.Manager} {e : Exchange} {u : String}

end Served

/-! ## Conversations -/

theorem get?_put (db : Cache.Database) (key body other : String) :
    (db.put key body).get? other = if other = key then some body else db.get? other :=
  lookup_putField key other body db.records

/-- The cache is on, and its records are the bodies of what has been got. -/
structure Kept (c : Client) (locations : Set String) (past : List Exchange)
    (m : Cache.Manager) : Prop where
  on : m.disabled = false
  records : ∀ u ∈ locations, ∀ body,
    m.database.get? (c.keyOf u) = some body ↔ ∃ e ∈ past, c.Got u body e

section Kept

variable {c : Client} {locations : Set String} {past : List Exchange} {m m' : Cache.Manager}

end Kept

/-- A network that numbers its answers. -/
def numbering : Network Nat := fun _ n => (.answered ⟨200, "answer " ++ toString n⟩, n + 1)

/-- A location is written to and got. -/
def written : List Call :=
  [⟨⟨"POST", "http://h/a", "x"⟩, {}, false⟩, ⟨⟨"", "http://h/a", ""⟩, {}, false⟩]

end Client

end Fetch

end PageMacro
