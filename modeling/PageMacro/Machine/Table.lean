import PageMacro.Machine.World

/-!
# Registration and triggers

Registration files an entry for every element with a script. An element goes by its id, else by
the text of its script, else by a key it already has, else by a made-up key. An element that is
registered again keeps its entry; if its script has changed, its open shells are dropped.

An element may have come by several entries, under ids that it had before. Which of their keys it
goes by when it has neither id nor script is left open: a `Naming` decides.
-/

namespace PageMacro

/-- How elements with neither an id nor a script come by their keys. -/
structure Naming where
  /-- The made-up keys. -/
  fresh : Nat → String
  /-- The number of the key that an element goes by among those it has, counted around. -/
  pick : NodeId → Nat := fun _ => 0

/-- Numbers as keys, and the first of the keys that an element has. -/
def Naming.numbered : Naming := { fresh := fun n => toString n }

namespace World

/-- Whether the entry under a key belongs to an element. -/
def holds (w : World) (element : NodeId) (key : String) : Bool :=
  match w.lookup? key with
  | some e => (w.entry e).element == element
  | none => false

/-- The keys whose entries belong to an element, as they are listed. -/
def heldBy (w : World) (element : NodeId) : List String := w.order.filter (w.holds element)

/-- The key under which an element is filed already; if there are several, one of them. -/
def keyOf? (naming : Naming) (w : World) (element : NodeId) : Option String :=
  let keys := w.heldBy element
  keys[naming.pick element % keys.length]?

/-- The key for an element with a script, and the number of made-up keys after it. -/
def chooseKey (naming : Naming) (w : World) (element : NodeId) (script : String) :
    String × Nat :=
  let id := w.document.attr element "id"
  let trimmed := Text.trim script
  if !id.isEmpty then (id, w.generated)
  else if !trimmed.isEmpty then (trimmed, w.generated)
  else match w.keyOf? naming element with
    | some key => (key, w.generated)
    | none => (naming.fresh w.generated, w.generated + 1)

/-- Files a new entry under a key, in place of the one that may be there. -/
def fileEntry (w : World) (key script : String) (element : NodeId) : World :=
  let w := if (w.lookup? key).isNone then { w with order := w.order ++ [key] } else w
  let w := w.dropShells key
  let w := { w with
    entries := w.entries.push { key, script, element }
    table := putField key w.entries.size w.table }
  w.report .debug "registered entry"
    [("key", .text key), ("element", .text (w.document.label element))]

/-- Registers one element; gives its key. -/
def registerElement (naming : Naming) (w : World) (element : NodeId) : World × String :=
  let script := w.document.attr element w.scriptAttr
  let (key, generated) := w.chooseKey naming element script
  let w := { w with generated }
  match w.lookup? key with
  | some e =>
    let entry := w.entry e
    if entry.element == element then
      if entry.script == script then (w, key)
      else
        let w := w.dropShells key
        ({ w with entries := w.entries.modify e fun entry => { entry with script } }, key)
    else (w.fileEntry key script element, key)
  | none => (w.fileEntry key script element, key)

/-- Registers several elements; gives their keys in order. -/
def registerAll (naming : Naming) (w : World) : List NodeId → World × List String
  | [] => (w, [])
  | element :: rest =>
    let (w, key) := w.registerElement naming element
    let (w, keys) := registerAll naming w rest
    (w, key :: keys)

/-- Registers every element with a script; gives the keys in document order. -/
def register (naming : Naming) (w : World) : World × List String :=
  w.registerAll naming (w.document.elementsWithAttr w.scriptAttr)

/-- Forgets an entry and its open shells. -/
def remove (w : World) (key : String) : World :=
  match w.lookup? key with
  | none => w
  | some _ =>
    let w := w.dropShells key
    { w with table := eraseField key w.table, order := w.order.erase key }

/-- Sets variables of an entry; gives whether there is such an entry. -/
def loadVars (w : World) (key : String) (values : List (String × Value)) : World × Bool :=
  match w.lookup? key with
  | some e => (w.modifyEntryVars e (·.setAll values), true)
  | none => (w, false)

/-! ## Bindings -/

/-- Adds a key to an event. -/
def bind (event key : String) (bindings : List (String × List String)) :
    List (String × List String) :=
  putField event ((bindings.lookup event).getD [] ++ [key]) bindings

/-- Adds the events that one element is bound to. Buttons and elements marked for it run on a
click; the element's list of events adds others, a click only once. -/
def bindElement (w : World) (bindings : List (String × List String)) (key : String) :
    List (String × List String) :=
  match w.lookup? key with
  | none => bindings
  | some e =>
    let element := (w.entry e).element
    let clicks := w.document.tag element == "button" ||
      (w.document.attr? element "data-auto-click").isSome
    let bindings := if clicks then bind "click" key bindings else bindings
    let events := (Text.splitAtChar ';' (w.document.attr element "data-event")).map Text.trim
    events.foldl
      (fun bindings event =>
        let clicked := event == "click" && ((bindings.lookup "click").getD []).contains key
        if event.isEmpty || clicked then bindings else bind event key bindings)
      bindings

/-- The keys of the entries that each event runs. -/
def bindings (w : World) : List (String × List String) :=
  w.order.foldl w.bindElement []

/-- The keys of the entries that an event runs, in order. -/
def boundTo (w : World) (event : String) : List String :=
  (w.bindings.lookup event).getD []

end World

end PageMacro
