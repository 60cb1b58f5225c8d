import PageMacro.Proofs.Sound

/-!
# Machines that can be reached

Executions of a page take turns where one of them is suspended, and between two
turns the host may register and remove entries, load variables, change the page,
the verbs and the clock, cancel contexts, or start a new session on the same page.
`Machine.Step` is one of these events; what a machine can come to is any sequence
of them. `trigger` and `drain`, which take several turns, are such sequences too.

A turn in which the program ends is no such event: there is no machine after it. So
what holds of every machine that can be reached says nothing about one that has
`crashed`.

`Machine.Sound` holds of every machine that can be reached: the world is sound, and
every suspended execution stands on an entry and a shell that exist, has nothing
pending, and waits for something lawful.
-/

namespace PageMacro

open Execution

/-! ## The table of entries -/

namespace World

theorem ArenaSound.sublist {w w' : World} (h : w.ArenaSound) (hs : w'.shells = w.shells)
    (ho : w'.openShells.Sublist w.openShells) : w'.ArenaSound where
  nodup := h.nodup.sublist (ho.map _)
  bound := fun place s hm => hs ▸ h.bound place s (ho.subset hm)
  place := fun place s hm => by
    unfold World.shell
    rw [hs]
    exact h.place place s (ho.subset hm)

theorem mem_putField {α : Type} {name key : String} {value old : α} {fields : List (String × α)}
    (h : (key, old) ∈ putField name value fields) : old = value ∨ (key, old) ∈ fields := by
  induction fields with
  | nil => exact Or.inl (by simpa [putField] using (Prod.mk.inj (List.mem_singleton.mp h)).2)
  | cons field rest ih =>
      obtain ⟨k, v⟩ := field
      rw [putField] at h
      split at h
      · rcases List.mem_cons.mp h with heq | h
        · exact Or.inl (Prod.mk.inj heq).2
        · exact Or.inr (List.mem_cons_of_mem _ h)
      · rcases List.mem_cons.mp h with heq | h
        · exact Or.inr (heq ▸ List.mem_cons_self)
        · exact (ih h).imp_right (List.mem_cons_of_mem _)

/-- A world that is as sound as another and keeps what it had. -/
structure Keeps (w w' : World) : Prop where
  sound : w'.Sound
  grows : w.Grows w'

namespace Keeps

theorem refl {w : World} (h : w.Sound) : w.Keeps w := ⟨h, Grows.refl w⟩

theorem trans {w w' w'' : World} (h : w.Keeps w') (h' : w'.Keeps w'') : w.Keeps w'' :=
  ⟨h'.sound, h.grows.trans h'.grows⟩

end Keeps

/-- Changes that leave shells alone and at most take places off the list. -/
theorem keeps_of {w w' : World} (h : w.Sound) (hshells : w'.shells = w.shells)
    (hopen : w'.openShells.Sublist w.openShells) (hsize : w.entries.size ≤ w'.entries.size)
    (hkeys : ∀ e, e < w.entries.size → (w'.entry e).key = (w.entry e).key)
    (hstores : ∀ e, (w'.entry e).vars.Sound) (hverbs : w'.verbs.Lawful)
    (htable : ∀ key e, (key, e) ∈ w'.table → e < w'.entries.size) : w.Keeps w' :=
  { sound := ⟨h.arena.sublist hshells hopen, hstores, hverbs, htable⟩
    grows :=
      { entries := hsize
        shells := Nat.le_of_eq (hshells ▸ rfl)
        keys := hkeys
        owners := fun s _ => by unfold World.shell; rw [hshells]
        bodies := fun s _ => by unfold World.shell; rw [hshells]
        unfiled := fun _ _ ⟨place, hm⟩ => ⟨place, hopen.subset hm⟩ } }

/-- Changes beside the entries, the shells and the table. -/
theorem keeps_beside {w w' : World} (h : w.Sound) (hentries : w'.entries = w.entries)
    (hshells : w'.shells = w.shells) (hopen : w'.openShells = w.openShells)
    (htable : w'.table = w.table) (hverbs : w'.verbs.Lawful) : w.Keeps w' := by
  have hentry : ∀ e, w'.entry e = w.entry e := fun e => by unfold World.entry; rw [hentries]
  refine keeps_of h hshells (hopen ▸ List.Sublist.refl _) (Nat.le_of_eq (hentries ▸ rfl))
    (fun e _ => by rw [hentry]) (fun e => by rw [hentry]; exact h.stores e) hverbs ?_
  rw [htable, hentries]
  exact h.table

theorem keeps_report {w : World} (h : w.Sound) (level : Level) (message : String)
    (attrs : LogAttrs) : w.Keeps (w.report level message attrs) :=
  keeps_beside h rfl rfl rfl rfl h.verbs

/-- What the host does to the page, the functions, the clock and the log. -/
theorem keeps_host {w : World} (h : w.Sound) (document : Document) (globals : Option Globals)
    (now : Int) (log : List Record) : w.Keeps { w with document, globals, now, log } :=
  keeps_beside h rfl rfl rfl rfl h.verbs

/-- A new entry starts with an empty store. -/
theorem stores_push {w : World} (h : ∀ e, (w.entry e).vars.Sound) (entry : Entry)
    (he : entry.vars.Sound) (e : EntryId) :
    (({ w with entries := w.entries.push entry } : World).entry e).vars.Sound := by
  have hold := h e
  unfold World.entry at hold ⊢
  dsimp only
  rw [Array.getElem?_push]
  split
  · exact he
  · exact hold

theorem keeps_fileEntry {w : World} (h : w.Sound) (key script : String) (element : NodeId) :
    w.Keeps (w.fileEntry key script element) := by
  have hpush := stores_push h.stores { key, script, element } Store.sound_empty
  have hsize : w.entries.size ≤ (w.entries.push { key, script, element }).size := by simp
  have hkeys : ∀ e, e < w.entries.size →
      (({ w with entries := w.entries.push { key, script, element } } : World).entry e).key =
        (w.entry e).key := by
    intro e he
    unfold World.entry
    rw [Array.getElem?_push_lt he, Array.getElem?_eq_getElem he]
  have htable : ∀ k e, (k, e) ∈ putField key w.entries.size w.table →
      e < (w.entries.push { key, script, element }).size := by
    intro k e hm
    rw [Array.size_push]
    rcases mem_putField hm with rfl | hm
    · exact Nat.lt_succ_self _
    · exact Nat.lt_succ_of_lt (h.table k e hm)
  unfold fileEntry
  split
  · exact keeps_of h rfl List.filter_sublist hsize hkeys hpush h.verbs htable
  · exact keeps_of h rfl List.filter_sublist hsize hkeys hpush h.verbs htable

/-- A new script keeps the variables. -/
theorem stores_script {w : World} (h : ∀ e, (w.entry e).vars.Sound) (i : EntryId) (script : String)
    (e : EntryId) :
    (({ w with entries := w.entries.modify i fun entry => { entry with script } } : World).entry
      e).vars.Sound := by
  have hold := h e
  unfold World.entry at hold ⊢
  dsimp only
  rw [Array.getElem?_modify]
  split
  · cases hi : w.entries[e]? with
    | none => rw [hi] at hold; exact hold
    | some entry => rw [hi] at hold; exact hold
  · exact hold

theorem key_script (w : World) (i : EntryId) (script : String) (e : EntryId) :
    (({ w with entries := w.entries.modify i fun entry => { entry with script } } : World).entry
      e).key = (w.entry e).key := by
  unfold World.entry
  dsimp only
  rw [Array.getElem?_modify]
  split
  · cases w.entries[e]? <;> rfl
  · rfl

theorem keeps_registerElement {w : World} (h : w.Sound) (naming : Naming)
    (element : NodeId) : w.Keeps (w.registerElement naming element).1 := by
  unfold registerElement
  dsimp only
  generalize w.chooseKey naming element (w.document.attr element w.scriptAttr) = chosen
  obtain ⟨key, generated⟩ := chosen
  have hgen : w.Keeps { w with generated } := keeps_beside h rfl rfl rfl rfl h.verbs
  dsimp only
  split
  · split
    · split
      · exact hgen
      · -- the script has changed: the entry stays, and its shells are taken off
        have hsize : ∀ {i : EntryId} {f : Entry → Entry},
            w.entries.size = (w.entries.modify i f).size := (Array.size_modify ..).symm
        exact keeps_of h rfl List.filter_sublist (Nat.le_of_eq hsize)
          (fun e _ => key_script w _ _ e) (stores_script h.stores _ _) h.verbs
          fun k e hm => Nat.lt_of_lt_of_eq (h.table k e hm) hsize
    · exact hgen.trans (keeps_fileEntry hgen.sound _ _ _)
  · exact hgen.trans (keeps_fileEntry hgen.sound _ _ _)

theorem keeps_remove {w : World} (h : w.Sound) (key : String) : w.Keeps (w.remove key) := by
  unfold remove
  split
  · exact Keeps.refl h
  · exact keeps_of h rfl List.filter_sublist (Nat.le_refl _) (fun _ _ => rfl) h.stores h.verbs
      fun k e hm => h.table k e (List.mem_filter.mp hm).1

theorem keeps_loadVars {w : World} (h : w.Sound) (key : String) (values : List (String × Value)) :
    w.Keeps (w.loadVars key values).1 := by
  unfold loadVars
  split
  · rename_i e he
    have hlt := h.table key e (mem_of_lookup he)
    have hsize := entries_size_modifyEntryVars w e (·.setAll values)
    refine keeps_of h rfl (List.Sublist.refl _) (Nat.le_of_eq hsize.symm)
      (fun i _ => entry_key_modifyEntryVars w e i _) (fun i => ?_) h.verbs
      fun k i hm => Nat.lt_of_lt_of_eq (h.table k i hm) hsize.symm
    dsimp only
    rw [entry_modifyEntryVars w e i _ hlt]
    split
    · exact (Store.becomes_setAll values _).sound (h.stores e)
    · exact h.stores i
  · exact Keeps.refl h

end World

/-! ## Turns of one execution -/

namespace Execution

/-- A turn leaves a sound world that keeps what it had, and the execution at rest. -/
structure Turn (w : World) (result : World × Execution) : Prop where
  keeps : w.Keeps result.1
  rested : result.2.Rested result.1

theorem turn_run {w w' : World} {x : Execution} (h : w.Keeps w') (hx : x.AtHome w')
    (hs : x.state = .running) (hc : x.closing = []) : Turn w (run w' x) := by
  obtain ⟨hsound, hgrows, hrested⟩ := sound_run h.sound hx hs hc
  exact ⟨h.trans ⟨hsound, hgrows⟩, hrested⟩

/-- Ending with nothing pending changes nothing in the world. -/
theorem turn_finish {w w' : World} {x : Execution} (h : w.Keeps w') (hc : x.closing = [])
    (failure : Failure) : Turn w (finish (some failure) w' x) := by
  have hcommit : x.commitAll w' = (w', { x with closing := [] }) := by
    unfold commitAll commitWhere
    rw [hc]
    rfl
  unfold finish
  rw [hcommit]
  exact ⟨h, fun hs => by simp at hs⟩

theorem turn_failWait {w w' : World} {x : Execution} (h : w.Keeps w') (hc : x.closing = [])
    (wait : Wait) (f : Failure) : Turn w (failWait wait f w' x) := by
  unfold failWait verbFailed
  exact turn_finish (h.trans (World.keeps_report h.sound _ _ _)) hc _

/-- The execution that a key starts stands on an entry that is filed, and is ready to run. -/
theorem atHome_ofKey {w : World} (hw : w.Sound) {key : String} {context : Nat} {x : Execution}
    (h : ofKey? w key context = some x) : x.AtHome w ∧ x.state = .running ∧ x.closing = [] := by
  unfold ofKey? at h
  split at h
  · simp at h
  · rename_i e he
    dsimp only at h
    split at h
    · simp at h
    · rw [← Option.some.inj h]
      exact ⟨⟨⟨hw.table key e (mem_of_lookup he), fun s hs => by simp at hs⟩,
        fun s hs => by simp at hs⟩, rfl, rfl⟩

/-- The record of a start. -/
def startRecord (w : World) (key : String) (x : Execution) : World :=
  w.report .debug "run" [("key", .text key), ("segments", .text (toString x.segments.length))]

theorem start_of_ofKey {w : World} {key : String} {context : Nat} {x : Execution}
    (h : ofKey? w key context = some x) : start w key context = run (startRecord w key x) x := by
  unfold start
  rw [h]
  rfl

theorem turn_start {w : World} (hw : w.Sound) (key : String) (context : Nat) :
    Turn w (start w key context) := by
  cases h : ofKey? w key context with
  | some x =>
      obtain ⟨hx, hs, hc⟩ := atHome_ofKey hw h
      have hreport : w.Keeps (startRecord w key x) := World.keeps_report hw _ _ _
      rw [start_of_ofKey h]
      exact turn_run hreport (hreport.grows.atHome hx) hs hc
  | none =>
      unfold start
      rw [h]
      exact turn_finish (World.keeps_report hw _ _ _) rfl _

/-- The continuation of a lawful wait, at the desk of the active scope. -/
theorem keeps_atDesk {w : World} {x : Execution} (hw : w.Sound) (hp : x.Placed w)
    {act : StateM Desk Answer} (hact : Desk.Gives act fun _ => True) :
    w.Keeps (x.atDesk w act).1 := by
  rw [atDesk_eq]
  exact ⟨sound_patch hw hp (hact { vars := x.vars w }).1, grows_patch _ _ _⟩

/-- The execution that goes on with a value. -/
def resumed (x : Execution) (v : Value) : Execution :=
  { x with current := v, state := .running, wait := none }

theorem atHome_resumed {x : Execution} {w : World} (h : x.AtHome w) (v : Value) :
    (x.resumed v).AtHome w :=
  ⟨⟨h.placed.entry, h.placed.shell⟩, h.owner⟩

theorem settle_of_ok {w w' : World} {x : Execution} {wait : Wait} {answer : Answer} {v : Value}
    (hs : x.state = .suspended) (hwait : x.wait = some wait)
    (h : x.atDesk w (wait.result.settle answer) = (w', .ok v)) :
    settle answer w x = run w' (x.resumed v) := by
  unfold settle
  rw [hs, hwait]
  dsimp only
  rw [h]
  rfl

theorem settle_of_error {w w' : World} {x : Execution} {wait : Wait} {answer : Answer} {f : Failure}
    (hs : x.state = .suspended) (hwait : x.wait = some wait)
    (h : x.atDesk w (wait.result.settle answer) = (w', .error f)) :
    settle answer w x = failWait wait f w' x := by
  unfold settle
  rw [hs, hwait]
  dsimp only
  rw [h]

/-- An execution that does not wait is left alone. -/
theorem settle_of_not_waiting {w : World} {x : Execution} (answer : Answer)
    (h : ∀ wait, x.state = .suspended → x.wait = some wait → False) :
    settle answer w x = (w, x) := by
  unfold settle
  split
  · rename_i wait hs hwait
    exact (h wait hs hwait).elim
  · rfl

theorem turn_settle {w : World} {x : Execution} (hw : w.Sound) (hx : x.Rested w) (answer : Answer) :
    Turn w (settle answer w x) := by
  by_cases hwaits : ∃ wait, x.state = .suspended ∧ x.wait = some wait
  · obtain ⟨wait, hs, hwait⟩ := hwaits
    obtain ⟨hhome, hc, hlaw⟩ := hx hs
    have hkeeps := keeps_atDesk hw hhome.placed ((hlaw wait hwait).settle answer)
    -- the continuation has run in either case; if it fails, that is the end
    rcases hdesk : x.atDesk w (wait.result.settle answer) with ⟨w', f | v⟩
    · rw [settle_of_error hs hwait hdesk]
      rw [hdesk] at hkeeps
      exact turn_failWait hkeeps hc wait f
    · rw [settle_of_ok hs hwait hdesk]
      rw [hdesk] at hkeeps
      exact turn_run hkeeps (atHome_resumed (hkeeps.grows.atHome hhome) v) rfl hc
  · rw [settle_of_not_waiting answer fun wait hs hwait => hwaits ⟨wait, hs, hwait⟩]
    exact ⟨World.Keeps.refl hw, hx⟩

theorem turn_interrupt {w : World} {x : Execution} (hw : w.Sound) (hx : x.Rested w)
    (why : Interruption) : Turn w (interrupt why w x) := by
  unfold interrupt
  split
  · rename_i wait hs hwait
    exact turn_failWait (World.Keeps.refl hw) (hx hs).2.1 wait _
  · exact ⟨World.Keeps.refl hw, hx⟩

end Execution

/-! ## Machines -/

namespace Machine

/-- The world and the execution before the first segment after an answer. -/
def resumption? (m : Machine) (i : Nat) (answer : Answer) : Option (World × Execution) :=
  match m.executions[i]? with
  | none => none
  | some x =>
    match x.state, x.wait with
    | .suspended, some wait =>
      match x.atDesk m.world (wait.result.settle answer) with
      | (w, .ok v) => some (w, x.resumed v)
      | (_, .error _) => none
    | _, _ => none

theorem resumption_cases {m : Machine} {i : Nat} {answer : Answer} {w : World} {x : Execution}
    (h : m.resumption? i answer = some (w, x)) :
    ∃ y wait v, m.executions[i]? = some y ∧ y.state = .suspended ∧ y.wait = some wait ∧
      y.atDesk m.world (wait.result.settle answer) = (w, .ok v) ∧ x = y.resumed v := by
  unfold resumption? at h
  split at h
  · simp at h
  · rename_i y hi
    split at h
    · rename_i wait hs hwait
      split at h
      · rename_i w' v hdesk
        obtain ⟨rfl, rfl⟩ := Prod.mk.inj (Option.some.inj h)
        exact ⟨y, wait, v, hi, hs, hwait, hdesk, rfl⟩
      · simp at h
    · simp at h

theorem resumption_of_waiting {m : Machine} {i : Nat} {answer : Answer} {x : Execution}
    {wait : Wait} (hi : m.executions[i]? = some x) (hs : x.state = .suspended)
    (hwait : x.wait = some wait) :
    m.resumption? i answer =
      match x.atDesk m.world (wait.result.settle answer) with
      | (w, .ok v) => some (w, x.resumed v)
      | (_, .error _) => none := by
  unfold resumption?
  rw [hi]
  dsimp only
  rw [hs, hwait]

/-- One event: a turn of an execution that the program survives, or something the host does between
turns. -/
inductive Step : Machine → Machine → Prop
  /-- An execution starts. -/
  | start (m : Machine) (key : String) (context : Nat)
      (hlive : ∀ x, ofKey? m.world key context = some x → Survives (startRecord m.world key x) x) :
      Step m (m.start key context)
  /-- The job of an execution is settled, with a value or a failure. -/
  | settle (m : Machine) (i : Nat) (answer : Answer)
      (hlive : ∀ w x, m.resumption? i answer = some (w, x) → Survives w x) :
      Step m (m.settle i answer)
  /-- A suspended execution is abandoned. -/
  | interrupt (m : Machine) (i : Nat) (why : Interruption) :
      Step m (m.update i (Execution.interrupt why))
  /-- Contexts are cancelled, the deadline is set. -/
  | control (m : Machine) (cancelled : List Nat) (deadline : Option Int) :
      Step m { m with cancelled, deadline }
  /-- A new session begins on the same page. -/
  | session (m : Machine) (deadline : Option Int) : Step m { world := m.world, deadline }
  /-- An element is registered. -/
  | register (m : Machine) (naming : Naming) (element : NodeId) :
      Step m { m with world := (m.world.registerElement naming element).1 }
  /-- An entry is removed. -/
  | remove (m : Machine) (key : String) : Step m { m with world := m.world.remove key }
  /-- Variables are loaded into an entry. -/
  | load (m : Machine) (key : String) (values : List (String × Value)) :
      Step m { m with world := (m.world.loadVars key values).1 }
  /-- The verbs are replaced. -/
  | verbs (m : Machine) (verbs : Registry) (h : verbs.Lawful) :
      Step m { m with world := { m.world with verbs } }
  /-- The page, the functions of its module, the clock or the log change. -/
  | host (m : Machine) (document : Document) (globals : Option Globals) (now : Int)
      (log : List Record) : Step m { m with world := { m.world with document, globals, now, log } }

/-- Any sequence of events. -/
inductive Leads : Machine → Machine → Prop
  | refl (m : Machine) : Leads m m
  | step {m m' m'' : Machine} : Leads m m' → Step m' m'' → Leads m m''

theorem Leads.trans {m m' m'' : Machine} (h : Leads m m') (h' : Leads m' m'') : Leads m m'' := by
  induction h' with
  | refl => exact h
  | step _ hs ih => exact ih.step hs

/-- A page before anything is registered on it. -/
def init (document : Document) (scriptAttr : String) (verbs : Registry) : Machine :=
  { world := { document, scriptAttr, verbs } }

/-- A machine that some sequence of events leads to. -/
def Reachable (m : Machine) : Prop :=
  ∃ document scriptAttr verbs, Registry.Lawful verbs ∧ Leads (init document scriptAttr verbs) m

theorem Reachable.leads {m m' : Machine} (h : Reachable m) (hl : Leads m m') : Reachable m' := by
  obtain ⟨document, scriptAttr, verbs, hv, h0⟩ := h
  exact ⟨document, scriptAttr, verbs, hv, h0.trans hl⟩

/-! ## What holds of them -/

/-- What holds of every machine that can be reached. -/
structure Sound (m : Machine) : Prop where
  /-- The world is sound. -/
  world : m.world.Sound
  /-- Every execution is at rest. -/
  rested : ∀ x, x ∈ m.executions → x.Rested m.world

theorem sound_init (document : Document) (scriptAttr : String) {verbs : Registry}
    (h : verbs.Lawful) : (init document scriptAttr verbs).Sound where
  world :=
    { arena := ⟨List.nodup_nil, fun _ _ hm => by simp [init] at hm,
        fun _ _ hm => by simp [init] at hm⟩
      stores := fun _ => Store.sound_empty
      verbs := h
      table := fun _ _ hm => by simp [init] at hm }
  rested := fun x hm => by simp [init] at hm

/-- What the host does between turns. -/
theorem sound_world {m : Machine} (h : m.Sound) {w : World} (hw : m.world.Keeps w) :
    ({ m with world := w } : Machine).Sound :=
  ⟨hw.sound, fun x hm => rested_grows (h.rested x hm) hw.grows⟩

/-- A turn of one execution leaves the others at rest. -/
theorem sound_update {m : Machine} (h : m.Sound) (i : Nat)
    {f : World → Execution → World × Execution}
    (hf : ∀ x, x.Rested m.world → Turn m.world (f m.world x)) :
    (m.update i f).Sound ∧ m.world.Grows (m.update i f).world := by
  unfold update
  split
  · rename_i x hx
    have hturn := hf x (h.rested x (Array.mem_of_getElem? hx))
    refine ⟨⟨hturn.keeps.sound, fun y hm => ?_⟩, hturn.keeps.grows⟩
    -- the others have seen the world grow and nothing else
    rcases Array.mem_or_eq_of_mem_setIfInBounds hm with hm | rfl
    · exact rested_grows (h.rested y hm) hturn.keeps.grows
    · exact hturn.rested
  · exact ⟨h, World.Grows.refl _⟩

/-- A start leaves the others at rest. -/
theorem sound_start {m : Machine} (h : m.Sound) (key : String) (context : Nat) :
    (m.start key context).Sound ∧ m.world.Grows (m.start key context).world := by
  have hturn := turn_start h.world key context
  refine ⟨⟨hturn.keeps.sound, fun x hm => ?_⟩, hturn.keeps.grows⟩
  rcases Array.mem_push.mp hm with hm | rfl
  · exact rested_grows (h.rested x hm) hturn.keeps.grows
  · exact hturn.rested

/-- **An event keeps the machine sound**, and what its world had. -/
theorem sound_step {m m' : Machine} (h : m.Sound) (hs : Step m m') :
    m'.Sound ∧ m.world.Grows m'.world := by
  have hhost : ∀ {w : World}, m.world.Keeps w →
      ({ m with world := w } : Machine).Sound ∧ m.world.Grows w :=
    fun hw => ⟨sound_world h hw, hw.grows⟩
  cases hs with
  | start key context => exact sound_start h key context
  | settle i answer => exact sound_update h i fun x hx => turn_settle h.world hx answer
  | interrupt i why => exact sound_update h i fun x hx => turn_interrupt h.world hx why
  | control cancelled deadline => exact ⟨⟨h.world, h.rested⟩, World.Grows.refl _⟩
  | session deadline => exact ⟨⟨h.world, fun x hm => by simp at hm⟩, World.Grows.refl _⟩
  | register naming element => exact hhost (World.keeps_registerElement h.world naming element)
  | remove key => exact hhost (World.keeps_remove h.world key)
  | load key values => exact hhost (World.keeps_loadVars h.world key values)
  | verbs verbs hv =>
      exact hhost (World.keeps_beside h.world rfl rfl rfl rfl hv)
  | host document globals now log => exact hhost (World.keeps_host h.world document globals now log)

theorem sound_leads {m m' : Machine} (h : m.Sound) (hl : Leads m m') :
    m'.Sound ∧ m.world.Grows m'.world := by
  induction hl with
  | refl => exact ⟨h, World.Grows.refl _⟩
  | step _ hs ih =>
      obtain ⟨hsound, hg⟩ := sound_step ih.1 hs
      exact ⟨hsound, ih.2.trans hg⟩

/-- **Every machine that can be reached is sound.** -/
theorem sound_reachable {m : Machine} (h : Reachable m) : m.Sound := by
  obtain ⟨document, scriptAttr, verbs, hv, hl⟩ := h
  exact (sound_leads (sound_init document scriptAttr hv) hl).1

/-! ## Events that take several steps -/

theorem crashed_start (m : Machine) (key : String) (context : Nat) :
    (m.start key context).crashed =
      (m.crashed || (Execution.start m.world key context).2.crashed) := by
  show ((m.executions.push (Execution.start m.world key context).2).any Execution.crashed) = _
  rw [Array.any_push]
  rfl

/-- A start that leaves the program alive is an event. -/
theorem step_start {m : Machine} {key : String} {context : Nat}
    (h : (m.start key context).crashed = false) : Step m (m.start key context) := by
  refine .start m key context fun x hx => ?_
  rw [crashed_start, Bool.or_eq_false_iff, start_of_ofKey hx] at h
  exact h.2

theorem crashed_starts (context : Nat) (keys : List String) : ∀ m : Machine, m.crashed = true →
    (keys.foldl (fun m key => m.start key context) m).crashed = true := by
  induction keys with
  | nil => exact fun _ h => h
  | cons key rest ih => exact fun m h => ih _ (by rw [crashed_start, h, Bool.true_or])

theorem leads_trigger {m : Machine} {event : String} {context : Nat}
    (h : (m.trigger event context).crashed = false) : Leads m (m.trigger event context) := by
  have hleads : ∀ (keys : List String) (m' : Machine), Leads m m' →
      (keys.foldl (fun m key => m.start key context) m').crashed = false →
      Leads m (keys.foldl (fun m key => m.start key context) m') := by
    intro keys
    induction keys with
    | nil => exact fun _ hl _ => hl
    | cons key rest ih =>
        intro m' hl hlive
        have hstart : (m'.start key context).crashed = false := by
          refine Bool.eq_false_iff.mpr fun hcrashed => ?_
          rw [List.foldl_cons, crashed_starts context rest _ hcrashed] at hlive
          simp at hlive
        exact ih _ (hl.step (step_start hstart)) hlive
  exact hleads _ m (.refl m) h

theorem leads_register (naming : Naming) (elements : List NodeId) : ∀ m : Machine,
    Leads m { m with world := (m.world.registerAll naming elements).1 } := by
  induction elements with
  | nil => exact fun m => .refl m
  | cons element rest ih =>
      intro m
      exact (Leads.refl m |>.step (.register m naming element)).trans
        (ih { m with world := (m.world.registerElement naming element).1 })

/-- The log grows by the records of a job. -/
theorem leads_log (m : Machine) (log : List Record) :
    Leads m { m with world := { m.world with log := m.world.log ++ log } } :=
  (Leads.refl m).step (.host m m.world.document m.world.globals m.world.now (m.world.log ++ log))

/-- A settlement that leaves the program alive is an event. -/
theorem step_settle {m : Machine} {i : Nat} {answer : Answer}
    (h : (m.settle i answer).crashed = false) : Step m (m.settle i answer) := by
  refine .settle m i answer fun w x hresumes => ?_
  obtain ⟨y, wait, v, hi, hs, hwait, hdesk, rfl⟩ := resumption_cases hresumes
  unfold Machine.settle update at h
  rw [hi] at h
  unfold Machine.crashed at h
  have hlt : i < m.executions.size := (Array.getElem?_eq_some_iff.mp hi).1
  have hnone := Array.any_eq_false.mp h i (by simpa using hlt)
  dsimp only at hnone
  rw [Array.getElem_setIfInBounds_self, settle_of_ok hs hwait hdesk] at hnone
  exact Bool.eq_false_iff.mpr hnone

theorem leads_perform {σ : Type} (host : Host σ) (m : Machine) (state : σ) (i : Nat)
    (h : (perform host m state i).1.crashed = false) : Leads m (perform host m state i).1 := by
  unfold perform at h ⊢
  split at h
  · exact (Leads.refl m).step (step_settle h)
  · exact (leads_log m _).step (step_settle h)
  · exact (leads_log m _).step (step_settle h)
  · exact .refl m

theorem drainFor_of_crashed {σ : Type} (host : Host σ) (fuel : Nat) {m : Machine}
    (h : m.crashed = true) (state : σ) : drainFor host fuel m state = (m, state) := by
  cases fuel with
  | zero => rfl
  | succ fuel =>
      unfold drainFor
      rw [if_pos h]

/-- **Draining is a sequence of events**, whatever its fuel, if the program is alive at the end. -/
theorem leads_drainFor {σ : Type} (host : Host σ) :
    ∀ (fuel : Nat) (m : Machine) (state : σ), (drainFor host fuel m state).1.crashed = false →
      Leads m (drainFor host fuel m state).1 := by
  intro fuel
  induction fuel with
  | zero => exact fun m _ _ => .refl m
  | succ fuel ih =>
      intro m state hlive
      by_cases hcrashed : m.crashed = true
      · rw [drainFor_of_crashed host _ hcrashed]
        exact .refl m
      · unfold drainFor at hlive ⊢
        rw [if_neg hcrashed] at hlive ⊢
        cases hnext : m.next? with
        | none => exact .refl m
        | some next =>
            obtain ⟨i, time, wake⟩ := next
            rw [hnext] at hlive
            dsimp only at hlive ⊢
            have hlater : (resume host m state i time wake).1.crashed = false := by
              refine Bool.eq_false_iff.mpr fun hended => ?_
              rw [drainFor_of_crashed host fuel hended, hended] at hlive
              simp at hlive
            have hresume : Leads m (resume host m state i time wake).1 := by
              have hclock :
                  Leads m { m with world := { m.world with now := max m.world.now time } } :=
                (Leads.refl m).step
                  (.host m m.world.document m.world.globals (max m.world.now time) m.world.log)
              unfold resume at hlater ⊢
              cases wake with
              | done => exact hclock.trans (leads_perform host _ state i hlater)
              | interrupted why => exact hclock.step (.interrupt _ i why)
            exact hresume.trans (ih _ _ hlive)

/-! ## Stretches

Where an execution runs: from the first segment after a start or a resumption to
the next suspension or the end. -/

/-- An event that lets an execution run, with the world and the execution before its first segment.
The program survives it. -/
inductive Stretch : Machine → World → Execution → Machine → Prop
  /-- It starts. -/
  | start {m : Machine} {key : String} {context : Nat} {x : Execution}
      (h : ofKey? m.world key context = some x) (hlive : Survives (startRecord m.world key x) x) :
      Stretch m (startRecord m.world key x) x (m.start key context)
  /-- Its job is settled, and its continuation gives a value. -/
  | settle {m : Machine} {i : Nat} {x : Execution} {wait : Wait} {answer : Answer} {w : World}
      {v : Value} (hi : m.executions[i]? = some x) (hs : x.state = .suspended)
      (hwait : x.wait = some wait) (h : x.atDesk m.world (wait.result.settle answer) = (w, .ok v))
      (hlive : Survives w (x.resumed v)) : Stretch m w (x.resumed v) (m.settle i answer)

theorem Stretch.survives {m m' : Machine} {w : World} {x : Execution} (h : Stretch m w x m') :
    Survives w x := by
  cases h with
  | start _ hlive => exact hlive
  | settle _ _ _ _ hlive => exact hlive

theorem Stretch.step {m m' : Machine} {w : World} {x : Execution} (h : Stretch m w x m') :
    Step m m' := by
  cases h with
  | start h hlive => exact .start m _ _ fun y hy => Option.some.inj (h.symm.trans hy) ▸ hlive
  | @settle i y wait answer w v hi hs hwait h hlive =>
      refine .settle m i answer fun w' x' hresumes => ?_
      rw [resumption_of_waiting hi hs hwait, h] at hresumes
      obtain ⟨rfl, rfl⟩ : w = w' ∧ y.resumed v = x' := by simpa using hresumes
      exact hlive

/-- **A stretch is one run.** -/
theorem Stretch.world_eq {m m' : Machine} {w : World} {x : Execution} (h : Stretch m w x m') :
    m'.world = (run w x).1 := by
  cases h with
  | start h => rw [← start_of_ofKey h]; rfl
  | settle hi hs hwait h =>
      rw [← settle_of_ok hs hwait h]
      unfold Machine.settle update
      rw [hi]

/-- A run begins in a sound world, with nothing pending. -/
structure Begins (m : Machine) (w : World) (x : Execution) : Prop where
  stage : StageSound (w, x, .next)
  closing : x.closing = []
  grows : m.world.Grows w

theorem begins_start {m : Machine} (hm : m.Sound) {key : String} {context : Nat} {x : Execution}
    (h : ofKey? m.world key context = some x) : m.Begins (startRecord m.world key x) x := by
  obtain ⟨hx, hs, hc⟩ := atHome_ofKey hm.world h
  have hreport : m.world.Keeps (startRecord m.world key x) := World.keeps_report hm.world _ _ _
  exact ⟨⟨hreport.sound, underway_of_atHome (hreport.grows.atHome hx) hs hc, trivial⟩, hc,
    hreport.grows⟩

theorem begins_settle {m : Machine} (hm : m.Sound) {i : Nat} {x : Execution} {wait : Wait}
    {answer : Answer} {w : World} {v : Value} (hi : m.executions[i]? = some x)
    (hs : x.state = .suspended) (hwait : x.wait = some wait)
    (h : x.atDesk m.world (wait.result.settle answer) = (w, .ok v)) :
    m.Begins w (x.resumed v) := by
  obtain ⟨hhome, hc, hlaw⟩ := hm.rested x (Array.mem_of_getElem? hi) hs
  have hkeeps := keeps_atDesk hm.world hhome.placed ((hlaw wait hwait).settle answer)
  rw [h] at hkeeps
  have hgo := atHome_resumed (hkeeps.grows.atHome hhome) v
  exact ⟨⟨hkeeps.sound, underway_of_atHome hgo rfl hc, trivial⟩, hc, hkeeps.grows⟩

theorem Stretch.begins {m m' : Machine} {w : World} {x : Execution} (hm : m.Sound)
    (h : Stretch m w x m') : m.Begins w x := by
  cases h with
  | start h => exact begins_start hm h
  | settle hi hs hwait h => exact begins_settle hm hi hs hwait h

/-- A stretch up to one of its moments, and from there on. -/
theorem Stretch.split {m m' : Machine} {w : World} {x : Execution} {before after : List Moment}
    {μ : Moment} (hm : m.Sound) (hs : m.Stretch w x m')
    (htrace : trace w x = before ++ μ :: after) :
    μ.world.Sound ∧ μ.exec.Underway μ.world ∧
      ∃ last, Steps after μ.after last ∧ last.2.2 ≠ .crash ∧ m'.world = (halt last).1 := by
  obtain ⟨hstage, -, -⟩ := hs.begins hm
  obtain ⟨last, hsteps, -, hlive, hhalt⟩ := runs_of_survives hstage hs.survives
  rw [htrace] at hsteps
  obtain ⟨y, hbefore, hexec, hafter⟩ := steps_split hsteps
  have hmoment := (stageSound_steps hbefore hstage).1
  exact ⟨hmoment.world, hexec ▸ underway_advance hmoment.underway, last, hafter, hlive,
    by rw [hs.world_eq, hhalt]⟩

theorem stretch_of_resumption {m : Machine} {i : Nat} {answer : Answer} {w : World} {x : Execution}
    (h : m.resumption? i answer = some (w, x)) (hlive : Survives w x) :
    m.Stretch w x (m.settle i answer) := by
  obtain ⟨y, wait, v, hi, hs, hwait, hdesk, rfl⟩ := resumption_cases h
  exact .settle hi hs hwait hdesk hlive

/-! ## Pages for examples -/

/-- A page with one element `p`, which has a script. -/
def page (script : String) (verbs : Registry) : Machine :=
  init { nodes := #[⟨.document, [⟨1⟩]⟩,
    ⟨.element "div" "" [⟨"", "id", "p"⟩, ⟨"", "inline", script⟩], []⟩] } "inline" verbs

/-- The page with its element registered. -/
def registered (m : Machine) : Machine :=
  { m with world := (m.world.registerElement .numbered ⟨1⟩).1 }

theorem reachable_registered (script : String) {verbs : Registry} (h : verbs.Lawful) :
    (registered (page script verbs)).Reachable :=
  ⟨_, _, verbs, h, (Leads.refl _).step (.register _ _ _)⟩

/-- A verb that waits for something outside. -/
def waiting : Registry := [("wait", .plain fun _ => pure (.await (.external "w")))]

theorem waiting_lawful : waiting.Lawful := by
  intro name verb h
  obtain ⟨-, rfl⟩ := Prod.mk.inj (List.mem_singleton.mp h)
  exact fun inv => Desk.gives_pure (Result.lawful_outcome _)

/-- The text that is held, if it is a text. -/
def textOf : Option Value → Option String
  | some (.string s) => some s
  | _ => none

end Machine

end PageMacro
