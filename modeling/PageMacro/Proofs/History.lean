import PageMacro.Proofs.Reachable

/-!
# Histories

`Machine.Step` relates two machines and does not say which execution did what. Here
the events are data: a `Happening` is a turn of one execution or something the host
does, `after` is the machine that it leads to, and a history is a list of them. So one
can speak of the run that a happening sets off (`running?`) and of all the segments
that one execution steps in a history (`course`).

The program may end in a run (`fatal`). What a happening sets off and what it makes of
the machine are `setsOff?` and `turn`, survived or not; `running?` and `after` are the
same for the happenings that are survived, and nothing for the others.

`Fate` lists what a happening can do to the execution with a given number. It is what
`Goes` is for a single segment: later modules take `fate_after` and do not look into
`start`, `settle` and `interrupt` again. What a happening does to the world if it sets
off no run is `beside_after`.
-/

namespace PageMacro

open Execution

/-! ## Ends without pending closes -/

namespace Execution

/-- The execution after it has given up. -/
def gaveUp (x : Execution) (failure : Failure) : Execution :=
  { x with closing := [], failure := some failure, value := x.current, wait := none,
           state := .abandoned }

/-- Ending with nothing pending leaves the world alone. -/
theorem finish_of_closing_nil {x : Execution} (hc : x.closing = []) (failure : Failure)
    (w : World) : finish (some failure) w x = (w, x.gaveUp failure) := by
  unfold finish commitAll commitWhere
  rw [hc]
  rfl

/-- The failure of a wait, as the execution reports it. -/
def waitFailure (wait : Wait) (f : Failure) : Failure :=
  .verb (Segment.verbParts wait.segment).1 (Segment.verbParts wait.segment).2 f

/-- The world with the record of a failed wait. -/
def waitRecord (x : Execution) (wait : Wait) (f : Failure) (w : World) : World :=
  x.verbFailed w (Segment.verbParts wait.segment).1 (Segment.verbParts wait.segment).2 f

/-- **A failed wait adds one record**, and the execution is abandoned. -/
theorem failWait_of_closing_nil {x : Execution} (hc : x.closing = []) (wait : Wait) (f : Failure)
    (w : World) :
    failWait wait f w x = (x.waitRecord wait f w, x.gaveUp (waitFailure wait f)) := by
  unfold failWait
  exact finish_of_closing_nil hc _ _

/-- The execution of a key that has no script. -/
def unstarted (w : World) (context : Nat) : Execution :=
  { entry := w.entries.size, key := "", trigger := Document.root, segments := [], context }

/-- It is abandoned at once. -/
def refused (w : World) (key : String) (context : Nat) : Execution :=
  (unstarted w context).gaveUp (.unknownEntry key)

/-- The world with the record of a start without a script. -/
def refusedRecord (w : World) (key : String) : World :=
  w.report .warn "no script registered" [("key", .text key)]

theorem start_of_none {w : World} {key : String} {context : Nat}
    (h : ofKey? w key context = none) :
    start w key context = (refusedRecord w key, refused w key context) := by
  unfold start
  rw [h]
  exact finish_of_closing_nil rfl _ _

/-- An execution is at its end. -/
def Over (x : Execution) : Prop := x.state = .finished ∨ x.state = .abandoned

/-! ## Steps and keys -/

/-- A step keeps the key of the execution's entry. -/
theorem key_step {x : Execution} {w : World} {segment : String} {r : Stepped}
    (h : Goes x w segment r) : (r.1.entry r.2.1.entry).key = (w.entry x.entry).key := by
  cases h with
  | patches p c v => rw [patch_entry_vars]
  | closes s name => rfl
  | enters target name s log => rw [patch_entry_vars]; rfl
  | makes target name log =>
      show ((x.patch w (x.dueMerged w name log)).entry x.entry).key = _
      rw [patch_entry_vars]

theorem key_steps {trace : List Moment} {r₀ r : Stepped} (hsteps : Steps trace r₀ r) :
    StageSound r₀ → (r.1.entry r.2.1.entry).key = (r₀.1.entry r₀.2.1.entry).key := by
  induction hsteps with
  | nil r => exact fun _ => rfl
  | @cons w x segment trace r hseg rest ih =>
      intro hr
      have hw : w.Sound := hr.world
      have hx : x.advance.Underway w := underway_advance hr.underway
      have hgoes := step_goes hx.placed segment
      rw [ih (stageSound_step hw hx hgoes).1, key_step hgoes]
      rfl

/-- So does a run. -/
theorem key_run {w : World} {x : Execution} (hstage : StageSound (w, x, .next)) :
    ((run w x).1.entry (run w x).2.entry).key = (w.entry x.entry).key := by
  obtain ⟨last, _, _, hsteps, -, -, hworld, hentry⟩ := run_patch hstage
  rw [hworld, hentry, patch_entry_vars]
  exact key_steps hsteps hstage

/-- A step files no shell under another key. -/
theorem filed_step {x : Execution} {w : World} {segment key : String} {r : Stepped}
    (h : Goes x w segment r) (hne : (w.entry x.entry).key ≠ key) (name : String) (s : ShellId)
    (hs : ((key, name), s) ∈ r.1.openShells) : ((key, name), s) ∈ w.openShells := by
  cases h with
  | patches p c v => exact patch_openShells p ▸ hs
  | closes t other => exact (World.mem_unfile.mp hs).1
  | enters target other t log => exact patch_openShells (x.dueMerged w other log) ▸ hs
  | makes target other log =>
      rcases World.mem_file.mp hs with hs | heq
      · exact patch_openShells (x.dueMerged w other log) ▸ hs
      · exact absurd (congrArg (fun pair => pair.1.1) heq).symm hne

/-- Nor does a chain of steps. -/
theorem filed_steps {trace : List Moment} {r₀ r : Stepped} {key : String}
    (hsteps : Steps trace r₀ r) : StageSound r₀ → (r₀.1.entry r₀.2.1.entry).key ≠ key →
      ∀ name s, ((key, name), s) ∈ r.1.openShells → ((key, name), s) ∈ r₀.1.openShells := by
  induction hsteps with
  | nil r => exact fun _ _ _ _ hs => hs
  | @cons w x segment trace r hseg rest ih =>
      intro hr hne name s hs
      have hw : w.Sound := hr.world
      have hx : x.advance.Underway w := underway_advance hr.underway
      have hgoes := step_goes hx.placed segment
      have hne' : (w.entry x.advance.entry).key ≠ key := hne
      have hnext := ih (stageSound_step hw hx hgoes).1
      rw [key_step hgoes] at hnext
      exact filed_step hgoes hne' name s (hnext hne' name s hs)

end Execution

/-! ## Registrations -/

instance : LawfulBEq NodeId where
  eq_of_beq {a b} h := by
    obtain ⟨i⟩ := a
    obtain ⟨j⟩ := b
    exact congrArg NodeId.mk (eq_of_beq (α := Nat) h)
  rfl {a} := beq_self_eq_true a.index

namespace World

/-- The script of an element. -/
def scriptOf (w : World) (element : NodeId) : String := w.document.attr element w.scriptAttr

/-- The entry under a key belongs to an element. -/
def Holds (w : World) (element : NodeId) (key : String) : Prop :=
  ∃ e, w.lookup? key = some e ∧ (w.entry e).element = element

/-- The three ways a registration of an element under a key can go. -/
inductive Registers (w : World) (element : NodeId) (key : String) (generated : Nat) : World → Prop
  /-- The element has its entry, with the same script. -/
  | known (e : EntryId) (hfind : w.lookup? key = some e) (helement : (w.entry e).element = element)
      (hscript : (w.entry e).script = w.scriptOf element) :
      Registers w element key generated { w with generated }
  /-- The element has its entry, with another script. -/
  | changed (e : EntryId) (hfind : w.lookup? key = some e)
      (helement : (w.entry e).element = element) (hscript : (w.entry e).script ≠ w.scriptOf element) :
      Registers w element key generated
        { ({ w with generated } : World).dropShells key with
          entries := w.entries.modify e fun entry => { entry with script := w.scriptOf element } }
  /-- A new entry is filed. -/
  | filed (hother : ¬ w.Holds element key) :
      Registers w element key generated
        (({ w with generated } : World).fileEntry key (w.scriptOf element) element)

/-- **Every registration goes one of the three ways**, under the key that is chosen. -/
theorem registers (w : World) (naming : Naming) (element : NodeId) :
    ∃ key generated, w.chooseKey naming element (w.scriptOf element) = (key, generated) ∧
      (w.registerElement naming element).2 = key ∧
      w.Registers element key generated (w.registerElement naming element).1 := by
  obtain ⟨⟨key, generated⟩, hchosen⟩ :
    ∃ chosen, w.chooseKey naming element (w.scriptOf element) = chosen := ⟨_, rfl⟩
  refine ⟨key, generated, hchosen, ?_⟩
  unfold registerElement
  dsimp only
  rw [show w.document.attr element w.scriptAttr = w.scriptOf element from rfl, hchosen]
  dsimp only
  split
  · rename_i e hfind
    split
    · rename_i helement
      split
      · rename_i hscript
        exact ⟨rfl, .known e hfind (eq_of_beq helement) (eq_of_beq hscript)⟩
      · rename_i hscript
        refine ⟨rfl, .changed e hfind (eq_of_beq helement) fun heq => hscript ?_⟩
        exact beq_iff_eq.mpr heq
    · rename_i helement
      refine ⟨rfl, .filed ?_⟩
      rintro ⟨i, hi, rfl⟩
      rw [Option.some.inj (hi.symm.trans hfind)] at helement
      exact helement (beq_self_eq_true _)
  · rename_i hnone
    refine ⟨rfl, .filed ?_⟩
    rintro ⟨i, hi, -⟩
    exact Option.some_ne_none i (hi.symm.trans hnone)

theorem Registers.openShells {w w' : World} {element : NodeId} {key : String} {generated : Nat}
    (h : w.Registers element key generated w') : w'.openShells.Sublist w.openShells := by
  cases h with
  | known e => exact List.Sublist.refl _
  | changed e => exact List.filter_sublist
  | filed hother =>
      unfold fileEntry
      dsimp only
      split
      · exact List.filter_sublist
      · exact List.filter_sublist

/-- The same entries are filed under the same keys, and keep all but their variables. -/
structure SameFiling (w w' : World) : Prop where
  scriptAttr : w'.scriptAttr = w.scriptAttr
  table : w'.table = w.table
  order : w'.order = w.order
  generated : w'.generated = w.generated
  entries : ∀ e, w'.entry e = { w.entry e with vars := (w'.entry e).vars }

namespace SameFiling

/-- Changes to the page, the verbs, the shells, the clock and the log. -/
theorem of_entries_eq {w w' : World} (hattr : w'.scriptAttr = w.scriptAttr)
    (htable : w'.table = w.table) (horder : w'.order = w.order)
    (hgenerated : w'.generated = w.generated) (hentries : w'.entries = w.entries) :
    w.SameFiling w' where
  scriptAttr := hattr
  table := htable
  order := horder
  generated := hgenerated
  entries := fun e => by unfold World.entry; rw [hentries]

theorem refl (w : World) : w.SameFiling w := of_entries_eq rfl rfl rfl rfl rfl

theorem patch (x : Execution) (w : World) (p : Patch) : w.SameFiling (x.patch w p) where
  scriptAttr := by unfold Execution.patch modifyVars; cases x.shell <;> rfl
  table := patch_table p
  order := by unfold Execution.patch modifyVars; cases x.shell <;> rfl
  generated := by unfold Execution.patch modifyVars; cases x.shell <;> rfl
  entries := patch_entry_vars p

theorem trans {w w' w'' : World} (h : w.SameFiling w') (h' : w'.SameFiling w'') :
    w.SameFiling w'' where
  scriptAttr := h'.scriptAttr.trans h.scriptAttr
  table := h'.table.trans h.table
  order := h'.order.trans h.order
  generated := h'.generated.trans h.generated
  entries := fun e => by rw [h'.entries e, h.entries e]

end SameFiling

/-- Nothing is opened, closed or registered: shells and entries keep all but their variables. -/
structure Beside (w w' : World) : Prop extends w.SameFiling w' where
  openShells : w'.openShells = w.openShells

namespace Beside

/-- Changes to the page, the verbs, the clock and the log. -/
theorem of_entries_eq {w w' : World} (hopen : w'.openShells = w.openShells)
    (hattr : w'.scriptAttr = w.scriptAttr) (htable : w'.table = w.table)
    (horder : w'.order = w.order) (hgenerated : w'.generated = w.generated)
    (hentries : w'.entries = w.entries) : w.Beside w' :=
  ⟨.of_entries_eq hattr htable horder hgenerated hentries, hopen⟩

theorem refl (w : World) : w.Beside w := ⟨.refl w, rfl⟩

theorem patch (x : Execution) (w : World) (p : Patch) : w.Beside (x.patch w p) :=
  ⟨.patch x w p, patch_openShells p⟩

theorem trans {w w' w'' : World} (h : w.Beside w') (h' : w'.Beside w'') : w.Beside w'' :=
  ⟨h.toSameFiling.trans h'.toSameFiling, h'.openShells.trans h.openShells⟩

theorem loadVars (w : World) (key : String) (values : List (String × Value)) :
    w.Beside (w.loadVars key values).1 := by
  unfold World.loadVars
  split
  · rename_i e he
    refine ⟨⟨rfl, rfl, rfl, rfl, fun i => ?_⟩, rfl⟩
    unfold World.entry modifyEntryVars
    dsimp only
    rw [Array.getElem?_modify]
    split
    · rename_i hi
      subst hi
      cases w.entries[e]? <;> rfl
    · rfl
  · exact refl w

end Beside

end World

namespace Execution

/-- A step registers nothing. -/
theorem sameFiling_step {x : Execution} {w : World} {segment : String} {r : Stepped}
    (h : Goes x w segment r) : w.SameFiling r.1 := by
  cases h with
  | patches p c v => exact .patch x w p
  | closes s name => exact .of_entries_eq rfl rfl rfl rfl rfl
  | enters target name s log => exact .patch x w _
  | makes target name log =>
      exact (World.SameFiling.patch x w (x.dueMerged w name log)).trans
        (.of_entries_eq rfl rfl rfl rfl rfl)

theorem sameFiling_steps {trace : List Moment} {r₀ r : Stepped} (hsteps : Steps trace r₀ r) :
    StageSound r₀ → r₀.1.SameFiling r.1 := by
  induction hsteps with
  | nil r => exact fun _ => .refl r.1
  | @cons w x segment trace r hseg rest ih =>
      intro hr
      have hw : w.Sound := hr.world
      have hx : x.advance.Underway w := underway_advance hr.underway
      have hgoes := step_goes hx.placed segment
      exact (sameFiling_step hgoes).trans (ih (stageSound_step hw hx hgoes).1)

/-- Nor does a run. -/
theorem sameFiling_run {w : World} {x : Execution} (hstage : StageSound (w, x, .next)) :
    w.SameFiling (run w x).1 := by
  obtain ⟨last, _, _, hsteps, -, -, hworld, -⟩ := run_patch hstage
  rw [hworld]
  exact (sameFiling_steps hsteps hstage).trans (.patch _ _ _)

end Execution

namespace Machine

/-! ## Happenings -/

/-- Something that happens to a machine: a turn of one execution, or what the host does between
turns. -/
inductive Happening where
  /-- An execution is started. -/
  | start (key : String) (context : Nat)
  /-- The job of an execution is settled, with a value or a failure. -/
  | settle (i : Nat) (answer : Answer)
  /-- A suspended execution is abandoned. -/
  | interrupt (i : Nat) (why : Interruption)
  /-- Contexts are cancelled, the deadline is set. -/
  | control (cancelled : List Nat) (deadline : Option Int)
  /-- An element is registered. -/
  | register (naming : Naming) (element : NodeId)
  /-- An entry is removed. -/
  | remove (key : String)
  /-- Variables are loaded into an entry. -/
  | load (key : String) (values : List (String × Value))
  /-- The verbs are replaced. -/
  | verbs (verbs : Registry) (lawful : verbs.Lawful)
  /-- The page, the functions of its module, the clock or the log change. -/
  | host (document : Document) (globals : Option Globals) (now : Int) (log : List Record)

/-- The machine after the turn or the change that a happening is. -/
def turn (m : Machine) : Happening → Machine
  | .start key context => m.start key context
  | .settle i answer => m.settle i answer
  | .interrupt i why => m.update i (Execution.interrupt why)
  | .control cancelled deadline => { m with cancelled, deadline }
  | .register naming element => { m with world := (m.world.registerElement naming element).1 }
  | .remove key => { m with world := m.world.remove key }
  | .load key values => { m with world := (m.world.loadVars key values).1 }
  | .verbs verbs _ => { m with world := { m.world with verbs } }
  | .host document globals now log =>
    { m with world := { m.world with document, globals, now, log } }

/-- The run that a happening sets off, be it the last: the number of the execution, and the world
and the execution before the first segment. -/
def setsOff? (m : Machine) : Happening → Option (Nat × World × Execution)
  | .start key context =>
    (ofKey? m.world key context).map fun x => (m.executions.size, startRecord m.world key x, x)
  | .settle i answer => (m.resumption? i answer).map fun (w, x) => (i, w, x)
  | _ => none

/-- The program ends in the run that a happening sets off. -/
def fatal (m : Machine) (h : Happening) : Bool :=
  match m.setsOff? h with
  | some (_, w, x) => (run w x).2.crashed
  | none => false

/-- The machine after a happening. There is none after a happening in which the program ends; a
history goes on with the machine before it, as if there had been something else instead. -/
def after (m : Machine) (h : Happening) : Machine := if m.fatal h then m else m.turn h

/-- The machine after a history. -/
def afterAll (m : Machine) (history : List Happening) : Machine := history.foldl after m

/-- The run that a happening sets off, if the program survives it. -/
def running? (m : Machine) (h : Happening) : Option (Nat × World × Execution) :=
  if m.fatal h then none else m.setsOff? h

section Fatal

variable {m : Machine} {h : Happening}

theorem after_of_fatal (hfatal : m.fatal h = true) : m.after h = m := if_pos hfatal

theorem running_of_fatal (hfatal : m.fatal h = true) : m.running? h = none := if_pos hfatal

theorem after_of_survives (hlive : m.fatal h = false) : m.after h = m.turn h := by
  unfold after
  rw [hlive]
  rfl

theorem running_of_survives (hlive : m.fatal h = false) : m.running? h = m.setsOff? h := by
  unfold running?
  rw [hlive]
  rfl

/-- A happening that sets off no run is survived. -/
theorem survives_of_idle (hidle : m.setsOff? h = none) : m.fatal h = false := by
  unfold fatal
  rw [hidle]

theorem after_of_idle (hidle : m.setsOff? h = none) : m.after h = m.turn h :=
  after_of_survives (survives_of_idle hidle)

theorem running_of_idle (hidle : m.setsOff? h = none) : m.running? h = none := by
  rw [running_of_survives (survives_of_idle hidle), hidle]

theorem fatal_of_setsOff {r : Nat × World × Execution} (hrun : m.setsOff? h = some r) :
    m.fatal h = (run r.2.1 r.2.2).2.crashed := by
  unfold fatal
  rw [hrun]

/-- **A run that is survived** is set off, and the machine after it is that after its turn. -/
theorem setsOff_of_running {r : Nat × World × Execution} (hrun : m.running? h = some r) :
    m.setsOff? h = some r ∧ Survives r.2.1 r.2.2 ∧ m.after h = m.turn h := by
  cases hfatal : m.fatal h with
  | true =>
      rw [running_of_fatal hfatal] at hrun
      simp at hrun
  | false =>
      rw [running_of_survives hfatal] at hrun
      refine ⟨hrun, ?_, after_of_survives hfatal⟩
      rw [fatal_of_setsOff hrun] at hfatal
      exact hfatal

theorem running_of_setsOff {r : Nat × World × Execution} (hrun : m.setsOff? h = some r)
    (hlive : Survives r.2.1 r.2.2) : m.running? h = some r := by
  rw [running_of_survives ((fatal_of_setsOff hrun).trans hlive), hrun]

end Fatal

theorem setsOff_start {m : Machine} {key : String} {context : Nat} {x : Execution}
    (hx : ofKey? m.world key context = some x) :
    m.setsOff? (.start key context) = some (m.executions.size, startRecord m.world key x, x) := by
  simp only [setsOff?, hx, Option.map_some]

theorem setsOff_settle {m : Machine} {i : Nat} {answer : Answer} {x : Execution} {wait : Wait}
    {w : World} {v : Value} (hx : m.executions[i]? = some x) (hs : x.state = .suspended)
    (hwait : x.wait = some wait)
    (hdesk : x.atDesk m.world (wait.result.settle answer) = (w, .ok v)) :
    m.setsOff? (.settle i answer) = some (i, w, x.resumed v) := by
  simp only [setsOff?, resumption_of_waiting hx hs hwait, hdesk, Option.map_some]

theorem setsOff_start_none {m : Machine} {key : String} {context : Nat}
    (hx : ofKey? m.world key context = none) : m.setsOff? (.start key context) = none := by
  simp only [setsOff?, hx, Option.map_none]

theorem setsOff_settle_error {m : Machine} {i : Nat} {answer : Answer} {x : Execution}
    {wait : Wait} {w : World} {f : Failure} (hx : m.executions[i]? = some x)
    (hs : x.state = .suspended) (hwait : x.wait = some wait)
    (hdesk : x.atDesk m.world (wait.result.settle answer) = (w, .error f)) :
    m.setsOff? (.settle i answer) = none := by
  simp only [setsOff?, resumption_of_waiting hx hs hwait, hdesk, Option.map_none]

/-- A start is survived if its run is. -/
theorem fatal_start {m : Machine} {key : String} {context : Nat} :
    m.fatal (.start key context) = false ↔
      ∀ x, ofKey? m.world key context = some x → Survives (startRecord m.world key x) x := by
  cases hx : ofKey? m.world key context with
  | none => exact iff_of_true (survives_of_idle (setsOff_start_none hx)) (by simp)
  | some x => rw [fatal_of_setsOff (setsOff_start hx)]; simp [Survives]

/-- So is a settlement. -/
theorem fatal_settle {m : Machine} {i : Nat} {answer : Answer} :
    m.fatal (.settle i answer) = false ↔
      ∀ w x, m.resumption? i answer = some (w, x) → Survives w x := by
  cases hx : m.resumption? i answer with
  | none => exact iff_of_true (survives_of_idle (by simp [setsOff?, hx])) (by simp)
  | some pair =>
      obtain ⟨w, x⟩ := pair
      simp [fatal, setsOff?, hx, Survives]

theorem step_after (m : Machine) (h : Happening) : Step m (m.after h) := by
  cases hfatal : m.fatal h with
  | true =>
      rw [after_of_fatal hfatal]
      exact .control m m.cancelled m.deadline
  | false =>
      rw [after_of_survives hfatal]
      cases h with
      | start key context => exact .start m key context (fatal_start.mp hfatal)
      | settle i answer => exact .settle m i answer (fatal_settle.mp hfatal)
      | interrupt i why => exact .interrupt m i why
      | control cancelled deadline => exact .control m cancelled deadline
      | register naming element => exact .register m naming element
      | remove key => exact .remove m key
      | load key values => exact .load m key values
      | verbs verbs lawful => exact .verbs m verbs lawful
      | host document globals now log => exact .host m document globals now log

/-- **Every event is a happening**, or the beginning of a new session. -/
theorem step_cases {m m' : Machine} (hs : Step m m') :
    (∃ h, m' = m.after h) ∨ ∃ deadline, m' = { world := m.world, deadline } := by
  cases hs with
  | start key context hlive =>
      have hafter := after_of_survives (fatal_start.mpr hlive)
      exact Or.inl ⟨.start key context, hafter.symm⟩
  | settle i answer hlive =>
      have hafter := after_of_survives (fatal_settle.mpr hlive)
      exact Or.inl ⟨.settle i answer, hafter.symm⟩
  | interrupt i why => exact Or.inl ⟨.interrupt i why, rfl⟩
  | control cancelled deadline => exact Or.inl ⟨.control cancelled deadline, rfl⟩
  | session deadline => exact Or.inr ⟨deadline, rfl⟩
  | register naming element => exact Or.inl ⟨.register naming element, rfl⟩
  | remove key => exact Or.inl ⟨.remove key, rfl⟩
  | load key values => exact Or.inl ⟨.load key values, rfl⟩
  | verbs verbs lawful => exact Or.inl ⟨.verbs verbs lawful, rfl⟩
  | host document globals now log => exact Or.inl ⟨.host document globals now log, rfl⟩

theorem Reachable.after {m : Machine} (hm : m.Reachable) (h : Happening) : (m.after h).Reachable :=
  hm.leads ((Leads.refl m).step (step_after m h))

theorem Reachable.afterAll {m : Machine} (hm : m.Reachable) (history : List Happening) :
    (m.afterAll history).Reachable := by
  induction history generalizing m with
  | nil => exact hm
  | cons h history ih => exact ih (hm.after h)

/-- **What holds at the beginning and is kept** by every happening and by a new session holds of
every machine that can be reached. -/
theorem Reachable.induction {P : Machine → Prop} {m : Machine} (hm : m.Reachable)
    (hinit : ∀ document scriptAttr verbs, Registry.Lawful verbs →
      P (init document scriptAttr verbs))
    (hafter : ∀ m h, Reachable m → P m → P (m.after h))
    (hsession : ∀ m deadline, P m → P { world := m.world, deadline }) : P m := by
  obtain ⟨document, scriptAttr, verbs, hv, hl⟩ := hm
  induction hl with
  | refl => exact hinit document scriptAttr verbs hv
  | step hl hs ih =>
      rcases step_cases hs with ⟨h, rfl⟩ | ⟨deadline, rfl⟩
      · exact hafter _ h ⟨document, scriptAttr, verbs, hv, hl⟩ ih
      · exact hsession _ deadline ih

/-! ## Runs -/

theorem number_start {m : Machine} {key : String} {context : Nat} {r : Nat × World × Execution}
    (h : r ∈ m.running? (.start key context)) : r.1 = m.executions.size := by
  obtain ⟨x, -, rfl⟩ := Option.map_eq_some_iff.mp (setsOff_of_running h).1
  rfl

theorem number_settle {m : Machine} {i : Nat} {answer : Answer} {r : Nat × World × Execution}
    (h : r ∈ m.running? (.settle i answer)) : r.1 = i := by
  obtain ⟨pair, -, rfl⟩ := Option.map_eq_some_iff.mp (setsOff_of_running h).1
  rfl

/-- The segments that an execution steps in a happening. -/
def moments (m : Machine) (i : Nat) (h : Happening) : List Moment :=
  match m.running? h with
  | some (j, w, x) => if j = i then trace w x else []
  | none => []

/-- The segments that an execution steps in a history. -/
def course (m : Machine) (i : Nat) : List Happening → List Moment
  | [] => []
  | h :: history => m.moments i h ++ (m.after h).course i history

theorem moments_of_running {m : Machine} {h : Happening} {i : Nat} {w : World} {x : Execution}
    (hrun : m.running? h = some (i, w, x)) : m.moments i h = trace w x := by
  unfold moments
  rw [hrun]
  exact if_pos rfl

theorem moments_of_idle {m : Machine} {h : Happening} {i : Nat}
    (hidle : ∀ r ∈ m.running? h, r.1 ≠ i) : m.moments i h = [] := by
  unfold moments
  split
  · rename_i j w x hrun
    exact if_neg (hidle _ hrun)
  · rfl

/-- **What is set off to run** is a new execution, or one that waits. -/
theorem setsOff_cases {m : Machine} {h : Happening} {i : Nat} {w : World} {x : Execution}
    (hrun : m.setsOff? h = some (i, w, x)) :
    (∃ key context, h = .start key context ∧ i = m.executions.size ∧
      ofKey? m.world key context = some x ∧ w = startRecord m.world key x) ∨
    ∃ answer y wait v, h = .settle i answer ∧ m.executions[i]? = some y ∧ y.state = .suspended ∧
      y.wait = some wait ∧ y.atDesk m.world (wait.result.settle answer) = (w, .ok v) ∧
      x = y.resumed v := by
  cases h with
  | start key context =>
      obtain ⟨y, hy, heq⟩ := Option.map_eq_some_iff.mp hrun
      obtain ⟨rfl, rfl, rfl⟩ : m.executions.size = i ∧ startRecord m.world key y = w ∧ y = x := by
        simpa using heq
      exact .inl ⟨key, context, rfl, rfl, hy, rfl⟩
  | settle j answer =>
      obtain ⟨⟨w', y⟩, hy, heq⟩ := Option.map_eq_some_iff.mp hrun
      obtain ⟨rfl, rfl, rfl⟩ : j = i ∧ w' = w ∧ y = x := by simpa using heq
      obtain ⟨z, wait, v, hz⟩ := resumption_cases hy
      exact .inr ⟨answer, z, wait, v, rfl, hz⟩
  | interrupt | control | register | remove | load | verbs | host => simp [setsOff?] at hrun

/-- **Every run that is set off** begins in a sound world, with nothing pending. -/
theorem begins_of_setsOff {m : Machine} (hm : m.Sound) {h : Happening} {i : Nat} {w : World}
    {x : Execution} (hrun : m.setsOff? h = some (i, w, x)) : m.Begins w x := by
  rcases setsOff_cases hrun with ⟨key, context, -, -, hx, rfl⟩ |
    ⟨answer, y, wait, v, -, hy, hs, hwait, hdesk, rfl⟩
  · exact begins_start hm hx
  · exact begins_settle hm hy hs hwait hdesk

/-- **A run that is survived is a stretch** of the happening that sets it off. -/
theorem stretch_of_running {m : Machine} {h : Happening} {i : Nat} {w : World} {x : Execution}
    (hrun : m.running? h = some (i, w, x)) : m.Stretch w x (m.after h) := by
  obtain ⟨hset, hlive, hafter⟩ := setsOff_of_running hrun
  rw [hafter]
  rcases setsOff_cases hset with ⟨key, context, rfl, -, hx, rfl⟩ |
    ⟨answer, y, wait, v, rfl, hy, hs, hwait, hdesk, rfl⟩
  · exact .start hx hlive
  · exact .settle hy hs hwait hdesk hlive

/-- It begins beside the world before. -/
theorem beside_of_setsOff {m : Machine} {h : Happening} {i : Nat} {w : World} {x : Execution}
    (hrun : m.setsOff? h = some (i, w, x)) : m.world.Beside w := by
  rcases setsOff_cases hrun with ⟨key, context, -, -, -, rfl⟩ | ⟨answer, y, wait, v, -, -, -, -, h, -⟩
  · exact .of_entries_eq rfl rfl rfl rfl rfl rfl
  · rw [atDesk_eq] at h
    rw [← (Prod.mk.inj h).1]
    exact .patch _ _ _

/-- **Where a happening sets off a run**, its turn leaves the world as the run does, also a run that
the program does not survive. -/
theorem world_turn {m : Machine} {h : Happening} {i : Nat} {w : World} {x : Execution}
    (hrun : m.setsOff? h = some (i, w, x)) : (m.turn h).world = (run w x).1 := by
  rcases setsOff_cases hrun with ⟨key, context, rfl, -, hx, rfl⟩ |
    ⟨answer, y, wait, v, rfl, hy, hs, hwait, hdesk, rfl⟩
  · show (m.start key context).world = _
    unfold Machine.start
    rw [start_of_ofKey hx]
  · show (m.update i (Execution.settle answer)).world = _
    unfold update
    rw [hy]
    dsimp only
    rw [settle_of_ok hs hwait hdesk]

/-! ## What becomes of one execution -/

/-- What a happening can do to the execution with a number, and what is there afterwards. -/
inductive Fate (m : Machine) (i : Nat) : Happening → Option Execution → Prop
  /-- It is left alone. -/
  | spared {h : Happening} (hidle : ∀ r ∈ m.running? h, r.1 ≠ i) : Fate m i h m.executions[i]?
  /-- It is started and runs. -/
  | starts {key : String} {context : Nat} {x : Execution} (hi : i = m.executions.size)
      (hx : ofKey? m.world key context = some x) (hlive : Survives (startRecord m.world key x) x) :
      Fate m i (.start key context) (some (run (startRecord m.world key x) x).2)
  /-- It is started without a script. -/
  | refused {key : String} {context : Nat} (hi : i = m.executions.size)
      (hx : ofKey? m.world key context = none) :
      Fate m i (.start key context) (some (Execution.refused m.world key context))
  /-- What it waits for is settled, and it goes on. -/
  | resumes {answer : Answer} {x : Execution} {wait : Wait} {w : World} {v : Value}
      (hx : m.executions[i]? = some x) (hs : x.state = .suspended) (hwait : x.wait = some wait)
      (hdesk : x.atDesk m.world (wait.result.settle answer) = (w, .ok v))
      (hlive : Survives w (x.resumed v)) :
      Fate m i (.settle i answer) (some (run w (x.resumed v)).2)
  /-- What it waits for fails. -/
  | rejected {answer : Answer} {x : Execution} {wait : Wait} {w : World} {f : Failure}
      (hx : m.executions[i]? = some x) (hs : x.state = .suspended) (hwait : x.wait = some wait)
      (hdesk : x.atDesk m.world (wait.result.settle answer) = (w, .error f)) :
      Fate m i (.settle i answer) (some (failWait wait f w x).2)
  /-- It is interrupted while it waits. -/
  | interrupted {why : Interruption} {x : Execution} {wait : Wait}
      (hx : m.executions[i]? = some x) (hs : x.state = .suspended) (hwait : x.wait = some wait) :
      Fate m i (.interrupt i why) (some (failWait wait (.abandoned why) m.world x).2)

theorem executions_update (m : Machine) (i j : Nat) (f : World → Execution → World × Execution) :
    (m.update j f).executions[i]? =
      if j = i then m.executions[i]?.map fun x => (f m.world x).2 else m.executions[i]? := by
  unfold update
  split
  · rename_i x hx
    dsimp only
    rw [Array.getElem?_setIfInBounds]
    split
    · rename_i hji
      subst hji
      have hlt : j < m.executions.size := (Array.getElem?_eq_some_iff.mp hx).1
      rw [if_pos hlt, hx]
      rfl
    · rfl
  · rename_i hx
    split
    · rename_i hji
      rw [← hji, hx]
      rfl
    · rfl

/-- An execution that does not wait is not resumed. -/
theorem resumption_of_not_waiting {m : Machine} {i : Nat} {answer : Answer} {x : Execution}
    (hx : m.executions[i]? = some x)
    (h : ∀ wait, x.state = .suspended → x.wait = some wait → False) :
    m.resumption? i answer = none := by
  unfold resumption?
  rw [hx]
  dsimp only
  split
  · rename_i wait hs hwait
    exact (h wait hs hwait).elim
  · rfl

theorem Fate.left_alone {m : Machine} {i : Nat} {h : Happening}
    (hidle : ∀ r ∈ m.setsOff? h, r.1 ≠ i) : Fate m i h m.executions[i]? :=
  .spared fun r hr => hidle r (setsOff_of_running hr).1

theorem fate_settle {m : Machine} {i : Nat} {answer : Answer}
    (hlive : m.fatal (.settle i answer) = false) :
    Fate m i (.settle i answer) (m.settle i answer).executions[i]? := by
  unfold Machine.settle
  rw [executions_update, if_pos rfl]
  cases hx : m.executions[i]? with
  | none =>
      have hidle : ∀ r ∈ m.setsOff? (.settle i answer), r.1 ≠ i := by
        intro r hr
        simp [setsOff?, resumption?, hx] at hr
      have hspared := Fate.left_alone hidle
      rw [hx] at hspared
      exact hspared
  | some x =>
      by_cases hwaits : ∃ wait, x.state = .suspended ∧ x.wait = some wait
      · obtain ⟨wait, hs, hwait⟩ := hwaits
        rcases hdesk : x.atDesk m.world (wait.result.settle answer) with ⟨w, f | v⟩
        · rw [Option.map_some, settle_of_error hs hwait hdesk]
          exact .rejected hx hs hwait hdesk
        · rw [Option.map_some, settle_of_ok hs hwait hdesk]
          rw [fatal_of_setsOff (setsOff_settle hx hs hwait hdesk)] at hlive
          exact .resumes hx hs hwait hdesk hlive
      · have hnot : ∀ wait, x.state = .suspended → x.wait = some wait → False :=
          fun wait hs hwait => hwaits ⟨wait, hs, hwait⟩
        have hidle : ∀ r ∈ m.setsOff? (.settle i answer), r.1 ≠ i := by
          intro r hr
          simp [setsOff?, resumption_of_not_waiting hx hnot] at hr
        rw [Option.map_some, settle_of_not_waiting answer hnot, ← hx]
        exact .left_alone hidle

theorem fate_interrupt (m : Machine) (i : Nat) (why : Interruption) :
    Fate m i (.interrupt i why) (m.update i (Execution.interrupt why)).executions[i]? := by
  have hspared : Fate m i (.interrupt i why) m.executions[i]? :=
    .left_alone fun r hr => by simp [setsOff?] at hr
  rw [executions_update, if_pos rfl]
  cases hx : m.executions[i]? with
  | none =>
      rw [hx] at hspared
      exact hspared
  | some x =>
      rw [Option.map_some]
      unfold Execution.interrupt
      split
      · rename_i wait hs hwait
        exact .interrupted hx hs hwait
      · rw [hx] at hspared
        exact hspared

theorem fate_start {m : Machine} {key : String} {context : Nat} (i : Nat)
    (hlive : m.fatal (.start key context) = false) :
    Fate m i (.start key context) (m.start key context).executions[i]? := by
  have hpush : (m.start key context).executions =
      m.executions.push (Execution.start m.world key context).2 := rfl
  rw [hpush, Array.getElem?_push]
  split
  · rename_i hi
    cases hx : ofKey? m.world key context with
    | some x => rw [start_of_ofKey hx]; exact .starts hi hx (fatal_start.mp hlive x hx)
    | none => rw [start_of_none hx]; exact .refused hi hx
  · rename_i hi
    exact .spared fun r hr => number_start hr ▸ Ne.symm hi

/-- **What a happening does to an execution**: nothing, or one of five things. -/
theorem fate_after (m : Machine) (i : Nat) (h : Happening) :
    Fate m i h (m.after h).executions[i]? := by
  cases hfatal : m.fatal h with
  | true =>
      rw [after_of_fatal hfatal]
      exact .spared fun r hr => by rw [running_of_fatal hfatal] at hr; simp at hr
  | false =>
      rw [after_of_survives hfatal]
      cases h with
      | start key context => exact fate_start i hfatal
      | settle j answer =>
          by_cases hji : j = i
          · subst hji
            exact fate_settle hfatal
          · -- a turn of another execution
            have hsame : (m.turn (.settle j answer)).executions[i]? = m.executions[i]? := by
              unfold turn Machine.settle
              rw [executions_update, if_neg hji]
            rw [hsame]
            exact .spared fun r hr => number_settle hr ▸ hji
      | interrupt j why =>
          by_cases hji : j = i
          · subst hji
            exact fate_interrupt m j why
          · have hsame : (m.turn (.interrupt j why)).executions[i]? = m.executions[i]? := by
              unfold turn
              rw [executions_update, if_neg hji]
            rw [hsame]
            exact .left_alone fun r hr => by simp [setsOff?] at hr
      | control | register | remove | load | verbs | host =>
          exact .left_alone fun r hr => by simp [setsOff?] at hr

theorem running_start {m : Machine} {key : String} {context : Nat} {x : Execution}
    (hx : ofKey? m.world key context = some x) (hlive : Survives (startRecord m.world key x) x) :
    m.running? (.start key context) = some (m.executions.size, startRecord m.world key x, x) :=
  running_of_setsOff (setsOff_start hx) hlive

theorem running_settle {m : Machine} {i : Nat} {answer : Answer} {x : Execution} {wait : Wait}
    {w : World} {v : Value} (hx : m.executions[i]? = some x) (hs : x.state = .suspended)
    (hwait : x.wait = some wait)
    (hdesk : x.atDesk m.world (wait.result.settle answer) = (w, .ok v))
    (hlive : Survives w (x.resumed v)) :
    m.running? (.settle i answer) = some (i, w, x.resumed v) :=
  running_of_setsOff (setsOff_settle hx hs hwait hdesk) hlive

/-- **A run is what becomes of the execution.** -/
theorem executions_of_running {m : Machine} {h : Happening} {i : Nat} {w : World} {x : Execution}
    (hrun : m.running? h = some (i, w, x)) :
    (m.after h).executions[i]? = some (run w x).2 := by
  -- whatever the fate is, it comes with the run that is set off
  have hsame : ∀ {w' x'}, m.running? h = some (i, w', x') →
      some (run w' x').2 = some (run w x).2 := by
    intro w' x' hrun'
    obtain ⟨rfl, rfl⟩ : w' = w ∧ x' = x := by simpa using hrun'.symm.trans hrun
    rfl
  have hfate := fate_after m i h
  generalize (m.after h).executions[i]? = left at hfate
  cases hfate with
  | spared hidle => exact absurd rfl (hidle _ hrun)
  | starts hi hx hlive => exact hsame (hi ▸ running_start hx hlive)
  | refused hi hx =>
      rw [running_of_idle (setsOff_start_none hx)] at hrun
      simp at hrun
  | resumes hx hs hwait hdesk hlive => exact hsame (running_settle hx hs hwait hdesk hlive)
  | rejected hx hs hwait hdesk =>
      rw [running_of_idle (setsOff_settle_error hx hs hwait hdesk)] at hrun
      simp at hrun
  | interrupted =>
      rw [running_of_idle rfl] at hrun
      simp at hrun

/-- **An execution at its end is left alone** by all that happens, and steps nothing. -/
theorem after_of_over {m : Machine} {i : Nat} {x : Execution} (hx : m.executions[i]? = some x)
    (hover : x.Over) (h : Happening) :
    (m.after h).executions[i]? = some x ∧ m.moments i h = [] := by
  have hlt : i < m.executions.size := (Array.getElem?_eq_some_iff.mp hx).1
  have hnot : ∀ {y : Execution}, m.executions[i]? = some y → y.state ≠ .suspended := by
    intro y hy hs
    rw [hx] at hy
    rw [← Option.some.inj hy] at hs
    rcases hover with hover | hover <;> rw [hover] at hs <;> simp at hs
  have hfate := fate_after m i h
  generalize (m.after h).executions[i]? = left at hfate
  cases hfate with
  | spared hidle => exact ⟨hx, moments_of_idle hidle⟩
  | starts hi => omega
  | refused hi => omega
  | resumes hy hs => exact absurd hs (hnot hy)
  | rejected hy hs => exact absurd hs (hnot hy)
  | interrupted hy hs => exact absurd hs (hnot hy)

theorem afterAll_of_over {m : Machine} {i : Nat} {x : Execution} (hx : m.executions[i]? = some x)
    (hover : x.Over) (history : List Happening) :
    (m.afterAll history).executions[i]? = some x ∧ m.course i history = [] := by
  induction history generalizing m with
  | nil => exact ⟨hx, rfl⟩
  | cons h history ih =>
      obtain ⟨hx', hnone⟩ := after_of_over hx hover h
      obtain ⟨hend, hcourse⟩ := ih hx'
      refine ⟨hend, ?_⟩
      rw [course, hnone, hcourse]
      rfl

/-! ## What becomes of the world -/

theorem world_refused {m : Machine} {key : String} {context : Nat}
    (h : ofKey? m.world key context = none) :
    (m.after (.start key context)).world = refusedRecord m.world key := by
  rw [after_of_idle (setsOff_start_none h)]
  show (m.start key context).world = _
  unfold Machine.start
  rw [start_of_none h]

theorem beside_update {m : Machine} {i : Nat} {f : World → Execution → World × Execution}
    (hf : ∀ x, m.executions[i]? = some x → m.world.Beside (f m.world x).1) :
    m.world.Beside (m.update i f).world := by
  unfold update
  split
  · rename_i x hx
    exact hf x hx
  · exact .refl _

theorem beside_failWait {w w' : World} {x : Execution} (h : w.Beside w') (hc : x.closing = [])
    (wait : Wait) (f : Failure) : w.Beside (failWait wait f w' x).1 := by
  rw [failWait_of_closing_nil hc]
  exact h.trans (.of_entries_eq rfl rfl rfl rfl rfl rfl)

/-- **A happening that sets off no run** registers or removes an entry, or leaves the shells and the
table of entries as they are. -/
theorem beside_after {m : Machine} (hm : m.Sound) {h : Happening} (hrun : m.running? h = none) :
    (∃ naming element, h = .register naming element) ∨ (∃ key, h = .remove key) ∨
      m.world.Beside (m.after h).world := by
  cases hfatal : m.fatal h with
  | true =>
      rw [after_of_fatal hfatal]
      exact .inr (.inr (.refl _))
  | false =>
      rw [running_of_survives hfatal] at hrun
      cases h with
      | register naming element => exact .inl ⟨naming, element, rfl⟩
      | remove key => exact .inr (.inl ⟨key, rfl⟩)
      | start key context =>
          refine .inr (.inr ?_)
          cases hx : ofKey? m.world key context with
          | some x => rw [setsOff_start hx] at hrun; simp at hrun
          | none =>
              rw [world_refused hx]
              exact .of_entries_eq rfl rfl rfl rfl rfl rfl
      | settle i answer =>
          rw [after_of_survives hfatal]
          refine .inr (.inr (beside_update (i := i) (f := Execution.settle answer) fun x hx => ?_))
          by_cases hwaits : ∃ wait, x.state = .suspended ∧ x.wait = some wait
          · obtain ⟨wait, hs, hwait⟩ := hwaits
            -- the continuation may have written variables before it failed
            rcases hdesk : x.atDesk m.world (wait.result.settle answer) with ⟨w, f | v⟩
            · rw [settle_of_error hs hwait hdesk]
              rw [atDesk_eq] at hdesk
              rw [← (Prod.mk.inj hdesk).1]
              exact beside_failWait (.patch x m.world _)
                (hm.rested x (Array.mem_of_getElem? hx) hs).2.1 wait f
            · rw [setsOff_settle hx hs hwait hdesk] at hrun
              simp at hrun
          · rw [settle_of_not_waiting answer fun wait hs hwait => hwaits ⟨wait, hs, hwait⟩]
            exact .refl _
      | interrupt i why =>
          refine .inr (.inr
            (beside_update (i := i) (f := Execution.interrupt why) fun x hx => ?_))
          unfold Execution.interrupt
          split
          · rename_i wait hs hwait
            exact beside_failWait (.refl _) (hm.rested x (Array.mem_of_getElem? hx) hs).2.1 wait _
          · exact .refl _
      | control => exact .inr (.inr (.refl _))
      | load key values => exact .inr (.inr (.loadVars m.world key values))
      | verbs | host => exact .inr (.inr (.of_entries_eq rfl rfl rfl rfl rfl rfl))

/-- **All that is neither a registration nor a removal** leaves the entries filed as they are. -/
theorem sameFiling_after {m : Machine} (hm : m.Sound) {h : Happening}
    (hregister : ∀ naming element, h ≠ .register naming element) (hremove : ∀ key, h ≠ .remove key) :
    m.world.SameFiling (m.after h).world := by
  cases hrun : m.running? h with
  | some r =>
      obtain ⟨i, w, x⟩ := r
      have hstretch := stretch_of_running hrun
      rw [hstretch.world_eq]
      exact (beside_of_setsOff (setsOff_of_running hrun).1).toSameFiling.trans
        (sameFiling_run (hstretch.begins hm).1)
  | none =>
      rcases beside_after hm hrun with ⟨naming, element, rfl⟩ | ⟨key, rfl⟩ | hbeside
      · exact absurd rfl (hregister naming element)
      · exact absurd rfl (hremove key)
      · exact hbeside.toSameFiling

/-- A happening that sets off no run files no shell. -/
theorem openShells_after {m : Machine} (hm : m.Sound) {h : Happening}
    (hrun : m.running? h = none) : (m.after h).world.openShells.Sublist m.world.openShells := by
  rcases beside_after hm hrun with ⟨naming, element, rfl⟩ | ⟨key, rfl⟩ | hbeside
  · obtain ⟨_, _, -, -, hregisters⟩ := m.world.registers naming element
    exact hregisters.openShells
  · show (m.world.remove key).openShells.Sublist m.world.openShells
    unfold World.remove
    split
    · exact List.Sublist.refl _
    · exact List.filter_sublist
  · exact hbeside.openShells ▸ List.Sublist.refl _

/-- **No shell is filed under a key** unless an execution of an entry with that key runs. -/
theorem filed_after {m : Machine} (hm : m.Sound) {h : Happening} {key : String}
    (hother : ∀ r ∈ m.running? h, (r.2.1.entry r.2.2.entry).key ≠ key) (name : String)
    (s : ShellId) (hs : ((key, name), s) ∈ (m.after h).world.openShells) :
    ((key, name), s) ∈ m.world.openShells := by
  cases hrun : m.running? h with
  | none => exact (openShells_after hm hrun).subset hs
  | some r =>
      obtain ⟨j, w, x⟩ := r
      have hstretch := stretch_of_running hrun
      obtain ⟨hstage, -, -⟩ := hstretch.begins hm
      obtain ⟨last, _, _, hsteps, -, -, hworld, -⟩ := run_patch hstage
      rw [hstretch.world_eq, hworld, patch_openShells] at hs
      rw [← (beside_of_setsOff (setsOff_of_running hrun).1).openShells]
      exact filed_steps hsteps hstage (hother _ hrun) name s hs

end Machine

end PageMacro
