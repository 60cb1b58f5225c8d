import PageMacro.Proofs.Scene

/-!
# What one step can do

The cases of `Execution.step`, each said once. A segment that neither opens nor
closes a shell is a patch of the scene (`step_local`); the others are the close
that finds its shell, and the open outside of shells, of a shell that is there or
of a new one. `Goes` lists the four; later modules take `step_goes` and never look
inside a handler again.
-/

namespace PageMacro

namespace Execution

/-- What a verdict leaves behind for later is lawful. -/
def Verdict.Lawful : Verdict → Prop
  | .await wait => wait.result.Lawful
  | _ => True

/-- Both worlds are changed by the same patch, both executions move to the same running value, and
the verdicts are the same. -/
def StepTandem (x₁ : Execution) (w₁ : World) (x₂ : Execution) (w₂ : World) (r₁ r₂ : Stepped) :
    Prop :=
  ∃ p c v, r₁ = (x₁.patch w₁ p, { x₁ with current := c }, v) ∧
    r₂ = (x₂.patch w₂ p, { x₂ with current := c }, v) ∧
    (w₁.verbs.Lawful → (x₁.vars w₁).Becomes p.vars ∧ v.Lawful)

section Handlers

variable {x₁ x₂ : Execution} {w₁ w₂ w₁' w₂' : World}

theorem Tandem.ends (t : Tandem x₁ w₁ x₂ w₂ w₁' w₂') (c : Value) {v : Verdict}
    (hv : w₁.verbs.Lawful → v.Lawful) :
    StepTandem x₁ w₁ x₂ w₂ (w₁', { x₁ with current := c }, v)
      (w₂', { x₂ with current := c }, v) := by
  obtain ⟨p, rfl, rfl, hb⟩ := t
  exact ⟨p, c, v, rfl, rfl, fun hl => ⟨hb hl, hv hl⟩⟩

theorem Tandem.moves (t : Tandem x₁ w₁ x₂ w₂ w₁' w₂') (c : Value) :
    StepTandem x₁ w₁ x₂ w₂ (w₁', { x₁ with current := c }, .next)
      (w₂', { x₂ with current := c }, .next) :=
  t.ends c fun _ => trivial

theorem Tandem.stays (t : Tandem x₁ w₁ x₂ w₂ w₁' w₂') (h : Alike x₁ w₁ x₂ w₂) {v : Verdict}
    (hv : w₁.verbs.Lawful → v.Lawful) :
    StepTandem x₁ w₁ x₂ w₂ (w₁', x₁, v) (w₂', x₂, v) := by
  have hs := t.ends x₁.current hv
  have hx : { x₂ with current := x₁.current } = x₂ := by rw [h.current]
  rwa [hx] at hs

/-! ## Writing elements -/

theorem putAttr_tandem (attr : String) (value : Option String) (element : NodeId)
    (h : Alike x₁ w₁ x₂ w₂) :
    Tandem x₁ w₁ x₂ w₂ (putAttr attr value w₁ element) (putAttr attr value w₂ element) := by
  unfold putAttr
  rw [h.document]
  cases value with
  | some value => exact h.putDocument _
  | none => exact h.putDocument _

theorem writeAttr_tandem (h : Alike x₁ w₁ x₂ w₂) (target attr rhs : String) :
    StepTandem x₁ w₁ x₂ w₂ (x₁.writeAttr w₁ target attr rhs) (x₂.writeAttr w₂ target attr rhs) := by
  unfold writeAttr resolve
  rw [h.vars, h.document]
  refine Tandem.moves ?_ _
  have hbase : Tandem x₁ w₁ x₂ w₂
      (if (Selector.named w₂.document target).isEmpty then
        x₁.miss w₁ "selector matched no elements" [("selector", .text target), ("error", noMatch)]
        else w₁)
      (if (Selector.named w₂.document target).isEmpty then
        x₂.miss w₂ "selector matched no elements" [("selector", .text target), ("error", noMatch)]
        else w₂) := by
    split
    · exact h.miss _ _
    · exact h.refl
  exact hbase.trans h
    (Tandem.foldl (fun _ _ element => putAttr_tandem attr _ element) _ (hbase.alike h))

theorem putContent_tandem (markup : String) (element : NodeId) (h : Alike x₁ w₁ x₂ w₂) :
    Tandem x₁ w₁ x₂ w₂ (x₁.putContent markup w₁ element) (x₂.putContent markup w₂ element) := by
  unfold putContent contentRefused
  rw [h.document]
  cases w₂.document.setContent element markup with
  | ok document => exact h.putDocument _
  | error e => exact h.miss _ _

theorem putProperty_tandem (property value : String) (element : NodeId) (h : Alike x₁ w₁ x₂ w₂) :
    Tandem x₁ w₁ x₂ w₂ (x₁.putProperty property value w₁ element)
      (x₂.putProperty property value w₂ element) := by
  unfold putProperty
  split
  · exact putContent_tandem value element h
  · rw [h.document]
    cases w₂.document.setStyle element property value with
    | ok document => exact h.putDocument _
    | error styleError =>
        dsimp only
        cases w₂.document.setProperty element property (.parse value) with
        | ok document => exact h.putDocument _
        | error propertyError =>
            -- neither a style nor a property: a record and an attribute
            have t := h.report .debug "falling back to attribute"
              [("element", .text (w₂.document.label element)), ("name", .text property),
                ("style_error", .text styleError.message),
                ("property_error", .text propertyError.message)]
            have h' := t.alike h
            refine t.trans h ?_
            have hd := h'.document
            dsimp only at hd ⊢
            rw [hd]
            exact h'.putDocument _

theorem writeIndexed_tandem (h : Alike x₁ w₁ x₂ w₂) (target index property rhs : String) :
    StepTandem x₁ w₁ x₂ w₂ (x₁.writeIndexed w₁ target index property rhs)
      (x₂.writeIndexed w₂ target index property rhs) := by
  unfold writeIndexed resolve
  rw [h.vars, h.document]
  cases Selector.resolve w₂.document target index with
  | none => exact h.refl.stays h fun _ => trivial
  | some elements =>
      cases elements with
      | nil => exact (h.miss _ _).moves _
      | cons element rest =>
          exact (Tandem.foldl (fun _ _ element => putProperty_tandem property _ element) _ h).moves _

theorem writeProp_tandem (h : Alike x₁ w₁ x₂ w₂) (target property rhs : String) :
    StepTandem x₁ w₁ x₂ w₂ (x₁.writeProp w₁ target property rhs)
      (x₂.writeProp w₂ target property rhs) := by
  unfold writeProp resolve
  rw [h.vars, h.document]
  cases Selector.named w₂.document target with
  | nil => exact (h.miss _ _).stays h fun _ => trivial
  | cons element rest =>
      exact (Tandem.foldl (fun _ _ element => putProperty_tandem property _ element) _ h).moves _

theorem setContent_tandem (h : Alike x₁ w₁ x₂ w₂) (id rhs : String) :
    StepTandem x₁ w₁ x₂ w₂ (x₁.setContent w₁ id rhs) (x₂.setContent w₂ id rhs) := by
  unfold setContent
  rw [h.vars, h.document, h.current]
  cases w₂.document.elementById? id with
  | none => exact (h.miss _ _).stays h fun _ => trivial
  | some element => exact (putContent_tandem _ element h).stays h fun _ => trivial

/-! ## Variables -/

theorem readProp_tandem (h : Alike x₁ w₁ x₂ w₂) (name id property : String) :
    StepTandem x₁ w₁ x₂ w₂ (x₁.readProp w₁ name id property) (x₂.readProp w₂ name id property) := by
  unfold readProp
  rw [h.document]
  have hbase : Tandem x₁ w₁ x₂ w₂
      (if (w₂.document.elementById? id).isNone then
        x₁.miss w₁ "element not found" [("id", .text id), ("error", noMatch)] else w₁)
      (if (w₂.document.elementById? id).isNone then
        x₂.miss w₂ "element not found" [("id", .text id), ("error", noMatch)] else w₂) := by
    split
    · exact h.miss _ _
    · exact h.refl
  have h' := hbase.alike h
  dsimp only
  rw [h'.document]
  exact (hbase.trans h (h'.modifyVars fun s => Store.becomes_set s _ _)).moves _

theorem assign_tandem (h : Alike x₁ w₁ x₂ w₂) (name rhs : String) :
    StepTandem x₁ w₁ x₂ w₂ (x₁.assign w₁ name rhs) (x₂.assign w₂ name rhs) := by
  unfold assign
  cases Segment.fallback? rhs with
  | none =>
      unfold resolve
      rw [h.vars, h.document]
      exact (h.modifyVars fun s => Store.becomes_set s _ _).moves _
  | some pair =>
      obtain ⟨other, fallback⟩ := pair
      dsimp only
      have hbase : Tandem x₁ w₁ x₂ w₂
          (if (x₂.vars w₂).has other then w₁
            else x₁.modifyVars w₁ (·.set other (.parse (Segment.unescape fallback))))
          (if (x₂.vars w₂).has other then w₂
            else x₂.modifyVars w₂ (·.set other (.parse (Segment.unescape fallback)))) := by
        split
        · exact h.refl
        · exact h.modifyVars fun s => Store.becomes_set s _ _
      rw [h.vars, (hbase.alike h).vars]
      exact hbase.moves _

theorem nop_tandem (h : Alike x₁ w₁ x₂ w₂) (name : String) :
    StepTandem x₁ w₁ x₂ w₂ (x₁.nop w₁ name) (x₂.nop w₂ name) := by
  unfold nop
  rw [h.current]
  exact (h.modifyVars fun s => Store.becomes_set s _ _).stays h fun _ => trivial

/-! ## Verbs -/

theorem invocation_alike (h : Alike x₁ w₁ x₂ w₂) (name : String) (parameters : List String) :
    x₁.invocation w₁ name parameters = x₂.invocation w₂ name parameters := by
  unfold invocation
  rw [h.vars, h.name, h.document, h.element, h.trigger]

/-- An answer of a verb, given at the desk. -/
theorem conclude_tandem (h : Alike x₁ w₁ x₂ w₂) (name : String) (args : List String)
    (act : StateM Desk Answer) (hact : w₁.verbs.Lawful → Desk.Gives act fun _ => True) :
    StepTandem x₁ w₁ x₂ w₂
      (x₁.conclude (x₁.atDesk w₁ act).1 name args (x₁.atDesk w₁ act).2)
      (x₂.conclude (x₂.atDesk w₂ act).1 name args (x₂.atDesk w₂ act).2) := by
  obtain ⟨v₁, v₂, answer, h1, h2, t, -⟩ := h.atDesk act hact
  rw [h1, h2]
  unfold conclude
  cases answer with
  | ok v => exact t.moves v
  | error f =>
      unfold verbFailed
      rw [h.key]
      exact (t.trans h ((t.alike h).report _ _ _)).stays h fun _ => trivial

/-- The answers to a lawful result are lawful. -/
theorem settle_tandem (h : Alike x₁ w₁ x₂ w₂) (t : Tandem x₁ w₁ x₂ w₂ w₁' w₂') (name : String)
    (args : List String) {r : Result} (hr : w₁.verbs.Lawful → r.Lawful) (answer : Answer) :
    StepTandem x₁ w₁ x₂ w₂
      (x₁.conclude (x₁.atDesk w₁' (r.settle answer)).1 name args
        (x₁.atDesk w₁' (r.settle answer)).2)
      (x₂.conclude (x₂.atDesk w₂' (r.settle answer)).1 name args
        (x₂.atDesk w₂' (r.settle answer)).2) := by
  have h' := t.alike h
  have hverbs : w₁'.verbs = w₁.verbs := by
    obtain ⟨p, rfl, -⟩ := t
    exact patch_verbs p
  obtain ⟨p, c, v, e1, e2, hl⟩ := conclude_tandem h' name args
    (r.settle answer) fun hlaw => (hr (hverbs ▸ hlaw)).settle answer
  obtain ⟨q, rfl, rfl, hq⟩ := t
  refine ⟨⟨p.document, p.vars, q.log ++ p.log⟩, c, v, ?_, ?_, fun hlaw => ?_⟩
  · rw [e1, patch_patch]
  · rw [e2, patch_patch]
  · rw [patch_verbs, vars_patch h.placed₁] at hl
    exact ⟨(hq hlaw).trans (hl hlaw).1, (hl hlaw).2⟩

theorem callVerb_tandem (h : Alike x₁ w₁ x₂ w₂) (segment name parameters : String) :
    StepTandem x₁ w₁ x₂ w₂ (x₁.callVerb w₁ segment name parameters)
      (x₂.callVerb w₂ segment name parameters) := by
  unfold callVerb
  rw [h.verbs, h.globals, invocation_alike h]
  cases hl : w₂.verbs.lookup name with
  | none => exact (h.miss _ _).stays h fun _ => trivial
  | some verb =>
      dsimp only
      obtain ⟨v₁, v₂, result, h1, h2, t, hres⟩ :=
        h.atDesk (verb.invoke w₂.verbs w₂.globals
            (x₂.invocation w₂ name (Segment.splitParameters parameters)))
          (P := Result.Lawful) fun hlaw => by
            rw [h.verbs] at hlaw
            exact Verb.invoke_gives hlaw (Verb.lawful_of_lookup hlaw hl) _
      rw [h1, h2]
      dsimp only
      -- what is pending waits; every other outcome is answered at once
      cases result.outcome with
      | pending job => exact t.stays h hres
      | value v => exact settle_tandem h t _ _ hres _
      | failure f => exact settle_tandem h t _ _ hres _
      | crash text => exact settle_tandem h t _ _ hres _

end Handlers

/-! ## Steps -/

/-- The shell that a segment closes. -/
def closes? (x : Execution) (w : World) (segment : String) : Option ShellId :=
  match Segment.ofScript? segment with
  | some (.shellClose name) => w.openShell? (w.entry x.entry).key name
  | _ => none

/-- The target and the name of the shell that a segment opens. -/
def opens? (x : Execution) (segment : String) : Option (String × String) :=
  match Segment.ofScript? segment, x.shell with
  | some (.shellOpen target name), none => some (target, name)
  | _, _ => none

/-- **A segment that opens and closes nothing works on the scene.** -/
theorem step_tandem {x₁ x₂ : Execution} {w₁ w₂ : World} {segment : String}
    (h : Alike x₁ w₁ x₂ w₂)
    (ho₁ : x₁.opens? segment = none) (ho₂ : x₂.opens? segment = none)
    (hc₁ : x₁.closes? w₁ segment = none) (hc₂ : x₂.closes? w₂ segment = none) :
    StepTandem x₁ w₁ x₂ w₂ (x₁.step w₁ segment) (x₂.step w₂ segment) := by
  unfold opens? at ho₁ ho₂
  unfold closes? at hc₁ hc₂
  unfold step
  cases hs : Segment.ofScript? segment with
  | none =>
      dsimp only
      rw [h.key]
      exact (h.report _ _ _).stays h fun _ => trivial
  | some shape =>
      rw [hs] at ho₁ ho₂ hc₁ hc₂
      cases shape with
      | attrWrite target attr rhs => exact writeAttr_tandem h target attr rhs
      | indexedWrite target index property rhs =>
          exact writeIndexed_tandem h target index property rhs
      | shellOpen target name =>
          -- nothing is opened, so both are in a shell already
          dsimp only at ho₁ ho₂ ⊢
          unfold openShell
          cases hx₁ : x₁.shell with
          | none => rw [hx₁] at ho₁; simp at ho₁
          | some s₁ =>
              cases hx₂ : x₂.shell with
              | none => rw [hx₂] at ho₂; simp at ho₂
              | some s₂ => exact (h.miss _ _).stays h fun _ => trivial
      | shellClose name =>
          -- nothing is closed, so there is no such shell
          dsimp only at hc₁ hc₂ ⊢
          unfold closeShell World.detachShell
          rw [hc₁, hc₂]
          exact (h.miss _ _).stays h fun _ => trivial
      | propRead name element property => exact readProp_tandem h name element property
      | literalAssign name rhs => exact assign_tandem h name rhs
      | propWrite target property rhs => exact writeProp_tandem h target property rhs
      | nopStore name => exact nop_tandem h name
      | contentSet element rhs => exact setContent_tandem h element rhs
      | verbCall verb parameters => exact callVerb_tandem h segment verb parameters

/-- The frame of such a segment. -/
theorem step_local {x : Execution} {w : World} {segment : String} (h : x.Placed w)
    (ho : x.opens? segment = none) (hc : x.closes? w segment = none) :
    ∃ p c v, x.step w segment = (x.patch w p, { x with current := c }, v) ∧
      (w.verbs.Lawful → (x.vars w).Becomes p.vars ∧ v.Lawful) := by
  obtain ⟨p, c, v, heq, -, hl⟩ := step_tandem ⟨rfl, h, h⟩ ho ho hc hc
  exact ⟨p, c, v, heq, hl⟩

/-! ## Merges

Pending closes are merged into the entry, whichever scope is active. So a merge is
a patch of the execution outside of its shell. -/

/-- The same execution outside of shells. -/
def outside (x : Execution) : Execution := { x with shell := none }

/-- A store after the merges of pending closes. -/
def mergeAll (w : World) (pending : List PendingClose) (vars : Store) : Store :=
  pending.foldl (fun s p => (s.mergeSince (w.shell p.shell).vars p.mark).1) vars

theorem outside_placed {x : Execution} {w : World} (h : x.entry < w.entries.size) :
    x.outside.Placed w :=
  ⟨h, fun s hs => by simp [outside] at hs⟩

theorem outside_eq {x : Execution} (h : x.shell = none) : x.outside = x := by
  unfold outside
  rw [← h]

/-- **Committing merges the pending closes one after the other**, and that is all. -/
theorem commit_eq (x : Execution) (pending : List PendingClose) :
    ∀ {w : World}, x.entry < w.entries.size →
      ∃ log, pending.foldl x.commitOne w =
        x.outside.patch w ⟨w.document, mergeAll w pending (w.entry x.entry).vars, log⟩ := by
  induction pending with
  | nil =>
      intro w _
      exact ⟨[], patch_self.symm⟩
  | cons p rest ih =>
      intro w h
      obtain ⟨record, hone⟩ : ∃ record, x.commitOne w p =
          x.outside.patch w ⟨w.document, mergeAll w [p] (w.entry x.entry).vars, [record]⟩ :=
        ⟨_, rfl⟩
      have hsize : x.entry < (x.commitOne w p).entries.size := by rw [hone]; simpa using h
      obtain ⟨log, hrest⟩ := ih hsize
      refine ⟨[record] ++ log, ?_⟩
      have hvars : ((x.commitOne w p).entry x.entry).vars =
          mergeAll w [p] (w.entry x.entry).vars := by
        rw [hone]
        exact vars_patch (outside_placed h) _
      -- a merge writes the entry only, so the rest merges what it would have merged before
      have hshell : ∀ s, (x.commitOne w p).shell s = w.shell s := by
        intro s
        rw [hone]
        exact patch_shell_of_entry rfl _ s
      have hmerge : mergeAll (x.commitOne w p) rest = mergeAll w rest := by
        unfold mergeAll
        funext vars
        simp only [hshell]
      rw [List.foldl_cons, hrest, hvars, hmerge, hone, patch_patch]
      rfl

/-! ## Opens and closes -/

/-- A close takes the shell off the list and keeps it for the merge. -/
theorem step_close {x : Execution} {w : World} {segment : String} {s : ShellId}
    (hc : x.closes? w segment = some s) :
    ∃ name, Segment.ofScript? segment = some (.shellClose name) ∧
      w.openShell? (w.entry x.entry).key name = some s ∧
      x.step w segment =
        (w.unfile ((w.entry x.entry).key, name),
          { x with
            closing := x.closing ++ [⟨s, (w.entry x.entry).vars.revision⟩]
            shell := if x.shell = some s then none else x.shell }, .next) := by
  unfold closes? at hc
  split at hc
  · rename_i name hs
    refine ⟨name, hs, hc, ?_⟩
    unfold step
    rw [hs]
    dsimp only
    unfold closeShell
    rw [World.detachShell_eq hc]
    dsimp only
    by_cases hx : x.shell = some s
    · rw [if_pos (by simpa using hx), if_pos hx]
      rfl
    · rw [if_neg (by simpa using hx), if_neg hx]
      rfl
  · simp at hc

/-- The closes that an open of a name merges first. -/
def due (x : Execution) (w : World) (name : String) : List PendingClose :=
  x.closing.filter fun p => (w.shell p.shell).name == name

/-- The closes that an open of a name leaves pending. -/
def kept (x : Execution) (w : World) (name : String) : List PendingClose :=
  x.closing.filter fun p => !((w.shell p.shell).name == name)

/-- The record of an open. -/
def openRecord (x : Execution) (target name : String) (reused : Bool) : Record :=
  ⟨.debug, "opened shell", [("key", .text x.key), ("shell", .text name), ("target", .text target),
    ("reused", .text (Tree.boolText reused))]⟩

theorem patch_record {x : Execution} {w : World} (p : Patch) (record : Record) :
    { x.patch w p with log := (x.patch w p).log ++ [record] } =
      x.patch w { p with log := p.log ++ [record] } := by
  unfold patch
  simp only [List.append_assoc]

/-- The patch of the merges before an open. -/
def dueMerged (x : Execution) (w : World) (name : String) (log : List Record) : Patch :=
  ⟨w.document, mergeAll w (x.due w name) (w.entry x.entry).vars, log⟩

/-- The execution after it has entered a shell with a body. -/
def entered (x : Execution) (w : World) (name : String) (s : ShellId) (body : List String) :
    Execution :=
  { x with closing := x.kept w name, shell := some s, segments := body, pos := 0,
           current := .undefined }

/-- The shell that an open makes. -/
def newShell (x : Execution) (w : World) (target name : String) : Shell :=
  { name, entry := (w.entry x.entry).key, target, element := w.targetElement x.entry target,
    segments := x.segments.drop x.pos }

/-- An open merges the closes of its name, then enters the shell of that name, or a new one whose
body is the rest of the script. -/
theorem step_open {x : Execution} {w : World} {segment target name : String}
    (h : x.entry < w.entries.size) (ho : x.opens? segment = some (target, name)) :
    x.shell = none ∧ ∃ log,
      (∃ s, w.openShell? (w.entry x.entry).key name = some s ∧
        x.step w segment = (x.patch w (x.dueMerged w name log),
          x.entered w name s (w.shell s).segments, .next)) ∨
      (w.openShell? (w.entry x.entry).key name = none ∧
        x.step w segment =
          ((x.patch w (x.dueMerged w name log)).file (x.newShell w target name),
            x.entered w name w.shells.size (x.segments.drop x.pos), .next)) := by
  unfold opens? at ho
  split at ho
  · rename_i t n hs hx
    obtain ⟨rfl, rfl⟩ := Prod.mk.inj (Option.some.inj ho)
    refine ⟨hx, ?_⟩
    obtain ⟨log, hcommit⟩ := commit_eq x (x.due w n) h
    rw [outside_eq hx] at hcommit
    -- the merges leave alone all that the open looks at
    have hkey : ((x.patch w (x.dueMerged w n log)).entry x.entry).key = (w.entry x.entry).key := by
      rw [patch_entry_vars]
    have hfind : (x.patch w (x.dueMerged w n log)).openShell?
        ((x.patch w (x.dueMerged w n log)).entry x.entry).key n =
          w.openShell? (w.entry x.entry).key n := by
      rw [hkey]
      unfold World.openShell?
      rw [patch_openShells]
    have hrun : x.step w segment =
        (let r := (x.patch w (x.dueMerged w n log)).openShell x.entry t n (x.segments.drop x.pos)
        let w' := { r.1 with log := r.1.log ++ [x.openRecord t n r.2.2] }
        (w', x.entered w n r.2.1 (w'.shell r.2.1).segments, .next)) := by
      unfold dueMerged
      rw [← hcommit]
      unfold step
      rw [hs]
      dsimp only
      unfold openShell commitWhere
      rw [hx]
      rfl
    rw [hrun]
    cases hl : w.openShell? (w.entry x.entry).key n with
    | some s =>
        rw [World.openShell_reused (hfind.trans hl)]
        refine ⟨log ++ [x.openRecord t n true], Or.inl ⟨s, rfl, ?_⟩⟩
        dsimp only
        rw [patch_record]
        have hbody : (x.patch w { x.dueMerged w n log with
            log := (x.dueMerged w n log).log ++ [x.openRecord t n true] }).shell s = w.shell s :=
          patch_shell_of_entry hx _ s
        rw [hbody]
        rfl
    | none =>
        -- the body of the new shell is looked up again after it was filed
        have helement : (x.patch w (x.dueMerged w n log)).targetElement x.entry t =
            w.targetElement x.entry t := by
          unfold World.targetElement
          rw [patch_entry_vars]
          rfl
        rw [World.openShell_new (hfind.trans hl), hkey, helement]
        refine ⟨log ++ [x.openRecord t n false], Or.inr ⟨rfl, ?_⟩⟩
        obtain ⟨merged, hmerged⟩ : ∃ merged, merged = x.patch w (x.dueMerged w n log) := ⟨_, rfl⟩
        have hsize : merged.shells.size = w.shells.size := by rw [hmerged, patch_shells_size]
        have hbody : (merged.file (x.newShell w t n)).shell w.shells.size =
            x.newShell w t n := by
          rw [← hsize, World.shell_file_size]
        rw [← hmerged, hsize]
        show (({ merged with log := merged.log ++ [x.openRecord t n false] }).file
            (x.newShell w t n),
          x.entered w n w.shells.size
            ((merged.file (x.newShell w t n)).shell w.shells.size).segments, _) = _
        rw [hbody, hmerged, patch_record]
        rfl
  · simp at ho

/-! ## All cases -/

/-- The four ways a step can go. -/
inductive Goes (x : Execution) (w : World) (segment : String) : Stepped → Prop
  /-- It opens and closes nothing. -/
  | patches (p : Patch) (c : Value) (v : Verdict) (hopen : x.opens? segment = none)
      (hclose : x.closes? w segment = none)
      (hlaw : w.verbs.Lawful → (x.vars w).Becomes p.vars ∧ v.Lawful) :
      Goes x w segment (x.patch w p, { x with current := c }, v)
  /-- It closes a shell. -/
  | closes (s : ShellId) (name : String) (hclose : x.closes? w segment = some s)
      (hname : Segment.ofScript? segment = some (.shellClose name))
      (hfind : w.openShell? (w.entry x.entry).key name = some s) :
      Goes x w segment (w.unfile ((w.entry x.entry).key, name),
        { x with
          closing := x.closing ++ [⟨s, (w.entry x.entry).vars.revision⟩]
          shell := if x.shell = some s then none else x.shell }, .next)
  /-- It enters a shell that is open. -/
  | enters (target name : String) (s : ShellId) (log : List Record)
      (hopen : x.opens? segment = some (target, name)) (hout : x.shell = none)
      (hfind : w.openShell? (w.entry x.entry).key name = some s) :
      Goes x w segment (x.patch w (x.dueMerged w name log),
        x.entered w name s (w.shell s).segments, .next)
  /-- It makes a shell and enters it. -/
  | makes (target name : String) (log : List Record)
      (hopen : x.opens? segment = some (target, name)) (hout : x.shell = none)
      (hfree : w.openShell? (w.entry x.entry).key name = none) :
      Goes x w segment
        ((x.patch w (x.dueMerged w name log)).file (x.newShell w target name),
          x.entered w name w.shells.size (x.segments.drop x.pos), .next)

/-- **Every step goes one of the four ways.** -/
theorem step_goes {x : Execution} {w : World} (h : x.Placed w) (segment : String) :
    Goes x w segment (x.step w segment) := by
  cases ho : x.opens? segment with
  | some pair =>
      obtain ⟨target, name⟩ := pair
      obtain ⟨hx, log, ⟨s, hfind, heq⟩ | ⟨hfree, heq⟩⟩ := step_open h.entry ho
      · rw [heq]
        exact .enters target name s log ho hx hfind
      · rw [heq]
        exact .makes target name log ho hx hfree
  | none =>
      cases hc : x.closes? w segment with
      | some s =>
          obtain ⟨name, hname, hfind, heq⟩ := step_close hc
          rw [heq]
          exact .closes s name hc hname hfind
      | none =>
          obtain ⟨p, c, v, heq, hlaw⟩ := step_local h ho hc
          rw [heq]
          exact .patches p c v ho hc hlaw

end Execution

end PageMacro
