import PageMacro.Proofs.World

/-!
# What a segment sees and what it changes

Only two kinds of segments touch the arena: an open outside of shells, and a close
that finds its shell. Every other segment works on the *scene*: the page, the
verbs, and the active scope. `step_tandem` says this once, for two executions in
two worlds at the same time: if their scenes are the same, the segment changes
both worlds by the same patch to the page, the active scope's variables and the
log, moves both to the same running value and ends both with the same verdict.

Taken with one world twice, that is the frame of a step: nothing but the patch
has changed. Taken with two worlds that differ off the scene, it is what makes a
scope isolated. And the patched variables are the old ones after some writes,
provided the verbs are lawful.
-/

namespace PageMacro

namespace Execution

/-- What a segment can see that neither opens nor closes a shell. -/
structure Scene where
  key : String
  trigger : NodeId
  current : Value
  document : Document
  verbs : Registry
  globals : Option Globals
  name : String
  element : NodeId
  vars : Store

/-- What such a segment can change in the world. -/
structure Patch where
  document : Document
  vars : Store
  log : List Record

/-- The scene of an execution. -/
def scene (x : Execution) (w : World) : Scene :=
  ⟨x.key, x.trigger, x.current, w.document, w.verbs, w.globals, x.scopeName w, x.scopeElement w,
    x.vars w⟩

/-- The world after a patch. -/
def patch (x : Execution) (w : World) (p : Patch) : World :=
  { x.modifyVars w (fun _ => p.vars) with document := p.document, log := w.log ++ p.log }

/-- The entry and the shell of an execution exist. -/
structure Placed (x : Execution) (w : World) : Prop where
  entry : x.entry < w.entries.size
  shell : ∀ s, x.shell = some s → s < w.shells.size

/-! ## Patches -/

section Patches

variable {x : Execution} {w : World}

theorem vars_modifyVars (h : x.Placed w) (f : Store → Store) :
    x.vars (x.modifyVars w f) = f (x.vars w) := by
  unfold vars modifyVars
  cases hs : x.shell with
  | some s =>
      dsimp only
      rw [World.shell_modifyShellVars w s s f (h.shell s hs), if_pos rfl]
  | none =>
      dsimp only
      rw [World.entry_modifyEntryVars w x.entry x.entry f h.entry, if_pos rfl]

/-- Only what `f` does to the variables that are there matters. -/
theorem modifyVars_congr {f g : Store → Store} (h : f (x.vars w) = g (x.vars w)) :
    x.modifyVars w f = x.modifyVars w g := by
  unfold vars at h
  unfold modifyVars
  cases hs : x.shell with
  | some s => rw [hs] at h; exact World.modifyShellVars_congr h
  | none => rw [hs] at h; exact World.modifyEntryVars_congr h

theorem modifyVars_id : x.modifyVars w id = w := by
  unfold modifyVars
  cases x.shell with
  | some s => exact World.modifyShellVars_id w s
  | none => exact World.modifyEntryVars_id w x.entry

theorem modifyVars_modifyVars (f g : Store → Store) :
    x.modifyVars (x.modifyVars w f) g = x.modifyVars w (g ∘ f) := by
  unfold modifyVars
  cases x.shell with
  | some s => exact World.modifyShellVars_modifyShellVars w s f g
  | none => exact World.modifyEntryVars_modifyEntryVars w x.entry f g

theorem modifyVars_frame (f : Store → Store) :
    x.modifyVars w f = { w with
      entries := (x.modifyVars w f).entries, shells := (x.modifyVars w f).shells } := by
  unfold modifyVars
  cases x.shell <;> rfl

theorem modifyVars_eq (f : Store → Store) :
    x.modifyVars w f = x.patch w ⟨w.document, f (x.vars w), []⟩ := by
  unfold patch
  rw [modifyVars_congr (f := fun _ => f (x.vars w)) (g := f) rfl, modifyVars_frame]
  simp

theorem patch_patch (p q : Patch) :
    x.patch (x.patch w p) q = x.patch w ⟨q.document, q.vars, p.log ++ q.log⟩ := by
  -- the second patch overwrites the variables of the first, and the records add up
  have h := modifyVars_modifyVars (x := x) (w := w) (fun _ => p.vars) fun _ => q.vars
  unfold patch
  unfold modifyVars at h ⊢
  cases hs : x.shell with
  | some s =>
      rw [hs] at h
      have hshells := congrArg World.shells h
      simp only [World.modifyShellVars, List.append_assoc, World.mk.injEq, true_and, and_true]
      exact hshells
  | none =>
      rw [hs] at h
      have hentries := congrArg World.entries h
      simp only [World.modifyEntryVars, List.append_assoc, World.mk.injEq, true_and, and_true]
      exact hentries

/-- A patch that keeps the variables. -/
theorem patch_page (d : Document) (log : List Record) :
    x.patch w ⟨d, x.vars w, log⟩ = { w with document := d, log := w.log ++ log } := by
  unfold patch
  rw [modifyVars_congr (f := fun _ => x.vars w) (g := id) rfl, modifyVars_id]

/-- A patch that changes nothing. -/
theorem patch_self : x.patch w ⟨w.document, x.vars w, []⟩ = w := by
  rw [patch_page, List.append_nil]

theorem atDesk_eq {α : Type} (act : StateM Desk α) :
    x.atDesk w act =
      (x.patch w ⟨w.document, (act.run { vars := x.vars w }).2.vars,
        (act.run { vars := x.vars w }).2.log⟩, (act.run { vars := x.vars w }).1) := by
  unfold atDesk patch modifyVars
  cases x.shell <;> rfl

@[simp] theorem patch_document (p : Patch) : (x.patch w p).document = p.document := rfl

@[simp] theorem patch_verbs (p : Patch) : (x.patch w p).verbs = w.verbs := by
  unfold patch modifyVars; cases x.shell <;> rfl

@[simp] theorem patch_globals (p : Patch) : (x.patch w p).globals = w.globals := by
  unfold patch modifyVars; cases x.shell <;> rfl

@[simp] theorem patch_openShells (p : Patch) : (x.patch w p).openShells = w.openShells := by
  unfold patch modifyVars; cases x.shell <;> rfl

@[simp] theorem patch_table (p : Patch) : (x.patch w p).table = w.table := by
  unfold patch modifyVars; cases x.shell <;> rfl

@[simp] theorem patch_entries_size (p : Patch) :
    (x.patch w p).entries.size = w.entries.size := by
  unfold patch modifyVars World.modifyEntryVars World.modifyShellVars
  cases x.shell <;> simp

@[simp] theorem patch_shells_size (p : Patch) : (x.patch w p).shells.size = w.shells.size := by
  unfold patch modifyVars World.modifyEntryVars World.modifyShellVars
  cases x.shell <;> simp

/-- Inside a shell, entries stay as they are. -/
theorem patch_entry_of_shell {s : ShellId} (hs : x.shell = some s) (p : Patch) (e : EntryId) :
    (x.patch w p).entry e = w.entry e := by
  unfold patch modifyVars
  rw [hs]
  rfl

/-- Outside of shells, shells stay as they are. -/
theorem patch_shell_of_entry (hs : x.shell = none) (p : Patch) (s : ShellId) :
    (x.patch w p).shell s = w.shell s := by
  unfold patch modifyVars
  rw [hs]
  rfl

/-- Inside a shell, every other shell stays as it is. -/
theorem patch_shell_of_ne (h : x.Placed w) {s : ShellId} (hs : x.shell ≠ some s) (p : Patch) :
    (x.patch w p).shell s = w.shell s := by
  cases hx : x.shell with
  | none => exact patch_shell_of_entry hx p s
  | some t =>
      have hne : s ≠ t := fun he => hs (by rw [hx, he])
      unfold patch modifyVars
      rw [hx]
      have := World.shell_modifyShellVars w t s (fun _ => p.vars) (h.shell t hx)
      rw [if_neg hne] at this
      exact this

/-- A patch changes nothing of a shell but its variables. -/
theorem patch_shell_vars (p : Patch) (s : ShellId) :
    (x.patch w p).shell s = { w.shell s with vars := ((x.patch w p).shell s).vars } := by
  unfold patch modifyVars
  cases x.shell with
  | none => rfl
  | some t =>
      unfold World.shell World.modifyShellVars
      dsimp only
      rw [Array.getElem?_modify]
      split
      · rename_i ht; subst ht; cases w.shells[t]? <;> rfl
      · rfl

/-- A patch changes nothing of an entry but its variables. -/
theorem patch_entry_vars (p : Patch) (e : EntryId) :
    (x.patch w p).entry e = { w.entry e with vars := ((x.patch w p).entry e).vars } := by
  unfold patch modifyVars
  cases x.shell with
  | some s => rfl
  | none =>
      unfold World.entry World.modifyEntryVars
      dsimp only
      rw [Array.getElem?_modify]
      split
      · rename_i he; subst he; cases w.entries[x.entry]? <;> rfl
      · rfl

theorem vars_patch (h : x.Placed w) (p : Patch) : x.vars (x.patch w p) = p.vars := by
  have := vars_modifyVars h fun _ => p.vars
  unfold vars at this ⊢
  unfold patch
  unfold modifyVars at this ⊢
  cases hs : x.shell with
  | some s => rw [hs] at this; exact this
  | none => rw [hs] at this; exact this

theorem scopeName_patch (p : Patch) : x.scopeName (x.patch w p) = x.scopeName w := by
  unfold scopeName
  cases x.shell with
  | some s => dsimp only; rw [patch_shell_vars]
  | none => dsimp only; rw [patch_entry_vars]

theorem scopeElement_patch (p : Patch) : x.scopeElement (x.patch w p) = x.scopeElement w := by
  unfold scopeElement
  cases x.shell with
  | some s => dsimp only; rw [patch_shell_vars]
  | none => dsimp only; rw [patch_entry_vars]

theorem scene_patch (h : x.Placed w) (p : Patch) :
    x.scene (x.patch w p) = { x.scene w with document := p.document, vars := p.vars } := by
  unfold scene
  simp only [patch_document, patch_verbs, patch_globals, scopeName_patch, scopeElement_patch,
    vars_patch h]

theorem placed_patch (h : x.Placed w) (p : Patch) : x.Placed (x.patch w p) :=
  ⟨by simpa using h.entry, fun s hs => by simpa using h.shell s hs⟩

end Patches

/-! ## Two worlds in tandem -/

/-- Two executions in two worlds that see the same scene. -/
structure Alike (x₁ : Execution) (w₁ : World) (x₂ : Execution) (w₂ : World) : Prop where
  scene : x₁.scene w₁ = x₂.scene w₂
  placed₁ : x₁.Placed w₁
  placed₂ : x₂.Placed w₂

/-- Both worlds are changed by the same patch, and variables by writes only. -/
def Tandem (x₁ : Execution) (w₁ : World) (x₂ : Execution) (w₂ w₁' w₂' : World) : Prop :=
  ∃ p, w₁' = x₁.patch w₁ p ∧ w₂' = x₂.patch w₂ p ∧
    (w₁.verbs.Lawful → (x₁.vars w₁).Becomes p.vars)

section Tandem

variable {x₁ x₂ : Execution} {w₁ w₂ w₁' w₂' w₁'' w₂'' : World}

namespace Alike

theorem document (h : Alike x₁ w₁ x₂ w₂) : w₁.document = w₂.document :=
  congrArg Scene.document h.scene

theorem vars (h : Alike x₁ w₁ x₂ w₂) : x₁.vars w₁ = x₂.vars w₂ := congrArg Scene.vars h.scene

theorem key (h : Alike x₁ w₁ x₂ w₂) : x₁.key = x₂.key := congrArg Scene.key h.scene

theorem current (h : Alike x₁ w₁ x₂ w₂) : x₁.current = x₂.current := congrArg Scene.current h.scene

theorem name (h : Alike x₁ w₁ x₂ w₂) : x₁.scopeName w₁ = x₂.scopeName w₂ :=
  congrArg Scene.name h.scene

theorem element (h : Alike x₁ w₁ x₂ w₂) : x₁.scopeElement w₁ = x₂.scopeElement w₂ :=
  congrArg Scene.element h.scene

theorem trigger (h : Alike x₁ w₁ x₂ w₂) : x₁.trigger = x₂.trigger := congrArg Scene.trigger h.scene

theorem verbs (h : Alike x₁ w₁ x₂ w₂) : w₁.verbs = w₂.verbs := congrArg Scene.verbs h.scene

theorem globals (h : Alike x₁ w₁ x₂ w₂) : w₁.globals = w₂.globals := congrArg Scene.globals h.scene

/-- The page and the log change, variables stay. -/
theorem page (h : Alike x₁ w₁ x₂ w₂) {d₁ d₂ : Document} (hd : d₁ = d₂) (log : List Record) :
    Tandem x₁ w₁ x₂ w₂ { w₁ with document := d₁, log := w₁.log ++ log }
      { w₂ with document := d₂, log := w₂.log ++ log } := by
  subst hd
  refine ⟨⟨d₁, x₁.vars w₁, log⟩, (patch_page d₁ log).symm, ?_, fun _ => Store.Becomes.refl _⟩
  rw [h.vars, patch_page]

theorem refl (h : Alike x₁ w₁ x₂ w₂) : Tandem x₁ w₁ x₂ w₂ w₁ w₂ := by
  have t := h.page h.document []
  rwa [List.append_nil, List.append_nil] at t

theorem putDocument (h : Alike x₁ w₁ x₂ w₂) (d : Document) :
    Tandem x₁ w₁ x₂ w₂ { w₁ with document := d } { w₂ with document := d } := by
  have t := h.page (Eq.refl d) []
  rwa [List.append_nil, List.append_nil] at t

theorem report (h : Alike x₁ w₁ x₂ w₂) (level : Level) (message : String) (attrs : LogAttrs) :
    Tandem x₁ w₁ x₂ w₂ (w₁.report level message attrs) (w₂.report level message attrs) :=
  h.page h.document [⟨level, message, attrs⟩]

theorem miss (h : Alike x₁ w₁ x₂ w₂) (message : String) (attrs : LogAttrs) :
    Tandem x₁ w₁ x₂ w₂ (x₁.miss w₁ message attrs) (x₂.miss w₂ message attrs) := by
  unfold Execution.miss
  rw [h.key, h.name]
  exact h.report _ _ _

theorem modifyVars (h : Alike x₁ w₁ x₂ w₂) {f : Store → Store} (hf : ∀ s : Store, s.Becomes (f s)) :
    Tandem x₁ w₁ x₂ w₂ (x₁.modifyVars w₁ f) (x₂.modifyVars w₂ f) :=
  ⟨⟨w₁.document, f (x₁.vars w₁), []⟩, modifyVars_eq f, by rw [modifyVars_eq, h.document, h.vars],
    fun _ => hf _⟩

/-- Work at the desk of the active scope. -/
theorem atDesk {α : Type} (h : Alike x₁ w₁ x₂ w₂) (act : StateM Desk α) {P : α → Prop}
    (hact : w₁.verbs.Lawful → Desk.Gives act P) :
    ∃ v₁ v₂ a, x₁.atDesk w₁ act = (v₁, a) ∧ x₂.atDesk w₂ act = (v₂, a) ∧
      Tandem x₁ w₁ x₂ w₂ v₁ v₂ ∧ (w₁.verbs.Lawful → P a) := by
  refine ⟨_, _, _, atDesk_eq act, ?_, ⟨_, rfl, rfl, fun hl => (hact hl { vars := x₁.vars w₁ }).1⟩,
    fun hl => (hact hl _).2⟩
  rw [atDesk_eq act, h.document, h.vars]

end Alike

namespace Tandem

/-- After the same patch both still see the same scene. -/
theorem alike (t : Tandem x₁ w₁ x₂ w₂ w₁' w₂') (h : Alike x₁ w₁ x₂ w₂) :
    Alike x₁ w₁' x₂ w₂' := by
  obtain ⟨p, rfl, rfl, -⟩ := t
  refine ⟨?_, placed_patch h.placed₁ p, placed_patch h.placed₂ p⟩
  rw [scene_patch h.placed₁, scene_patch h.placed₂, h.scene]

theorem trans (t : Tandem x₁ w₁ x₂ w₂ w₁' w₂') (h : Alike x₁ w₁ x₂ w₂)
    (u : Tandem x₁ w₁' x₂ w₂' w₁'' w₂'') : Tandem x₁ w₁ x₂ w₂ w₁'' w₂'' := by
  obtain ⟨p, rfl, rfl, hp⟩ := t
  obtain ⟨q, rfl, rfl, hq⟩ := u
  refine ⟨⟨q.document, q.vars, p.log ++ q.log⟩, patch_patch p q, patch_patch p q, fun hl => ?_⟩
  -- the second patch starts from the variables of the first, with the same verbs
  rw [patch_verbs, vars_patch h.placed₁] at hq
  exact (hp hl).trans (hq hl)

/-- Something done to one element after another. -/
theorem foldl {f₁ f₂ : World → NodeId → World}
    (hf : ∀ v₁ v₂ element, Alike x₁ v₁ x₂ v₂ → Tandem x₁ v₁ x₂ v₂ (f₁ v₁ element) (f₂ v₂ element)) :
    ∀ (elements : List NodeId) {w₁ w₂ : World}, Alike x₁ w₁ x₂ w₂ →
      Tandem x₁ w₁ x₂ w₂ (elements.foldl f₁ w₁) (elements.foldl f₂ w₂) := by
  intro elements
  induction elements with
  | nil => exact fun h => h.refl
  | cons element rest ih =>
      intro w₁ w₂ h
      have t := hf w₁ w₂ element h
      exact t.trans h (ih (t.alike h))

end Tandem

end Tandem

end Execution

end PageMacro
