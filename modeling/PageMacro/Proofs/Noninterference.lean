import Mathlib.Data.List.Forall2
import Mathlib.Order.Basic
import PageMacro.Proofs.LastWrite
import PageMacro.Proofs.OwnScript

/-!
# Entries do not interfere

All entries share one page and one arena of shells. Still, what is filed under a key, the store of
its entry and its open shells, is nobody else's business. There are two sides to this.

`Spares` is the first: an execution of an entry with another key leaves it as it is. A step writes
the variables of its own entry and of shells that belong to it, and files and takes off shells under
its own key only.

The second is about two runs of an execution, in worlds that differ in what is filed under other
keys. The runs stay mirror images of each other. The shells of the two are not the same shells: the
arena numbers them all, and others may have opened more of them in one world than in the other. So
`Reflects` pairs the shells of one world with those of the other, one to one, and a shell that is
made makes a new pair. What an execution sees and does never depends on the numbers.

Others may take turns while an execution is suspended. They do not touch what is filed under its
key, by the first side (`Interlude`); what they can change is what all of them share
(`Surroundings`). A `Course` is all that happens to the executions of one entry, in order, with the
turns of others in between.
-/

namespace PageMacro

open Execution

namespace World

/-! ## What is filed under a key -/

/-- The store of the entry under a key. -/
def store? (w : World) (key : String) : Option Store :=
  (w.lookup? key).map fun e => (w.entry e).vars

/-- The open shell under a key and a name. -/
def shell? (w : World) (key name : String) : Option Shell := (w.openShell? key name).map w.shell

/-- What is filed under a key stays as it is. -/
structure Spares (key : String) (w w' : World) : Prop where
  /-- The same entry is filed there. -/
  lookup : w'.lookup? key = w.lookup? key
  /-- It has not changed. -/
  entry : ∀ e, w.lookup? key = some e → w'.entry e = w.entry e
  /-- No shell goes away. -/
  size : w.shells.size ≤ w'.shells.size
  /-- The shells of the key have not changed. -/
  shell : ∀ s, s < w.shells.size → (w.shell s).entry = key → w'.shell s = w.shell s
  /-- The same shells are open. -/
  filed : ∀ name, w'.openShell? key name = w.openShell? key name

namespace Spares

variable {key : String} {w w' w'' : World}

theorem refl (key : String) (w : World) : w.Spares key w :=
  ⟨rfl, fun _ _ => rfl, Nat.le_refl _, fun _ _ _ => rfl, fun _ => rfl⟩

theorem trans (h : w.Spares key w') (h' : w'.Spares key w'') : w.Spares key w'' where
  lookup := h'.lookup.trans h.lookup
  entry := fun e he => (h'.entry e (h.lookup.trans he)).trans (h.entry e he)
  size := Nat.le_trans h.size h'.size
  shell := fun s hs howner => by
    have hsame := h.shell s hs howner
    rw [h'.shell s (Nat.lt_of_lt_of_le hs h.size) (by rw [hsame]; exact howner), hsame]
  filed := fun name => (h'.filed name).trans (h.filed name)

/-- Nothing is filed, taken off or written. -/
theorem of_eq (hentries : w'.entries = w.entries) (htable : w'.table = w.table)
    (hshells : w'.shells = w.shells) (hopen : w'.openShells = w.openShells) : w.Spares key w' where
  lookup := by unfold lookup?; rw [htable]
  entry := fun e _ => by unfold World.entry; rw [hentries]
  size := Nat.le_of_eq (hshells ▸ rfl)
  shell := fun s _ _ => by unfold World.shell; rw [hshells]
  filed := fun name => by unfold openShell?; rw [hopen]

theorem store_eq (h : w.Spares key w') : w'.store? key = w.store? key := by
  unfold store?
  rw [h.lookup]
  exact Option.map_congr fun e he => by rw [h.entry e he]

theorem shell_eq (h : w.Spares key w') (ha : w.ArenaSound) (name : String) :
    w'.shell? key name = w.shell? key name := by
  unfold shell?
  rw [h.filed]
  refine Option.map_congr fun s hs => ?_
  have hm := filed_of_openShell? hs
  exact h.shell s (ha.bound _ s hm) (congrArg Prod.fst (ha.place _ s hm)).symm

end Spares

theorem openShell?_unfile (w : World) (place : String × String) (key name : String) :
    (w.unfile place).openShell? key name =
      if (key, name) = place then none else w.openShell? key name := by
  have h := lookup_filter (fun q => q != place) (key, name) w.openShells
  unfold openShell? unfile
  rw [h]
  by_cases hplace : (key, name) = place
  · rw [if_pos hplace, if_neg (by simp [hplace])]
  · rw [if_neg hplace, if_pos (by simpa using hplace)]

theorem openShell?_dropShells (w : World) (place key name : String) :
    (w.dropShells place).openShell? key name =
      if key = place then none else w.openShell? key name := by
  have h := lookup_filter (fun q : String × String => q.1 != place) (key, name) w.openShells
  unfold openShell? dropShells
  rw [h]
  by_cases hplace : key = place
  · rw [if_pos hplace, if_neg (by simp [hplace])]
  · rw [if_neg hplace, if_pos (by simpa using hplace)]

theorem openShell?_file (w : World) (shell : Shell) (key name : String) :
    (w.file shell).openShell? key name =
      (w.openShell? key name).or
        (if (key, name) = (shell.entry, shell.name) then some w.shells.size else none) := by
  unfold openShell? file
  dsimp only
  rw [List.lookup_append, lookup_cons_ite]
  rfl

end World

namespace Execution

/-! ## Steps spare other keys -/

section Frame

variable {x : Execution} {w : World} {key : String}

/-- The entry and the shell of an execution are not of a key. -/
structure Foreign (x : Execution) (w : World) (key : String) : Prop where
  entry : ∀ e, w.lookup? key = some e → e ≠ x.entry
  shell : ∀ s, x.shell = some s → (w.shell s).entry ≠ key

theorem foreign_of_atHome (hx : x.AtHome w) (hkeyed : w.Keyed)
    (hne : (w.entry x.entry).key ≠ key) : x.Foreign w key where
  entry := by
    rintro e he rfl
    exact hne (hkeyed key _ he)
  shell := fun s hs => hx.owner s hs ▸ hne

theorem Foreign.outside (h : x.Foreign w key) : x.outside.Foreign w key where
  entry := h.entry
  shell := fun s hs => by simp [Execution.outside] at hs

theorem spares_patch (hp : x.Placed w) (h : x.Foreign w key) (p : Patch) :
    w.Spares key (x.patch w p) where
  lookup := by unfold World.lookup?; rw [patch_table]
  entry := fun e he => patch_entry_of_ne (h.entry e he) p
  size := Nat.le_of_eq (patch_shells_size p).symm
  shell := fun s _ howner => patch_shell_of_ne hp (fun hs => h.shell s hs howner) p
  filed := fun name => by unfold World.openShell?; rw [patch_openShells]

theorem spares_unfile {name : String} {place : String} (hne : place ≠ key) :
    w.Spares key (w.unfile (place, name)) where
  lookup := rfl
  entry := fun _ _ => rfl
  size := Nat.le_refl _
  shell := fun _ _ _ => rfl
  filed := fun other => by
    rw [World.openShell?_unfile, if_neg fun heq => hne (Prod.mk.inj heq).1.symm]

theorem spares_file {shell : Shell} (hne : shell.entry ≠ key) : w.Spares key (w.file shell) where
  lookup := rfl
  entry := fun _ _ => rfl
  size := by rw [World.shells_size_file]; exact Nat.le_succ _
  shell := fun _ hs _ => World.shell_file_of_lt hs
  filed := fun name => by
    rw [World.openShell?_file, if_neg fun heq => hne (Prod.mk.inj heq).1.symm, Option.or_none]

/-- **A step spares what is filed under other keys.** -/
theorem spares_step {segment : String} {r : Stepped} (hx : x.AtHome w) (hkeyed : w.Keyed)
    (hne : (w.entry x.entry).key ≠ key) (h : Goes x w segment r) : w.Spares key r.1 := by
  have hpatch := spares_patch hx.placed (foreign_of_atHome hx hkeyed hne)
  cases h with
  | patches p c v => exact hpatch p
  | closes s name => exact spares_unfile hne
  | enters target name s log => exact hpatch _
  | makes target name log => exact (hpatch _).trans (spares_file hne)

theorem spares_steps {trace : List Moment} {r₀ r : Stepped} (hsteps : Steps trace r₀ r) :
    StageSound r₀ → r₀.1.Keyed → (r₀.1.entry r₀.2.1.entry).key ≠ key →
      r₀.1.Spares key r.1 ∧ ∀ μ ∈ trace, r₀.1.Spares key μ.after.1 := by
  induction hsteps with
  | nil r => exact fun _ _ _ => ⟨.refl key r.1, fun μ hμ => by simp at hμ⟩
  | @cons w x segment trace r hseg rest ih =>
      intro hr hkeyed hne
      have hw : w.Sound := hr.world
      have hx : x.advance.Underway w := underway_advance hr.underway
      have hgoes := step_goes hx.placed segment
      have hone : w.Spares key (x.advance.step w segment).1 := spares_step hx.home hkeyed hne hgoes
      have hkeyed' : (x.advance.step w segment).1.Keyed :=
        World.keyed_of_table hw hkeyed (stageSound_step hw hx hgoes).2 (sameFiling_step hgoes).table
      have hne' : ((x.advance.step w segment).1.entry (x.advance.step w segment).2.1.entry).key ≠
          key := by
        rw [key_step hgoes]
        exact hne
      obtain ⟨hlast, hrest⟩ := ih (stageSound_step hw hx hgoes).1 hkeyed' hne'
      refine ⟨hone.trans hlast, fun μ hμ => ?_⟩
      rcases List.mem_cons.mp hμ with rfl | hμ
      · exact hone
      · exact hone.trans (hrest μ hμ)

/-- **So does a run**, after every one of its steps and at its end. -/
theorem spares_run (hstage : StageSound (w, x, .next)) (hkeyed : w.Keyed)
    (hne : (w.entry x.entry).key ≠ key) :
    w.Spares key (run w x).1 ∧ ∀ μ ∈ trace w x, w.Spares key μ.after.1 := by
  obtain ⟨last, _, _, hsteps, hstage', -, hworld, -⟩ := run_patch hstage
  obtain ⟨hlast, hmoments⟩ := spares_steps hsteps hstage hkeyed hne
  have hkeyed' : last.1.Keyed := World.keyed_of_table hstage.world hkeyed
    (stageSound_steps hsteps hstage).2 (sameFiling_steps hsteps hstage).table
  have hne' : (last.1.entry last.2.1.entry).key ≠ key := by
    rw [key_steps hsteps hstage]
    exact hne
  refine ⟨?_, hmoments⟩
  rw [hworld]
  exact hlast.trans (spares_patch (outside_placed hstage'.underway.placed.entry)
    (foreign_of_atHome hstage'.underway.home hkeyed' hne').outside _)

end Frame

end Execution

/-! ## Mirror images -/

/-- What all entries share. -/
structure Surroundings where
  document : Document
  verbs : Registry
  globals : Option Globals
  now : Int

/-- What all entries of a world share. -/
def World.surroundings (w : World) : Surroundings := ⟨w.document, w.verbs, w.globals, w.now⟩

/-- Two worlds look the same from an entry with a key, when the shells of one are paired with those
of the other. -/
structure World.Reflects (key : String) (paired : ShellId → ShellId → Prop) (e₁ : EntryId)
    (w₁ : World) (e₂ : EntryId) (w₂ : World) : Prop where
  surroundings : w₁.surroundings = w₂.surroundings
  lookup₁ : w₁.lookup? key = some e₁
  lookup₂ : w₂.lookup? key = some e₂
  exists₁ : e₁ < w₁.entries.size
  exists₂ : e₂ < w₂.entries.size
  /-- The entries are the same. -/
  entry : w₁.entry e₁ = w₂.entry e₂
  /-- They have the key. -/
  owner : (w₁.entry e₁).key = key
  /-- Shells that are paired exist. -/
  bounds : ∀ {s₁ s₂}, paired s₁ s₂ → s₁ < w₁.shells.size ∧ s₂ < w₂.shells.size
  /-- They are the same, and belong to the entry. -/
  shells : ∀ {s₁ s₂}, paired s₁ s₂ → w₁.shell s₁ = w₂.shell s₂ ∧ (w₁.shell s₁).entry = key
  /-- They are paired one to one. -/
  exact : ∀ {s₁ s₂ t₁ t₂}, paired s₁ s₂ → paired t₁ t₂ → (s₁ = t₁ ↔ s₂ = t₂)
  /-- What is open in one is open in the other. -/
  filed : ∀ name, Option.Rel paired (w₁.openShell? key name) (w₂.openShell? key name)

/-- The log is nothing that an entry sees. -/
theorem World.Reflects.log {key : String} {paired : ShellId → ShellId → Prop} {e₁ e₂ : EntryId}
    {w₁ w₂ : World} (h : Reflects key paired e₁ w₁ e₂ w₂) (log₁ log₂ : List Record) :
    Reflects key paired e₁ { w₁ with log := log₁ } e₂ { w₂ with log := log₂ } :=
  { h with }

namespace Execution

/-- The execution without what it refers to. -/
def bare (x : Execution) : Execution := { x with entry := 0, shell := none, closing := [] }

/-- Two executions are the same but for the numbers of their entries and shells. -/
structure Matches (paired : ShellId → ShellId → Prop) (x₁ x₂ : Execution) : Prop where
  bare : x₁.bare = x₂.bare
  shell : Option.Rel paired x₁.shell x₂.shell
  closing : List.Forall₂ (fun p q => paired p.shell q.shell ∧ p.mark = q.mark) x₁.closing x₂.closing

/-- Two executions in their worlds are mirror images of each other. -/
structure Mirror (key : String) (paired : ShellId → ShellId → Prop) (x₁ : Execution) (w₁ : World)
    (x₂ : Execution) (w₂ : World) : Prop where
  world : World.Reflects key paired x₁.entry w₁ x₂.entry w₂
  exec : Matches paired x₁ x₂

section Mirror

variable {key : String} {paired : ShellId → ShellId → Prop} {x₁ x₂ : Execution} {w₁ w₂ : World}

/-- A patch writes the variables of the active scope. -/
theorem patch_shell_eq {x : Execution} {w : World} (hp : x.Placed w) (p : Patch) (s : ShellId) :
    (x.patch w p).shell s =
      if x.shell = some s then { w.shell s with vars := p.vars } else w.shell s := by
  split
  · rename_i hs
    have hvars := vars_patch hp p
    unfold vars at hvars
    rw [hs] at hvars
    rw [patch_shell_vars]
    dsimp only at hvars
    rw [hvars]
  · rename_i hs
    exact patch_shell_of_ne hp hs p

theorem patch_entry_eq {x : Execution} {w : World} (hp : x.Placed w) (p : Patch) :
    (x.patch w p).entry x.entry =
      if x.shell = none then { w.entry x.entry with vars := p.vars } else w.entry x.entry := by
  split
  · rename_i hs
    have hvars := vars_patch hp p
    unfold vars at hvars
    rw [hs] at hvars
    rw [patch_entry_vars]
    dsimp only at hvars
    rw [hvars]
  · rename_i hs
    obtain ⟨s, hs⟩ := Option.ne_none_iff_exists'.mp hs
    exact patch_entry_of_shell hs p x.entry

theorem patch_now {x : Execution} {w : World} (p : Patch) : (x.patch w p).now = w.now := by
  unfold patch modifyVars
  cases x.shell <;> rfl

namespace Mirror

theorem shell_cases (h : Mirror key paired x₁ w₁ x₂ w₂) :
    (x₁.shell = none ∧ x₂.shell = none) ∨
      ∃ s₁ s₂, x₁.shell = some s₁ ∧ x₂.shell = some s₂ ∧ paired s₁ s₂ := by
  have hshell := h.exec.shell
  generalize x₁.shell = a at hshell
  generalize x₂.shell = b at hshell
  cases hshell with
  | none => exact .inl ⟨rfl, rfl⟩
  | some hs => exact .inr ⟨_, _, rfl, rfl, hs⟩

theorem placed₁ (h : Mirror key paired x₁ w₁ x₂ w₂) : x₁.Placed w₁ where
  entry := h.world.exists₁
  shell := fun s hs => by
    rcases h.shell_cases with ⟨hnone, -⟩ | ⟨s₁, s₂, hs₁, -, hpair⟩
    · rw [hnone] at hs
      contradiction
    · rw [← Option.some.inj (hs₁.symm.trans hs)]
      exact (h.world.bounds hpair).1

theorem placed₂ (h : Mirror key paired x₁ w₁ x₂ w₂) : x₂.Placed w₂ where
  entry := h.world.exists₂
  shell := fun s hs => by
    rcases h.shell_cases with ⟨-, hnone⟩ | ⟨s₁, s₂, -, hs₂, hpair⟩
    · rw [hnone] at hs
      contradiction
    · rw [← Option.some.inj (hs₂.symm.trans hs)]
      exact (h.world.bounds hpair).2

/-- **Mirror images see the same scene.** -/
theorem alike (h : Mirror key paired x₁ w₁ x₂ w₂) : Alike x₁ w₁ x₂ w₂ := by
  refine ⟨?_, h.placed₁, h.placed₂⟩
  have hkey : x₁.key = x₂.key := (congrArg Execution.key h.exec.bare :)
  have htrigger : x₁.trigger = x₂.trigger := (congrArg Execution.trigger h.exec.bare :)
  have hcurrent : x₁.current = x₂.current := (congrArg Execution.current h.exec.bare :)
  have hdocument : w₁.document = w₂.document :=
    (congrArg Surroundings.document h.world.surroundings :)
  have hverbs : w₁.verbs = w₂.verbs := (congrArg Surroundings.verbs h.world.surroundings :)
  have hglobals : w₁.globals = w₂.globals := (congrArg Surroundings.globals h.world.surroundings :)
  unfold scene scopeName scopeElement vars
  rw [hkey, htrigger, hcurrent, hdocument, hverbs, hglobals]
  rcases h.shell_cases with ⟨hs₁, hs₂⟩ | ⟨s₁, s₂, hs₁, hs₂, hpair⟩
  · rw [hs₁, hs₂]
    dsimp only
    rw [h.world.entry]
  · rw [hs₁, hs₂]
    dsimp only
    rw [(h.world.shells hpair).1]

end Mirror

/-- The active scopes of mirror images are written alike. -/
theorem Mirror.patch (h : Mirror key paired x₁ w₁ x₂ w₂) {p₁ p₂ : Patch}
    (hdocument : p₁.document = p₂.document) (hvars : p₁.vars = p₂.vars) :
    Mirror key paired x₁ (x₁.patch w₁ p₁) x₂ (x₂.patch w₂ p₂) := by
  have hactive : ∀ {s₁ s₂}, paired s₁ s₂ → (x₁.shell = some s₁ ↔ x₂.shell = some s₂) := by
    intro s₁ s₂ hpair
    rcases h.shell_cases with ⟨hs₁, hs₂⟩ | ⟨t₁, t₂, hs₁, hs₂, hpair'⟩
    · simp [hs₁, hs₂]
    · rw [hs₁, hs₂, Option.some.injEq, Option.some.injEq]
      exact h.world.exact hpair' hpair
  have hout : x₁.shell = none ↔ x₂.shell = none := by
    rcases h.shell_cases with ⟨hs₁, hs₂⟩ | ⟨t₁, t₂, hs₁, hs₂, -⟩ <;> simp [hs₁, hs₂]
  refine ⟨?_, h.exec⟩
  refine
    { surroundings := ?_
      lookup₁ := ?_
      lookup₂ := ?_
      exists₁ := by rw [patch_entries_size]; exact h.world.exists₁
      exists₂ := by rw [patch_entries_size]; exact h.world.exists₂
      entry := ?_
      owner := by rw [patch_entry_vars]; exact h.world.owner
      bounds := fun hpair => by
        rw [patch_shells_size, patch_shells_size]
        exact h.world.bounds hpair
      shells := fun {s₁ s₂} hpair => ?_
      exact := h.world.exact
      filed := fun name => ?_ }
  · have hsame := h.world.surroundings
    unfold World.surroundings at hsame ⊢
    simp only [Surroundings.mk.injEq] at hsame ⊢
    rw [patch_document, patch_document, patch_verbs, patch_verbs, patch_globals, patch_globals,
      patch_now, patch_now]
    exact ⟨hdocument, hsame.2⟩
  · unfold World.lookup?
    rw [patch_table]
    exact h.world.lookup₁
  · unfold World.lookup?
    rw [patch_table]
    exact h.world.lookup₂
  · rw [patch_entry_eq h.placed₁, patch_entry_eq h.placed₂, h.world.entry, hvars]
    simp only [hout]
  · obtain ⟨hsame, howner⟩ := h.world.shells hpair
    refine ⟨?_, ?_⟩
    · rw [patch_shell_eq h.placed₁, patch_shell_eq h.placed₂, hsame, hvars]
      simp only [hactive hpair]
    · rw [patch_shell_vars]
      exact howner
  · unfold World.openShell?
    rw [patch_openShells, patch_openShells]
    exact h.world.filed name

/-! ### Opens and closes -/

theorem Mirror.opens_eq (h : Mirror key paired x₁ w₁ x₂ w₂) (segment : String) :
    x₁.opens? segment = x₂.opens? segment := by
  rcases h.shell_cases with ⟨hs₁, hs₂⟩ | ⟨s₁, s₂, hs₁, hs₂, -⟩
  · unfold opens?
    rw [hs₁, hs₂]
  · rw [opens_of_shell hs₁, opens_of_shell hs₂]

theorem Mirror.entry_key (h : Mirror key paired x₁ w₁ x₂ w₂) :
    (w₁.entry x₁.entry).key = key ∧ (w₂.entry x₂.entry).key = key :=
  ⟨h.world.owner, h.world.entry ▸ h.world.owner⟩

theorem Mirror.closes_rel (h : Mirror key paired x₁ w₁ x₂ w₂) (segment : String) :
    Option.Rel paired (x₁.closes? w₁ segment) (x₂.closes? w₂ segment) := by
  unfold closes?
  rw [h.entry_key.1, h.entry_key.2]
  split
  · exact h.world.filed _
  · exact .none

/-- What is merged into one entry is merged into the other. -/
theorem mergeAll_eq (hshells : ∀ {s₁ s₂}, paired s₁ s₂ → w₁.shell s₁ = w₂.shell s₂)
    {pending₁ pending₂ : List PendingClose}
    (h : List.Forall₂ (fun p q => paired p.shell q.shell ∧ p.mark = q.mark) pending₁ pending₂)
    (vars : Store) : mergeAll w₁ pending₁ vars = mergeAll w₂ pending₂ vars := by
  induction h generalizing vars with
  | nil => rfl
  | @cons p q rest₁ rest₂ hpq _ ih =>
      have hone : (vars.mergeSince (w₁.shell p.shell).vars p.mark).1 =
          (vars.mergeSince (w₂.shell q.shell).vars q.mark).1 := by
        rw [hshells hpq.1, hpq.2]
      show mergeAll w₁ rest₁ (vars.mergeSince (w₁.shell p.shell).vars p.mark).1 =
        mergeAll w₂ rest₂ (vars.mergeSince (w₂.shell q.shell).vars q.mark).1
      rw [hone]
      exact ih _

/-- Pending closes are picked by the names of their shells. -/
theorem Mirror.filter_closing (h : Mirror key paired x₁ w₁ x₂ w₂) (which : String → Bool) :
    List.Forall₂ (fun p q => paired p.shell q.shell ∧ p.mark = q.mark)
      (x₁.closing.filter fun p => which (w₁.shell p.shell).name)
      (x₂.closing.filter fun p => which (w₂.shell p.shell).name) := by
  refine List.rel_filter ?_ h.exec.closing
  intro p q hpq
  show which (w₁.shell p.shell).name = true ↔ which (w₂.shell q.shell).name = true
  rw [(h.world.shells hpq.1).1]

theorem Mirror.unfile (h : Mirror key paired x₁ w₁ x₂ w₂) (name : String) :
    World.Reflects key paired x₁.entry (w₁.unfile (key, name)) x₂.entry (w₂.unfile (key, name)) :=
  { h.world with
    filed := fun other => by
      rw [World.openShell?_unfile, World.openShell?_unfile]
      split
      · exact .none
      · exact h.world.filed other }

/-- The pairs with a new one. -/
def withPair (paired : ShellId → ShellId → Prop) (n₁ n₂ : ShellId) (s₁ s₂ : ShellId) : Prop :=
  paired s₁ s₂ ∨ (s₁ = n₁ ∧ s₂ = n₂)

theorem rel_weaken {paired' : ShellId → ShellId → Prop} (hle : paired ≤ paired')
    {a b : Option ShellId} (h : Option.Rel paired a b) : Option.Rel paired' a b := by
  cases h with
  | none => exact .none
  | some hs => exact .some (hle _ _ hs)

theorem Matches.weaken {paired' : ShellId → ShellId → Prop} (hle : paired ≤ paired')
    (h : Matches paired x₁ x₂) : Matches paired' x₁ x₂ where
  bare := h.bare
  shell := rel_weaken hle h.shell
  closing := h.closing.imp fun _ _ hpq => ⟨hle _ _ hpq.1, hpq.2⟩

/-- Shells that are made are paired. -/
theorem Mirror.file (h : Mirror key paired x₁ w₁ x₂ w₂) {shell : Shell} (hentry : shell.entry = key)
    (hfree : w₁.openShell? key shell.name = none) :
    World.Reflects key (withPair paired w₁.shells.size w₂.shells.size) x₁.entry (w₁.file shell)
      x₂.entry (w₂.file shell) := by
  have hold : ∀ {s₁ s₂}, paired s₁ s₂ → s₁ ≠ w₁.shells.size ∧ s₂ ≠ w₂.shells.size := fun hpair =>
    ⟨Nat.ne_of_lt (h.world.bounds hpair).1, Nat.ne_of_lt (h.world.bounds hpair).2⟩
  refine { h.world with bounds := ?_, shells := ?_, exact := ?_, filed := ?_ }
  · rintro s₁ s₂ (hpair | ⟨rfl, rfl⟩) <;> rw [World.shells_size_file, World.shells_size_file]
    · exact ⟨Nat.lt_succ_of_lt (h.world.bounds hpair).1, Nat.lt_succ_of_lt (h.world.bounds hpair).2⟩
    · exact ⟨Nat.lt_succ_self _, Nat.lt_succ_self _⟩
  · rintro s₁ s₂ (hpair | ⟨rfl, rfl⟩)
    · rw [World.shell_file_of_lt (h.world.bounds hpair).1,
        World.shell_file_of_lt (h.world.bounds hpair).2]
      exact h.world.shells hpair
    · rw [World.shell_file_size, World.shell_file_size]
      exact ⟨rfl, hentry⟩
  · rintro s₁ s₂ t₁ t₂ (hs | ⟨rfl, rfl⟩) (ht | ⟨rfl, rfl⟩)
    · exact h.world.exact hs ht
    · exact iff_of_false (hold hs).1 (hold hs).2
    · exact iff_of_false (hold ht).1.symm (hold ht).2.symm
    · exact iff_of_true rfl rfl
  · intro name
    rw [World.openShell?_file, World.openShell?_file, hentry]
    have hfiled := h.world.filed name
    by_cases hname : name = shell.name
    · -- the place was free in both worlds
      subst hname
      rw [hfree] at hfiled ⊢
      generalize w₂.openShell? key shell.name = found at hfiled ⊢
      cases hfiled
      rw [if_pos rfl, if_pos rfl]
      exact .some (.inr ⟨rfl, rfl⟩)
    · have hne : (key, name) ≠ (key, shell.name) := fun heq => hname (Prod.mk.inj heq).2
      rw [if_neg hne, if_neg hne, Option.or_none, Option.or_none]
      exact rel_weaken (fun _ _ => Or.inl) hfiled

/-! ### Steps -/

/-- Two stages that are mirror images, with the same verdict. Pairs stay pairs. -/
structure StageMirror (key : String) (paired : ShellId → ShellId → Prop) (r₁ r₂ : Stepped) :
    Prop where
  mirror : ∃ paired', paired ≤ paired' ∧ Mirror key paired' r₁.2.1 r₁.1 r₂.2.1 r₂.1
  verdict : r₁.2.2 = r₂.2.2

/-- What is merged before an open. -/
theorem Mirror.merged (h : Mirror key paired x₁ w₁ x₂ w₂) (name : String)
    (log₁ log₂ : List Record) :
    Mirror key paired x₁ (x₁.patch w₁ (x₁.dueMerged w₁ name log₁)) x₂
      (x₂.patch w₂ (x₂.dueMerged w₂ name log₂)) := by
  refine h.patch h.alike.document ?_
  show mergeAll w₁ (x₁.due w₁ name) _ = mergeAll w₂ (x₂.due w₂ name) _
  rw [h.world.entry]
  exact mergeAll_eq (fun hpair => (h.world.shells hpair).1) (h.filter_closing (· == name)) _

theorem mirror_close {segment : String} {s₁ : ShellId} (h : Mirror key paired x₁ w₁ x₂ w₂)
    (hc : x₁.closes? w₁ segment = some s₁) :
    StageMirror key paired (x₁.step w₁ segment) (x₂.step w₂ segment) := by
  have hrel := h.closes_rel segment
  rw [hc] at hrel
  cases hc₂ : x₂.closes? w₂ segment with
  | none =>
      rw [hc₂] at hrel
      cases hrel
  | some s₂ =>
      rw [hc₂] at hrel
      cases hrel with
      | some hpair =>
      obtain ⟨name, hname, -, h1⟩ := step_close hc
      obtain ⟨name₂, hname₂, -, h2⟩ := step_close hc₂
      obtain rfl : name = name₂ := by simpa [hname] using hname₂
      rw [h1, h2, h.entry_key.1, h.entry_key.2]
      refine ⟨⟨paired, le_refl _, h.unfile name, ?_⟩, rfl⟩
      refine ⟨h.exec.bare, ?_, ?_⟩
      · -- it is the active shell in both worlds or in neither
        dsimp only
        rcases h.shell_cases with ⟨hs₁, hs₂⟩ | ⟨t₁, t₂, hs₁, hs₂, hpair'⟩
        · rw [hs₁, hs₂]
          exact .none
        · have hiff := h.world.exact hpair' hpair
          rw [hs₁, hs₂]
          by_cases ht : t₁ = s₁
          · rw [if_pos (congrArg some ht), if_pos (congrArg some (hiff.mp ht))]
            exact .none
          · rw [if_neg fun heq => ht (Option.some.inj heq),
              if_neg fun heq => ht (hiff.mpr (Option.some.inj heq))]
            exact .some hpair'
      · refine List.rel_append h.exec.closing (.cons ⟨hpair, ?_⟩ .nil)
        rw [h.world.entry]

/-- Executions that enter a shell with the same body match. -/
theorem Mirror.entered {paired' : ShellId → ShellId → Prop} (h : Mirror key paired x₁ w₁ x₂ w₂)
    (hle : paired ≤ paired') {s₁ s₂ : ShellId} (hpair : paired' s₁ s₂) (name : String)
    (body : List String) :
    Matches paired' (x₁.entered w₁ name s₁ body) (x₂.entered w₂ name s₂ body) where
  bare := (congrArg (fun y : Execution =>
    { y with segments := body, pos := 0, current := Value.undefined }) h.exec.bare :)
  shell := .some hpair
  closing := (h.filter_closing fun n => !(n == name)).imp fun _ _ hpq => ⟨hle _ _ hpq.1, hpq.2⟩

theorem Mirror.newShell_eq (h : Mirror key paired x₁ w₁ x₂ w₂) (target name : String) :
    x₁.newShell w₁ target name = x₂.newShell w₂ target name := by
  have hsegments : x₁.segments = x₂.segments := (congrArg Execution.segments h.exec.bare :)
  have hpos : x₁.pos = x₂.pos := (congrArg Execution.pos h.exec.bare :)
  unfold newShell World.targetElement
  rw [h.world.entry, h.alike.document, hsegments, hpos]

theorem mirror_open {segment target name : String} (h : Mirror key paired x₁ w₁ x₂ w₂)
    (ho : x₁.opens? segment = some (target, name)) :
    StageMirror key paired (x₁.step w₁ segment) (x₂.step w₂ segment) := by
  obtain ⟨-, log₁, h1⟩ := step_open h.placed₁.entry ho
  obtain ⟨-, log₂, h2⟩ := step_open h.placed₂.entry ((h.opens_eq segment).symm.trans ho)
  have hmerged := h.merged name log₁ log₂
  have hfiled := h.world.filed name
  rw [h.entry_key.1] at h1
  rw [h.entry_key.2] at h2
  -- a shell of that name is open in both worlds or in neither
  rcases h1 with ⟨s₁, hs₁, h1⟩ | ⟨hnew₁, h1⟩
  · rcases h2 with ⟨s₂, hs₂, h2⟩ | ⟨hnew₂, h2⟩
    · rw [hs₁, hs₂] at hfiled
      cases hfiled with
      | some hpair =>
      rw [h1, h2, (h.world.shells hpair).1]
      exact ⟨⟨paired, le_refl _, hmerged.world, h.entered (le_refl _) hpair name _⟩, rfl⟩
    · rw [hs₁, hnew₂] at hfiled
      cases hfiled
  · rcases h2 with ⟨s₂, hs₂, h2⟩ | ⟨hnew₂, h2⟩
    · rw [hnew₁, hs₂] at hfiled
      cases hfiled
    · have hbody : x₁.segments.drop x₁.pos = x₂.segments.drop x₂.pos :=
        (congrArg Shell.segments (h.newShell_eq target name) :)
      rw [h1, h2, ← h.newShell_eq, ← hbody]
      have hle : paired ≤ withPair paired w₁.shells.size w₂.shells.size := fun _ _ => Or.inl
      have hfree : (x₁.patch w₁ (x₁.dueMerged w₁ name log₁)).openShell? key
          (x₁.newShell w₁ target name).name = none := by
        unfold World.openShell?
        rw [patch_openShells]
        exact hnew₁
      have hmade := hmerged.file (h.entry_key.1 : (x₁.newShell w₁ target name).entry = key) hfree
      rw [patch_shells_size, patch_shells_size] at hmade
      exact ⟨⟨_, hle, hmade, h.entered hle (.inr ⟨rfl, rfl⟩) name _⟩, rfl⟩

/-- **Mirror images stay mirror images**, whatever the segment does. -/
theorem mirror_step (h : Mirror key paired x₁ w₁ x₂ w₂) (segment : String) :
    StageMirror key paired (x₁.step w₁ segment) (x₂.step w₂ segment) := by
  cases ho : x₁.opens? segment with
  | some pair => exact mirror_open h ho
  | none =>
      cases hc : x₁.closes? w₁ segment with
      | some s => exact mirror_close h hc
      | none =>
          have hc₂ : x₂.closes? w₂ segment = none := by
            have hrel := h.closes_rel segment
            rw [hc] at hrel
            generalize x₂.closes? w₂ segment = found at hrel
            cases hrel
            rfl
          obtain ⟨p, c, v, h1, h2, -⟩ :=
            step_tandem h.alike ho ((h.opens_eq segment).symm.trans ho) hc hc₂
          have hp : Mirror key paired x₁ (x₁.patch w₁ p) x₂ (x₂.patch w₂ p) := h.patch rfl rfl
          rw [h1, h2]
          exact ⟨⟨paired, le_refl _, hp.world,
            (congrArg (fun y : Execution => { y with current := c }) h.exec.bare :),
            h.exec.shell, h.exec.closing⟩, rfl⟩

theorem Mirror.advance (h : Mirror key paired x₁ w₁ x₂ w₂) :
    Mirror key paired x₁.advance w₁ x₂.advance w₂ :=
  ⟨h.world, (congrArg Execution.advance h.exec.bare :), h.exec.shell, h.exec.closing⟩

theorem Mirror.segment_eq (h : Mirror key paired x₁ w₁ x₂ w₂) :
    x₁.segments[x₁.pos]? = x₂.segments[x₂.pos]? := by
  have hsegments : x₁.segments = x₂.segments := (congrArg Execution.segments h.exec.bare :)
  have hpos : x₁.pos = x₂.pos := (congrArg Execution.pos h.exec.bare :)
  rw [hsegments, hpos]

/-- So do chains of steps. -/
theorem mirror_steps {trace : List Moment} {r₁ r₁' : Stepped} (hsteps : Steps trace r₁ r₁') :
    ∀ {r₂ : Stepped}, StageMirror key paired r₁ r₂ →
      ∃ trace₂ r₂', Steps trace₂ r₂ r₂' ∧ StageMirror key paired r₁' r₂' := by
  induction hsteps with
  | nil r => exact fun h => ⟨[], _, .nil _, h⟩
  | @cons w₁ x₁ segment trace r hseg rest ih =>
      rintro ⟨w₂, x₂, v₂⟩ ⟨⟨paired', hle, h⟩, hverdict⟩
      obtain rfl : Verdict.next = v₂ := hverdict
      have hstep := mirror_step h.advance segment
      obtain ⟨paired'', hle', hnext⟩ := hstep.mirror
      obtain ⟨trace₂, r₂', hsteps₂, hlast⟩ :=
        ih ⟨⟨paired'', le_trans hle hle', hnext⟩, hstep.verdict⟩
      exact ⟨_, r₂', .cons (h.segment_eq ▸ hseg) hsteps₂, hlast⟩

/-! ### Halts and runs -/

theorem Mirror.outside (h : Mirror key paired x₁ w₁ x₂ w₂) :
    Mirror key paired x₁.outside w₁ x₂.outside w₂ :=
  ⟨h.world, h.exec.bare, .none, h.exec.closing⟩

/-- Mirror images leave matching executions behind. -/
theorem matches_haltExec {r₁ r₂ : Stepped} (h : Mirror key paired r₁.2.1 r₁.1 r₂.2.1 r₂.1)
    (hverdict : r₁.2.2 = r₂.2.2) : Matches paired (haltExec r₁) (haltExec r₂) := by
  have hnow : r₁.1.now = r₂.1.now := (congrArg Surroundings.now h.world.surroundings :)
  unfold haltExec
  rw [hverdict, hnow]
  split
  · exact ⟨(congrArg (fun x : Execution => { x with
      failure := none, value := x.current, wait := none, state := .finished }) h.exec.bare :),
      h.exec.shell, .nil⟩
  · rename_i f _
    exact ⟨(congrArg (fun x : Execution => { x with
      failure := some f, value := x.current, wait := none, state := .abandoned }) h.exec.bare :),
      h.exec.shell, .nil⟩
  · rename_i wait _
    exact ⟨(congrArg (fun x : Execution => { x with
      state := .suspended, wait := some wait, since := r₂.1.now }) h.exec.bare :),
      h.exec.shell, .nil⟩
  · exact h.exec

/-- **Mirror images halt as mirror images**: what is pending is merged alike. -/
theorem mirror_halt {r₁ r₂ : Stepped} (h : StageMirror key paired r₁ r₂) :
    ∃ paired', paired ≤ paired' ∧
      Mirror key paired' (halt r₁).2 (halt r₁).1 (halt r₂).2 (halt r₂).1 := by
  obtain ⟨⟨paired', hle, hmirror⟩, hverdict⟩ := h
  by_cases hcrash : r₁.2.2 = .crash
  · -- where the program ends, both are left as they are
    rw [halt_of_crash hcrash, halt_of_crash (hverdict.symm.trans hcrash)]
    exact ⟨paired', hle, hmirror⟩
  obtain ⟨log₁, hw₁, -, hentry₁, -⟩ := halt_eq hmirror.placed₁.entry hcrash
  obtain ⟨log₂, hw₂, -, hentry₂, -⟩ := halt_eq hmirror.placed₂.entry (hverdict ▸ hcrash)
  have hmerged : (haltPatch r₁ log₁).vars = (haltPatch r₂ log₂).vars := by
    unfold haltPatch
    rw [hmirror.world.entry]
    exact mergeAll_eq (fun hpair => (hmirror.world.shells hpair).1) hmirror.exec.closing _
  have hpatch : Mirror key paired' r₁.2.1.outside (r₁.2.1.outside.patch r₁.1 (haltPatch r₁ log₁))
      r₂.2.1.outside (r₂.2.1.outside.patch r₂.1 (haltPatch r₂ log₂)) :=
    hmirror.outside.patch hmirror.alike.document hmerged
  refine ⟨paired', hle, ?_, ?_⟩
  · rw [hw₁, hw₂, hentry₁, hentry₂]
    exact hpatch.world
  · rw [halt_exec r₁ hmirror.placed₁.entry, halt_exec r₂ hmirror.placed₂.entry]
    exact matches_haltExec hmirror hverdict

/-- What a chain of steps comes to is what the run comes to. -/
theorem run_of_steps {trace : List Moment} {last : Stepped} (ha : w₁.ArenaSound)
    (hp : x₁.Placed w₁) (hsteps : Steps trace (w₁, x₁, .next) last) (hstop : Stopped last) :
    run w₁ x₁ = halt last := by
  obtain ⟨last', hsteps', hstop', hhalt, -⟩ := stops_run ha hp
  have hfuel := Nat.lt_succ_of_le (Nat.le_max_left trace.length (Execution.trace w₁ x₁).length)
  have hfuel' := Nat.lt_succ_of_le (Nat.le_max_right trace.length (Execution.trace w₁ x₁).length)
  rw [← hhalt, ← goOn_of_steps hsteps' hstop' hfuel', goOn_of_steps hsteps hstop hfuel]

/-- **So they run**, to the end or to the same suspension. -/
theorem mirror_run (h : Mirror key paired x₁ w₁ x₂ w₂) (ha₁ : w₁.ArenaSound)
    (ha₂ : w₂.ArenaSound) :
    ∃ paired', paired ≤ paired' ∧
      Mirror key paired' (run w₁ x₁).2 (run w₁ x₁).1 (run w₂ x₂).2 (run w₂ x₂).1 := by
  obtain ⟨last₁, hsteps, hstop, hhalt, -⟩ := stops_run ha₁ h.placed₁
  have hstart : StageMirror key paired (w₁, x₁, .next) (w₂, x₂, .next) :=
    ⟨⟨paired, le_refl _, h⟩, rfl⟩
  obtain ⟨trace₂, last₂, hsteps₂, hlast⟩ := mirror_steps hsteps hstart
  -- the second chain stops where the first does: same verdict, same segments left
  have hstop₂ : Stopped last₂ := by
    obtain ⟨⟨paired', -, hmirror⟩, hverdict⟩ := hlast
    have hsegment := hmirror.segment_eq
    obtain ⟨v₁, y₁, verdict₁⟩ := last₁
    obtain ⟨v₂, y₂, verdict₂⟩ := last₂
    obtain rfl : verdict₁ = verdict₂ := hverdict
    cases verdict₁ with
    | next => exact hsegment.symm.trans hstop
    | abandon | await | crash => trivial
  rw [← hhalt, run_of_steps ha₂ h.placed₂ hsteps₂ hstop₂]
  exact mirror_halt hlast

end Mirror

/-! ## Replies -/

/-- Somebody replies to an execution. -/
def hear (x : Execution) (reply : Reply) (w : World) : World × Execution :=
  match reply with
  | .answer answer => settle answer w x
  | .interruption why => interrupt why w x

/-- The moments after a reply. -/
def heard (x : Execution) (reply : Reply) (w : World) : List Moment :=
  match reply, x.state, x.wait with
  | .answer answer, .suspended, some wait =>
    match x.atDesk w (wait.result.settle answer) with
    | (w', .ok v) => trace w' (x.resumed v)
    | (_, .error _) => []
  | _, _, _ => []

/-- What a reply can come to, for two executions at once: they hear the same. -/
inductive HearsAlike (x₁ : Execution) (w₁ : World) (x₂ : Execution) (w₂ : World) :
    List Moment → World × Execution → List Moment → World × Execution → Prop
  /-- They do not wait for it. -/
  | ignores : HearsAlike x₁ w₁ x₂ w₂ [] (w₁, x₁) [] (w₂, x₂)
  /-- They go on. -/
  | goesOn {wait : Wait} {answer : Answer} (p : Patch) (v : Value) (hs : x₁.state = .suspended)
      (hwait : x₁.wait = some wait)
      (hdesk : x₁.atDesk w₁ (wait.result.settle answer) = (x₁.patch w₁ p, .ok v)) :
      HearsAlike x₁ w₁ x₂ w₂
        (trace (x₁.patch w₁ p) (x₁.resumed v)) (run (x₁.patch w₁ p) (x₁.resumed v))
        (trace (x₂.patch w₂ p) (x₂.resumed v)) (run (x₂.patch w₂ p) (x₂.resumed v))
  /-- They give up. -/
  | givesUp (p : Patch) (wait : Wait) (f : Failure) (hs : x₁.state = .suspended) :
      HearsAlike x₁ w₁ x₂ w₂ [] (failWait wait f (x₁.patch w₁ p) x₁)
        [] (failWait wait f (x₂.patch w₂ p) x₂)

/-- A reply depends on what is waited for, and on the desk of the active scope. -/
theorem hearsAlike {x₁ x₂ : Execution} {w₁ w₂ : World} (hstate : x₁.state = x₂.state)
    (hwait : x₁.wait = x₂.wait) (hdocument : w₁.document = w₂.document)
    (hvars : x₁.vars w₁ = x₂.vars w₂) (reply : Reply) :
    HearsAlike x₁ w₁ x₂ w₂ (x₁.heard reply w₁) (x₁.hear reply w₁) (x₂.heard reply w₂)
      (x₂.hear reply w₂) := by
  by_cases hwaits : ∃ wait, x₁.state = .suspended ∧ x₁.wait = some wait
  · obtain ⟨wait, hs₁, hwait₁⟩ := hwaits
    have hs₂ := hstate.symm.trans hs₁
    have hwait₂ := hwait.symm.trans hwait₁
    cases reply with
    | answer answer =>
        -- the same desk, so the same patch and the same answer
        obtain ⟨p, a, h1, h2⟩ : ∃ p a,
            x₁.atDesk w₁ (wait.result.settle answer) = (x₁.patch w₁ p, a) ∧
              x₂.atDesk w₂ (wait.result.settle answer) = (x₂.patch w₂ p, a) := by
          refine ⟨_, _, atDesk_eq _, ?_⟩
          rw [atDesk_eq, hdocument, hvars]
        unfold heard hear
        rw [hs₁, hs₂, hwait₁, hwait₂]
        dsimp only
        rw [h1, h2]
        cases a with
        | ok v =>
            rw [settle_of_ok hs₁ hwait₁ h1, settle_of_ok hs₂ hwait₂ h2]
            exact .goesOn p v hs₁ hwait₁ h1
        | error f =>
            rw [settle_of_error hs₁ hwait₁ h1, settle_of_error hs₂ hwait₂ h2]
            exact .givesUp p wait f hs₁
    | interruption why =>
        have hgiven : HearsAlike x₁ w₁ x₂ w₂ [] _ [] _ :=
          .givesUp ⟨w₁.document, x₁.vars w₁, []⟩ wait (.abandoned why) hs₁
        rw [patch_self, hdocument, hvars, patch_self] at hgiven
        unfold heard hear interrupt
        rw [hs₁, hs₂, hwait₁, hwait₂]
        exact hgiven
  · have hnot₁ : ∀ wait, x₁.state = .suspended → x₁.wait = some wait → False :=
      fun wait hs h => hwaits ⟨wait, hs, h⟩
    have hnot₂ : ∀ wait, x₂.state = .suspended → x₂.wait = some wait → False :=
      fun wait hs h => hwaits ⟨wait, hstate.trans hs, hwait.trans h⟩
    have hquiet : ∀ {x : Execution} {w : World},
        (∀ wait, x.state = .suspended → x.wait = some wait → False) →
          x.heard reply w = [] ∧ x.hear reply w = (w, x) := by
      intro x w hnot
      unfold heard hear
      constructor
      · split
        · rename_i hs h
          exact (hnot _ hs h).elim
        · rfl
      · split
        · exact settle_of_not_waiting _ hnot
        · unfold interrupt
          split
          · rename_i hs h
            exact (hnot _ hs h).elim
          · rfl
    rw [(hquiet hnot₁).1, (hquiet hnot₁).2, (hquiet hnot₂).1, (hquiet hnot₂).2]
    exact .ignores

section Turns

variable {key : String} {paired : ShellId → ShellId → Prop} {x x₁ x₂ : Execution}
  {w w' w₁ w₂ : World}

theorem mirror_failWait (h : Mirror key paired x₁ w₁ x₂ w₂) (wait : Wait) (f : Failure) :
    ∃ paired', paired ≤ paired' ∧
      Mirror key paired' (failWait wait f w₁ x₁).2 (failWait wait f w₁ x₁).1
        (failWait wait f w₂ x₂).2 (failWait wait f w₂ x₂).1 := by
  obtain ⟨parts, hparts⟩ : ∃ parts, Segment.verbParts wait.segment = parts := ⟨_, rfl⟩
  rw [failWait_eq hparts, failWait_eq hparts]
  exact mirror_halt ⟨⟨paired, le_refl _, h.world.log _ _, h.exec⟩, rfl⟩

/-- **Mirror images go on as mirror images**, whatever the reply. -/
theorem mirror_hear (h : Mirror key paired x₁ w₁ x₂ w₂) (ha₁ : w₁.ArenaSound)
    (ha₂ : w₂.ArenaSound) (reply : Reply) :
    ∃ paired', paired ≤ paired' ∧
      Mirror key paired' (x₁.hear reply w₁).2 (x₁.hear reply w₁).1
        (x₂.hear reply w₂).2 (x₂.hear reply w₂).1 := by
  have hstate : x₁.state = x₂.state := (congrArg Execution.state h.exec.bare :)
  have hwait : x₁.wait = x₂.wait := (congrArg Execution.wait h.exec.bare :)
  have hboth := hearsAlike hstate hwait h.alike.document h.alike.vars reply
  have hpatch : ∀ p : Patch, Mirror key paired x₁ (x₁.patch w₁ p) x₂ (x₂.patch w₂ p) :=
    fun p => h.patch rfl rfl
  generalize x₁.heard reply w₁ = moments₁, x₁.hear reply w₁ = result₁,
    x₂.heard reply w₂ = moments₂, x₂.hear reply w₂ = result₂ at hboth ⊢
  cases hboth with
  | ignores => exact ⟨paired, le_refl _, h⟩
  | goesOn p v =>
      refine mirror_run ⟨(hpatch p).world, ?_, h.exec.shell, h.exec.closing⟩
        (arenaSound_patch ha₁ p) (arenaSound_patch ha₂ p)
      exact (congrArg (fun y : Execution => y.resumed v) h.exec.bare :)
  | givesUp p wait f => exact mirror_failWait (hpatch p) wait f

/-! ## Turns -/

/-- What a turn of an execution of the entry under a key leaves behind. -/
structure OwnTurn (key : String) (w : World) (moments : List Moment) (result : World × Execution) :
    Prop where
  turn : Turn w result
  table : result.1.table = w.table
  entry : w.lookup? key = some result.2.entry
  /-- It spares what is filed under other keys, after each of its steps. -/
  spares : ∀ key', key' ≠ key → ∀ u ∈ result.1 :: moments.map (·.after.1), w.Spares key' u

theorem entry_run (hstage : StageSound (w, x, .next)) : (run w x).2.entry = x.entry := by
  obtain ⟨last, _, _, hsteps, -, -, -, hentry⟩ := run_patch hstage
  rw [hentry, entry_steps hsteps hstage]

theorem ownTurn_run (hw : w.Sound) (hkeyed : w.Keyed) (hkeeps : w.Keeps w')
    (htable : w'.table = w.table) (hspares : ∀ key', key' ≠ key → w.Spares key' w')
    (hx : x.AtHome w') (hs : x.state = .running) (hc : x.closing = [])
    (hentry : w.lookup? key = some x.entry) : OwnTurn key w (trace w' x) (run w' x) := by
  have hstage : StageSound (w', x, .next) := ⟨hkeeps.sound, underway_of_atHome hx hs hc, trivial⟩
  have hkeyed' : w'.Keyed := World.keyed_of_table hw hkeyed hkeeps.grows htable
  have hkey : (w'.entry x.entry).key = key := by
    refine hkeyed' key x.entry ?_
    unfold World.lookup? at hentry ⊢
    rw [htable]
    exact hentry
  refine ⟨turn_run hkeeps hx hs hc, (sameFiling_run hstage).table.trans htable, ?_, ?_⟩
  · rw [entry_run hstage]
    exact hentry
  · intro key' hne u hu
    obtain ⟨hend, hmoments⟩ := spares_run hstage hkeyed' (hkey ▸ hne.symm)
    rcases List.mem_cons.mp hu with rfl | hu
    · exact (hspares key' hne).trans hend
    · obtain ⟨μ, hμ, rfl⟩ := List.mem_map.mp hu
      exact (hspares key' hne).trans (hmoments μ hμ)

/-- The execution that a key starts. -/
theorem ofKey_eq {context : Nat} (h : ofKey? w key context = some x) :
    ∃ e, w.lookup? key = some e ∧ (Text.trim (w.entry e).script).isEmpty = false ∧
      x = { entry := e, key := (w.entry e).key, trigger := (w.entry e).element,
            segments := Segment.split (w.entry e).script, state := .running, context } := by
  unfold ofKey? at h
  split at h
  · simp at h
  · rename_i e he
    dsimp only at h
    split at h
    · simp at h
    · rename_i hscript
      exact ⟨e, he, by simpa using hscript, (Option.some.inj h).symm⟩

theorem ownTurn_start {context : Nat} (hw : w.Sound) (hkeyed : w.Keyed)
    (h : ofKey? w key context = some x) :
    OwnTurn key w (trace (startRecord w key x) x) (run (startRecord w key x) x) := by
  obtain ⟨hx, hs, hc⟩ := atHome_ofKey hw h
  have hreport : w.Keeps (startRecord w key x) := World.keeps_report hw _ _ _
  refine ownTurn_run hw hkeyed hreport rfl (fun key' _ => .of_eq rfl rfl rfl rfl)
    (hreport.grows.atHome hx) hs hc ?_
  obtain ⟨e, he, -, rfl⟩ := ofKey_eq h
  exact he

theorem turn_hear (hw : w.Sound) (hx : x.Rested w) (reply : Reply) : Turn w (x.hear reply w) := by
  cases reply with
  | answer answer => exact turn_settle hw hx answer
  | interruption why => exact turn_interrupt hw hx why

theorem ownTurn_hear (hw : w.Sound) (hkeyed : w.Keyed) (hx : x.Rested w)
    (hentry : w.lookup? key = some x.entry) (reply : Reply) :
    OwnTurn key w (x.heard reply w) (x.hear reply w) := by
  have hkey : (w.entry x.entry).key = key := hkeyed key x.entry hentry
  have hturn := turn_hear hw hx reply
  have hheard : HearsAlike x w x w _ _ _ _ := hearsAlike rfl rfl rfl rfl reply
  generalize x.heard reply w = moments, x.hear reply w = result at hheard hturn ⊢
  cases hheard with
  | ignores =>
      refine ⟨hturn, rfl, hentry, fun key' _ u hu => ?_⟩
      obtain rfl : u = w := by simpa using hu
      exact .refl key' u
  | @goesOn wait answer p v hs hwait hdesk =>
      obtain ⟨hhome, hc, hlaw⟩ := hx hs
      have hkeeps := keeps_atDesk hw hhome.placed ((hlaw wait hwait).settle answer)
      rw [hdesk] at hkeeps
      refine ownTurn_run hw hkeyed hkeeps (patch_table p) (fun key' hne => ?_)
        (atHome_resumed (hkeeps.grows.atHome hhome) v) rfl hc hentry
      exact spares_patch hhome.placed (foreign_of_atHome hhome hkeyed (hkey ▸ hne.symm)) p
  | givesUp p wait f hs =>
      obtain ⟨hhome, hc, -⟩ := hx hs
      rw [failWait_of_closing_nil hc] at hturn ⊢
      refine ⟨hturn, patch_table p, hentry, fun key' hne u hu => ?_⟩
      obtain rfl : u = x.waitRecord wait f (x.patch w p) := by simpa using hu
      exact (spares_patch hhome.placed (foreign_of_atHome hhome hkeyed (hkey ▸ hne.symm)) p).trans
        (.of_eq rfl rfl rfl rfl)

end Turns

end Execution

/-! ## Courses -/

/-- Others have had their turns, and what is filed under a key is as it was. -/
structure World.Interlude (key : String) (w u : World) : Prop where
  sound : u.Sound
  keyed : u.Keyed
  spares : w.Spares key u

/-- Something that happens to the executions of one entry. -/
inductive Course.Event where
  /-- A new one starts. -/
  | start (context : Nat)
  /-- Somebody replies to one of them. -/
  | reply (i : Nat) (reply : Reply)
  /-- Others have their turns, and leave the surroundings like this. -/
  | others (surroundings : Surroundings)

/-- A turn of an execution. -/
structure Leg where
  before : World
  moments : List Moment
  after : World

/-- The worlds that a turn leads to: at its end, and after each of its steps. -/
def Leg.worlds (leg : Leg) : List World := leg.after :: leg.moments.map (·.after.1)

/-- What becomes of a world and of the executions of the entry under a key. The latest event and the
latest turn come first. A course may be continued after a turn in which the program ends: what is
shown of courses holds of these as well. -/
inductive Course (key : String) (w₀ : World) :
    List Course.Event → List Leg → World → List Execution → Prop
  | nil : Course key w₀ [] [] w₀ []
  | start {events : List Course.Event} {legs : List Leg} {w : World} {xs : List Execution}
      {context : Nat} {x : Execution} (before : Course key w₀ events legs w xs)
      (hx : ofKey? w key context = some x) :
      Course key w₀ (.start context :: events)
        (⟨w, trace (startRecord w key x) x, (run (startRecord w key x) x).1⟩ :: legs)
        (run (startRecord w key x) x).1 (xs ++ [(run (startRecord w key x) x).2])
  | reply {events : List Course.Event} {legs : List Leg} {w : World} {xs : List Execution} {i : Nat}
      {x : Execution} (before : Course key w₀ events legs w xs) (hi : xs[i]? = some x)
      (reply : Reply) :
      Course key w₀ (.reply i reply :: events)
        (⟨w, x.heard reply w, (x.hear reply w).1⟩ :: legs)
        (x.hear reply w).1 (xs.set i (x.hear reply w).2)
  | others {events : List Course.Event} {legs : List Leg} {w u : World} {xs : List Execution}
      {s : Surroundings} (before : Course key w₀ events legs w xs) (hu : w.Interlude key u)
      (hs : u.surroundings = s) : Course key w₀ (.others s :: events) legs u xs

/-! ### What holds along a course -/

/-- The executions of an entry that is filed under its key. -/
structure Attended (key : String) (w : World) (xs : List Execution) : Prop where
  sound : w.Sound
  keyed : w.Keyed
  rested : ∀ x ∈ xs, x.Rested w
  entry : ∀ x ∈ xs, w.lookup? key = some x.entry

section Along

variable {key : String} {w w₀ u : World} {xs : List Execution} {events : List Course.Event}
  {legs : List Leg}

theorem Attended.turn {moments : List Moment} {result : World × Execution} {ys : List Execution}
    (h : Attended key w xs) (ht : OwnTurn key w moments result)
    (hys : ∀ y ∈ ys, y ∈ xs ∨ y = result.2) : Attended key result.1 ys where
  sound := ht.turn.keeps.sound
  keyed := World.keyed_of_table h.sound h.keyed ht.turn.keeps.grows ht.table
  rested := fun y hy => by
    rcases hys y hy with hy | rfl
    · exact rested_grows (h.rested y hy) ht.turn.keeps.grows
    · exact ht.turn.rested
  entry := fun y hy => by
    have hlookup : result.1.lookup? key = w.lookup? key := by unfold World.lookup?; rw [ht.table]
    rw [hlookup]
    rcases hys y hy with hy | rfl
    · exact h.entry y hy
    · exact ht.entry

theorem Attended.interlude (h : Attended key w xs) (hu : w.Interlude key u) :
    Attended key u xs where
  sound := hu.sound
  keyed := hu.keyed
  rested := fun x hx hs => by
    obtain ⟨hhome, hrest⟩ := h.rested x hx hs
    have hlookup := h.entry x hx
    have hkey := h.keyed key x.entry hlookup
    refine ⟨⟨⟨?_, fun s hs => ?_⟩, fun s hs => ?_⟩, hrest⟩
    · exact hu.sound.table key _ (mem_of_lookup (hu.spares.lookup.trans hlookup))
    · exact Nat.lt_of_lt_of_le (hhome.placed.shell s hs) hu.spares.size
    · have howner := (hhome.owner s hs).trans hkey
      rw [hu.spares.shell s (hhome.placed.shell s hs) howner, hu.spares.entry _ hlookup]
      exact hhome.owner s hs
  entry := fun x hx => hu.spares.lookup.trans (h.entry x hx)

/-- A turn of an entry with another key is an interlude. -/
def Leg.Avoids (leg : Leg) (key : String) : Prop :=
  leg.before.Sound ∧ leg.before.Interlude key leg.after ∧
    ∀ u ∈ leg.worlds, leg.before.Spares key u

theorem Attended.avoids {moments : List Moment} {result : World × Execution} {key' : String}
    (h : Attended key w xs) (ht : OwnTurn key w moments result) (hne : key' ≠ key) :
    Leg.Avoids ⟨w, moments, result.1⟩ key' := by
  have hspares := ht.spares key' hne
  have hafter : Attended key result.1 xs := h.turn ht fun _ => Or.inl
  exact ⟨h.sound, ⟨hafter.sound, hafter.keyed, hspares _ List.mem_cons_self⟩, hspares⟩

/-- **Every turn of a course avoids what is filed under other keys.** -/
theorem attended_course (h : Course key w₀ events legs w xs) (hsound : w₀.Sound)
    (hkeyed : w₀.Keyed) :
    Attended key w xs ∧ ∀ leg ∈ legs, ∀ key', key' ≠ key → leg.Avoids key' := by
  induction h with
  | nil =>
      exact ⟨⟨hsound, hkeyed, fun x hx => by simp at hx, fun x hx => by simp at hx⟩,
        fun leg hleg => by simp at hleg⟩
  | start _ hx ih =>
      obtain ⟨hw, hlegs⟩ := ih
      have ht := ownTurn_start hw.sound hw.keyed hx
      refine ⟨hw.turn ht fun y hy => by simpa using hy, ?_⟩
      exact List.forall_mem_cons.mpr ⟨fun key' => hw.avoids ht, hlegs⟩
  | reply _ hi reply ih =>
      obtain ⟨hw, hlegs⟩ := ih
      have hx := List.mem_of_getElem? hi
      have ht := ownTurn_hear hw.sound hw.keyed (hw.rested _ hx) (hw.entry _ hx) reply
      refine ⟨hw.turn ht fun y hy => List.mem_or_eq_of_mem_set hy, ?_⟩
      exact List.forall_mem_cons.mpr ⟨fun key' => hw.avoids ht, hlegs⟩
  | others _ hu _ ih => exact ⟨ih.1.interlude hu, ih.2⟩

end Along

/-! ### Two courses -/

section Two

variable {key : String} {paired : ShellId → ShellId → Prop} {e₁ e₂ : EntryId}
  {w₁ w₂ u₁ u₂ v₁ v₂ : World} {xs₁ xs₂ : List Execution} {events : List Course.Event}
  {legs₁ legs₂ : List Leg}

/-- Two executions of the paired entries match. -/
structure Twinned (paired : ShellId → ShellId → Prop) (e₁ e₂ : EntryId) (x₁ x₂ : Execution) :
    Prop where
  entry₁ : x₁.entry = e₁
  entry₂ : x₂.entry = e₂
  exec : Matches paired x₁ x₂

/-- All executions of an entry have their mirror images. -/
def Reflected (key : String) (w₁ : World) (xs₁ : List Execution) (w₂ : World)
    (xs₂ : List Execution) : Prop :=
  ∃ paired e₁ e₂, World.Reflects key paired e₁ w₁ e₂ w₂ ∧
    List.Forall₂ (Twinned paired e₁ e₂) xs₁ xs₂

/-- The same execution starts in both worlds. -/
theorem World.Reflects.start {context : Nat} {x₁ : Execution}
    (h : Reflects key paired e₁ w₁ e₂ w₂) (hx : ofKey? w₁ key context = some x₁) :
    ∃ x₂, ofKey? w₂ key context = some x₂ ∧
      Mirror key paired x₁ (startRecord w₁ key x₁) x₂ (startRecord w₂ key x₂) := by
  obtain ⟨e, he, hscript, rfl⟩ := ofKey_eq hx
  obtain rfl : e₁ = e := Option.some.inj (h.lookup₁.symm.trans he)
  refine ⟨{ entry := e₂, key := (w₂.entry e₂).key, trigger := (w₂.entry e₂).element,
            segments := Segment.split (w₂.entry e₂).script, state := .running, context },
    ?_, h.log _ _, ?_, .none, .nil⟩
  · unfold ofKey?
    rw [h.lookup₂]
    dsimp only
    rw [if_neg (by rw [← h.entry, hscript]; simp)]
  · unfold bare
    dsimp only
    rw [h.entry]

/-- Others do not break a mirror image. -/
theorem World.Reflects.interlude (h : Reflects key paired e₁ w₁ e₂ w₂)
    (h₁ : w₁.Interlude key v₁) (h₂ : w₂.Interlude key v₂)
    (hs : v₁.surroundings = v₂.surroundings) : Reflects key paired e₁ v₁ e₂ v₂ where
  surroundings := hs
  lookup₁ := h₁.spares.lookup.trans h.lookup₁
  lookup₂ := h₂.spares.lookup.trans h.lookup₂
  exists₁ := h₁.sound.table key _ (mem_of_lookup (h₁.spares.lookup.trans h.lookup₁))
  exists₂ := h₂.sound.table key _ (mem_of_lookup (h₂.spares.lookup.trans h.lookup₂))
  entry := by
    rw [h₁.spares.entry _ h.lookup₁, h₂.spares.entry _ h.lookup₂]
    exact h.entry
  owner := by
    rw [h₁.spares.entry _ h.lookup₁]
    exact h.owner
  bounds := fun hpair =>
    ⟨Nat.lt_of_lt_of_le (h.bounds hpair).1 h₁.spares.size,
      Nat.lt_of_lt_of_le (h.bounds hpair).2 h₂.spares.size⟩
  shells := fun hpair => by
    obtain ⟨hsame, howner⟩ := h.shells hpair
    rw [h₁.spares.shell _ (h.bounds hpair).1 howner,
      h₂.spares.shell _ (h.bounds hpair).2 (hsame ▸ howner)]
    exact ⟨hsame, howner⟩
  exact := h.exact
  filed := fun name => by
    rw [h₁.spares.filed, h₂.spares.filed]
    exact h.filed name

/-- One of the executions has had a turn. -/
theorem Reflected.turn {moments₁ moments₂ : List Moment} {result₁ result₂ : World × Execution}
    {paired' : ShellId → ShellId → Prop} {ys₁ ys₂ : List Execution}
    (h : World.Reflects key paired e₁ w₁ e₂ w₂) (ht₁ : OwnTurn key w₁ moments₁ result₁)
    (ht₂ : OwnTurn key w₂ moments₂ result₂)
    (hmirror : Mirror key paired' result₁.2 result₁.1 result₂.2 result₂.1)
    (hys : Twinned paired' e₁ e₂ result₁.2 result₂.2 →
      List.Forall₂ (Twinned paired' e₁ e₂) ys₁ ys₂) :
    Reflected key result₁.1 ys₁ result₂.1 ys₂ := by
  have he₁ : result₁.2.entry = e₁ := Option.some.inj (ht₁.entry.symm.trans h.lookup₁)
  have he₂ : result₂.2.entry = e₂ := Option.some.inj (ht₂.entry.symm.trans h.lookup₂)
  exact ⟨paired', e₁, e₂, he₁ ▸ he₂ ▸ hmirror.world, hys ⟨he₁, he₂, hmirror.exec⟩⟩

theorem Twinned.weaken {paired' : ShellId → ShellId → Prop} (hle : paired ≤ paired')
    (h : List.Forall₂ (Twinned paired e₁ e₂) xs₁ xs₂) :
    List.Forall₂ (Twinned paired' e₁ e₂) xs₁ xs₂ :=
  h.imp fun _ _ hx => ⟨hx.entry₁, hx.entry₂, hx.exec.weaken hle⟩

theorem forall₂_getElem? {α β : Type} {R : α → β → Prop} {as : List α} {bs : List β}
    (h : List.Forall₂ R as bs) :
    ∀ {i : Nat} {a : α}, as[i]? = some a → ∃ b, bs[i]? = some b ∧ R a b := by
  induction h with
  | nil => intro i a hi; simp at hi
  | @cons a b as bs hab _ ih =>
      rintro (_ | i) a' hi
      · obtain rfl := Option.some.inj hi
        exact ⟨b, rfl, hab⟩
      · exact ih hi

theorem forall₂_set {α β : Type} {R : α → β → Prop} {as : List α} {bs : List β}
    (h : List.Forall₂ R as bs) {a : α} {b : β} (hab : R a b) :
    ∀ i : Nat, List.Forall₂ R (as.set i a) (bs.set i b) := by
  induction h with
  | nil => exact fun _ => .nil
  | cons hfirst hrest ih =>
      rintro (_ | i)
      · exact .cons hab hrest
      · exact .cons hfirst (ih i)

/-- **Courses with the same events stay mirror images.** -/
theorem reflected_course (h₁ : Course key u₁ events legs₁ w₁ xs₁) (hs₁ : u₁.Sound) (hk₁ : u₁.Keyed)
    (hs₂ : u₂.Sound) (hk₂ : u₂.Keyed) (hstart : Reflected key u₁ [] u₂ []) :
    ∀ {legs₂ : List Leg} {w₂ : World} {xs₂ : List Execution},
      Course key u₂ events legs₂ w₂ xs₂ → Reflected key w₁ xs₁ w₂ xs₂ := by
  induction h₁ with
  | nil =>
      intro legs₂ w₂ xs₂ h₂
      cases h₂
      exact hstart
  | start before hx ih =>
      intro legs₂ w₂ xs₂ h₂
      cases h₂ with
      | start before₂ hx₂ =>
      obtain ⟨paired, e₁, e₂, hworld, hxs⟩ := ih before₂
      have ha₁ := (attended_course before hs₁ hk₁).1
      have ha₂ := (attended_course before₂ hs₂ hk₂).1
      obtain ⟨x₂, hx₂', hmirror⟩ := hworld.start hx
      obtain rfl := Option.some.inj (hx₂.symm.trans hx₂')
      obtain ⟨paired', hle, hrun⟩ := mirror_run hmirror
        (World.keeps_report ha₁.sound _ _ _).sound.arena
        (World.keeps_report ha₂.sound _ _ _).sound.arena
      refine Reflected.turn hworld (ownTurn_start ha₁.sound ha₁.keyed hx)
        (ownTurn_start ha₂.sound ha₂.keyed hx₂) hrun fun hnew => ?_
      exact List.rel_append (Twinned.weaken hle hxs) (.cons hnew .nil)
  | @reply events legs w xs i x before hi reply ih =>
      intro legs₂ w₂ xs₂ h₂
      cases h₂ with
      | reply before₂ hi₂ _ =>
      obtain ⟨paired, e₁, e₂, hworld, hxs⟩ := ih before₂
      have ha₁ := (attended_course before hs₁ hk₁).1
      have ha₂ := (attended_course before₂ hs₂ hk₂).1
      have hm₁ := List.mem_of_getElem? hi
      have hm₂ := List.mem_of_getElem? hi₂
      obtain ⟨y, hy, htwins⟩ := forall₂_getElem? hxs hi
      obtain rfl := Option.some.inj (hi₂.symm.trans hy)
      have hmirror : Mirror key paired _ _ _ _ :=
        ⟨htwins.entry₁.symm ▸ htwins.entry₂.symm ▸ hworld, htwins.exec⟩
      obtain ⟨paired', hle, hrun⟩ := mirror_hear hmirror ha₁.sound.arena ha₂.sound.arena reply
      refine Reflected.turn hworld
        (ownTurn_hear ha₁.sound ha₁.keyed (ha₁.rested _ hm₁) (ha₁.entry _ hm₁) reply)
        (ownTurn_hear ha₂.sound ha₂.keyed (ha₂.rested _ hm₂) (ha₂.entry _ hm₂) reply) hrun
        fun hnew => ?_
      exact forall₂_set (Twinned.weaken hle hxs) hnew i
  | others before hu hs ih =>
      -- the others may do different things in the two worlds
      intro legs₂ w₂ xs₂ h₂
      cases h₂ with
      | others before₂ hu₂ hsame =>
      obtain ⟨paired, e₁, e₂, hworld, hxs⟩ := ih before₂
      exact ⟨paired, e₁, e₂, hworld.interlude hu hu₂ (hs.trans hsame.symm), hxs⟩

/-- **What can happen in one world can happen in the other.** -/
theorem course_exists (h₁ : Course key u₁ events legs₁ w₁ xs₁) (hs₁ : u₁.Sound) (hk₁ : u₁.Keyed)
    (hs₂ : u₂.Sound) (hk₂ : u₂.Keyed) (hstart : Reflected key u₁ [] u₂ []) :
    ∃ legs₂ w₂ xs₂, Course key u₂ events legs₂ w₂ xs₂ := by
  induction h₁ with
  | nil => exact ⟨_, _, _, .nil⟩
  | start before hx ih =>
      obtain ⟨legs₂, w₂, xs₂, before₂⟩ := ih
      obtain ⟨paired, e₁, e₂, hworld, -⟩ :=
        reflected_course before hs₁ hk₁ hs₂ hk₂ hstart before₂
      obtain ⟨x₂, hx₂, -⟩ := hworld.start hx
      exact ⟨_, _, _, .start before₂ hx₂⟩
  | reply before hi reply ih =>
      obtain ⟨legs₂, w₂, xs₂, before₂⟩ := ih
      obtain ⟨paired, e₁, e₂, -, hxs⟩ := reflected_course before hs₁ hk₁ hs₂ hk₂ hstart before₂
      obtain ⟨x₂, hi₂, -⟩ := forall₂_getElem? hxs hi
      exact ⟨_, _, _, .reply before₂ hi₂ reply⟩
  | @others events legs w u xs s before hu hs ih =>
      obtain ⟨legs₂, w₂, xs₂, before₂⟩ := ih
      have ha₂ := (attended_course before₂ hs₂ hk₂).1
      have hverbs : s.verbs.Lawful := hs ▸ hu.sound.verbs
      -- only the surroundings have to change
      let u₂ : World := { w₂ with
        document := s.document, verbs := s.verbs, globals := s.globals, now := s.now }
      have hkeeps : w₂.Keeps u₂ := World.keeps_beside ha₂.sound rfl rfl rfl rfl hverbs
      exact ⟨_, _, _, .others before₂ ⟨hkeeps.sound, ha₂.keyed, .of_eq rfl rfl rfl rfl⟩ rfl⟩

/-- Two worlds agree on what they share and on what is filed under a key; the rest may differ. -/
structure World.AgreeFor (key : String) (w₁ w₂ : World) : Prop where
  surroundings : w₁.surroundings = w₂.surroundings
  entry : (w₁.lookup? key).map w₁.entry = (w₂.lookup? key).map w₂.entry
  shells : ∀ name, w₁.shell? key name = w₂.shell? key name

/-- Worlds that agree for a key are mirror images: an open shell is paired with the one of its
name. -/
theorem World.AgreeFor.reflected (h : w₁.AgreeFor key w₂) (hs₁ : w₁.Sound) (hk₁ : w₁.Keyed)
    (hs₂ : w₂.Sound) (he₁ : w₁.lookup? key = some e₁) : Reflected key w₁ [] w₂ [] := by
  obtain ⟨e₂, he₂, hentry⟩ : ∃ e₂, w₂.lookup? key = some e₂ ∧ w₂.entry e₂ = w₁.entry e₁ := by
    have hmap := h.entry
    rw [he₁] at hmap
    exact Option.map_eq_some_iff.mp hmap.symm
  have hname : ∀ {w : World}, w.Sound → ∀ {name name' : String} {s : ShellId},
      w.openShell? key name = some s → w.openShell? key name' = some s → name = name' :=
    fun hw _ _ _ hn hn' => congrArg Prod.snd
      (hw.arena.unique (filed_of_openShell? hn) (filed_of_openShell? hn'))
  -- the open shells are paired by their names, which are all the worlds have in common
  refine ⟨fun s₁ s₂ => ∃ name, w₁.openShell? key name = some s₁ ∧ w₂.openShell? key name = some s₂,
    e₁, e₂, ?_, .nil⟩
  exact
    { surroundings := h.surroundings
      lookup₁ := he₁
      lookup₂ := he₂
      exists₁ := hs₁.table key _ (mem_of_lookup he₁)
      exists₂ := hs₂.table key _ (mem_of_lookup he₂)
      entry := hentry.symm
      owner := hk₁ key e₁ he₁
      bounds := fun ⟨name, hn₁, hn₂⟩ =>
        ⟨hs₁.arena.bound _ _ (filed_of_openShell? hn₁),
          hs₂.arena.bound _ _ (filed_of_openShell? hn₂)⟩
      shells := fun {s₁ s₂} ⟨name, hn₁, hn₂⟩ => by
        have hsame := h.shells name
        unfold shell? at hsame
        rw [hn₁, hn₂] at hsame
        have hplace := hs₁.arena.place _ s₁ (filed_of_openShell? hn₁)
        exact ⟨Option.some.inj hsame, (congrArg Prod.fst hplace).symm⟩
      exact := fun {s₁ s₂ t₁ t₂} ⟨name, hn₁, hn₂⟩ ⟨name', hn₁', hn₂'⟩ => by
        constructor
        · rintro rfl
          obtain rfl := hname hs₁ hn₁ hn₁'
          exact Option.some.inj (hn₂.symm.trans hn₂')
        · rintro rfl
          obtain rfl := hname hs₂ hn₂ hn₂'
          exact Option.some.inj (hn₁.symm.trans hn₁')
      filed := fun name => by
        have hsame := h.shells name
        unfold shell? at hsame
        cases hn₁ : w₁.openShell? key name with
        | none =>
            rw [hn₁] at hsame
            rw [Option.map_eq_none_iff.mp hsame.symm]
            exact .none
        | some s₁ =>
            rw [hn₁] at hsame
            obtain ⟨s₂, hn₂, -⟩ := Option.map_eq_some_iff.mp hsame.symm
            rw [hn₂]
            exact .some ⟨name, hn₁, hn₂⟩ }

theorem Reflected.agreeFor (h : Reflected key w₁ xs₁ w₂ xs₂) :
    w₁.AgreeFor key w₂ ∧ xs₁.map bare = xs₂.map bare := by
  obtain ⟨paired, e₁, e₂, hworld, hxs⟩ := h
  refine ⟨⟨hworld.surroundings, ?_, fun name => ?_⟩, ?_⟩
  · rw [hworld.lookup₁, hworld.lookup₂]
    exact congrArg some hworld.entry
  · have hfiled := hworld.filed name
    unfold World.shell?
    generalize w₁.openShell? key name = found₁, w₂.openShell? key name = found₂ at hfiled
    cases hfiled with
    | none => rfl
    | some hpair => exact congrArg some (hworld.shells hpair).1
  · induction hxs with
    | nil => rfl
    | cons hx _ ih => rw [List.map_cons, List.map_cons, hx.exec.bare, ih]

end Two

/-- **Entries do not interfere.** In any course of the executions of an entry, with other turns in
between, no turn changes the store or an open shell of another key, neither at its end nor after one
of its steps; to the other key it is an interlude. And in two worlds that agree for the key,
whatever else is filed in them, the same events can happen, and they come to worlds that agree for
the key and to the same executions, with the same values and outcomes. -/
theorem entries_do_not_interfere (key : String) :
    (∀ (m : Machine) (events : List Course.Event) (legs : List Leg) (w : World)
        (xs : List Execution), m.Reachable → Course key m.world events legs w xs →
      ∀ leg ∈ legs, ∀ key', key' ≠ key →
        leg.before.Interlude key' leg.after ∧
          ∀ u ∈ leg.worlds, u.store? key' = leg.before.store? key' ∧
            ∀ name, u.shell? key' name = leg.before.shell? key' name) ∧
    (∀ (m₁ m₂ : Machine) (events : List Course.Event) (legs₁ : List Leg) (w₁ : World)
        (xs₁ : List Execution), m₁.Reachable → m₂.Reachable → (m₁.world.lookup? key).isSome →
      m₁.world.AgreeFor key m₂.world → Course key m₁.world events legs₁ w₁ xs₁ →
        (∃ legs₂ w₂ xs₂, Course key m₂.world events legs₂ w₂ xs₂) ∧
          ∀ legs₂ w₂ xs₂, Course key m₂.world events legs₂ w₂ xs₂ →
            w₁.AgreeFor key w₂ ∧ xs₁.map bare = xs₂.map bare) := by
  constructor
  · intro m events legs w xs hm hcourse leg hleg key' hne
    have hsound := (Machine.sound_reachable hm).world
    have hkeyed := Machine.keyed_reachable hm
    obtain ⟨hbefore, hinterlude, hspares⟩ :=
      (attended_course hcourse hsound hkeyed).2 leg hleg key' hne
    exact ⟨hinterlude, fun u hu => ⟨(hspares u hu).store_eq, (hspares u hu).shell_eq hbefore.arena⟩⟩
  · intro m₁ m₂ events legs₁ w₁ xs₁ hm₁ hm₂ hentry hagree hcourse
    obtain ⟨e₁, he₁⟩ := Option.isSome_iff_exists.mp hentry
    have hs₁ := (Machine.sound_reachable hm₁).world
    have hs₂ := (Machine.sound_reachable hm₂).world
    have hk₁ := Machine.keyed_reachable hm₁
    have hk₂ := Machine.keyed_reachable hm₂
    have hstart := hagree.reflected hs₁ hk₁ hs₂ he₁
    exact ⟨course_exists hcourse hs₁ hk₁ hs₂ hk₂ hstart, fun legs₂ w₂ xs₂ hcourse₂ =>
      (reflected_course hcourse hs₁ hk₁ hs₂ hk₂ hstart hcourse₂).agreeFor⟩

/-- Removing an entry spares the others. -/
theorem World.spares_remove {key place : String} (w : World) (hne : key ≠ place) :
    w.Spares key (w.remove place) where
  lookup := by rw [lookup_remove, if_neg hne]
  entry := fun e _ => by unfold remove; split <;> rfl
  size := by unfold remove; split <;> exact Nat.le_refl _
  shell := fun s _ _ => by unfold remove; split <;> rfl
  filed := fun name => by
    unfold remove
    split
    · rfl
    · exact (openShell?_dropShells w place key name).trans (if_neg hne)

theorem World.agreeFor_remove {key place : String} {w : World} (hw : w.ArenaSound)
    (hne : key ≠ place) : w.AgreeFor key (w.remove place) := by
  have hspares := w.spares_remove hne
  refine ⟨?_, ?_, fun name => (hspares.shell_eq hw name).symm⟩
  · unfold remove
    split <;> rfl
  · rw [hspares.lookup]
    exact Option.map_congr fun e he => (hspares.entry e he).symm

namespace Machine

/-- A page with two elements that have scripts, where `q` waits inside a shell of its own. -/
def neighbours : Machine :=
  (init { nodes := #[⟨.document, [⟨1⟩, ⟨2⟩]⟩,
      ⟨.element "div" "" [⟨"", "id", "p"⟩, ⟨"", "inline", "+T:s |&x:one |wait:w |-s"⟩], []⟩,
      ⟨.element "div" "" [⟨"", "id", "q"⟩, ⟨"", "inline", "+T:s |&x:two |wait:w |-s"⟩], []⟩] }
    "inline" waiting).afterAll
    [.register .numbered ⟨1⟩, .register .numbered ⟨2⟩, .start "q" 0]

theorem neighbours_reachable : neighbours.Reachable :=
  Reachable.afterAll ⟨_, _, waiting, waiting_lawful, .refl _⟩ _

/-- What `p` waits for comes. -/
def word : Reply := .answer (.ok (.string "w"))

/-- With `q` and its shell there or not, `p` starts, waits in a shell of its own, and comes to the
same end. -/
theorem neighbour_does_not_matter :
    (neighbours.world.shell? "q" "s").isSome ∧
    ∃ legs₁ w₁ x₁ legs₂ w₂ x₂,
      Course "p" neighbours.world [.reply 0 word, .start 0] legs₁ w₁ [x₁] ∧
      Course "p" (neighbours.after (.remove "q")).world [.reply 0 word, .start 0] legs₂ w₂ [x₂] ∧
      x₁.state = .finished ∧ x₁.bare = x₂.bare ∧ w₁.AgreeFor "p" w₂ ∧
      ∀ leg ∈ legs₁, leg.after.shell? "q" "s" = leg.before.shell? "q" "s" := by
  obtain ⟨x, hx, hshell, hentry, hstate⟩ : ∃ x ∈ ofKey? neighbours.world "p" 0,
      (neighbours.world.shell? "q" "s").isSome ∧ (neighbours.world.lookup? "p").isSome ∧
      ((run (startRecord neighbours.world "p" x) x).2.hear word
        (run (startRecord neighbours.world "p" x) x).1).2.state = .finished := by
    decide +kernel
  have hm := neighbours_reachable
  generalize neighbours = m at *
  have hcourse : Course "p" m.world [.reply 0 word, .start 0] _ _ _ :=
    .reply (.start .nil hx) rfl word
  have hagree : m.world.AgreeFor "p" (m.after (.remove "q")).world :=
    World.agreeFor_remove (sound_reachable hm).world.arena (by decide)
  obtain ⟨⟨legs₂, w₂, xs₂, hcourse₂⟩, hsame⟩ := (entries_do_not_interfere "p").2 m _ _ _ _ _ hm
    (hm.after _) hentry hagree hcourse
  obtain ⟨hworld, hbare⟩ := hsame _ _ _ hcourse₂
  obtain ⟨x₂, rfl, hx₂⟩ := List.map_eq_singleton_iff.mp hbare.symm
  refine ⟨hshell, _, _, _, _, _, _, hcourse, hcourse₂, hstate, hx₂.symm, hworld, ?_⟩
  intro leg hleg
  have hother := (entries_do_not_interfere "p").1 m _ _ _ _ hm hcourse leg hleg "q" (by decide)
  exact (hother.2 leg.after List.mem_cons_self).2 "s"

end Machine

end PageMacro
