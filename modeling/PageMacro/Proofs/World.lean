import PageMacro.Machine.Step
import PageMacro.Proofs.Verb

/-!
# Entries, shells and the arena

The small facts about the shared state that later modules use instead of its
definitions: what an entry or a shell is after somebody's variables changed, and
how the list of open shells, the arena, answers a look-up.

`World.ArenaSound` is what makes that list a map: one shell for each entry and
name, filed under the entry and the name it was opened with. A shell is
therefore filed in at most one place.
-/

namespace PageMacro

namespace World

/-! ## Variables of entries and shells -/

theorem entry_eq_of_lt {w : World} {e : EntryId} (h : e < w.entries.size) :
    w.entry e = w.entries[e] := by
  unfold entry
  rw [Array.getElem?_eq_getElem h]
  rfl

theorem shell_eq_of_lt {w : World} {s : ShellId} (h : s < w.shells.size) :
    w.shell s = w.shells[s] := by
  unfold shell
  rw [Array.getElem?_eq_getElem h]
  rfl

theorem entry_modifyEntryVars (w : World) (e i : EntryId) (f : Store → Store)
    (h : e < w.entries.size) :
    (w.modifyEntryVars e f).entry i =
      if i = e then { w.entry e with vars := f (w.entry e).vars } else w.entry i := by
  unfold entry modifyEntryVars
  rw [Array.getElem?_modify]
  by_cases hi : i = e
  · subst hi
    rw [if_pos rfl, if_pos rfl, Array.getElem?_eq_getElem h]
    rfl
  · rw [if_neg (Ne.symm hi), if_neg hi]

theorem shell_modifyShellVars (w : World) (s i : ShellId) (f : Store → Store)
    (h : s < w.shells.size) :
    (w.modifyShellVars s f).shell i =
      if i = s then { w.shell s with vars := f (w.shell s).vars } else w.shell i := by
  unfold shell modifyShellVars
  rw [Array.getElem?_modify]
  by_cases hi : i = s
  · subst hi
    rw [if_pos rfl, if_pos rfl, Array.getElem?_eq_getElem h]
    rfl
  · rw [if_neg (Ne.symm hi), if_neg hi]

@[simp] theorem entries_size_modifyEntryVars (w : World) (e : EntryId) (f : Store → Store) :
    (w.modifyEntryVars e f).entries.size = w.entries.size := by
  simp [modifyEntryVars]

/-- Writing variables keeps the key of every entry. -/
@[simp] theorem entry_key_modifyEntryVars (w : World) (e i : EntryId) (f : Store → Store) :
    ((w.modifyEntryVars e f).entry i).key = (w.entry i).key := by
  unfold entry modifyEntryVars
  rw [Array.getElem?_modify]
  split
  · rename_i h
    subst h
    cases w.entries[e]? <;> rfl
  · rfl

theorem modifyEntryVars_modifyEntryVars (w : World) (e : EntryId) (f g : Store → Store) :
    (w.modifyEntryVars e f).modifyEntryVars e g = w.modifyEntryVars e (g ∘ f) := by
  unfold modifyEntryVars
  congr 1
  apply Array.ext
  · simp
  · intro i h1 h2
    simp only [Array.getElem_modify]
    split <;> rfl

theorem modifyShellVars_modifyShellVars (w : World) (s : ShellId) (f g : Store → Store) :
    (w.modifyShellVars s f).modifyShellVars s g = w.modifyShellVars s (g ∘ f) := by
  unfold modifyShellVars
  congr 1
  apply Array.ext
  · simp
  · intro i h1 h2
    simp only [Array.getElem_modify]
    split <;> rfl

/-- Only what `f` does to the variables that are there matters. -/
theorem modifyEntryVars_congr {w : World} {e : EntryId} {f g : Store → Store}
    (h : f (w.entry e).vars = g (w.entry e).vars) :
    w.modifyEntryVars e f = w.modifyEntryVars e g := by
  unfold modifyEntryVars
  congr 1
  apply Array.ext
  · simp
  · intro i h1 h2
    simp only [Array.getElem_modify]
    split
    · rename_i hi
      subst hi
      rw [entry_eq_of_lt (by simpa using h1)] at h
      rw [h]
    · rfl

theorem modifyShellVars_congr {w : World} {s : ShellId} {f g : Store → Store}
    (h : f (w.shell s).vars = g (w.shell s).vars) :
    w.modifyShellVars s f = w.modifyShellVars s g := by
  unfold modifyShellVars
  congr 1
  apply Array.ext
  · simp
  · intro i h1 h2
    simp only [Array.getElem_modify]
    split
    · rename_i hi
      subst hi
      rw [shell_eq_of_lt (by simpa using h1)] at h
      rw [h]
    · rfl

theorem modifyEntryVars_id (w : World) (e : EntryId) : w.modifyEntryVars e id = w := by
  have : (w.entries.modify e fun entry => { entry with vars := id entry.vars }) = w.entries := by
    apply Array.ext
    · simp
    · intro i h1 h2
      simp only [Array.getElem_modify]
      split <;> rfl
  unfold modifyEntryVars
  rw [this]

theorem modifyShellVars_id (w : World) (s : ShellId) : w.modifyShellVars s id = w := by
  have : (w.shells.modify s fun shell => { shell with vars := id shell.vars }) = w.shells := by
    apply Array.ext
    · simp
    · intro i h1 h2
      simp only [Array.getElem_modify]
      split <;> rfl
  unfold modifyShellVars
  rw [this]

/-! ## The arena -/

/-- A shell is filed under an entry's key and a name. -/
def Filed (w : World) (s : ShellId) : Prop := ∃ place, (place, s) ∈ w.openShells

/-- The list of open shells is a map, and every shell is filed where it says. -/
structure ArenaSound (w : World) : Prop where
  /-- One shell for each entry and name. -/
  nodup : (w.openShells.map (·.1)).Nodup
  /-- Shells that are filed exist. -/
  bound : ∀ place s, (place, s) ∈ w.openShells → s < w.shells.size
  /-- They are filed under their own entry and name. -/
  place : ∀ place s, (place, s) ∈ w.openShells → place = ((w.shell s).entry, (w.shell s).name)

theorem filed_of_openShell? {w : World} {key name : String} {s : ShellId}
    (h : w.openShell? key name = some s) : ((key, name), s) ∈ w.openShells :=
  mem_of_lookup h

/-- **A shell is filed in one place at most.** -/
theorem ArenaSound.unique {w : World} (h : w.ArenaSound) {p q : String × String} {s : ShellId}
    (hp : (p, s) ∈ w.openShells) (hq : (q, s) ∈ w.openShells) : p = q :=
  (h.place p s hp).trans (h.place q s hq).symm

/-- **A shell that is filed anywhere is found under its entry and name.** -/
theorem ArenaSound.openShell?_eq_some_iff {w : World} (h : w.ArenaSound) {s : ShellId} :
    w.openShell? (w.shell s).entry (w.shell s).name = some s ↔ w.Filed s := by
  constructor
  · exact fun hfind => ⟨_, filed_of_openShell? hfind⟩
  · rintro ⟨place, hm⟩
    have hplace := h.place place s hm
    rw [hplace] at hm
    exact lookup_of_mem h.nodup hm

/-! ## Filing and unfiling -/

/-- The world without the shell filed in a place. -/
def unfile (w : World) (place : String × String) : World :=
  { w with openShells := w.openShells.filter fun (k, _) => k != place }

/-- The world with a new shell, filed in its place. -/
def file (w : World) (shell : Shell) : World :=
  { w with
    shells := w.shells.push shell
    openShells := w.openShells ++ [((shell.entry, shell.name), w.shells.size)] }

theorem mem_unfile {w : World} {place : String × String} {pair : (String × String) × ShellId} :
    pair ∈ (w.unfile place).openShells ↔ pair ∈ w.openShells ∧ pair.1 ≠ place := by
  unfold unfile
  simp only [List.mem_filter, bne_iff_ne]

theorem mem_file {w : World} {shell : Shell} {pair : (String × String) × ShellId} :
    pair ∈ (w.file shell).openShells ↔
      pair ∈ w.openShells ∨ pair = ((shell.entry, shell.name), w.shells.size) := by
  unfold file
  simp only [List.mem_append, List.mem_singleton]

theorem shell_file_of_lt {w : World} {shell : Shell} {s : ShellId} (h : s < w.shells.size) :
    (w.file shell).shell s = w.shell s := by
  unfold World.shell file
  dsimp only
  rw [Array.getElem?_push_lt h, Array.getElem?_eq_getElem h]

theorem shell_file_size (w : World) (shell : Shell) :
    (w.file shell).shell w.shells.size = shell := by
  unfold World.shell file
  dsimp only
  rw [Array.getElem?_push_size]
  rfl

@[simp] theorem shells_size_file (w : World) (shell : Shell) :
    (w.file shell).shells.size = w.shells.size + 1 := by
  simp [file]

namespace ArenaSound

/-- Taking a place off the list takes off the shell that was there, and no other. -/
theorem ne_of_mem_unfile {w : World} (h : w.ArenaSound) {key name : String} {s : ShellId}
    (hs : w.openShell? key name = some s) {pair : (String × String) × ShellId}
    (hm : pair ∈ (w.unfile (key, name)).openShells) : pair.2 ≠ s := by
  obtain ⟨hm, hne⟩ := mem_unfile.mp hm
  rintro rfl
  exact hne (h.unique hm (filed_of_openShell? hs))

theorem unfile {w : World} (h : w.ArenaSound) (place : String × String) :
    (w.unfile place).ArenaSound where
  nodup := h.nodup.sublist (List.filter_sublist.map _)
  bound := fun q s hm => h.bound q s (mem_unfile.mp hm).1
  place := fun q s hm => h.place q s (mem_unfile.mp hm).1

theorem file {w : World} (h : w.ArenaSound) {shell : Shell}
    (hfree : w.openShell? shell.entry shell.name = none) : (w.file shell).ArenaSound where
  nodup := by
    -- a place that is taken would have been found
    have hnew : (shell.entry, shell.name) ∉ w.openShells.map (·.1) := by
      intro hm
      obtain ⟨⟨q, s⟩, hq, rfl⟩ := List.mem_map.mp hm
      have := lookup_of_mem h.nodup hq
      rw [show w.openShells.lookup (shell.entry, shell.name) = none from hfree] at this
      simp at this
    unfold World.file
    simp only [List.map_append, List.map_cons, List.map_nil]
    exact List.nodup_append.mpr ⟨h.nodup, by simp, by
      intro a ha b hb hab
      rw [List.mem_singleton.mp hb] at hab
      exact hnew (hab ▸ ha)⟩
  bound := by
    intro q s hm
    rw [shells_size_file]
    rcases mem_file.mp hm with hm | heq
    · exact Nat.lt_succ_of_lt (h.bound q s hm)
    · rw [(Prod.mk.inj heq).2]
      exact Nat.lt_succ_self _
  place := by
    intro q s hm
    rcases mem_file.mp hm with hm | heq
    · rw [shell_file_of_lt (h.bound q s hm)]
      exact h.place q s hm
    · obtain ⟨rfl, rfl⟩ := Prod.mk.inj heq
      rw [shell_file_size]

end ArenaSound

theorem openShell_reused {w : World} {e : EntryId} {target name : String} {body : List String}
    {s : ShellId} (h : w.openShell? (w.entry e).key name = some s) :
    w.openShell e target name body = (w, s, true) := by
  unfold openShell
  dsimp only
  rw [h]

/-- The element that a shell with a target is bound to. -/
def targetElement (w : World) (e : EntryId) (target : String) : NodeId :=
  (w.document.elementById? target).getD (w.entry e).element

theorem openShell_new {w : World} {e : EntryId} {target name : String} {body : List String}
    (h : w.openShell? (w.entry e).key name = none) :
    w.openShell e target name body =
      (w.file { name, entry := (w.entry e).key, target, element := w.targetElement e target,
                segments := body },
        w.shells.size, false) := by
  unfold openShell
  dsimp only
  rw [h]
  rfl

theorem detachShell_eq {w : World} {key name : String} {s : ShellId}
    (h : w.openShell? key name = some s) :
    w.detachShell key name = some (w.unfile (key, name), s) := by
  unfold detachShell
  rw [h]
  rfl

end World

end PageMacro
