import PageMacro.Proofs.Runs

/-!
# What every run keeps

`World.Sound` is what the merges rely on between runs: the arena is a map, no store
has a write later than its revision, and the verbs change variables by writes only.

Inside a run there are closes that are not merged yet. `Underway` says what keeps
them mergeable: such a shell is not filed any more, so nobody can enter it again,
and it is not the active scope, so its variables stay as they were when it was
closed; and the revision that the close remembers is not ahead of the entry.

`AtHome` says where an execution stands: on an entry and in a shell that exist, and
the shell belongs to that entry. `World.Grows` is what those rely on who wait:
nothing they stand on goes away or changes its owner or its body, and a shell that is
not filed is never filed again.
-/

namespace PageMacro

/-- What holds of the shared state between any two segments. -/
structure World.Sound (w : World) : Prop where
  /-- The list of open shells is a map. -/
  arena : w.ArenaSound
  /-- No entry has a write later than its revision. -/
  stores : ∀ e, (w.entry e).vars.Sound
  /-- Verbs change variables by writes only. -/
  verbs : w.verbs.Lawful
  /-- Entries that are filed exist. -/
  table : ∀ key e, (key, e) ∈ w.table → e < w.entries.size

/-- What a world keeps for those who wait. -/
structure World.Grows (w w' : World) : Prop where
  /-- Entries stay. -/
  entries : w.entries.size ≤ w'.entries.size
  /-- Shells stay. -/
  shells : w.shells.size ≤ w'.shells.size
  /-- Entries keep their keys. -/
  keys : ∀ e, e < w.entries.size → (w'.entry e).key = (w.entry e).key
  /-- Shells keep their owners. -/
  owners : ∀ s, s < w.shells.size → (w'.shell s).entry = (w.shell s).entry
  /-- Shells keep their bodies. -/
  bodies : ∀ s, s < w.shells.size → (w'.shell s).segments = (w.shell s).segments
  /-- A shell that is not filed is never filed again. -/
  unfiled : ∀ s, s < w.shells.size → w'.Filed s → w.Filed s

/-- An execution stands on an entry and in a shell that exist, and the shell is the entry's. -/
structure Execution.AtHome (x : Execution) (w : World) : Prop where
  /-- Its entry and its shell exist. -/
  placed : x.Placed w
  /-- The shell belongs to the entry. -/
  owner : ∀ s, x.shell = some s → (w.shell s).entry = (w.entry x.entry).key

namespace World.Grows

theorem refl (w : World) : w.Grows w :=
  ⟨Nat.le_refl _, Nat.le_refl _, fun _ _ => rfl, fun _ _ => rfl, fun _ _ => rfl, fun _ _ h => h⟩

theorem trans {w w' w'' : World} (h : w.Grows w') (h' : w'.Grows w'') : w.Grows w'' where
  entries := Nat.le_trans h.entries h'.entries
  shells := Nat.le_trans h.shells h'.shells
  keys := fun e he => (h'.keys e (Nat.lt_of_lt_of_le he h.entries)).trans (h.keys e he)
  owners := fun s hs => (h'.owners s (Nat.lt_of_lt_of_le hs h.shells)).trans (h.owners s hs)
  bodies := fun s hs => (h'.bodies s (Nat.lt_of_lt_of_le hs h.shells)).trans (h.bodies s hs)
  unfiled := fun s hs hf => h.unfiled s hs (h'.unfiled s (Nat.lt_of_lt_of_le hs h.shells) hf)

theorem placed {w w' : World} (h : w.Grows w') {x : Execution} (hp : x.Placed w) : x.Placed w' :=
  ⟨Nat.lt_of_lt_of_le hp.entry h.entries, fun s hs => Nat.lt_of_lt_of_le (hp.shell s hs) h.shells⟩

theorem atHome {w w' : World} (h : w.Grows w') {x : Execution} (hx : x.AtHome w) :
    x.AtHome w' where
  placed := h.placed hx.placed
  owner := fun s hs => by
    rw [h.owners s (hx.placed.shell s hs), h.keys _ hx.placed.entry]
    exact hx.owner s hs

theorem unfile (w : World) (place : String × String) : w.Grows (w.unfile place) :=
  ⟨Nat.le_refl _, Nat.le_refl _, fun _ _ => rfl, fun _ _ => rfl, fun _ _ => rfl,
    fun _ _ ⟨q, hm⟩ => ⟨q, (World.mem_unfile.mp hm).1⟩⟩

theorem file (w : World) (shell : Shell) : w.Grows (w.file shell) := by
  refine ⟨Nat.le_refl _, by rw [World.shells_size_file]; exact Nat.le_succ _, fun _ _ => rfl,
    fun s hs => by rw [World.shell_file_of_lt hs], fun s hs => by rw [World.shell_file_of_lt hs],
    ?_⟩
  rintro s hs ⟨place, hm⟩
  rcases World.mem_file.mp hm with hm | heq
  · exact ⟨place, hm⟩
  · exact absurd (Prod.mk.inj heq).2 (Nat.ne_of_lt hs)

end World.Grows

namespace Execution

/-- What holds of an execution inside a run. -/
structure Underway (x : Execution) (w : World) : Prop where
  /-- It is running. -/
  running : x.state = .running
  /-- It is at home. -/
  home : x.AtHome w
  /-- A pending close is of a shell that exists. -/
  exist : ∀ p ∈ x.closing, p.shell < w.shells.size
  /-- It is not filed. -/
  unfiled : ∀ p ∈ x.closing, ¬ w.Filed p.shell
  /-- It is not the active scope. -/
  inactive : ∀ p ∈ x.closing, x.shell ≠ some p.shell
  /-- Its mark is not ahead of the entry. -/
  marks : ∀ p ∈ x.closing, p.mark ≤ (w.entry x.entry).vars.revision

theorem Underway.placed {x : Execution} {w : World} (h : x.Underway w) : x.Placed w := h.home.placed

theorem underway_of_atHome {x : Execution} {w : World} (hx : x.AtHome w) (hs : x.state = .running)
    (hc : x.closing = []) : x.Underway w := by
  refine ⟨hs, hx, ?_, ?_, ?_, ?_⟩ <;> intro p hm <;> rw [hc] at hm <;> simp at hm

/-! ## Patches -/

theorem filed_patch {x : Execution} {w : World} (p : Patch) {s : ShellId} :
    (x.patch w p).Filed s ↔ w.Filed s := by
  unfold World.Filed
  rw [patch_openShells]

theorem grows_patch (x : Execution) (w : World) (p : Patch) : w.Grows (x.patch w p) where
  entries := Nat.le_of_eq (patch_entries_size p).symm
  shells := Nat.le_of_eq (patch_shells_size p).symm
  keys := fun e _ => by rw [patch_entry_vars]
  owners := fun s _ => by rw [patch_shell_vars]
  bodies := fun s _ => by rw [patch_shell_vars]
  unfiled := fun _ _ hf => (filed_patch p).mp hf

theorem patch_entry_of_ne {x : Execution} {w : World} {e : EntryId} (h : e ≠ x.entry) (p : Patch) :
    (x.patch w p).entry e = w.entry e := by
  cases hx : x.shell with
  | some s => exact patch_entry_of_shell hx p e
  | none =>
      unfold patch modifyVars World.modifyEntryVars World.entry
      rw [hx]
      dsimp only
      rw [Array.getElem?_modify, if_neg (Ne.symm h)]

/-- The variables of an entry after a patch are those before, after some writes. -/
theorem patch_becomes {x : Execution} {w : World} {p : Patch} (hp : x.Placed w)
    (hb : (x.vars w).Becomes p.vars) (e : EntryId) :
    (w.entry e).vars.Becomes ((x.patch w p).entry e).vars := by
  cases hx : x.shell with
  | some s =>
      rw [patch_entry_of_shell hx]
      exact Store.Becomes.refl _
  | none =>
      by_cases he : e = x.entry
      · have hvars := vars_patch hp p
        unfold vars at hvars hb
        rw [hx] at hvars hb
        dsimp only at hvars hb
        rw [he, hvars]
        exact hb
      · rw [patch_entry_of_ne he]
        exact Store.Becomes.refl _

theorem sound_patch {x : Execution} {w : World} {p : Patch} (hw : w.Sound) (hp : x.Placed w)
    (hb : (x.vars w).Becomes p.vars) : (x.patch w p).Sound where
  arena := arenaSound_patch hw.arena p
  stores := fun e => (patch_becomes hp hb e).sound (hw.stores e)
  verbs := by rw [patch_verbs]; exact hw.verbs
  table := by rw [patch_table, patch_entries_size]; exact hw.table

theorem becomes_mergeAll (w : World) (pending : List PendingClose) :
    ∀ vars : Store, vars.Becomes (mergeAll w pending vars) := by
  induction pending with
  | nil => exact Store.Becomes.refl
  | cons p rest ih => exact fun vars => (Store.becomes_mergeSince vars _ p.mark).trans (ih _)

theorem dueMerged_becomes {x : Execution} {w : World} (hout : x.shell = none) (name : String)
    (log : List Record) : (x.vars w).Becomes (x.dueMerged w name log).vars := by
  unfold vars
  rw [hout]
  exact becomes_mergeAll w _ _

/-! ## Steps -/

/-- What holds of every stage of a run. -/
structure StageSound (r : Stepped) : Prop where
  world : r.1.Sound
  underway : r.2.1.Underway r.1
  verdict : r.2.2.Lawful

/-- Pending closes stay mergeable while the world grows and the scope is none of their shells. -/
theorem underway_of_subset {x y : Execution} {w w' : World} (hx : x.Underway w) (hg : w.Grows w')
    (hy : y.AtHome w') (hstate : y.state = x.state) (hentry : y.entry = x.entry)
    (hrev : (w.entry x.entry).vars.revision ≤ (w'.entry x.entry).vars.revision)
    (hsub : ∀ p ∈ y.closing, p ∈ x.closing) (hact : ∀ p ∈ y.closing, y.shell ≠ some p.shell) :
    y.Underway w' where
  running := hstate.trans hx.running
  home := hy
  exist := fun p hm => Nat.lt_of_lt_of_le (hx.exist p (hsub p hm)) hg.shells
  unfiled := fun p hm hf => hx.unfiled p (hsub p hm) (hg.unfiled _ (hx.exist p (hsub p hm)) hf)
  inactive := hact
  marks := fun p hm => hentry ▸ Nat.le_trans (hx.marks p (hsub p hm)) hrev

/-- A step keeps the execution at home: it stays where it is, leaves, or enters a shell that is
filed under its entry's key. -/
theorem atHome_step {x : Execution} {w : World} {segment : String} {r : Stepped}
    (ha : w.ArenaSound) (hx : x.AtHome w) (h : Goes x w segment r) : r.2.1.AtHome r.1 := by
  refine ⟨(arenaSound_step ha hx.placed h).2, ?_⟩
  cases h with
  | patches p c v => exact ((grows_patch x w p).atHome hx).owner
  | closes s name =>
      intro t ht
      dsimp only at ht
      split at ht
      · simp at ht
      · exact hx.owner t ht
  | enters target name s log hopen hout hfind =>
      intro t ht
      obtain rfl : s = t := Option.some.inj ht
      -- it was found under the key of the entry, and a place says who owns the shell
      have hg := grows_patch x w (x.dueMerged w name log)
      have hfiled := World.filed_of_openShell? hfind
      show ((x.patch w (x.dueMerged w name log)).shell s).entry =
        ((x.patch w (x.dueMerged w name log)).entry x.entry).key
      rw [hg.owners s (ha.bound _ s hfiled), hg.keys _ hx.placed.entry]
      exact (congrArg Prod.fst (ha.place _ s hfiled)).symm
  | makes target name log hopen hout hfree =>
      intro t ht
      obtain rfl : w.shells.size = t := Option.some.inj ht
      have hnew := World.shell_file_size (x.patch w (x.dueMerged w name log))
        (x.newShell w target name)
      rw [patch_shells_size] at hnew
      rw [hnew]
      exact ((grows_patch x w (x.dueMerged w name log)).keys _ hx.placed.entry).symm

/-- **A step keeps the world and the execution sound.** -/
theorem stageSound_step {x : Execution} {w : World} {segment : String} {r : Stepped}
    (hw : w.Sound) (hx : x.Underway w) (h : Goes x w segment r) : StageSound r ∧ w.Grows r.1 := by
  have hhome := atHome_step hw.arena hx.home h
  cases h with
  | patches p c v hopen hclose hlaw =>
      obtain ⟨hb, hv⟩ := hlaw hw.verbs
      have hg := grows_patch x w p
      refine ⟨⟨sound_patch hw hx.placed hb, ?_, hv⟩, hg⟩
      exact underway_of_subset hx hg hhome rfl rfl (patch_becomes hx.placed hb _).1
        (fun _ hm => hm) hx.inactive
  | closes s name hclose hname hfind =>
      have hg := World.Grows.unfile w ((w.entry x.entry).key, name)
      have hs := World.filed_of_openShell? hfind
      refine ⟨⟨⟨hw.arena.unfile _, hw.stores, hw.verbs, hw.table⟩, ?_, trivial⟩, hg⟩
      -- the old closes as before, and the shell that has just been taken off
      refine ⟨hx.running, hhome, ?_, ?_, ?_, ?_⟩ <;> intro p hm <;>
        rcases List.mem_append.mp hm with hm | hm
      · exact hx.exist p hm
      · rw [List.mem_singleton.mp hm]
        exact hw.arena.bound _ s hs
      · exact fun hf => hx.unfiled p hm (hg.unfiled _ (hx.exist p hm) hf)
      · rw [List.mem_singleton.mp hm]
        rintro ⟨place, hf⟩
        exact hw.arena.ne_of_mem_unfile hfind hf rfl
      · dsimp only
        split
        · simp
        · exact hx.inactive p hm
      · rw [List.mem_singleton.mp hm]
        dsimp only
        split
        · simp
        · assumption
      · exact hx.marks p hm
      · rw [List.mem_singleton.mp hm]
        exact Nat.le_refl _
  | enters target name s log hopen hout hfind =>
      have hb := dueMerged_becomes (w := w) hout name log
      have hg := grows_patch x w (x.dueMerged w name log)
      refine ⟨⟨sound_patch hw hx.placed hb, ?_, trivial⟩, hg⟩
      refine underway_of_subset hx hg hhome rfl rfl (patch_becomes hx.placed hb _).1
        (fun _ hm => (List.mem_filter.mp hm).1) fun p hm heq => ?_
      -- what can be entered is filed, and no pending close is
      rw [Option.some.inj heq] at hfind
      exact hx.unfiled p (List.mem_filter.mp hm).1 ⟨_, World.filed_of_openShell? hfind⟩
  | makes target name log hopen hout hfree =>
      have hb := dueMerged_becomes (w := w) hout name log
      have hpatch := sound_patch hw hx.placed hb
      have harena := (arenaSound_step hw.arena hx.placed
        (Goes.makes target name log hopen hout hfree)).1
      have hg := (grows_patch x w (x.dueMerged w name log)).trans
        (World.Grows.file _ (x.newShell w target name))
      refine ⟨⟨⟨harena, hpatch.stores, hpatch.verbs, hpatch.table⟩, ?_, trivial⟩, hg⟩
      refine underway_of_subset hx hg hhome rfl rfl (patch_becomes hx.placed hb _).1
        (fun _ hm => (List.mem_filter.mp hm).1) fun p hm heq => ?_
      -- the new shell is none of those that exist
      have hlt := hx.exist p (List.mem_filter.mp hm).1
      rw [← Option.some.inj heq] at hlt
      exact Nat.lt_irrefl _ hlt

/-- A step keeps the entry of the execution, and the number of entries. -/
theorem entry_step {x : Execution} {w : World} {segment : String} {r : Stepped}
    (h : Goes x w segment r) :
    r.2.1.entry = x.entry ∧ r.1.entries.size = w.entries.size := by
  cases h with
  | patches p c v => exact ⟨rfl, patch_entries_size p⟩
  | closes t name => exact ⟨rfl, rfl⟩
  | enters target name t log => exact ⟨rfl, patch_entries_size _⟩
  | makes target name log => exact ⟨rfl, patch_entries_size (x := x) _⟩

theorem underway_advance {x : Execution} {w : World} (h : x.Underway w) : x.advance.Underway w :=
  ⟨h.running, ⟨⟨h.placed.entry, h.placed.shell⟩, h.home.owner⟩, h.exist, h.unfiled, h.inactive,
    h.marks⟩

/-- **So does every chain of steps.** -/
theorem stageSound_steps {trace : List Moment} {r₀ r : Stepped} (h : Steps trace r₀ r) :
    StageSound r₀ → StageSound r ∧ r₀.1.Grows r.1 := by
  induction h with
  | nil r => exact fun hr => ⟨hr, World.Grows.refl _⟩
  | cons hseg rest ih =>
      intro hr
      have hx := underway_advance hr.underway
      obtain ⟨hstep, hg⟩ := stageSound_step hr.world hx (step_goes hx.placed _)
      obtain ⟨hlast, hg'⟩ := ih hstep
      exact ⟨hlast, hg.trans hg'⟩

/-- A chain through a moment, cut in two there. -/
theorem steps_split {before after : List Moment} {μ : Moment} {r₀ r : Stepped}
    (h : Steps (before ++ μ :: after) r₀ r) :
    ∃ x, Steps before r₀ (μ.world, x, .next) ∧ μ.exec = x.advance ∧ Steps after μ.after r := by
  induction before generalizing r₀ with
  | nil =>
      cases h with
      | cons hseg rest => exact ⟨_, .nil _, rfl, rest⟩
  | cons first before ih =>
      cases h with
      | cons hseg rest =>
          obtain ⟨x, hbefore, hexec, hafter⟩ := ih rest
          exact ⟨x, .cons hseg hbefore, hexec, hafter⟩

/-- The last stage of a chain is the first one, or what the last moment left behind. -/
theorem steps_last {trace : List Moment} {r₀ r : Stepped} (hsteps : Steps trace r₀ r) :
    trace = [] ∧ r = r₀ ∨ ∃ before μ, trace = before ++ [μ] ∧ r = μ.after := by
  induction hsteps with
  | nil r => exact Or.inl ⟨rfl, rfl⟩
  | @cons w x segment trace r hseg rest ih =>
      refine Or.inr ?_
      rcases ih with ⟨rfl, rfl⟩ | ⟨before, μ, rfl, rfl⟩
      · exact ⟨[], _, rfl, rfl⟩
      · exact ⟨_ :: before, μ, rfl, rfl⟩

/-- The moments of a chain determine where it leads. -/
theorem steps_unique {trace : List Moment} {r₀ r r' : Stepped} (h : Steps trace r₀ r)
    (h' : Steps trace r₀ r') : r = r' := by
  rcases steps_last h with ⟨hnil, rfl⟩ | ⟨before, μ, htrace, rfl⟩
  · rcases steps_last h' with ⟨-, rfl⟩ | ⟨before', μ', htrace', -⟩
    · rfl
    · rw [hnil] at htrace'
      simp at htrace'
  · rcases steps_last h' with ⟨hnil, -⟩ | ⟨before', μ', htrace', rfl⟩
    · rw [hnil] at htrace
      simp at htrace
    · have hlast := congrArg List.getLast? (htrace.symm.trans htrace')
      rw [List.getLast?_concat, List.getLast?_concat] at hlast
      rw [Option.some.inj hlast]

/-! ## Halts -/

/-- What holds of an execution between runs: nothing is pending, and what it waits for is lawful. -/
def Rested (x : Execution) (w : World) : Prop :=
  x.state = .suspended →
    x.AtHome w ∧ x.closing = [] ∧ ∀ wait, x.wait = some wait → wait.result.Lawful

theorem rested_grows {x : Execution} {w w' : World} (h : x.Rested w) (hg : w.Grows w') :
    x.Rested w' :=
  fun hs => ⟨hg.atHome (h hs).1, (h hs).2⟩

/-- A commit merges everything that is pending. -/
theorem commitAll_eq {x : Execution} {w : World} (h : x.entry < w.entries.size) :
    ∃ log, x.commitAll w =
      (x.outside.patch w ⟨w.document, mergeAll w x.closing (w.entry x.entry).vars, log⟩,
        { x with closing := [] }) := by
  obtain ⟨log, hlog⟩ := commit_eq x x.closing h
  have hall : x.closing.filter (fun _ => true) = x.closing := by simp
  have hnone : x.closing.filter (fun _ => !true) = [] := by simp
  refine ⟨log, ?_⟩
  unfold commitAll commitWhere
  rw [hall, hnone]
  dsimp only
  rw [hlog]

/-- The world that a halt leaves behind: that of the last stage, with everything merged. -/
def haltPatch (r : Stepped) (log : List Record) : Patch :=
  ⟨r.1.document, mergeAll r.1 r.2.1.closing (r.1.entry r.2.1.entry).vars, log⟩

/-- **A halt merges everything that is pending**, whatever the verdict, unless the program ends. -/
theorem halt_eq {r : Stepped} (h : r.2.1.entry < r.1.entries.size) (hlive : r.2.2 ≠ .crash) :
    ∃ log, (halt r).1 = r.2.1.outside.patch r.1 (haltPatch r log) ∧ (halt r).2.closing = [] ∧
      (halt r).2.entry = r.2.1.entry ∧ (halt r).2.shell = r.2.1.shell ∧
      ((halt r).2.state = .suspended →
        ∃ wait, r.2.2 = .await wait ∧ (halt r).2.wait = some wait) := by
  obtain ⟨w, x, verdict⟩ := r
  obtain ⟨log, hlog⟩ := commitAll_eq h
  refine ⟨log, ?_⟩
  cases verdict with
  | next =>
      unfold halt finish
      dsimp only
      rw [hlog]
      exact ⟨rfl, rfl, rfl, rfl, fun hs => by simp at hs⟩
  | abandon f =>
      unfold halt finish
      dsimp only
      rw [hlog]
      exact ⟨rfl, rfl, rfl, rfl, fun hs => by simp at hs⟩
  | await wait =>
      unfold halt suspend
      dsimp only
      rw [hlog]
      exact ⟨rfl, rfl, rfl, rfl, fun _ => ⟨wait, rfl, rfl⟩⟩
  | crash => exact absurd rfl hlive

/-- Where the program ends, the last stage is what is left behind. -/
theorem halt_of_crash {r : Stepped} (h : r.2.2 = .crash) : halt r = (r.1, r.2.1) := by
  obtain ⟨w, x, verdict⟩ := r
  obtain rfl : verdict = .crash := h
  rfl

/-- **A halt writes the entry at most**, and the execution stays where it is. -/
theorem halt_patch {r : Stepped} (h : r.2.1.entry < r.1.entries.size) :
    ∃ merged log, (halt r).1 = r.2.1.outside.patch r.1 ⟨r.1.document, merged, log⟩ ∧
      (r.1.entry r.2.1.entry).vars.Becomes merged ∧
      (halt r).2.entry = r.2.1.entry ∧ (halt r).2.shell = r.2.1.shell := by
  by_cases hcrash : r.2.2 = .crash
  · rw [halt_of_crash hcrash]
    exact ⟨_, [], (patch_self (x := r.2.1.outside)).symm, Store.Becomes.refl _, rfl, rfl⟩
  · obtain ⟨log, hworld, -, hentry, hshell, -⟩ := halt_eq h hcrash
    exact ⟨_, log, hworld, becomes_mergeAll _ _ _, hentry, hshell⟩

/-- **The program has ended** in a run if the last segment says so, and only then. -/
theorem crashed_halt {r : Stepped} (hs : r.2.1.state = .running) :
    (halt r).2.crashed = true ↔ r.2.2 = .crash := by
  obtain ⟨w, x, verdict⟩ := r
  cases verdict with
  | next => simp [halt, finish, crashed]
  | abandon f => simp [halt, finish, crashed]
  | await wait => simp [halt, suspend, crashed]
  | crash => exact iff_of_true (decide_eq_true hs) rfl

/-- **A halt leaves a sound world**, and the execution at rest. -/
theorem sound_halt {r : Stepped} (h : StageSound r) :
    (halt r).1.Sound ∧ r.1.Grows (halt r).1 ∧ (halt r).2.Rested (halt r).1 := by
  have hplaced := h.underway.placed
  obtain ⟨merged, log, hworld, hbecomes, hentry, hshell⟩ := halt_patch hplaced.entry
  have hg : r.1.Grows (halt r).1 := hworld ▸ grows_patch _ _ _
  refine ⟨?_, hg, fun hs => ?_⟩
  · rw [hworld]
    exact sound_patch h.world (outside_placed hplaced.entry) hbecomes
  · have hlive : r.2.2 ≠ .crash := by
      intro hcrash
      rw [halt_of_crash hcrash, h.underway.running] at hs
      simp at hs
    obtain ⟨-, -, hclosing, -, -, hwait⟩ := halt_eq hplaced.entry hlive
    refine ⟨?_, hclosing, ?_⟩
    · have := hg.atHome h.underway.home
      refine ⟨⟨hentry ▸ this.placed.entry, hshell ▸ this.placed.shell⟩, fun s hs => ?_⟩
      rw [hentry]
      exact this.owner s (hshell ▸ hs)
    · -- it waits for what the last verdict said
      obtain ⟨wait, hverdict, hw⟩ := hwait hs
      intro wait' hw'
      obtain rfl : wait = wait' := Option.some.inj (hw.symm.trans hw')
      have := h.verdict
      rw [hverdict] at this
      exact this

/-! ## Whole runs -/

/-- The program does not end in a run. -/
def Survives (w : World) (x : Execution) : Prop := (run w x).2.crashed = false

instance (w : World) (x : Execution) : Decidable (Survives w x) :=
  inferInstanceAs (Decidable ((run w x).2.crashed = false))

/-- **A run that the program survives** goes to a halt. -/
theorem runs_of_survives {w : World} {x : Execution} (hstage : StageSound (w, x, .next))
    (hlive : Survives w x) : Runs (trace w x) w x (run w x) := by
  obtain ⟨last, hsteps, hstop, hhalt, -⟩ := stops_run hstage.world.arena hstage.underway.placed
  refine ⟨last, hsteps, hstop, fun hcrash => ?_, hhalt⟩
  have hcrashed := (crashed_halt (stageSound_steps hsteps hstage).1.underway.running).mpr hcrash
  rw [hhalt, hlive] at hcrashed
  simp at hcrashed

/-- **What a run comes to**: its steps lead to a sound stage, and there the entry is written at
most. -/
theorem run_patch {w : World} {x : Execution} (hstage : StageSound (w, x, .next)) :
    ∃ last merged log, Steps (trace w x) (w, x, .next) last ∧ StageSound last ∧
      halt last = run w x ∧
      (run w x).1 = last.2.1.outside.patch last.1 ⟨last.1.document, merged, log⟩ ∧
      (run w x).2.entry = last.2.1.entry := by
  obtain ⟨last, hsteps, -, hhalt, -⟩ := stops_run hstage.world.arena hstage.underway.placed
  have hlast := (stageSound_steps hsteps hstage).1
  obtain ⟨merged, log, hworld, -, hentry, -⟩ := halt_patch hlast.underway.placed.entry
  rw [hhalt] at hworld hentry
  exact ⟨last, merged, log, hsteps, hlast, hhalt, hworld, hentry⟩

/-- **A run keeps everything sound.** -/
theorem sound_run {w : World} {x : Execution} (hw : w.Sound) (hx : x.AtHome w)
    (hs : x.state = .running) (hc : x.closing = []) :
    (run w x).1.Sound ∧ w.Grows (run w x).1 ∧ (run w x).2.Rested (run w x).1 := by
  obtain ⟨last, hsteps, -, hhalt, -⟩ := stops_run hw.arena hx.placed
  obtain ⟨hlast, hg⟩ := stageSound_steps hsteps ⟨hw, underway_of_atHome hx hs hc, trivial⟩
  obtain ⟨h1, h2, h3⟩ := sound_halt hlast
  rw [hhalt] at h1 h2 h3
  exact ⟨h1, hg.trans h2, h3⟩

end Execution

end PageMacro
