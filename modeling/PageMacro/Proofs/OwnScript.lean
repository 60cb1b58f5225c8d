import PageMacro.Proofs.History
import PageMacro.Proofs.Isolation

/-!
# Where the segments come from

An execution should only step segments of the script it was started on. When an entry
gets another script its open shells are dropped, so that a run of the new script does
not find the body of an old one. But an execution that was suspended at the time still
has the old script, and goes on with it: it may open a shell afterwards. That shell is
filed under the key of the entry with a body of the old script, and the next run that
opens a shell of that name steps this body.

What always holds is that a segment comes from *some* script that an execution of an
entry with the same key was started on. And it is the execution's own script as long as
no execution opens a shell while another script is registered in place of the one it
was started on.

Both are about two sets of segments: those that the executions of a key may have, and
those that the open shells under the key may have. An open makes the one into the other,
in either direction, so where there is an open the two have to be the same (`Confined`).
-/

namespace PageMacro

open Execution

namespace Execution

/-! ## Inside a run -/

/-- The segments of an execution are of one kind, and the bodies of its entry's open shells of
another. -/
structure Confined (x : Execution) (w : World) (own shared : String → Prop) : Prop where
  segments : ∀ segment ∈ x.segments, own segment
  bodies : ∀ name s, (((w.entry x.entry).key, name), s) ∈ w.openShells →
    ∀ segment ∈ (w.shell s).segments, shared segment

section Confined

variable {x : Execution} {w : World} {own shared : String → Prop}

theorem Confined.patch (hx : x.Confined w own shared) (p : Patch) :
    x.Confined (x.patch w p) own shared := by
  refine ⟨hx.segments, fun name s hs => ?_⟩
  rw [patch_entry_vars, patch_openShells] at hs
  rw [patch_shell_vars]
  exact hx.bodies name s hs

/-- **A step confines what it was confined to**, if both kinds are the same where it opens. -/
theorem confined_step {segment : String} {r : Stepped} (ha : w.ArenaSound)
    (hx : x.Confined w own shared) (h : Goes x w segment r)
    (hopen : x.opens? segment ≠ none → own = shared) : r.2.1.Confined r.1 own shared := by
  cases h with
  | patches p c v => exact ⟨hx.segments, (hx.patch p).bodies⟩
  | closes s name =>
      exact ⟨hx.segments, fun other t ht => hx.bodies other t (World.mem_unfile.mp ht).1⟩
  | enters target name s log ho hout hfind =>
      -- the body of a shell becomes the execution's
      have hsame : own = shared := hopen (by rw [ho]; simp)
      refine ⟨fun seg hseg => ?_, (hx.patch _).bodies⟩
      rw [hsame]
      exact hx.bodies name s (World.filed_of_openShell? hfind) seg hseg
  | makes target name log ho hout hfree =>
      -- the rest of the execution's segments becomes the body of a shell
      have hsame : own = shared := hopen (by rw [ho]; simp)
      have hrest : ∀ seg ∈ x.segments.drop x.pos, own seg :=
        fun seg hseg => hx.segments seg (List.mem_of_mem_drop hseg)
      refine ⟨hrest, fun other t ht => ?_⟩
      have hpatch := hx.patch (x.dueMerged w name log)
      have hfile := World.shell_file_size (x.patch w (x.dueMerged w name log))
        (x.newShell w target name)
      rcases World.mem_file.mp ht with ht | heq
      · have hlt := (arenaSound_patch (x := x) ha (x.dueMerged w name log)).bound _ t ht
        rw [World.shell_file_of_lt hlt]
        exact hpatch.bodies other t ht
      · rw [(Prod.mk.inj heq).2, hfile]
        exact fun seg hseg => hsame ▸ hrest seg hseg

end Confined

/-- **So does a chain of steps**, and all it steps is the execution's own. -/
theorem confined_steps {trace : List Moment} {r₀ r : Stepped} {own shared : String → Prop}
    (hsteps : Steps trace r₀ r) : StageSound r₀ → r₀.2.1.Confined r₀.1 own shared →
      (∀ μ ∈ trace, μ.opens? ≠ none → own = shared) →
      r.2.1.Confined r.1 own shared ∧ ∀ μ ∈ trace, own μ.segment := by
  induction hsteps with
  | nil r => exact fun _ hx _ => ⟨hx, fun μ hμ => by simp at hμ⟩
  | @cons w x segment trace r hseg rest ih =>
      intro hr hx hopen
      have hw : w.Sound := hr.world
      have hadv : x.advance.Underway w := underway_advance hr.underway
      have hgoes := step_goes hadv.placed segment
      have hown : own segment := hx.segments segment (List.mem_of_getElem? hseg)
      have hx' : x.advance.Confined w own shared := ⟨hx.segments, hx.bodies⟩
      have hopen' : x.advance.opens? segment ≠ none → own = shared :=
        hopen ⟨w, x.advance, segment⟩ List.mem_cons_self
      have hnext := confined_step hw.arena hx' hgoes hopen'
      obtain ⟨hlast, hrest⟩ := ih (stageSound_step hw hadv hgoes).1 hnext
        fun μ hμ => hopen μ (List.mem_cons_of_mem _ hμ)
      refine ⟨hlast, fun μ hμ => ?_⟩
      rcases List.mem_cons.mp hμ with rfl | hμ
      · exact hown
      · exact hrest μ hμ

/-- **So does a run.** -/
theorem confined_run {w : World} {x : Execution} {own shared : String → Prop}
    (hstage : StageSound (w, x, .next)) (hx : x.Confined w own shared)
    (hopen : ∀ μ ∈ trace w x, μ.opens? ≠ none → own = shared) :
    (run w x).2.Confined (run w x).1 own shared ∧ ∀ μ ∈ trace w x, own μ.segment := by
  obtain ⟨last, _, _, hsteps, hsound, hhalt, hworld, hsame⟩ := run_patch hstage
  obtain ⟨hlast, hown⟩ := confined_steps hsteps hstage hx hopen
  refine ⟨⟨?_, fun name s hs => ?_⟩, hown⟩
  · rw [← hhalt, halt_exec last hsound.underway.placed.entry]
    unfold haltExec
    split <;> exact hlast.segments
  · rw [hworld, hsame, patch_openShells, patch_entry_vars] at hs
    rw [hworld, patch_shell_vars]
    exact hlast.bodies name s hs

end Execution

/-! ## Registered scripts -/

namespace World

/-- The script that is registered under a key. -/
def text? (w : World) (key : String) : Option String :=
  (w.lookup? key).map fun e => (w.entry e).script

theorem text_of_scripts {w w' : World} (htable : w'.table = w.table)
    (hscripts : ∀ e, (w'.entry e).script = (w.entry e).script) (key : String) :
    w'.text? key = w.text? key := by
  unfold text? lookup?
  rw [htable]
  simp only [hscripts]

/-- Every entry is filed under its own key. -/
def Keyed (w : World) : Prop := ∀ key e, w.lookup? key = some e → (w.entry e).key = key

theorem keyed_of_table {w w' : World} (hw : w.Sound) (h : w.Keyed) (hg : w.Grows w')
    (htable : w'.table = w.table) : w'.Keyed := by
  intro key e he
  have he' : w.lookup? key = some e := by
    unfold lookup? at he ⊢
    rw [← htable]
    exact he
  rw [hg.keys e (hw.table key e (mem_of_lookup he'))]
  exact h key e he'

section FileEntry

variable (w : World) (key script : String) (element : NodeId)

theorem fileEntry_entries :
    (w.fileEntry key script element).entries = w.entries.push { key, script, element } := by
  unfold fileEntry
  dsimp only
  split <;> rfl

theorem fileEntry_openShells :
    (w.fileEntry key script element).openShells = (w.dropShells key).openShells := by
  unfold fileEntry
  dsimp only
  split <;> rfl

theorem fileEntry_table :
    (w.fileEntry key script element).table = putField key w.entries.size w.table := by
  unfold fileEntry
  dsimp only
  split <;> rfl

theorem lookup_fileEntry (other : String) : (w.fileEntry key script element).lookup? other =
    if other = key then some w.entries.size else w.lookup? other := by
  unfold lookup?
  rw [fileEntry_table, lookup_putField]

theorem entry_fileEntry_size :
    (w.fileEntry key script element).entry w.entries.size = { key, script, element } := by
  unfold World.entry
  rw [fileEntry_entries, Array.getElem?_push_size]
  rfl

theorem entry_fileEntry_of_lt {e : EntryId} (h : e < w.entries.size) :
    (w.fileEntry key script element).entry e = w.entry e := by
  unfold World.entry
  rw [fileEntry_entries, Array.getElem?_push_lt h, Array.getElem?_eq_getElem h]

end FileEntry

theorem not_mem_dropShells (w : World) (key name : String) (s : ShellId) :
    ((key, name), s) ∉ (w.dropShells key).openShells := by
  intro hm
  have hkept := (List.mem_filter.mp hm).2
  simp at hkept

theorem Registers.keyed {w w' : World} {element : NodeId} {place : String} {generated : Nat}
    (hw : w.Sound) (hk : w.Keyed) (h : w.Registers element place generated w') : w'.Keyed := by
  cases h with
  | known e => exact hk
  | changed e => exact fun other i hi => (key_script w e _ i).trans (hk other i hi)
  | filed hother =>
      intro other i hi
      rw [lookup_fileEntry] at hi
      split at hi
      · rename_i hkey
        rw [← Option.some.inj hi, entry_fileEntry_size, hkey]
      · have hlt : i < w.entries.size := hw.table other i (mem_of_lookup hi)
        rw [entry_fileEntry_of_lt { w with generated } _ _ _ hlt]
        exact hk other i hi

/-- **A registration that changes the script under a key** drops the shells under the key. -/
theorem Registers.text_or_dropped {w w' : World} {element : NodeId} {place : String}
    {generated : Nat} (hw : w.Sound) (hk : w.Keyed) (h : w.Registers element place generated w')
    (key : String) :
    w'.text? key = w.text? key ∨ ∀ name s, ((key, name), s) ∉ w'.openShells := by
  cases h with
  | known e => exact .inl rfl
  | changed e hfind =>
      by_cases hkey : key = place
      · exact .inr (hkey ▸ not_mem_dropShells w place)
      · refine .inl (Option.map_congr fun i hi => ?_)
        -- another key has another entry
        have hne : e ≠ i := by
          rintro rfl
          exact hkey ((hk key e hi).symm.trans (hk place e hfind))
        unfold World.entry
        dsimp only
        rw [Array.getElem?_modify, if_neg hne]
  | filed hother =>
      by_cases hkey : key = place
      · refine .inr fun name s => ?_
        rw [fileEntry_openShells, hkey]
        exact not_mem_dropShells _ place name s
      · refine .inl ?_
        unfold text?
        rw [lookup_fileEntry, if_neg hkey]
        refine Option.map_congr fun i hi => ?_
        have hlt : i < w.entries.size := hw.table key i (mem_of_lookup hi)
        rw [entry_fileEntry_of_lt { w with generated } _ _ _ hlt]
        rfl

theorem lookup_remove (w : World) (key other : String) :
    (w.remove key).lookup? other = if other = key then none else w.lookup? other := by
  unfold remove
  split
  · rename_i hnone
    split
    · rename_i hkey
      rw [hkey, hnone]
    · rfl
  · exact lookup_eraseField key other w.table

theorem remove_text_or_dropped (w : World) (place key : String) :
    (w.remove place).text? key = w.text? key ∨
      ∀ name s, ((key, name), s) ∉ (w.remove place).openShells := by
  have hentry : ∀ e, (w.remove place).entry e = w.entry e := fun e => by
    unfold remove
    split <;> rfl
  by_cases hkey : key = place
  · subst hkey
    unfold remove
    split
    · exact .inl rfl
    · exact .inr (not_mem_dropShells w key)
  · refine .inl ?_
    unfold text?
    rw [lookup_remove, if_neg hkey]
    simp only [hentry]

end World

namespace Machine

/-- A run registers nothing. -/
theorem scripts_of_running {m : Machine} (hm : m.Sound) {h : Happening} {i : Nat} {w : World}
    {x : Execution} (hrun : m.running? h = some (i, w, x)) :
    (m.after h).world.table = m.world.table ∧
      ∀ e, ((m.after h).world.entry e).script = (m.world.entry e).script := by
  have hstretch := stretch_of_running hrun
  have hsame := (beside_of_setsOff (setsOff_of_running hrun).1).toSameFiling.trans
    (sameFiling_run (hstretch.begins hm).1)
  rw [hstretch.world_eq]
  exact ⟨hsame.table, fun e => by rw [hsame.entries]⟩

theorem keyed_after {m : Machine} (hm : m.Sound) (hk : m.world.Keyed) (h : Happening) :
    (m.after h).world.Keyed := by
  have hgrows := (sound_step hm (step_after m h)).2
  cases hrun : m.running? h with
  | some r => exact World.keyed_of_table hm.world hk hgrows (scripts_of_running hm hrun).1
  | none =>
      rcases beside_after hm hrun with ⟨naming, element, rfl⟩ | ⟨key, rfl⟩ | hbeside
      · obtain ⟨_, _, -, -, hregisters⟩ := m.world.registers naming element
        exact hregisters.keyed hm.world hk
      · intro other e he
        have hold : m.world.lookup? other = some e := by
          rw [show (m.after (.remove key)).world = m.world.remove key from rfl,
            World.lookup_remove] at he
          split at he
          · simp at he
          · exact he
        rw [hgrows.keys e (hm.world.table other e (mem_of_lookup hold))]
        exact hk other e hold
      · exact World.keyed_of_table hm.world hk hgrows hbeside.table

/-- **In every machine that can be reached** entries are filed under their own keys. -/
theorem keyed_reachable {m : Machine} (hm : m.Reachable) : m.world.Keyed := by
  refine hm.induction (P := fun m => m.world.Keyed) ?_
    (fun m h hm ih => keyed_after (sound_reachable hm) ih h) fun _ _ ih => ih
  exact fun _ _ _ _ key e he => by simp [init, World.lookup?] at he

/-- **A key whose script changes** has no open shells afterwards. -/
theorem text_or_dropped {m : Machine} (hm : m.Reachable) (h : Happening) (key : String) :
    (m.after h).world.text? key = m.world.text? key ∨
      m.setsOff? h = none ∧ ∀ name s, ((key, name), s) ∉ (m.after h).world.openShells := by
  have hsound := sound_reachable hm
  have hkeyed := keyed_reachable hm
  cases hrun : m.running? h with
  | some r =>
      obtain ⟨htable, hscripts⟩ := scripts_of_running hsound hrun
      exact .inl (World.text_of_scripts htable hscripts key)
  | none =>
      rcases beside_after hsound hrun with ⟨naming, element, rfl⟩ | ⟨place, rfl⟩ | hbeside
      · obtain ⟨_, _, -, -, hregisters⟩ := m.world.registers naming element
        exact (hregisters.text_or_dropped hsound.world hkeyed key).imp_right fun hnone => ⟨rfl, hnone⟩
      · exact (m.world.remove_text_or_dropped place key).imp_right fun hnone => ⟨rfl, hnone⟩
      · exact .inl (World.text_of_scripts hbeside.table
          (fun e => by rw [hbeside.entries]) key)

/-! ## Between runs -/

/-- For a key: the bodies of its open shells are of one kind, and the segments of each of its
suspended executions of another. -/
structure Attributed (m : Machine) (key : String) (own : Nat → String → Prop)
    (shared : String → Prop) : Prop where
  bodies : ∀ name s, ((key, name), s) ∈ m.world.openShells →
    ∀ segment ∈ (m.world.shell s).segments, shared segment
  segments : ∀ (i : Nat) (x : Execution), m.executions[i]? = some x → x.state = .suspended →
    (m.world.entry x.entry).key = key → ∀ segment ∈ x.segments, own i segment

section Attributed

variable {m : Machine} {key : String} {own own' : Nat → String → Prop}
  {shared shared' : String → Prop} {h : Happening}

/-- Who is suspended afterwards has been so before, or has run. -/
theorem Attributed.spared (hm : m.Sound) (ha : m.Attributed key own shared)
    (hown : ∀ i < m.executions.size, ∀ segment, own i segment → own' i segment)
    {i : Nat} {y : Execution} (hidle : ∀ r ∈ m.running? h, r.1 ≠ i)
    (hy : (m.after h).executions[i]? = some y) (hs : y.state = .suspended)
    (hkey : ((m.after h).world.entry y.entry).key = key) :
    ∀ segment ∈ y.segments, own' i segment := by
  have hfate := fate_after m i h
  rw [hy] at hfate
  generalize hleaves : some y = leaves at hfate
  cases hfate with
  | spared =>
      have hhome := (hm.rested y (Array.mem_of_getElem? hleaves.symm) hs).1
      rw [(sound_step hm (step_after m h)).2.keys _ hhome.placed.entry] at hkey
      intro segment hsegment
      exact hown i (Array.getElem?_eq_some_iff.mp hleaves.symm).1 segment
        (ha.segments i y hleaves.symm hs hkey segment hsegment)
  | starts hi hx hlive => exact absurd hi.symm (hidle _ (running_start hx hlive))
  | refused hi hx =>
      rw [Option.some.inj hleaves] at hs
      simp [refused, gaveUp] at hs
  | resumes hx hs' hwait hdesk hlive =>
      exact absurd rfl (hidle _ (running_settle hx hs' hwait hdesk hlive))
  | rejected hx hs' | interrupted hx hs' =>
      rw [Option.some.inj hleaves] at hs
      simp [failWait, finish] at hs

/-- A happening in which the key does not run. -/
theorem attributed_elsewhere (hm : m.Sound) (ha : m.Attributed key own shared)
    (hown : ∀ i < m.executions.size, ∀ segment, own i segment → own' i segment)
    (hshared : (∀ segment, shared segment → shared' segment) ∨
      ∀ name s, ((key, name), s) ∉ (m.after h).world.openShells)
    (hother : ∀ r ∈ m.running? h, (r.2.1.entry r.2.2.entry).key ≠ key) :
    (m.after h).Attributed key own' shared' := by
  have hgrows := (sound_step hm (step_after m h)).2
  refine ⟨fun name s hs segment hsegment => ?_, fun i y hy hs hkey => ?_⟩
  · have hbefore := filed_after hm hother name s hs
    rw [hgrows.bodies s (hm.world.arena.bound _ s hbefore)] at hsegment
    rcases hshared with hshared | hnone
    · exact hshared segment (ha.bodies name s hbefore segment hsegment)
    · exact absurd hs (hnone name s)
  · refine ha.spared hm hown (fun r hr heq => ?_) hy hs hkey
    -- it would have run under its own key
    obtain ⟨j, w, x⟩ := r
    obtain rfl : j = i := heq
    have hstretch := stretch_of_running hr
    rw [executions_of_running hr] at hy
    rw [← Option.some.inj hy, hstretch.world_eq, key_run (hstretch.begins hm).1] at hkey
    exact hother _ hr hkey

/-- A run of the key begins confined to the two kinds. -/
theorem Attributed.confined (hm : m.Sound) (ha : m.Attributed key own shared)
    (hown : ∀ i < m.executions.size, ∀ segment, own i segment → own' i segment)
    (hshared : ∀ segment, shared segment → shared' segment) {i : Nat} {w : World} {x : Execution}
    (hrun : m.setsOff? h = some (i, w, x)) (hkey : (w.entry x.entry).key = key)
    (hstart : i = m.executions.size → ∀ segment ∈ x.segments, own' i segment) :
    x.Confined w (own' i) shared' := by
  have hbeside := beside_of_setsOff hrun
  refine ⟨?_, fun name s hs segment hsegment => ?_⟩
  · rcases setsOff_cases hrun with ⟨_, _, -, hi, -⟩ | ⟨answer, y, wait, v, -, hy, hs, -, -, rfl⟩
    · exact hstart hi
    · rw [hbeside.entries] at hkey
      intro segment hsegment
      exact hown i (Array.getElem?_eq_some_iff.mp hy).1 segment
        (ha.segments i y hy hs hkey segment hsegment)
  · rw [hkey, hbeside.openShells] at hs
    rw [(begins_of_setsOff hm hrun).grows.bodies s (hm.world.arena.bound _ s hs)] at hsegment
    exact hshared segment (ha.bodies name s hs segment hsegment)

/-- What a run of the key leaves behind, if the program survives it. -/
theorem attributed_run (hm : m.Sound) (ha : m.Attributed key own shared)
    (hown : ∀ i < m.executions.size, ∀ segment, own i segment → own' i segment) {i : Nat}
    {w : World} {x : Execution} (hrun : m.running? h = some (i, w, x))
    (hkey : (w.entry x.entry).key = key) (hx : x.Confined w (own' i) shared')
    (hopen : ∀ μ ∈ trace w x, μ.opens? ≠ none → own' i = shared') :
    (m.after h).Attributed key own' shared' := by
  have hstretch := stretch_of_running hrun
  have hstage := (hstretch.begins hm).stage
  have hlast := (confined_run hstage hx hopen).1
  have hkey' := (key_run hstage).trans hkey
  refine ⟨fun name s hs => ?_, fun j y hy hs hyKey => ?_⟩
  · rw [hstretch.world_eq, ← hkey'] at hs
    rw [hstretch.world_eq]
    exact hlast.bodies name s hs
  · by_cases hji : j = i
    · subst hji
      rw [executions_of_running hrun] at hy
      rw [← Option.some.inj hy]
      exact hlast.segments
    · refine ha.spared hm hown (fun r hr heq => ?_) hy hs hyKey
      rw [hrun] at hr
      rw [← Option.some.inj hr] at heq
      exact hji heq.symm

/-- **What a happening keeps**, if both kinds are the same where a run of the key opens. What such a
run steps is of the execution's kind, even if the program does not survive it. -/
theorem attributed_after (hm : m.Sound) (ha : m.Attributed key own shared)
    (hown : ∀ i < m.executions.size, ∀ segment, own i segment → own' i segment)
    (hshared : (∀ segment, shared segment → shared' segment) ∨
      m.setsOff? h = none ∧ ∀ name s, ((key, name), s) ∉ (m.after h).world.openShells)
    (hstart : ∀ i w x, m.setsOff? h = some (i, w, x) → (w.entry x.entry).key = key →
      i = m.executions.size → ∀ segment ∈ x.segments, own' i segment)
    (hopen : ∀ i w x, m.setsOff? h = some (i, w, x) → (w.entry x.entry).key = key →
      ∀ μ ∈ trace w x, μ.opens? ≠ none → own' i = shared') :
    (m.after h).Attributed key own' shared' ∧
      ∀ i w x, m.setsOff? h = some (i, w, x) → (w.entry x.entry).key = key →
        ∀ μ ∈ trace w x, own' i μ.segment := by
  have hconfined : ∀ {i w x}, m.setsOff? h = some (i, w, x) → (w.entry x.entry).key = key →
      x.Confined w (own' i) shared' := by
    intro i w x hset hkey
    refine ha.confined hm hown ?_ hset hkey (hstart i w x hset hkey)
    rcases hshared with hshared | ⟨hnone, -⟩
    · exact hshared
    · rw [hset] at hnone
      simp at hnone
  refine ⟨?_, fun i w x hset hkey => ?_⟩
  · by_cases hruns : ∃ i w x, m.running? h = some (i, w, x) ∧ (w.entry x.entry).key = key
    · obtain ⟨i, w, x, hrun, hkey⟩ := hruns
      have hset := (setsOff_of_running hrun).1
      exact attributed_run hm ha hown hrun hkey (hconfined hset hkey) (hopen i w x hset hkey)
    · refine attributed_elsewhere hm ha hown (hshared.imp_right And.right) fun r hr hkey => ?_
      exact hruns ⟨r.1, r.2.1, r.2.2, hr, hkey⟩
  · exact (confined_run (begins_of_setsOff hm hset).stage (hconfined hset hkey)
      (hopen i w x hset hkey)).2

end Attributed

theorem executions_size_turn (m : Machine) (h : Happening) : (m.turn h).executions.size =
    match h with
    | .start _ _ => m.executions.size + 1
    | _ => m.executions.size := by
  have hupdate : ∀ i f, (m.update i f).executions.size = m.executions.size := by
    intro i f
    unfold update
    split
    · exact Array.size_setIfInBounds
    · rfl
  cases h with
  | start key context => exact Array.size_push _
  | settle i answer => exact hupdate i _
  | interrupt i why => exact hupdate i _
  | control | register | remove | load | verbs | host => rfl

end Machine

/-! ## Chronicles -/

/-- The key and the script of the entry that a key starts. -/
def World.startedOn (w : World) (key : String) : String × String :=
  match w.lookup? key with
  | some e => ((w.entry e).key, (w.entry e).script)
  | none => ("", "")

theorem World.startedOn_of_ofKey {w : World} {key : String} {context : Nat} {x : Execution}
    (h : ofKey? w key context = some x) :
    w.startedOn key = ((w.entry x.entry).key, (w.entry x.entry).script) ∧
      x.segments = Segment.split (w.entry x.entry).script := by
  unfold ofKey? at h
  unfold startedOn
  split at h
  · simp at h
  · rename_i e he
    dsimp only at h
    split at h
    · simp at h
    · rw [he, ← Option.some.inj h]
      exact ⟨rfl, rfl⟩

/-- A machine, and for each execution the key and the script that its entry had when it was
started. -/
structure Chronicle where
  machine : Machine
  texts : Array (String × String) := #[]

namespace Chronicle

open Machine

/-- What is on record while a happening goes on. -/
def during (c : Chronicle) (h : Happening) : Chronicle where
  machine := c.machine.after h
  texts :=
    match h with
    | .start key _ => c.texts.push (c.machine.world.startedOn key)
    | _ => c.texts

/-- The chronicle after a happening. -/
def after (c : Chronicle) (h : Happening) : Chronicle :=
  if c.machine.fatal h then c else c.during h

/-- The chronicle after a history. -/
def afterAll (c : Chronicle) (history : List Happening) : Chronicle := history.foldl after c

/-- The chronicle of a page on which nothing has happened. -/
def blank (document : Document) (scriptAttr : String) (verbs : Registry) : Chronicle :=
  { machine := Machine.init document scriptAttr verbs }

/-- A segment of a script that some execution of a key was started on. -/
def Known (c : Chronicle) (key : String) (segment : String) : Prop :=
  ∃ text, (key, text) ∈ c.texts ∧ segment ∈ Segment.split text

/-- A segment of the script that one execution of a key was started on. -/
def Own (c : Chronicle) (key : String) (i : Nat) (segment : String) : Prop :=
  ∃ text, c.texts[i]? = some (key, text) ∧ segment ∈ Segment.split text

/-- A segment of the script that is registered under a key. -/
def Current (c : Chronicle) (key : String) (segment : String) : Prop :=
  ∃ text, c.machine.world.text? key = some text ∧ segment ∈ Segment.split text

/-- A happening in time: whoever opens a shell under a key has been started on the script that is
registered under the key. -/
def InTime (c : Chronicle) (key : String) (h : Happening) : Prop :=
  ∀ r ∈ c.machine.setsOff? h, (r.2.1.entry r.2.2.entry).key = key →
    (∃ μ ∈ trace r.2.1 r.2.2, μ.opens? ≠ none) →
      (c.during h).texts[r.1]? = (c.machine.world.text? key).map (Prod.mk key)

/-- A history in time. -/
def Timely (c : Chronicle) (key : String) : List Happening → Prop
  | [] => True
  | h :: history => c.InTime key h ∧ (c.after h).Timely key history

instance (c : Chronicle) (key : String) (h : Happening) : Decidable (c.InTime key h) :=
  inferInstanceAs (Decidable (∀ r ∈ c.machine.setsOff? h, _))

instance decidableTimely (key : String) : (c : Chronicle) → (history : List Happening) →
    Decidable (c.Timely key history)
  | _, [] => isTrue trivial
  | c, h :: history =>
    have := decidableTimely key (c.after h) history
    inferInstanceAs (Decidable (c.InTime key h ∧ (c.after h).Timely key history))

/-- What goes along every chronicle. -/
structure Recorded (c : Chronicle) (key : String) : Prop where
  machine : c.machine.Reachable
  size : c.texts.size = c.machine.executions.size
  known : c.machine.Attributed key (fun _ => c.Known key) (c.Known key)

section Steps

variable {c : Chronicle} {key : String} {h : Happening}

theorem after_of_fatal (hfatal : c.machine.fatal h = true) : c.after h = c := if_pos hfatal

theorem after_of_survives (hlive : c.machine.fatal h = false) : c.after h = c.during h := by
  unfold after
  rw [hlive]
  rfl

theorem size_after (hsize : c.texts.size = c.machine.executions.size) (h : Happening) :
    (c.after h).texts.size = (c.after h).machine.executions.size := by
  cases hfatal : c.machine.fatal h with
  | true => rw [after_of_fatal hfatal, hsize]
  | false =>
      rw [after_of_survives hfatal]
      show _ = (c.machine.after h).executions.size
      rw [Machine.after_of_survives hfatal, executions_size_turn, ← hsize]
      cases h with
      | start place context => exact Array.size_push _
      | settle | interrupt | control | register | remove | load | verbs | host => rfl

/-- What is on record stays there. -/
theorem texts_during {i : Nat} {pair : String × String} (hi : c.texts[i]? = some pair)
    (h : Happening) : (c.during h).texts[i]? = some pair := by
  cases h with
  | start place context =>
      have hlt := (Array.getElem?_eq_some_iff.mp hi).1
      show (c.texts.push _)[i]? = _
      rw [Array.getElem?_push_lt hlt, ← Array.getElem?_eq_getElem hlt]
      exact hi
  | settle | interrupt | control | register | remove | load | verbs | host => exact hi

theorem known_during {segment : String} (hk : c.Known key segment) (h : Happening) :
    (c.during h).Known key segment := by
  obtain ⟨text, hm, hsegment⟩ := hk
  obtain ⟨i, hi⟩ := Array.mem_iff_getElem?.mp hm
  exact ⟨text, Array.mem_of_getElem? (texts_during hi h), hsegment⟩

theorem own_during {i : Nat} {segment : String} (ho : c.Own key i segment) (h : Happening) :
    (c.during h).Own key i segment := by
  obtain ⟨text, hi, hsegment⟩ := ho
  exact ⟨text, texts_during hi h, hsegment⟩

/-- **A new execution has the segments of the script on record.** -/
theorem own_of_start (hsize : c.texts.size = c.machine.executions.size) {i : Nat} {w : World}
    {x : Execution} (hrun : c.machine.setsOff? h = some (i, w, x))
    (hkey : (w.entry x.entry).key = key) (hi : i = c.machine.executions.size) :
    ∀ segment ∈ x.segments, (c.during h).Own key i segment := by
  rcases setsOff_cases hrun with ⟨place, context, rfl, -, hx, rfl⟩ | ⟨_, y, _, _, -, hy, -⟩
  · obtain ⟨hstarted, hsegments⟩ := World.startedOn_of_ofKey hx
    intro segment hsegment
    refine ⟨_, ?_, hsegments ▸ hsegment⟩
    show (c.texts.push (c.machine.world.startedOn place))[i]? = _
    rw [hi, ← hsize, Array.getElem?_push_size, hstarted, ← hkey]
    rfl
  · rw [hi] at hy
    simp at hy

theorem known_of_own {i : Nat} {segment : String} (ho : c.Own key i segment) :
    c.Known key segment := by
  obtain ⟨text, hi, hsegment⟩ := ho
  exact ⟨text, Array.mem_of_getElem? hi, hsegment⟩

/-- **A happening keeps the record**, and what is stepped in it is on record under its key. -/
theorem recorded_after (hc : c.Recorded key) (h : Happening) :
    (c.after h).Recorded key ∧
      ∀ i w x, c.machine.setsOff? h = some (i, w, x) → (w.entry x.entry).key = key →
        ∀ μ ∈ trace w x, (c.during h).Known key μ.segment := by
  have hboth : (c.during h).machine.Attributed key (fun _ => (c.during h).Known key)
        ((c.during h).Known key) ∧
      ∀ i w x, c.machine.setsOff? h = some (i, w, x) → (w.entry x.entry).key = key →
        ∀ μ ∈ trace w x, (c.during h).Known key μ.segment :=
    attributed_after (sound_reachable hc.machine) hc.known
      (fun _ _ _ hk => known_during hk h) (.inl fun _ hk => known_during hk h)
      (fun i w x hrun hkey hi segment hsegment =>
        known_of_own (own_of_start hc.size hrun hkey hi segment hsegment))
      (fun _ _ _ _ _ _ _ _ => rfl)
  refine ⟨?_, hboth.2⟩
  cases hfatal : c.machine.fatal h with
  | true => rw [after_of_fatal hfatal]; exact hc
  | false =>
      have hsize := size_after hc.size h
      rw [after_of_survives hfatal] at hsize ⊢
      exact ⟨hc.machine.after h, hsize, hboth.1⟩

/-- **A happening keeps executions to their own scripts** if shells are opened in time. -/
theorem own_after_inTime (hc : c.Recorded key)
    (ho : c.machine.Attributed key (c.Own key) (c.Current key)) (htime : c.InTime key h) :
    (c.after h).machine.Attributed key ((c.after h).Own key) ((c.after h).Current key) ∧
      ∀ i w x, c.machine.setsOff? h = some (i, w, x) → (w.entry x.entry).key = key →
        ∀ μ ∈ trace w x, (c.during h).Own key i μ.segment := by
  have htext := text_or_dropped hc.machine h key
  have hboth : (c.during h).machine.Attributed key ((c.during h).Own key)
        ((c.during h).Current key) ∧
      ∀ i w x, c.machine.setsOff? h = some (i, w, x) → (w.entry x.entry).key = key →
        ∀ μ ∈ trace w x, (c.during h).Own key i μ.segment := by
    refine attributed_after (sound_reachable hc.machine) ho (fun _ _ _ hown => own_during hown h)
      (htext.imp_left fun hsame segment hcurrent => ?_)
      (fun i w x hrun hkey hi => own_of_start hc.size hrun hkey hi)
      fun i w x hrun hkey μ hμ hopens => ?_
    · obtain ⟨text, hregistered, hsegment⟩ := hcurrent
      exact ⟨text, hsame.trans hregistered, hsegment⟩
    · -- the script on record is the one registered under the key, and a run registers nothing
      have hsame : (c.during h).machine.world.text? key = c.machine.world.text? key := by
        rcases htext with hsame | ⟨hnone, -⟩
        · exact hsame
        · rw [hrun] at hnone
          simp at hnone
      have hrecord := htime _ hrun hkey ⟨μ, hμ, hopens⟩
      funext segment
      unfold Own Current
      rw [hrecord, hsame]
      simp
  refine ⟨?_, hboth.2⟩
  cases hfatal : c.machine.fatal h with
  | true => rw [after_of_fatal hfatal]; exact ho
  | false => rw [after_of_survives hfatal]; exact hboth.1

end Steps

/-! ## Whole histories -/

theorem timely_append {c : Chronicle} {key : String} {history more : List Happening} :
    c.Timely key (history ++ more) ↔
      c.Timely key history ∧ (c.afterAll history).Timely key more := by
  induction history generalizing c with
  | nil => exact ⟨fun h => ⟨trivial, h⟩, fun h => h.2⟩
  | cons h history ih =>
      rw [List.cons_append, Timely, Timely, ih, and_assoc]
      rfl

theorem recorded_blank {verbs : Registry} (hv : verbs.Lawful) (document : Document)
    (scriptAttr key : String) : (blank document scriptAttr verbs).Recorded key :=
  ⟨⟨document, scriptAttr, verbs, hv, .refl _⟩, rfl, fun name s hs => by simp [blank, init] at hs,
    fun i x hx => by simp [blank, init] at hx⟩

theorem recorded_afterAll {c : Chronicle} {key : String} (hc : c.Recorded key)
    (history : List Happening) : (c.afterAll history).Recorded key := by
  induction history generalizing c with
  | nil => exact hc
  | cons h history ih => exact ih (recorded_after hc h).1

theorem own_afterAll {c : Chronicle} {key : String} {history : List Happening}
    (hc : c.Recorded key) (ho : c.machine.Attributed key (c.Own key) (c.Current key))
    (htimely : c.Timely key history) :
    (c.afterAll history).machine.Attributed key ((c.afterAll history).Own key)
      ((c.afterAll history).Current key) := by
  induction history generalizing c with
  | nil => exact ho
  | cons h history ih =>
      exact ih (recorded_after hc h).1 (own_after_inTime hc ho htimely.1).1 htimely.2

/-- **Where the segments come from.** Whatever happens to a page, a segment that an execution steps
is one of a script that some execution of an entry with the same key was started on. And if whoever
opens a shell under that key does so while the script it was started on is registered, it is one of
the script that the execution itself was started on. -/
theorem segments_attributed {verbs : Registry} (hv : verbs.Lawful) (document : Document)
    (scriptAttr : String) (history : List Happening) (h : Happening) {i : Nat} {w : World}
    {x : Execution}
    (hrun : ((blank document scriptAttr verbs).afterAll history).machine.setsOff? h =
      some (i, w, x)) :
    let start := blank document scriptAttr verbs
    let key := (w.entry x.entry).key
    (∀ μ ∈ trace w x, ((start.afterAll history).during h).Known key μ.segment) ∧
      (start.Timely key (history ++ [h]) →
        ∀ μ ∈ trace w x, ((start.afterAll history).during h).Own key i μ.segment) := by
  intro start key
  have hstart : start.Recorded key := recorded_blank hv document scriptAttr key
  have hrecorded := recorded_afterAll hstart history
  refine ⟨(recorded_after hrecorded h).2 i w x hrun rfl, fun htimely => ?_⟩
  obtain ⟨hhistory, hlast, -⟩ := timely_append.mp htimely
  have hblank : start.machine.Attributed key (start.Own key) (start.Current key) :=
    ⟨fun name s hs => by simp [start, blank, init] at hs,
      fun j y hy => by simp [start, blank, init] at hy⟩
  exact (own_after_inTime hrecorded (own_afterAll hstart hblank hhistory) hlast).2 i w x hrun rfl

/-- The chronicle of a page with one element and a script. -/
def ofScript (script : String) : Chronicle :=
  blank (page script waiting).world.document "inline" waiting

/-- The element is registered and its script is started. -/
def opening : List Happening := [.register .numbered ⟨1⟩, .start "p" 0]

/-- The element gets another script and is registered again, and then what the execution waits for
comes. -/
def rewriting (script : String) : List Happening :=
  [.host (page script waiting).world.document none 0 [], .register .numbered ⟨1⟩,
    .settle 0 (.ok .undefined)]

/-- Where the script stays the same, the shell is opened in time. -/
theorem opened_in_time :
    ∃ w x, ((ofScript "wait:w |+T:s |&x:one").afterAll opening).machine.setsOff?
        (.settle 0 (.ok .undefined)) = some (0, w, x) ∧
      (trace w x).map (·.segment) = ["+T:s", "&x:one"] ∧
      ∀ μ ∈ trace w x, (((ofScript "wait:w |+T:s |&x:one").afterAll opening).during
        (.settle 0 (.ok .undefined))).Own "p" 0 μ.segment := by
  obtain ⟨⟨i, w, x⟩, hrun, rfl, hkey, htimely, hsegments⟩ :
      ∃ r ∈ ((ofScript "wait:w |+T:s |&x:one").afterAll opening).machine.setsOff?
          (.settle 0 (.ok .undefined)),
        r.1 = 0 ∧ (r.2.1.entry r.2.2.entry).key = "p" ∧
        (ofScript "wait:w |+T:s |&x:one").Timely "p"
          (opening ++ [.settle 0 (.ok .undefined)]) ∧
        (trace r.2.1 r.2.2).map (·.segment) = ["+T:s", "&x:one"] := by
    decide +kernel
  have hown := (segments_attributed waiting_lawful _ "inline" opening _ hrun).2
  dsimp only at hkey hown
  rw [hkey] at hown
  exact ⟨w, x, hrun, hsegments, hown htimely⟩

/-- **An execution can step what was never in its script.** The old execution opens a shell after
the element has got another script, and the run of the new script finds it. -/
theorem stale_body_is_stepped :
    ¬ ∀ (document : Document) (scriptAttr : String) (verbs : Registry) (history : List Happening)
        (h : Happening) (i : Nat) (w : World) (x : Execution), verbs.Lawful →
      ((blank document scriptAttr verbs).afterAll history).machine.setsOff? h = some (i, w, x) →
      ∀ μ ∈ trace w x, (((blank document scriptAttr verbs).afterAll history).during h).Own
        (w.entry x.entry).key i μ.segment := by
  intro hall
  obtain ⟨⟨i, w, x⟩, hrun, ⟨μ, hμ, hsegment⟩, htext⟩ :
      ∃ r ∈ ((ofScript "wait:w |+T:s |&x:one").afterAll
          (opening ++ rewriting "+T:s |&y:two |-s")).machine.setsOff? (.start "p" 0),
        (∃ μ ∈ trace r.2.1 r.2.2, μ.segment = "&x:one") ∧
        ((((ofScript "wait:w |+T:s |&x:one").afterAll
          (opening ++ rewriting "+T:s |&y:two |-s")).during (.start "p" 0)).texts[r.1]?).map
            (Segment.split ·.2) = some ["+T:s", "&y:two", "-s"] := by
    decide +kernel
  have hown : (((ofScript "wait:w |+T:s |&x:one").afterAll
      (opening ++ rewriting "+T:s |&y:two |-s")).during (.start "p" 0)).Own (w.entry x.entry).key i
        μ.segment := hall _ _ _ _ _ i w x waiting_lawful hrun μ hμ
  -- from here on only the text on record matters
  generalize (((ofScript "wait:w |+T:s |&x:one").afterAll
    (opening ++ rewriting "+T:s |&y:two |-s")).during (.start "p" 0)) = c at htext hown
  obtain ⟨text, hi, hmem⟩ := hown
  dsimp only at htext
  rw [hi] at htext
  have hsplit : Segment.split text = ["+T:s", "&y:two", "-s"] := Option.some.inj htext
  rw [hsplit, hsegment] at hmem
  simp at hmem

end Chronicle

end PageMacro
