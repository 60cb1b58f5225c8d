import PageMacro.Proofs.LastWrite

/-!
# Closing the shell one is in

An execution that closes the shell it is in should be back in its entry, and what
the shell held should get to the entry with the next merge.

A close looks for a shell by its name, not for the one that the execution is in. Two
executions of an entry may share a shell, and the first to close it takes it off the
list. The other one is still inside, and its own close finds nothing, or another
shell of that name that was opened since. Such an execution stays where it is, and
as a shell that is not filed is never filed again, what it writes there is lost.

So it all depends on whether the shell is still filed; and then on the contest for
each of its names.
-/

namespace PageMacro

theorem latest_append (start : Option Value) (events later : List Event) :
    latest start (events ++ later) = latest (latest start events) later :=
  List.foldl_append

namespace Moment

open Execution

/-! ## One close -/

section OwnClose

variable {μ : Moment} {s : ShellId}

/-- A close of the shell one is in finds it if it is filed. -/
theorem closes_own_iff_filed (ha : μ.world.ArenaSound) (hx : μ.exec.AtHome μ.world)
    (hin : μ.exec.shell = some s)
    (hseg : Segment.ofScript? μ.segment = some (.shellClose (μ.world.shell s).name)) :
    μ.closes? = some s ↔ μ.world.Filed s := by
  rw [← ha.openShell?_eq_some_iff, hx.owner s hin]
  unfold Moment.closes? Execution.closes?
  rw [hseg]

/-- Closing the shell one is in leads back to the entry. -/
theorem shell_of_closes_own (hin : μ.exec.shell = some s) (hc : μ.closes? = some s) :
    μ.after.2.1.shell = none := by
  obtain ⟨name, -, -, heq⟩ := step_close hc
  unfold Moment.after
  rw [heq]
  exact if_pos hin

/-- A close that does not find the shell one is in changes nothing about that. -/
theorem shell_of_not_closes_own (hp : μ.exec.Placed μ.world) (hin : μ.exec.shell = some s)
    (hc : μ.closes? ≠ some s) : μ.after.2.1.shell = some s := by
  have hgoes : Goes μ.exec μ.world μ.segment μ.after := step_goes hp μ.segment
  obtain ⟨r, hr⟩ : ∃ r, r = μ.after := ⟨_, rfl⟩
  rw [← hr] at hgoes ⊢
  cases hgoes with
  | patches p c v => exact hin
  | closes t name hclose =>
      have hne : μ.exec.shell ≠ some t := fun h => hc (hclose.trans (h.symm.trans hin))
      exact (if_neg hne).trans hin
  | enters target name t log hopen hout => rw [hin] at hout; simp at hout
  | makes target name log hopen hout => rw [hin] at hout; simp at hout

end OwnClose

/-- A moment that neither closes a shell nor has a close of it pending. -/
def Forgets (s : ShellId) (μ : Moment) : Prop :=
  μ.closes? ≠ some s ∧ ∀ p ∈ μ.exec.closing, p.shell ≠ s

/-- A shell that is not filed is not closed. -/
theorem not_closes_of_unfiled {μ : Moment} {s : ShellId} (hnot : ¬ μ.world.Filed s) :
    μ.closes? ≠ some s := by
  intro hc
  obtain ⟨name, -, hfind, -⟩ := step_close hc
  exact hnot ⟨_, World.filed_of_openShell? hfind⟩

end Moment

namespace Execution

/-! ## Shells that nobody finds -/

/-- A step that does not close a shell adds no pending close of it. -/
theorem closing_step {x : Execution} {w : World} {segment : String} {r : Stepped} {s : ShellId}
    (h : Goes x w segment r) (hc : x.closes? w segment ≠ some s)
    (hp : ∀ p ∈ x.closing, p.shell ≠ s) : ∀ p ∈ r.2.1.closing, p.shell ≠ s := by
  cases h with
  | patches p c v => exact hp
  | closes t name hclose =>
      intro p hm
      rcases List.mem_append.mp hm with hm | hm
      · exact hp p hm
      · rw [List.mem_singleton.mp hm]
        rintro rfl
        exact hc hclose
  | enters target name t log => exact fun p hm => hp p (List.mem_filter.mp hm).1
  | makes target name log => exact fun p hm => hp p (List.mem_filter.mp hm).1

/-- **A shell that is not filed is forgotten**: no chain of steps closes it. -/
theorem forgets_steps {trace : List Moment} {r₀ r : Stepped} {s : ShellId}
    (hsteps : Steps trace r₀ r) : StageSound r₀ → s < r₀.1.shells.size → ¬ r₀.1.Filed s →
      (∀ p ∈ r₀.2.1.closing, p.shell ≠ s) → ∀ μ ∈ trace, μ.Forgets s := by
  induction hsteps with
  | nil r => intro _ _ _ _ μ hm; simp at hm
  | @cons w x segment trace r hseg rest ih =>
      intro hr hs hnot hp μ hm
      have hw : w.Sound := hr.world
      have hx : x.advance.Underway w := underway_advance hr.underway
      have hgoes := step_goes hx.placed segment
      obtain ⟨hstep, hg⟩ := stageSound_step hw hx hgoes
      have hc : Moment.closes? ⟨w, x.advance, segment⟩ ≠ some s := Moment.not_closes_of_unfiled hnot
      rcases List.mem_cons.mp hm with rfl | hm
      · exact ⟨hc, hp⟩
      · exact ih hstep (Nat.lt_of_lt_of_le hs hg.shells) (fun hf => hnot (hg.unfiled s hs hf))
          (closing_step hgoes hc hp) μ hm

end Execution

namespace Machine

open Execution Contest

/-! ## Stretches -/

/-- **A shell that is not filed is forgotten for good**: no later stretch closes it. -/
theorem forgets_stretch {m m₁ m₂ : Machine} {w : World} {x : Execution} {s : ShellId}
    (hm : m.Sound) (hs : s < m.world.shells.size) (hnot : ¬ m.world.Filed s) (hl : m.Leads m₁)
    (hstretch : m₁.Stretch w x m₂) : ∀ μ ∈ trace w x, μ.Forgets s := by
  obtain ⟨hm₁, hg⟩ := sound_leads hm hl
  obtain ⟨hstage, hnone, hg₁⟩ := hstretch.begins hm₁
  obtain ⟨last, hsteps, -, -, -⟩ := stops_run hstage.world.arena hstage.underway.placed
  have hgrows := hg.trans hg₁
  refine forgets_steps hsteps hstage (Nat.lt_of_lt_of_le hs hgrows.shells)
    (fun hf => hnot (hgrows.unfiled s hs hf)) fun p hp => ?_
  rw [hnone] at hp
  simp at hp

section OwnClose

variable {m m' : Machine} {w : World} {x : Execution} {before after : List Moment} {μ : Moment}
  {s : ShellId}

/-- What was lost stays lost, in this stretch and in all later ones. -/
theorem forgets_after_own_close (hm : m.Sound) (hs : m.Stretch w x m')
    (htrace : trace w x = before ++ μ :: after) (hin : μ.exec.shell = some s)
    (hnot : ¬ μ.world.Filed s) :
    (∀ ν ∈ after, ν.Forgets s) ∧
      ∀ (m₁ m₂ : Machine) (w₁ : World) (x₁ : Execution), m'.Leads m₁ → m₁.Stretch w₁ x₁ m₂ →
        ∀ ν ∈ trace w₁ x₁, ν.Forgets s := by
  obtain ⟨hworld, hx, last, hsteps, -, hlast⟩ := hs.split hm htrace
  have hgoes : Goes μ.exec μ.world μ.segment μ.after := step_goes hx.placed μ.segment
  have hsize := hx.placed.shell s hin
  obtain ⟨hstep, hg⟩ := stageSound_step hworld hx hgoes
  -- the execution is in the shell, so no close of it can be pending
  have hclosing := closing_step hgoes (Moment.not_closes_of_unfiled hnot)
    fun p hp heq => hx.inactive p hp (heq ▸ hin)
  refine ⟨forgets_steps hsteps hstep (Nat.lt_of_lt_of_le hsize hg.shells)
    (fun hf => hnot (hg.unfiled s hsize hf)) hclosing, fun m₁ m₂ w₁ x₁ hl hstretch => ?_⟩
  obtain ⟨hend, hg'⟩ := stageSound_steps hsteps hstep
  have hgrows : μ.world.Grows m'.world := hlast ▸ (hg.trans hg').trans (sound_halt hend).2.1
  exact forgets_stretch (sound_step hm hs.step).1 (Nat.lt_of_lt_of_le hsize hgrows.shells)
    (fun hf => hnot (hgrows.unfiled s hsize hf)) hl hstretch

/-- The events of a stretch for a name that a closed shell held: the last one is the close, or one
that came later. -/
theorem latest_of_closes {name : String} {v : Value}
    (htrace : trace w x = before ++ μ :: after) (hc : μ.closes? = some s)
    (hheld : (μ.world.shell s).vars.held name = some v) (start : Option Value) :
    latest start ((trace w x).flatMap (Moment.events name)) =
      latest (some v) (after.flatMap (Moment.events name)) := by
  have hevents : Moment.events name μ = [.closed (μ.world.shell s).name v] := by
    rw [show Moment.events name μ = _ from events_closes hc, hheld]
  rw [htrace, List.flatMap_append, List.flatMap_cons, hevents, latest_append, latest_append]
  rfl

/-- **An execution that closes the shell it is in** is back in its entry, and the entry holds in the
end what the shell held or what came later, exactly if the shell was still filed and no name of it
was disputed. If the shell was not filed any more, the execution stays in it, and what it holds is
never merged, by whatever happens later. -/
theorem own_close_iff_filed_undisputed (hm : m.Reachable) (hs : m.Stretch w x m')
    (htrace : trace w x = before ++ μ :: after) (hin : μ.exec.shell = some s)
    (hseg : Segment.ofScript? μ.segment = some (.shellClose (μ.world.shell s).name)) :
    let vars := (μ.world.shell s).vars
    let final := (m'.world.entry x.entry).vars
    let start := (w.entry x.entry).vars
    let events := fun name => (trace w x).flatMap (Moment.events name)
    let later := fun name => after.flatMap (Moment.events name)
    ((μ.after.2.1.shell = none ∧ ∀ name v, vars.held name = some v →
        final.held name = latest (some v) (later name)) ↔
      (μ.world.Filed s ∧ ∀ name v, vars.held name = some v →
        (outcome (start.held name) (events name)).Undisputed)) ∧
    (μ.world.Filed s → μ.after.2.1.shell = none ∧ ∀ name v, vars.held name = some v →
      Alone { value := start.held name } (events name) →
        final.held name = latest (some v) (later name)) ∧
    (¬ μ.world.Filed s → μ.after.2.1.shell = some s ∧ (∀ ν ∈ after, ν.Forgets s) ∧
      ∀ (m₁ m₂ : Machine) (w₁ : World) (x₁ : Execution), m'.Leads m₁ → m₁.Stretch w₁ x₁ m₂ →
        ∀ ν ∈ trace w₁ x₁, ν.Forgets s) := by
  have hsound := sound_reachable hm
  obtain ⟨hworld, hx, -⟩ := hs.split hsound htrace
  have hfinds := Moment.closes_own_iff_filed hworld.arena hx.home hin hseg
  have hstays : ¬ μ.world.Filed s → μ.after.2.1.shell = some s :=
    fun hnot => Moment.shell_of_not_closes_own hx.placed hin fun hc => hnot (hfinds.mp hc)
  have hleaves : μ.world.Filed s → μ.after.2.1.shell = none :=
    fun hf => Moment.shell_of_closes_own hin (hfinds.mpr hf)
  -- for a name of the shell: the entry holds what it should exactly if nothing was disputed
  have hname : μ.world.Filed s → ∀ name v, (μ.world.shell s).vars.held name = some v →
      ((m'.world.entry x.entry).vars.held name =
          latest (some v) (after.flatMap (Moment.events name)) ↔
        (outcome ((w.entry x.entry).vars.held name)
          ((trace w x).flatMap (Moment.events name))).Undisputed) := by
    intro hf name v hheld
    rw [held_after_stretch hsound hs name, ← value_eq_latest_iff,
      latest_of_closes htrace (hfinds.mpr hf) hheld]
  dsimp only
  refine ⟨⟨fun h => ?_, fun h => ?_⟩, fun hf => ⟨hleaves hf, fun name v hheld halone => ?_⟩,
    fun hnot => ⟨hstays hnot, forgets_after_own_close hsound hs htrace hin hnot⟩⟩
  · obtain ⟨hnone, hmerged⟩ := h
    have hf : μ.world.Filed s := by
      by_contra hnot
      rw [hstays hnot] at hnone
      simp at hnone
    exact ⟨hf, fun name v hheld => (hname hf name v hheld).mp (hmerged name v hheld)⟩
  · obtain ⟨hf, hundisputed⟩ := h
    exact ⟨hleaves hf, fun name v hheld => (hname hf name v hheld).mpr (hundisputed name v hheld)⟩
  · exact (hname hf name v hheld).mpr (undisputed_of_alone halone)

end OwnClose

/-! ## Two executions in one shell -/

/-- Two executions of an entry wait in the same shell. Each will write `x`, close the shell, and
write `y`. -/
def shared : Machine :=
  ((registered (page "+T:s |wait:w |nop:x |-s |nop:y" waiting)).start "p" 0).start "p" 0

/-- The first of them has gone on. -/
def sharedLeft : Machine := shared.settle 0 (.ok (.string "one"))

theorem shared_reachable : shared.Reachable :=
  (reachable_registered _ waiting_lawful).leads
    (((Leads.refl _).step (step_start (by decide +kernel))).step (step_start (by decide +kernel)))

theorem sharedLeft_reachable : sharedLeft.Reachable :=
  shared_reachable.leads ((Leads.refl _).step (step_settle (by decide +kernel)))

/-- The first execution finds the shell it closes, and the entry holds what it wrote there. -/
theorem first_own_close_merges :
    ∃ w x before μ after v, shared.Stretch w x sharedLeft ∧
      trace w x = before ++ μ :: after ∧ μ.exec.shell = some 0 ∧ μ.after.2.1.shell = none ∧
      (μ.world.shell 0).vars.held "x" = some v ∧
      (sharedLeft.world.entry x.entry).vars.held "x" =
        latest (some v) (after.flatMap (Moment.events "x")) ∧
      textOf ((sharedLeft.world.entry x.entry).vars.held "x") = some "one" := by
  obtain ⟨⟨w, x⟩, hresumes, hlive, ⟨μ, hμ, hin, hseg, hplace, hheld⟩, halone, htext⟩ :
      ∃ r ∈ shared.resumption? 0 (.ok (.string "one")), Survives r.1 r.2 ∧
        (∃ μ ∈ trace r.1 r.2, μ.exec.shell = some 0 ∧
          Segment.ofScript? μ.segment = some (.shellClose (μ.world.shell 0).name) ∧
          (("p", "s"), 0) ∈ μ.world.openShells ∧ ((μ.world.shell 0).vars.held "x").isSome) ∧
        Alone { value := (r.1.entry r.2.entry).vars.held "x" }
          ((trace r.1 r.2).flatMap (Moment.events "x")) ∧
        textOf ((sharedLeft.world.entry r.2.entry).vars.held "x") = some "one" := by
    decide +kernel
  obtain ⟨before, after, htrace⟩ := List.append_of_mem hμ
  obtain ⟨v, hv⟩ := Option.isSome_iff_exists.mp hheld
  have hs := stretch_of_resumption hresumes hlive
  obtain ⟨-, hfound, -⟩ := own_close_iff_filed_undisputed shared_reachable hs htrace hin hseg
  obtain ⟨hnone, hmerged⟩ := hfound ⟨_, hplace⟩
  exact ⟨w, x, before, μ, after, v, hs, htrace, hin, hnone, hv, hmerged "x" v hv halone, htext⟩

/-- **An execution can close its own shell and stay in it**: the second one finds no such shell. -/
theorem own_close_can_be_lost :
    ¬ ∀ (m m' : Machine) (w : World) (x : Execution) (before after : List Moment) (μ : Moment)
        (s : ShellId),
      m.Reachable → m.Stretch w x m' → trace w x = before ++ μ :: after → μ.exec.shell = some s →
      Segment.ofScript? μ.segment = some (.shellClose (μ.world.shell s).name) →
      μ.after.2.1.shell = none ∧ ∀ name v, (μ.world.shell s).vars.held name = some v →
        (m'.world.entry x.entry).vars.held name =
          latest (some v) (after.flatMap (Moment.events name)) := by
  intro h
  obtain ⟨⟨w, x⟩, hresumes, hlive, μ, hμ, hin, hseg, hstays⟩ :
      ∃ r ∈ sharedLeft.resumption? 1 (.ok (.string "two")), Survives r.1 r.2 ∧
        ∃ μ ∈ trace r.1 r.2, μ.exec.shell = some 0 ∧
          Segment.ofScript? μ.segment = some (.shellClose (μ.world.shell 0).name) ∧
          μ.after.2.1.shell = some 0 := by
    decide +kernel
  obtain ⟨before, after, htrace⟩ := List.append_of_mem hμ
  obtain ⟨hnone, -⟩ := h sharedLeft _ w x before after μ 0 sharedLeft_reachable
    (stretch_of_resumption hresumes hlive) htrace hin hseg
  rw [hstays] at hnone
  simp at hnone

end Machine

end PageMacro
