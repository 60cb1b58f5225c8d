import Mathlib.Data.List.Chain
import PageMacro.Proofs.History
import PageMacro.Proofs.Isolation
import PageMacro.Verb.Future

/-!
# The life of an execution

An execution is idle before it is started, runs, is suspended and resumed, and comes
to an end. What holds of it inside a run is `Active`, and every segment is stepped in
this state; what holds of it between runs is `AtRest`. One goes over into the other
where a run halts, and where one is set off.

`Moves` lists the changes of stage, and `stages` the stages that an execution goes
through in a happening. An end is a call of `finish`, and `Ends` says where there is
one: once an execution has ended nothing happens to it any more, so there is no
second one.
-/

namespace PageMacro

open Execution

namespace Execution

/-! ## Inside a run -/

/-- What holds of an execution while it runs. -/
structure Active (x : Execution) : Prop where
  state : x.state = .running
  failure : x.failure = none
  wait : x.wait = none
  pos : x.pos ≤ x.segments.length

theorem active_advance {x : Execution} {segment : String} (hx : x.Active)
    (hseg : x.segments[x.pos]? = some segment) : x.advance.Active :=
  ⟨hx.state, hx.failure, hx.wait, (List.getElem?_eq_some_iff.mp hseg).1⟩

/-- A step keeps the execution running, and its position inside the segments. -/
theorem active_step {x : Execution} {w : World} {segment : String} {r : Stepped} (hx : x.Active)
    (h : Goes x w segment r) : r.2.1.Active := by
  cases h with
  | patches p c v => exact ⟨hx.state, hx.failure, hx.wait, hx.pos⟩
  | closes s name => exact ⟨hx.state, hx.failure, hx.wait, hx.pos⟩
  | enters target name s log => exact ⟨hx.state, hx.failure, hx.wait, Nat.zero_le _⟩
  | makes target name log => exact ⟨hx.state, hx.failure, hx.wait, Nat.zero_le _⟩

end Execution

namespace Moment

/-- What holds of a segment that is stepped: the execution runs, before and after, and what it works
on is the shell it is in, or else its entry. -/
structure InOrder (μ : Moment) : Prop where
  before : μ.exec.Active
  after : μ.after.2.1.Active
  /-- The entry exists, and the shell exists and belongs to it. -/
  home : μ.exec.AtHome μ.world
  /-- Inside a shell, the shell's variables are the active ones, and no entry changes. -/
  inside : ∀ s, μ.exec.shell = some s →
    μ.exec.vars μ.world = (μ.world.shell s).vars ∧ ∀ e, μ.after.1.entry e = μ.world.entry e
  /-- Outside of shells, the entry's variables are the active ones, and no shell changes. -/
  outside : μ.exec.shell = none →
    μ.exec.vars μ.world = (μ.world.entry μ.exec.entry).vars ∧
      ∀ s, s < μ.world.shells.size → μ.after.1.shell s = μ.world.shell s

theorem inOrder_of_active {μ : Moment} (hactive : μ.exec.Active) (hx : μ.exec.Underway μ.world) :
    μ.InOrder := by
  have hgoes : Goes μ.exec μ.world μ.segment μ.after := step_goes hx.placed μ.segment
  refine ⟨hactive, active_step hactive hgoes, hx.home, fun s hs => ⟨?_, ?_⟩, fun hout => ⟨?_, ?_⟩⟩
  · unfold Execution.vars
    rw [hs]
  · exact entry_step_of_shell hs hgoes
  · unfold Execution.vars
    rw [hout]
  · exact fun s hs => shell_step_of_entry hout hgoes hs

end Moment

namespace Execution

/-- **Every segment of a run is stepped in order.** -/
theorem inOrder_steps {trace : List Moment} {r₀ r : Stepped} (hsteps : Steps trace r₀ r) :
    StageSound r₀ → r₀.2.1.Active → r.2.1.Active ∧ ∀ μ ∈ trace, μ.InOrder := by
  induction hsteps with
  | nil r => exact fun _ hx => ⟨hx, fun μ hμ => by simp at hμ⟩
  | @cons w x segment trace r hseg rest ih =>
      intro hr hactive
      have hw : w.Sound := hr.world
      have hx : x.advance.Underway w := underway_advance hr.underway
      have hgoes := step_goes hx.placed segment
      have hadv : x.advance.Active := active_advance hactive hseg
      obtain ⟨hlast, hrest⟩ := ih (stageSound_step hw hx hgoes).1 (active_step hadv hgoes)
      refine ⟨hlast, fun μ hμ => ?_⟩
      rcases List.mem_cons.mp hμ with rfl | hμ
      · exact Moment.inOrder_of_active hadv hx
      · exact hrest μ hμ

/-! ## Between runs -/

/-- What holds of an execution between runs. -/
structure AtRest (x : Execution) (w : World) : Prop where
  /-- It is suspended or at its end. -/
  stage : x.state = .suspended ∨ x.Over
  /-- It has a failure exactly if it is abandoned. -/
  failure : x.failure.isSome ↔ x.state = .abandoned
  /-- It waits for something exactly if it is suspended. -/
  wait : x.wait.isSome ↔ x.state = .suspended
  pos : x.pos ≤ x.segments.length
  /-- Nothing is pending. -/
  closing : x.closing = []
  /-- It has its entry and its shell, or it never had any. -/
  home : x.AtHome w ∨ x.shell = none ∧ ∃ key, x.failure = some (.unknownEntry key)

theorem AtRest.grows {x : Execution} {w w' : World} (h : x.AtRest w) (hg : w.Grows w') :
    x.AtRest w' :=
  ⟨h.stage, h.failure, h.wait, h.pos, h.closing, h.home.imp_left hg.atHome⟩

/-- **A halt brings a run to rest.** -/
theorem atRest_halt {r : Stepped} (hr : StageSound r) (hx : r.2.1.Active) (hlive : r.2.2 ≠ .crash) :
    (halt r).2.AtRest (halt r).1 := by
  have hhome := (sound_halt hr).2.1.atHome hr.underway.home
  have hplaced := hr.underway.placed.entry
  obtain ⟨-, -, -, hentry, hshell, -⟩ := halt_eq hplaced hlive
  have hhome' : (halt r).2.AtHome (halt r).1 :=
    ⟨⟨hentry ▸ hhome.placed.entry, hshell ▸ hhome.placed.shell⟩, by
      rw [hentry, hshell]
      exact hhome.owner⟩
  rw [halt_exec r hplaced] at hhome' ⊢
  obtain ⟨w, x, verdict⟩ := r
  have hfailure : x.failure = none := hx.failure
  cases verdict with
  | next => exact ⟨.inr (.inl rfl), by simp [haltExec], by simp [haltExec], hx.pos, rfl, .inl hhome'⟩
  | abandon f =>
      exact ⟨.inr (.inr rfl), by simp [haltExec], by simp [haltExec], hx.pos, rfl, .inl hhome'⟩
  | await wait =>
      exact ⟨.inl rfl, by simp [haltExec, hfailure], by simp [haltExec], hx.pos, rfl, .inl hhome'⟩
  | crash => exact absurd rfl hlive

theorem atRest_run {w : World} {x : Execution} (hstage : StageSound (w, x, .next))
    (hx : x.Active) (hlive : Survives w x) : (run w x).2.AtRest (run w x).1 := by
  obtain ⟨last, hsteps, -, hverdict, hhalt⟩ := runs_of_survives hstage hlive
  rw [← hhalt]
  exact atRest_halt (stageSound_steps hsteps hstage).1 (inOrder_steps hsteps hstage hx).1 hverdict

/-- So does giving up. -/
theorem AtRest.gaveUp {x : Execution} {w : World} (h : x.AtRest w) (hs : x.state = .suspended)
    (failure : Failure) : (x.gaveUp failure).AtRest w := by
  have hhome : x.AtHome w := by
    rcases h.home with hhome | ⟨-, key, hfailure⟩
    · exact hhome
    · have habandoned := h.failure.mp (by rw [hfailure]; rfl)
      rw [hs] at habandoned
      simp at habandoned
  exact ⟨.inr (.inr rfl), by simp [Execution.gaveUp], by simp [Execution.gaveUp], h.pos, rfl,
    .inl ⟨⟨hhome.placed.entry, hhome.placed.shell⟩, hhome.owner⟩⟩

theorem atRest_refused (w w' : World) (key : String) (context : Nat) :
    (refused w key context).AtRest w' :=
  ⟨.inr (.inr rfl), by simp [refused, Execution.gaveUp], by simp [refused, Execution.gaveUp],
    Nat.zero_le _, rfl, .inr ⟨rfl, key, rfl⟩⟩

theorem active_ofKey {w : World} {key : String} {context : Nat} {x : Execution}
    (h : ofKey? w key context = some x) : x.Active := by
  unfold ofKey? at h
  split at h
  · simp at h
  · dsimp only at h
    split at h
    · simp at h
    · rw [← Option.some.inj h]
      exact ⟨rfl, rfl, rfl, Nat.zero_le _⟩

theorem AtRest.active_resumed {x : Execution} {w : World} (h : x.AtRest w)
    (hs : x.state = .suspended) (v : Value) : (x.resumed v).Active := by
  refine ⟨rfl, ?_, rfl, h.pos⟩
  show x.failure = none
  cases hf : x.failure with
  | none => rfl
  | some f =>
      have habandoned := h.failure.mp (by rw [hf]; rfl)
      rw [hs] at habandoned
      simp at habandoned

end Execution

namespace Machine

/-- Every execution is at rest. -/
def AllAtRest (m : Machine) : Prop := ∀ x ∈ m.executions, x.AtRest m.world

/-- What starts to run is active. -/
theorem AllAtRest.active {m : Machine} (hrest : m.AllAtRest) {h : Happening} {i : Nat} {w : World}
    {x : Execution} (hrun : m.setsOff? h = some (i, w, x)) : x.Active := by
  rcases setsOff_cases hrun with ⟨key, context, -, -, hx, -⟩ |
    ⟨answer, y, wait, v, -, hy, hs, -, -, rfl⟩
  · exact active_ofKey hx
  · exact (hrest y (Array.mem_of_getElem? hy)).active_resumed hs v

/-- **A happening leaves every execution at rest.** -/
theorem atRest_after {m : Machine} (hm : m.Sound) (hrest : m.AllAtRest) (h : Happening) :
    (m.after h).AllAtRest := by
  intro y hy
  obtain ⟨i, hthere⟩ := Array.mem_iff_getElem?.mp hy
  have hgrows := (sound_step hm (step_after m h)).2
  -- a run of the execution is a stretch, and what it leaves is what the run leaves
  have hran : ∀ {w x}, m.running? h = some (i, w, x) →
      (run w x).2.AtRest (m.after h).world := by
    intro w x hrun
    have hstretch := stretch_of_running hrun
    rw [hstretch.world_eq]
    exact atRest_run (hstretch.begins hm).1 (hrest.active (setsOff_of_running hrun).1)
      hstretch.survives
  have hfate := fate_after m i h
  rw [hthere] at hfate
  generalize hleaves : some y = leaves at hfate
  cases hfate with
  | spared hidle => exact (hrest y (Array.mem_of_getElem? hleaves.symm)).grows hgrows
  | starts hi hx hlive =>
      rw [Option.some.inj hleaves]
      exact hran (hi ▸ running_start hx hlive)
  | refused hi hx =>
      rw [Option.some.inj hleaves]
      exact atRest_refused _ _ _ _
  | resumes hx hs hwait hdesk hlive =>
      rw [Option.some.inj hleaves]
      exact hran (running_settle hx hs hwait hdesk hlive)
  | rejected hx hs hwait hdesk =>
      have hx' := hrest _ (Array.mem_of_getElem? hx)
      rw [Option.some.inj hleaves, failWait_of_closing_nil hx'.closing]
      exact (hx'.grows hgrows).gaveUp hs _
  | interrupted hx hs hwait =>
      have hx' := hrest _ (Array.mem_of_getElem? hx)
      rw [Option.some.inj hleaves, failWait_of_closing_nil hx'.closing]
      exact (hx'.grows hgrows).gaveUp hs _

/-- **So is every execution of a machine that can be reached.** -/
theorem atRest_reachable {m : Machine} (hm : m.Reachable) : m.AllAtRest := by
  refine hm.induction ?_ (fun m h hm ih => atRest_after (sound_reachable hm) ih h) ?_
  · exact fun _ _ _ _ x hx => by simp [init] at hx
  · exact fun _ _ _ x hx => by simp at hx

/-! ## Stages -/

/-- The stage of an execution. It is idle as long as it has not been started. -/
def stage (m : Machine) (i : Nat) : ExecState := (m.executions[i]?.map (·.state)).getD .idle

theorem stage_of_some {m : Machine} {i : Nat} {x : Execution} (h : m.executions[i]? = some x) :
    m.stage i = x.state := by
  unfold stage
  rw [h]
  rfl

theorem stage_of_size (m : Machine) : m.stage m.executions.size = .idle := by
  unfold stage
  rw [Array.getElem?_eq_none (Nat.le_refl _)]
  rfl

/-- There is nothing to run under a key: no entry, or one with a blank script. -/
def Unscripted (m : Machine) (key : String) : Prop :=
  ∀ e, m.world.lookup? key = some e → (Text.trim (m.world.entry e).script).isEmpty

/-- The changes of stage that there can be in a happening. -/
inductive Moves (m : Machine) (h : Happening) : ExecState → ExecState → Prop
  | stays (stage : ExecState) : Moves m h stage stage
  | starts : Moves m h .idle .running
  /-- Only where there is nothing to run. -/
  | refused {key : String} {context : Nat} (hstart : h = .start key context)
      (hnone : m.Unscripted key) : Moves m h .idle .abandoned
  | suspends : Moves m h .running .suspended
  | resumes : Moves m h .suspended .running
  | givesUp : Moves m h .suspended .abandoned
  | finishes : Moves m h .running .finished
  | fails : Moves m h .running .abandoned

/-- The stages of an execution while it runs in a happening: before the first segment, and before
and after each. -/
def runStages (m : Machine) (i : Nat) (h : Happening) : List ExecState :=
  match m.setsOff? h with
  | some (j, w, x) =>
    if j = i then
      x.state :: (trace w x).flatMap fun μ => [μ.exec.state, μ.after.2.1.state]
    else []
  | none => []

/-- The stages that an execution goes through in a happening. If the program ends in it, there is
none after the run. -/
def stages (m : Machine) (i : Nat) (h : Happening) : List ExecState :=
  m.stage i :: (m.runStages i h ++ if m.fatal h then [] else [(m.after h).stage i])

theorem runStages_of_idle {m : Machine} {h : Happening} {i : Nat}
    (hidle : ∀ r ∈ m.setsOff? h, r.1 ≠ i) : m.runStages i h = [] := by
  unfold runStages
  split
  · rename_i j w x hrun
    exact if_neg (hidle _ hrun)
  · rfl

/-- **While it runs, an execution is running.** -/
theorem runStages_of_running {m : Machine} (hm : m.Sound) (hrest : m.AllAtRest) {h : Happening}
    {i : Nat} {w : World} {x : Execution} (hrun : m.setsOff? h = some (i, w, x)) :
    m.runStages i h ≠ [] ∧ ∀ s ∈ m.runStages i h, s = .running := by
  have hstage := (begins_of_setsOff hm hrun).stage
  have hactive := hrest.active hrun
  obtain ⟨last, hsteps, -⟩ := stops_run hstage.world.arena hstage.underway.placed
  have horder := (inOrder_steps hsteps hstage hactive).2
  unfold runStages
  rw [hrun]
  dsimp only
  rw [if_pos rfl]
  refine ⟨List.cons_ne_nil _ _, fun s hs => ?_⟩
  rcases List.mem_cons.mp hs with rfl | hs
  · exact hactive.state
  · obtain ⟨μ, hμ, hs⟩ := List.mem_flatMap.mp hs
    rcases List.mem_cons.mp hs with rfl | hs
    · exact (horder μ hμ).before.state
    · rw [List.mem_singleton.mp hs]
      exact (horder μ hμ).after.state

/-- From one stage through a run, and to another if there is one. -/
theorem isChain_through {m : Machine} {h : Happening} {later : List ExecState}
    (hlater : (ExecState.running :: later).IsChain (m.Moves h)) :
    ∀ {between : List ExecState} {first : ExecState},
      m.Moves h first .running → between ≠ [] → (∀ s ∈ between, s = .running) →
      (first :: (between ++ later)).IsChain (m.Moves h)
  | [], _, _, hne, _ => absurd rfl hne
  | [s], first, hfirst, _, hall => by
      rw [hall s List.mem_cons_self]
      exact .cons_cons hfirst hlater
  | s :: t :: rest, first, hfirst, _, hall => by
      obtain rfl := hall s List.mem_cons_self
      exact .cons_cons hfirst (isChain_through hlater (.stays _) (List.cons_ne_nil _ _)
        fun u hu => hall u (List.mem_cons_of_mem _ hu))

/-- A run leads to a suspension or an end. -/
theorem moves_run {m : Machine} {h : Happening} {w w' : World} {x : Execution}
    (hrest : (run w x).2.AtRest w') : m.Moves h .running (run w x).2.state := by
  rcases hrest.stage with hs | hs | hs <;> rw [hs]
  · exact .suspends
  · exact .finishes
  · exact .fails

theorem unscripted_of_ofKey {m : Machine} {key : String} {context : Nat}
    (h : ofKey? m.world key context = none) : m.Unscripted key := by
  intro e he
  unfold ofKey? at h
  rw [he] at h
  dsimp only at h
  split at h
  · rename_i hblank
    exact hblank
  · simp at h

/-- An execution that a run of the program's last turn begins with was idle or suspended. -/
theorem moves_setsOff {m : Machine} {h : Happening} {i : Nat} {w : World} {x : Execution}
    (hrun : m.setsOff? h = some (i, w, x)) : m.Moves h (m.stage i) .running := by
  rcases setsOff_cases hrun with ⟨key, context, -, rfl, -, -⟩ | ⟨answer, y, wait, v, -, hy, hs, -⟩
  · exact stage_of_size m ▸ .starts
  · rw [stage_of_some hy, hs]
    exact .resumes

/-- **The stage changes along the moves only.** -/
theorem stages_isChain {m : Machine} (hm : m.Sound) (hrest : m.AllAtRest) (i : Nat)
    (h : Happening) : (m.stages i h).IsChain (m.Moves h) := by
  have hrest' := atRest_after hm hrest h
  by_cases hruns : ∃ w x, m.setsOff? h = some (i, w, x)
  · -- through a run, which the program need not survive
    obtain ⟨w, x, hrun⟩ := hruns
    obtain ⟨hne, hall⟩ := runStages_of_running hm hrest hrun
    refine isChain_through ?_ (moves_setsOff hrun) hne hall
    split
    · exact .singleton _
    · rename_i hfatal
      have hlive := running_of_survives (Bool.eq_false_iff.mpr hfatal)
      have hthere := executions_of_running (hlive.trans hrun)
      rw [stage_of_some hthere]
      exact .cons_cons (moves_run (hrest' _ (Array.mem_of_getElem? hthere))) (.singleton _)
  · -- without a run there is one move
    have hidle : ∀ r ∈ m.setsOff? h, r.1 ≠ i := by
      rintro ⟨j, w, x⟩ hr rfl
      exact hruns ⟨w, x, hr⟩
    have hnone := fun {w x} (hrun : m.running? h = some (i, w, x)) =>
      hidle _ (setsOff_of_running hrun).1 rfl
    have hone : m.Moves h (m.stage i) ((m.after h).stage i) := by
      have hfate := fate_after m i h
      generalize hleaves : (m.after h).executions[i]? = leaves at hfate
      cases hfate with
      | spared =>
          rw [show (m.after h).stage i = m.stage i by unfold stage; rw [hleaves]]
          exact .stays _
      | starts hi hx hlive => exact (hnone (hi ▸ running_start hx hlive)).elim
      | refused hi hx =>
          rw [stage_of_some hleaves, hi, stage_of_size]
          exact .refused rfl (unscripted_of_ofKey hx)
      | resumes hx hs hwait hdesk hlive => exact (hnone (running_settle hx hs hwait hdesk hlive)).elim
      | rejected hx hs | interrupted hx hs =>
          rw [failWait_of_closing_nil (hrest _ (Array.mem_of_getElem? hx)).closing] at hleaves
          rw [stage_of_some hleaves, stage_of_some hx, hs]
          exact .givesUp
    unfold stages
    rw [runStages_of_idle hidle]
    split
    · exact .singleton _
    · exact .cons_cons hone (.singleton _)

/-! ## Ends -/

/-- How a run ends, if its last verdict ends it. -/
def endOf : Verdict → Option (Option Failure)
  | .next => some none
  | .abandon f => some (some f)
  | .await _ => none
  | .crash => none

/-- Where an execution is ended: `finish` is called in a happening, with a failure or without, in a
world and on the execution. -/
inductive Ends (m : Machine) (i : Nat) : Happening → World → Execution → Option Failure → Prop
  /-- A run comes to the end of the script, or a segment fails. -/
  | ran {h : Happening} {w : World} {x : Execution} {last : Stepped} {failure : Option Failure}
      (hrun : m.running? h = some (i, w, x)) (hsteps : Steps (trace w x) (w, x, .next) last)
      (hstop : Stopped last) (hend : endOf last.2.2 = some failure) :
      Ends m i h last.1 last.2.1 failure
  /-- There is nothing to run. -/
  | refused {key : String} {context : Nat} (hi : i = m.executions.size)
      (hx : ofKey? m.world key context = none) :
      Ends m i (.start key context) (refusedRecord m.world key) (unstarted m.world context)
        (some (.unknownEntry key))
  /-- What it waits for fails. -/
  | rejected {answer : Answer} {x : Execution} {wait : Wait} {w : World} {f : Failure}
      (hx : m.executions[i]? = some x) (hs : x.state = .suspended) (hwait : x.wait = some wait)
      (hdesk : x.atDesk m.world (wait.result.settle answer) = (w, .error f)) :
      Ends m i (.settle i answer) (x.waitRecord wait f w) x (some (waitFailure wait f))
  /-- It is interrupted while it waits. -/
  | interrupted {why : Interruption} {x : Execution} {wait : Wait}
      (hx : m.executions[i]? = some x) (hs : x.state = .suspended) (hwait : x.wait = some wait) :
      Ends m i (.interrupt i why) (x.waitRecord wait (.abandoned why) m.world) x
        (some (waitFailure wait (.abandoned why)))

theorem halt_of_endOf {r : Stepped} {failure : Option Failure} (h : endOf r.2.2 = some failure) :
    halt r = finish failure r.1 r.2.1 := by
  obtain ⟨w, x, verdict⟩ := r
  cases verdict with
  | next => rw [← Option.some.inj h]; rfl
  | abandon f => rw [← Option.some.inj h]; rfl
  | await | crash => simp [endOf] at h

theorem over_finish (failure : Option Failure) (w : World) (x : Execution) :
    (finish failure w x).2.Over := by
  unfold finish Over
  cases failure with
  | none => exact .inl rfl
  | some f => exact .inr rfl

section Ends

variable {m : Machine} {i : Nat} {h : Happening} {w : World} {x : Execution}
  {failure : Option Failure}

/-- What is ended was not at its end. -/
theorem Ends.before (hends : m.Ends i h w x failure) {y : Execution}
    (hy : m.executions[i]? = some y) : ¬ y.Over := by
  have hwaits : y.state = .suspended → ¬ y.Over := by
    rintro hs (hover | hover) <;> rw [hs] at hover <;> simp at hover
  cases hends with
  | ran hrun =>
      rcases setsOff_cases (setsOff_of_running hrun).1 with
        ⟨key, context, -, hi, -⟩ | ⟨answer, z, wait, v, -, hz, hs, -⟩
      · rw [hi] at hy
        simp at hy
      · obtain rfl := Option.some.inj (hz.symm.trans hy)
        exact hwaits hs
  | refused hi =>
      rw [hi] at hy
      simp at hy
  | rejected hx hs | interrupted hx hs =>
      obtain rfl := Option.some.inj (hx.symm.trans hy)
      exact hwaits hs

/-- **What comes of an end is what `finish` gives.** -/
theorem Ends.after (hm : m.Sound) (hends : m.Ends i h w x failure) :
    (m.after h).executions[i]? = some (finish failure w x).2 := by
  cases hends with
  | @ran h w₀ x₀ last _ hrun hsteps hstop hend =>
      have hstage := ((stretch_of_running hrun).begins hm).1
      obtain ⟨last', hsteps', -, hhalt, -⟩ := stops_run hstage.world.arena hstage.underway.placed
      obtain rfl := steps_unique hsteps hsteps'
      rw [executions_of_running hrun, ← hhalt, halt_of_endOf hend]
  | @refused key context hi hx =>
      have hpush : (m.start key context).executions[m.executions.size]? =
          some (Execution.start m.world key context).2 := Array.getElem?_push_size
      rw [after_of_idle (setsOff_start_none hx), turn, hi, hpush, start_of_none hx,
        finish_of_closing_nil rfl]
      rfl
  | @rejected answer _ wait w' f hx hs hwait hdesk =>
      rw [after_of_idle (setsOff_settle_error hx hs hwait hdesk), turn]
      unfold Machine.settle
      rw [executions_update, if_pos rfl, hx, Option.map_some, settle_of_error hs hwait hdesk]
      rfl
  | @interrupted why _ wait hx hs hwait =>
      show (m.update i (Execution.interrupt why)).executions[i]? = _
      rw [executions_update, if_pos rfl, hx, Option.map_some]
      unfold Execution.interrupt
      rw [hs, hwait]
      rfl

/-- In a happening an execution is ended once at most. -/
theorem Ends.unique (hends : m.Ends i h w x failure) {w' : World} {x' : Execution}
    {failure' : Option Failure} (hends' : m.Ends i h w' x' failure') :
    w' = w ∧ x' = x ∧ failure' = failure := by
  cases hends with
  | ran hrun hsteps hstop hend =>
      cases hends' with
      | ran hrun' hsteps' hstop' hend' =>
          obtain ⟨rfl, rfl⟩ : _ = _ ∧ _ = _ := by simpa using hrun'.symm.trans hrun
          obtain rfl := steps_unique hsteps hsteps'
          exact ⟨rfl, rfl, Option.some.inj (hend'.symm.trans hend)⟩
      | refused hi' hx' =>
          rw [running_of_idle (setsOff_start_none hx')] at hrun
          simp at hrun
      | rejected hx' hs' hwait' hdesk' =>
          rw [running_of_idle (setsOff_settle_error hx' hs' hwait' hdesk')] at hrun
          simp at hrun
      | interrupted =>
          rw [running_of_idle rfl] at hrun
          simp at hrun
  | refused hi hx =>
      cases hends' with
      | ran hrun' =>
          rw [running_of_idle (setsOff_start_none hx)] at hrun'
          simp at hrun'
      | refused => exact ⟨rfl, rfl, rfl⟩
  | rejected hx hs hwait hdesk =>
      cases hends' with
      | ran hrun' =>
          rw [running_of_idle (setsOff_settle_error hx hs hwait hdesk)] at hrun'
          simp at hrun'
      | rejected hx' hs' hwait' hdesk' =>
          obtain rfl := Option.some.inj (hx'.symm.trans hx)
          obtain rfl := Option.some.inj (hwait'.symm.trans hwait)
          obtain ⟨rfl, hf⟩ := Prod.mk.inj (hdesk'.symm.trans hdesk)
          obtain rfl := Except.error.inj hf
          exact ⟨rfl, rfl, rfl⟩
  | interrupted hx hs hwait =>
      cases hends' with
      | ran hrun' =>
          rw [running_of_idle rfl] at hrun'
          simp at hrun'
      | interrupted hx' hs' hwait' =>
          obtain rfl := Option.some.inj (hx'.symm.trans hx)
          obtain rfl := Option.some.inj (hwait'.symm.trans hwait)
          exact ⟨rfl, rfl, rfl⟩

/-- **Nothing is ended twice.** -/
theorem Ends.last (hm : m.Sound) (hends : m.Ends i h w x failure) (history : List Happening)
    (h' : Happening) (w' : World) (x' : Execution) (failure' : Option Failure) :
    ¬ ((m.after h).afterAll history).Ends i h' w' x' failure' := by
  intro hagain
  have hover := over_finish failure w x
  exact hagain.before (afterAll_of_over (hends.after hm) hover history).1 hover

end Ends

/-- **Every end is a call of `finish`.** -/
theorem ends_of_over {m : Machine} {i : Nat} {h : Happening} {y : Execution} (hm : m.Sound)
    (hy : (m.after h).executions[i]? = some y) (hover : y.Over) :
    m.executions[i]? = some y ∨ ∃ w x failure, m.Ends i h w x failure := by
  -- a run that does not end in a suspension ends the execution
  have hran : ∀ {w x}, m.running? h = some (i, w, x) → ∃ w x failure, m.Ends i h w x failure := by
    intro w x hrun
    have hstage := ((stretch_of_running hrun).begins hm).1
    obtain ⟨last, hsteps, hstop, hlive, hhalt⟩ :=
      runs_of_survives hstage (stretch_of_running hrun).survives
    cases hend : endOf last.2.2 with
    | some failure => exact ⟨_, _, failure, .ran hrun hsteps hstop hend⟩
    | none =>
        rw [executions_of_running hrun, ← hhalt] at hy
        rw [← Option.some.inj hy] at hover
        obtain ⟨w', x', verdict⟩ := last
        cases verdict with
        | next | abandon => simp [endOf] at hend
        | await wait => rcases hover with hover | hover <;> simp [halt, suspend] at hover
        | crash => exact absurd rfl hlive
  have hfate := fate_after m i h
  generalize hleaves : (m.after h).executions[i]? = leaves at hfate
  cases hfate with
  | spared hidle => exact .inl (hleaves.symm.trans hy)
  | starts hi hx hlive => exact .inr (hran (hi ▸ running_start hx hlive))
  | refused hi hx => exact .inr ⟨_, _, _, .refused hi hx⟩
  | resumes hx hs hwait hdesk hlive =>
      exact .inr (hran (running_settle hx hs hwait hdesk hlive))
  | rejected hx hs hwait hdesk => exact .inr ⟨_, _, _, .rejected hx hs hwait hdesk⟩
  | interrupted hx hs hwait => exact .inr ⟨_, _, _, .interrupted hx hs hwait⟩

/-! ## Suspensions that last -/

/-- Who is suspended after a happening without having run was suspended before. -/
theorem suspended_before {m : Machine} {h : Happening} {i : Nat}
    (hidle : ∀ r ∈ m.running? h, r.1 ≠ i) (hs : (m.after h).stage i = .suspended) :
    m.stage i = .suspended := by
  have hfate := fate_after m i h
  generalize hleaves : (m.after h).executions[i]? = leaves at hfate
  cases hfate with
  | spared =>
      unfold stage at hs ⊢
      rw [hleaves] at hs
      exact hs
  | starts hi hx hlive => exact absurd hi.symm (hidle _ (running_start hx hlive))
  | refused hi hx =>
      rw [stage_of_some hleaves] at hs
      simp [refused, gaveUp] at hs
  | resumes hx hs' hwait hdesk hlive =>
      exact absurd rfl (hidle _ (running_settle hx hs' hwait hdesk hlive))
  | rejected hx hs' | interrupted hx hs' => rw [stage_of_some hx, hs']

/-- Who is suspended and gets an answer runs, or is at its end. -/
theorem not_suspended_after_settle {m : Machine} (hm : m.Reachable) {i : Nat} {answer : Answer}
    (hlive : m.fatal (.settle i answer) = false) (hs : m.stage i = .suspended)
    (hidle : ∀ r ∈ m.running? (.settle i answer), r.1 ≠ i) :
    (m.after (.settle i answer)).stage i ≠ .suspended := by
  cases hx : m.executions[i]? with
  | none => simp [stage, hx] at hs
  | some x =>
      rw [stage_of_some hx] at hs
      have hrested := atRest_reachable hm x (Array.mem_of_getElem? hx)
      obtain ⟨wait, hwait⟩ := Option.isSome_iff_exists.mp (hrested.wait.mpr hs)
      rcases hdesk : x.atDesk m.world (wait.result.settle answer) with ⟨w, f | v⟩
      · have hends : m.Ends i (.settle i answer) _ _ _ := .rejected hx hs hwait hdesk
        rw [stage_of_some (hends.after (sound_reachable hm))]
        simp [finish]
      · have hset := setsOff_settle hx hs hwait hdesk
        exact absurd rfl (hidle _ ((running_of_survives hlive).trans hset))

end Machine

/-! ## Futures

A suspended execution waits for a future, and is told when it is settled. Whoever
tells it may do so more than once, and late: the execution may be at its end, or
suspended anew. And whoever settles the future may do so more than once. -/

/-- A suspension, and the future it waits for. -/
structure Ticket where
  number : Nat
  future : Nat

/-- A machine whose suspended executions wait for futures. -/
structure Board where
  machine : Machine
  futures : Nat → Future := fun _ => {}
  /-- The latest suspension of each execution. -/
  tickets : Nat → Option Ticket := fun _ => none
  /-- How many suspensions there have been. -/
  issued : Nat := 0
  /-- What the futures were settled with, in order, whether it counted or not. -/
  settlements : List (Nat × Answer) := []
  /-- The suspensions that were resumed, in order, and with what. -/
  resumptions : List (Ticket × Answer) := []

namespace Board

open Machine

/-- What reaches the board. An execution that is suspended then waits for the `next` future. -/
inductive Signal where
  /-- A future is settled. -/
  | settle (future : Nat) (answer : Answer)
  /-- An execution is told that its future is settled. -/
  | wake (i next : Nat)
  /-- Anything else. -/
  | other (h : Happening) (hother : ∀ i answer, h ≠ .settle i answer) (next : Nat)

/-- The board after a happening. A run that is suspended gets a ticket. -/
def happen (b : Board) (h : Happening) (next : Nat) : Board :=
  match b.machine.running? h with
  | some (i, _, _) =>
    if (b.machine.after h).stage i = .suspended then
      { b with
        machine := b.machine.after h
        tickets := fun j => if j = i then some ⟨b.issued, next⟩ else b.tickets j
        issued := b.issued + 1 }
    else { b with machine := b.machine.after h }
  | none => { b with machine := b.machine.after h }

/-- Puts down that an answer resumes the suspension of an execution, if it is suspended. -/
def note (b : Board) (i : Nat) (t : Ticket) (answer : Answer) : Board :=
  if b.machine.stage i = .suspended then
    { b with resumptions := b.resumptions ++ [(t, answer)] }
  else b

/-- The board after a signal. Waking an execution in whose run the program ends leaves no board
after it. -/
def after (b : Board) : Signal → Board
  | .settle f answer =>
    { b with
      futures := fun g => if g = f then (b.futures f).settle answer else b.futures g
      settlements := b.settlements ++ [(f, answer)] }
  | .wake i next =>
    match b.tickets i with
    | none => b
    | some t =>
      match (b.futures t.future).settled with
      | none => b
      | some answer =>
        if b.machine.fatal (.settle i answer) then b
        else (b.note i t answer).happen (.settle i answer) next
  | .other h _ next => b.happen h next

/-- A board that some signals lead to, on a page where nothing has been started. -/
def Reachable (b : Board) : Prop :=
  ∃ (m : Machine) (signals : List Signal), m.Reachable ∧ m.executions = #[] ∧
    b = signals.foldl after { machine := m }

/-- Every suspension is resumed once at most, and with what its future was settled with first. -/
structure ResumedOnce (b : Board) : Prop where
  once : (b.resumptions.map (·.1.number)).Nodup
  first : ∀ t answer, (t, answer) ∈ b.resumptions → b.settlements.lookup t.future = some answer

/-- What is put down on a board fits together. -/
structure Consistent (b : Board) : Prop extends ResumedOnce b where
  /-- The machine can be reached. -/
  machine : b.machine.Reachable
  /-- The first settlement counts. -/
  futures : ∀ f, (b.futures f).settled = b.settlements.lookup f
  /-- Tickets are numbered in order. -/
  issued : ∀ i t, b.tickets i = some t → t.number < b.issued
  /-- No two executions hold the same ticket. -/
  distinct : ∀ i j t u, b.tickets i = some t → b.tickets j = some u → t.number = u.number → i = j
  /-- Only tickets that were issued are resumed. -/
  resumed : ∀ t answer, (t, answer) ∈ b.resumptions → t.number < b.issued

/-- Whoever is suspended has not been resumed on its ticket. -/
def Unused (b : Board) : Prop :=
  ∀ i t, b.tickets i = some t → b.machine.stage i = .suspended →
    t.number ∉ b.resumptions.map (·.1.number)

theorem Consistent.moved {b : Board} (hb : b.Consistent) {m : Machine} (hm : m.Reachable) :
    Consistent { b with machine := m } :=
  ⟨⟨hb.once, hb.first⟩, hm, hb.futures, hb.issued, hb.distinct, hb.resumed⟩

/-- A new ticket has a number that no other has. -/
theorem Consistent.ticketed {b : Board} (hb : b.Consistent) (i next : Nat) :
    Consistent { b with
      tickets := fun j => if j = i then some ⟨b.issued, next⟩ else b.tickets j
      issued := b.issued + 1 } := by
  refine ⟨⟨hb.once, hb.first⟩, hb.machine, hb.futures, ?_, ?_, ?_⟩
  · intro j t ht
    dsimp only at ht ⊢
    split at ht
    · rw [← Option.some.inj ht]
      exact Nat.lt_succ_self _
    · exact Nat.lt_succ_of_lt (hb.issued j t ht)
  · intro j k t u ht hu heq
    dsimp only at ht hu
    split at ht <;> split at hu
    · omega
    · have := hb.issued k u hu
      rw [← Option.some.inj ht] at heq
      dsimp only at heq
      omega
    · have := hb.issued j t ht
      rw [← Option.some.inj hu] at heq
      dsimp only at heq
      omega
    · exact hb.distinct j k t u ht hu heq
  · exact fun t answer hm => Nat.lt_succ_of_lt (hb.resumed t answer hm)

theorem Consistent.issued_not_resumed {b : Board} (hb : b.Consistent) :
    b.issued ∉ b.resumptions.map (·.1.number) := by
  intro hm
  obtain ⟨⟨t, answer⟩, ht, hnumber⟩ := List.mem_map.mp hm
  exact absurd hnumber (hb.resumed t answer ht).ne

/-- **A happening keeps the board consistent**, if those who stay suspended have not been resumed. -/
theorem consistent_happen {b : Board} (hb : b.Consistent) {h : Happening}
    (hstay : ∀ i t, b.tickets i = some t → (∀ r ∈ b.machine.running? h, r.1 ≠ i) →
      (b.machine.after h).stage i = .suspended → t.number ∉ b.resumptions.map (·.1.number))
    (next : Nat) : (b.happen h next).Consistent ∧ (b.happen h next).Unused := by
  have hmoved := hb.moved (hb.machine.after h)
  unfold happen
  split
  · rename_i i w x hrun
    split
    · -- the execution that has run waits on a new ticket, the others on what they had
      refine ⟨hmoved.ticketed i next, fun j t ht hs => ?_⟩
      dsimp only at ht hs ⊢
      split at ht
      · rw [← Option.some.inj ht]
        exact hb.issued_not_resumed
      · rename_i hji
        refine hstay j t ht (fun r hr => ?_) hs
        rw [hrun] at hr
        rw [← Option.some.inj hr]
        exact Ne.symm hji
    · rename_i hnot
      refine ⟨hmoved, fun j t ht hs => hstay j t ht (fun r hr heq => ?_) hs⟩
      rw [hrun] at hr
      obtain rfl : i = j := by rw [← Option.some.inj hr] at heq; exact heq
      exact hnot hs
  · rename_i hrun
    refine ⟨hmoved, fun j t ht hs => hstay j t ht (fun r hr => ?_) hs⟩
    rw [hrun] at hr
    simp at hr

/-- **A settlement keeps the board consistent**: it counts if it is the first one. -/
theorem consistent_settle {b : Board} (hb : b.Consistent) (f : Nat) (answer : Answer) :
    (b.after (.settle f answer)).Consistent where
  once := hb.once
  first := fun t a hm => by
    show (b.settlements ++ [(f, answer)]).lookup t.future = some a
    rw [List.lookup_append, hb.first t a hm]
    rfl
  machine := hb.machine
  futures := fun g => by
    show (if g = f then (b.futures f).settle answer else b.futures g).settled =
      (b.settlements ++ [(f, answer)]).lookup g
    have hold := hb.futures g
    rw [List.lookup_append, ← hold]
    split
    · rename_i hgf
      subst hgf
      unfold Future.settle
      cases hg : (b.futures g).settled with
      | some a => exact hg
      | none => simp
    · rename_i hgf
      cases hg : (b.futures g).settled with
      | some a => rfl
      | none => simp [List.lookup_cons, beq_eq_false_iff_ne.mpr hgf]
  issued := hb.issued
  distinct := hb.distinct
  resumed := hb.resumed

/-- Putting down a resumption on a ticket that has not been used. -/
theorem consistent_note {b : Board} (hb : b.Consistent) (hunused : b.Unused) {i : Nat} {t : Ticket}
    {answer : Answer} (ht : b.tickets i = some t)
    (hsettled : (b.futures t.future).settled = some answer) : (b.note i t answer).Consistent := by
  unfold note
  split
  · rename_i hs
    refine ⟨⟨?_, ?_⟩, hb.machine, hb.futures, hb.issued, hb.distinct, ?_⟩
    · show ((b.resumptions ++ [(t, answer)]).map (·.1.number)).Nodup
      rw [List.map_append, List.nodup_append]
      refine ⟨hb.once, by simp, fun n hn k hk heq => ?_⟩
      obtain rfl : k = t.number := List.mem_singleton.mp hk
      exact hunused i t ht hs (heq ▸ hn)
    · intro u a hm
      rcases List.mem_append.mp hm with hm | hm
      · exact hb.first u a hm
      · obtain ⟨rfl, rfl⟩ := Prod.mk.inj (List.mem_singleton.mp hm)
        exact (hb.futures u.future).symm.trans hsettled
    · intro u a hm
      rcases List.mem_append.mp hm with hm | hm
      · exact hb.resumed u a hm
      · obtain ⟨rfl, -⟩ := Prod.mk.inj (List.mem_singleton.mp hm)
        exact hb.issued i u ht
  · exact hb

/-- **Waking keeps the board consistent**: who is woken does not stay suspended on its ticket, and
nobody else has the same one. -/
theorem consistent_wake {b : Board} (hb : b.Consistent) (hunused : b.Unused) (i next : Nat) :
    (b.after (.wake i next)).Consistent ∧ (b.after (.wake i next)).Unused := by
  unfold after
  dsimp only
  split
  · exact ⟨hb, hunused⟩
  · rename_i t ht
    split
    · exact ⟨hb, hunused⟩
    · rename_i answer hsettled
      split
      · exact ⟨hb, hunused⟩
      rename_i hfatal
      have hlive := Bool.eq_false_iff.mpr hfatal
      have hmachine : (b.note i t answer).machine = b.machine := by unfold note; split <;> rfl
      have htickets : (b.note i t answer).tickets = b.tickets := by unfold note; split <;> rfl
      refine consistent_happen (consistent_note hb hunused ht hsettled) (fun j u hu hidle hs => ?_)
        next
      rw [hmachine] at hidle hs
      rw [htickets] at hu
      have hbefore := suspended_before hidle hs
      unfold note
      split
      · rename_i hwaits
        intro hm
        rw [List.map_append] at hm
        rcases List.mem_append.mp hm with hm | hm
        · exact hunused j u hu hbefore hm
        · obtain rfl := hb.distinct j i u t hu ht (List.mem_singleton.mp hm)
          exact not_suspended_after_settle hb.machine hlive hwaits hidle hs
      · exact hunused j u hu hbefore

/-- **Every signal keeps the board consistent.** -/
theorem consistent_after {b : Board} (hb : b.Consistent) (hunused : b.Unused) (signal : Signal) :
    (b.after signal).Consistent ∧ (b.after signal).Unused := by
  cases signal with
  | settle f answer => exact ⟨consistent_settle hb f answer, hunused⟩
  | wake i next => exact consistent_wake hb hunused i next
  | other h hother next =>
      exact consistent_happen hb
        (fun i t ht hidle hs => hunused i t ht (suspended_before hidle hs)) next

theorem consistent_start {m : Machine} (hm : m.Reachable) :
    Consistent { machine := m } ∧ Unused { machine := m } :=
  ⟨⟨⟨List.nodup_nil, fun t answer h => by simp at h⟩, hm, fun f => rfl, fun i t h => by simp at h,
    fun i j t u h => by simp at h, fun t answer h => by simp at h⟩, fun i t h => by simp at h⟩

/-- **On every board that can be reached**, suspensions are resumed once at most. -/
theorem resumedOnce_reachable {b : Board} (hb : b.Reachable) : b.ResumedOnce := by
  obtain ⟨m, signals, hm, -, rfl⟩ := hb
  have hall : ∀ (signals : List Signal) {b : Board}, b.Consistent → b.Unused →
      (signals.foldl after b).Consistent := by
    intro signals
    induction signals with
    | nil => exact fun hb _ => hb
    | cons signal rest ih =>
        intro b hb hunused
        obtain ⟨hb', hunused'⟩ := consistent_after hb hunused signal
        exact ih hb' hunused'
  obtain ⟨hstart, hunused⟩ := consistent_start hm
  exact (hall signals hstart hunused).toResumedOnce

end Board

namespace Machine

/-! ## The whole life -/

/-- What holds of the executions of a machine, at rest and in whatever happens next. -/
structure Lifecycle (m : Machine) : Prop where
  /-- Between runs every execution is at rest. -/
  atRest : m.AllAtRest
  /-- A run begins with nothing pending, and every segment of it is stepped in order. -/
  inOrder : ∀ h i w x, m.setsOff? h = some (i, w, x) →
    x.Active ∧ x.closing = [] ∧ ∀ μ ∈ trace w x, μ.InOrder
  /-- The stage changes along the moves only. -/
  moves : ∀ h i, (m.stages i h).IsChain (m.Moves h)
  /-- An end is never left. -/
  stays : ∀ (i : Nat) (x : Execution) history, m.executions[i]? = some x → x.Over →
    (m.afterAll history).executions[i]? = some x
  /-- Every end is a call of `finish`. -/
  ends : ∀ h (i : Nat) (y : Execution), (m.after h).executions[i]? = some y → y.Over →
    m.executions[i]? = some y ∨ ∃ w x failure, m.Ends i h w x failure
  /-- There is one such call at most, in a happening and in all that follows. -/
  once : ∀ h i w x failure, m.Ends i h w x failure →
    (m.after h).executions[i]? = some (finish failure w x).2 ∧
    (∀ w' x' failure', m.Ends i h w' x' failure' → w' = w ∧ x' = x ∧ failure' = failure) ∧
    ∀ history h' w' x' failure', ¬ ((m.after h).afterAll history).Ends i h' w' x' failure'

/-- **The life of every execution**, of every machine and on every board that can be reached. -/
theorem lifecycle_of_reachable :
    (∀ m : Machine, m.Reachable → m.Lifecycle) ∧
      ∀ b : Board, b.Reachable → b.ResumedOnce := by
  refine ⟨fun m hm => ?_, fun b hb => Board.resumedOnce_reachable hb⟩
  have hsound := sound_reachable hm
  have hrest := atRest_reachable hm
  refine ⟨hrest, ?_, fun h i => stages_isChain hsound hrest i h,
    fun i x history hx hover => (afterAll_of_over hx hover history).1,
    fun h i y hy hover => ends_of_over hsound hy hover, ?_⟩
  · intro h i w x hrun
    obtain ⟨hstage, hc, -⟩ := begins_of_setsOff hsound hrun
    obtain ⟨last, hsteps, -⟩ := stops_run hstage.world.arena hstage.underway.placed
    have hactive := hrest.active hrun
    exact ⟨hactive, hc, (inOrder_steps hsteps hstage hactive).2⟩
  · intro h i w x failure hends
    exact ⟨hends.after hsound, fun w' x' failure' hends' => hends.unique hends',
      hends.last hsound⟩

/-- A script that waits. -/
def waitingPage : Machine := registered (page "wait:w |nop:x" waiting)

/-- Its execution waits for a future that is settled twice, and is told so twice. -/
def insistent : Board :=
  [.other (.start "p" 0) (fun _ _ => by simp) 7, .settle 7 (.ok (.string "one")),
    .settle 7 (.ok (.string "two")), .wake 0 7, .wake 0 7].foldl Board.after
      { machine := waitingPage }

/-- The execution goes on once, with the first answer, to its end. -/
theorem waitingPage_lifecycle :
    (waitingPage.start "p" 0).stages 0 (.settle 0 (.ok .undefined)) =
        [.suspended, .running, .running, .running, .finished] ∧
      ((waitingPage.start "p" 0).stages 0 (.settle 0 (.ok .undefined))).IsChain
        ((waitingPage.start "p" 0).Moves (.settle 0 (.ok .undefined))) ∧
      insistent.resumptions.map (fun r => (r.1.number, textOf r.2.toOption)) =
        [(0, some "one")] ∧
      (∀ t answer, (t, answer) ∈ insistent.resumptions →
        insistent.settlements.lookup t.future = some answer) ∧
      insistent.machine.stage 0 = .finished := by
  obtain ⟨hsize, hstages, hresumed, hend⟩ : waitingPage.executions = #[] ∧
      (waitingPage.start "p" 0).stages 0 (.settle 0 (.ok .undefined)) =
        [.suspended, .running, .running, .running, .finished] ∧
      insistent.resumptions.map (fun r => (r.1.number, textOf r.2.toOption)) =
        [(0, some "one")] ∧
      insistent.machine.stage 0 = .finished := by
    decide +kernel
  have hm : waitingPage.Reachable := reachable_registered _ waiting_lawful
  have hstarted : (waitingPage.start "p" 0).Reachable := hm.after (.start "p" 0)
  exact ⟨hstages, (lifecycle_of_reachable.1 _ hstarted).moves _ 0, hresumed,
    (lifecycle_of_reachable.2 _ ⟨_, _, hm, hsize, rfl⟩).first, hend⟩

end Machine

end PageMacro
