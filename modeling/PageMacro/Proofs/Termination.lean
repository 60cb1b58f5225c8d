import PageMacro.Proofs.History
import PageMacro.Proofs.IndexPositions

/-!
# How a run stops, and how long it can take

A run between two suspensions steps at most the segments it has left and, once each,
the bodies of the entry's open shells that it is not in. The bound is what `run` has
for fuel, so the fuel never runs out, and any more of it changes nothing.

A run stops at the end of the script, suspended or abandoned, or the program stops
with it. The last is the work of one kind of segment: a write to listed matches that
selects a position outside of the list (`Moment.Crashes`). It is the last segment of
its run then, and has changed nothing.
-/

namespace PageMacro

/-- The program ends in a moment: its segment writes to listed matches of a class, and a position
that it selects is outside of the list. -/
def Moment.Crashes (μ : Moment) : Prop :=
  ∃ target index property rhs,
    Segment.ofScript? μ.segment = some (.indexedWrite target index property rhs) ∧
      Selector.Misses μ.world.document target index

namespace Execution

/-! ## Segments in which the program ends -/

theorem conclude_ne_crash (x : Execution) (w : World) (name : String) (args : List String)
    (answer : Answer) : (x.conclude w name args answer).2.2 ≠ .crash := by
  unfold conclude
  cases answer <;> simp

/-- A verb that crashes has failed: the program goes on. -/
theorem callVerb_ne_crash (x : Execution) (w : World) (segment name parameters : String) :
    (x.callVerb w segment name parameters).2.2 ≠ .crash := by
  unfold callVerb
  split
  · simp
  · dsimp only
    split
    · simp
    · exact conclude_ne_crash x _ _ _ _
    · exact conclude_ne_crash x _ _ _ _
    · exact conclude_ne_crash x _ _ _ _

/-- A segment in which the program ends has changed nothing. -/
theorem after_of_crashes {μ : Moment} (h : μ.Crashes) : μ.after = (μ.world, μ.exec, .crash) := by
  obtain ⟨target, index, property, rhs, hread, hmisses⟩ := h
  unfold Moment.after step writeIndexed
  rw [hread]
  dsimp only
  rw [Selector.resolve_eq_none_iff.mpr hmisses]

/-- **The program ends in an indexed write that misses**, and in no other segment. -/
theorem crash_iff (μ : Moment) : μ.after.2.2 = .crash ↔ μ.Crashes := by
  refine ⟨fun h => ?_, fun h => by rw [after_of_crashes h]⟩
  unfold Moment.after step at h
  cases hread : Segment.ofScript? μ.segment with
  | none => rw [hread] at h; simp at h
  | some shape =>
      rw [hread] at h
      -- every other handler goes on with the next segment, or fails or waits in a verb
      cases shape with
      | indexedWrite target index property rhs =>
          unfold writeIndexed at h
          refine ⟨target, index, property, rhs, hread, Selector.resolve_eq_none_iff.mp ?_⟩
          dsimp only at h
          split at h
          · assumption
          · simp at h
          · simp at h
      | verbCall name parameters => exact absurd h (callVerb_ne_crash _ _ _ _ _)
      | shellOpen target name =>
          unfold openShell at h
          cases hshell : μ.exec.shell with
          | none => rw [hshell] at h; simp at h
          | some s => rw [hshell] at h; simp at h
      | shellClose name =>
          unfold closeShell at h
          dsimp only at h
          split at h <;> simp at h
      | literalAssign name rhs =>
          unfold assign at h
          dsimp only at h
          split at h <;> simp at h
      | propWrite target property rhs =>
          unfold writeProp at h
          dsimp only at h
          split at h <;> simp at h
      | contentSet element rhs =>
          unfold setContent at h
          dsimp only at h
          split at h <;> simp at h
      | attrWrite target attr rhs => simp [writeAttr] at h
      | propRead name element property => simp [readProp] at h
      | nopStore name => simp [nop] at h

/-- **The program ends where a slice wraps around**: the segment writes to matches of a class, and
its expression overruns their number. -/
theorem crashes_iff_overruns {μ : Moment}
    (hfew : ∀ name, ((μ.world.document.elementsByClass name).length : Int) < Word.half) :
    μ.Crashes ↔ ∃ target index property rhs name,
      Segment.ofScript? μ.segment = some (.indexedWrite target index property rhs) ∧
        Selector.parse target = .classOf name ∧
          Index.Overruns (μ.world.document.elementsByClass name).length index := by
  constructor
  · intro h
    obtain ⟨target, index, property, rhs, hread, name, hclass, hout⟩ := h
    exact ⟨target, index, property, rhs, name, hread, hclass,
      (Selector.misses_iff_overruns hclass (hfew name)).mp ⟨name, hclass, hout⟩⟩
  · intro h
    obtain ⟨target, index, property, rhs, name, hread, hclass, hover⟩ := h
    exact ⟨target, index, property, rhs, hread,
      (Selector.misses_iff_overruns hclass (hfew name)).mpr hover⟩

/-- **Such a segment is the last of its run.** -/
theorem last_of_crashes {before after : List Moment} {μ : Moment} {r₀ r : Stepped}
    (hsteps : Steps (before ++ μ :: after) r₀ r) (h : μ.Crashes) :
    after = [] ∧ r = (μ.world, μ.exec, .crash) := by
  obtain ⟨x, -, -, hafter⟩ := steps_split hsteps
  rw [after_of_crashes h] at hafter
  cases hafter
  exact ⟨rfl, rfl⟩

/-- **A chain of steps ends the program** where one of its segments does. -/
theorem crash_steps {chain : List Moment} {w : World} {x : Execution} {r : Stepped}
    (hsteps : Steps chain (w, x, .next) r) : r.2.2 = .crash ↔ ∃ μ ∈ chain, μ.Crashes := by
  constructor
  · intro hcrash
    rcases steps_last hsteps with ⟨-, rfl⟩ | ⟨before, μ, rfl, rfl⟩
    · simp at hcrash
    · exact ⟨μ, by simp, (crash_iff μ).mp hcrash⟩
  · intro h
    obtain ⟨μ, hμ, hcrashes⟩ := h
    obtain ⟨before, after, rfl⟩ := List.append_of_mem hμ
    rw [(last_of_crashes hsteps hcrashes).2]

/-- A run that comes to such a segment stays where it was before it. -/
theorem run_of_crashes {w : World} {x : Execution} (ha : w.ArenaSound) (hp : x.Placed w)
    {before after : List Moment} {μ : Moment} (htrace : trace w x = before ++ μ :: after)
    (h : μ.Crashes) : after = [] ∧ run w x = (μ.world, μ.exec) := by
  obtain ⟨last, hsteps, -, hhalt, -⟩ := stops_run ha hp
  rw [htrace] at hsteps
  obtain ⟨hnone, rfl⟩ := last_of_crashes hsteps h
  exact ⟨hnone, hhalt.symm⟩

/-! ## How a run stops -/

/-- It is at the end of its script, suspended or abandoned. -/
def Settled (x : Execution) : Prop :=
  x.state = .finished ∨ x.state = .suspended ∨ x.state = .abandoned

/-- A halt is an end, a suspension or a failure, unless the program ends. -/
theorem settled_halt {r : Stepped} (hs : r.2.1.state = .running) :
    (halt r).2.Settled ↔ r.2.2 ≠ .crash := by
  obtain ⟨w, x, verdict⟩ := r
  cases verdict with
  | next => exact iff_of_true (Or.inl rfl) (by simp)
  | abandon f => exact iff_of_true (Or.inr (Or.inr rfl)) (by simp)
  | await wait => exact iff_of_true (Or.inr (Or.inl rfl)) (by simp)
  | crash =>
      refine iff_of_false ?_ (by simp)
      have hrunning : (halt (w, x, .crash)).2.state = .running := hs
      unfold Settled
      rw [hrunning]
      simp

/-- A step leaves the state of the execution to what comes after the run. -/
theorem state_step {x : Execution} {w : World} {segment : String} {r : Stepped}
    (h : Goes x w segment r) : r.2.1.state = x.state := by
  cases h <;> rfl

theorem state_steps {chain : List Moment} {r₀ r : Stepped} (hsteps : Steps chain r₀ r) :
    r₀.1.ArenaSound → r₀.2.1.Placed r₀.1 → r.2.1.state = r₀.2.1.state := by
  induction hsteps with
  | nil r => exact fun _ _ => rfl
  | @cons w x segment chain r hseg rest ih =>
      intro ha hp
      have hp' : x.advance.Placed w := ⟨hp.entry, hp.shell⟩
      have hgoes := step_goes hp' segment
      obtain ⟨harena, hplaced⟩ := arenaSound_step ha hp' hgoes
      rw [ih harena hplaced, state_step hgoes]
      rfl

/-- **Every run stops within its bound**, whatever bodies the open shells have: after at most the
segments left and the bodies of the entry's other open shells it has ended, is suspended or is
abandoned, unless one of its segments ends the program. That one is the last, and the world and the
execution are as they were before it. And every run that a happening sets off is of this kind. -/
theorem run_stops_unless_crashed (w : World) (x : Execution) :
    (w.ArenaSound → x.Placed w → x.state = .running →
      (∃ last, Steps (trace w x) (w, x, .next) last ∧ Stopped last ∧ halt last = run w x) ∧
        (trace w x).length ≤ x.segments.length - x.pos +
          ((x.others w).map fun (_, s) => (w.shell s).segments.length).sum ∧
        (∀ fuel, (trace w x).length < fuel → runFor fuel w x = run w x) ∧
        ((run w x).2.Settled ↔ ∀ μ ∈ trace w x, ¬ μ.Crashes) ∧
        ∀ before μ after, trace w x = before ++ μ :: after → μ.Crashes →
          after = [] ∧ run w x = (μ.world, μ.exec)) ∧
    (∀ (m : Machine) (h : Machine.Happening) (i : Nat), m.Reachable →
      m.setsOff? h = some (i, w, x) →
        w.ArenaSound ∧ x.Placed w ∧ x.state = .running ∧ (m.turn h).world = (run w x).1) := by
  refine ⟨fun ha hp hs => ?_, fun m h i hm hrun => ?_⟩
  · obtain ⟨last, hsteps, hstop, hhalt, hlen⟩ := stops_run ha hp
    unfold stepBound at hlen
    rw [otherBodies_eq] at hlen
    have hrunning : last.2.1.state = .running := (state_steps hsteps ha hp).trans hs
    have hfuel : ∀ fuel, (trace w x).length < fuel → runFor fuel w x = run w x := by
      intro fuel hfuel
      rw [← hhalt]
      exact goOn_of_steps hsteps hstop hfuel
    have hsettled : (run w x).2.Settled ↔ ∀ μ ∈ trace w x, ¬ μ.Crashes := by
      rw [← hhalt, settled_halt hrunning, ne_eq, crash_steps hsteps]
      simp
    exact ⟨⟨last, hsteps, hstop, hhalt⟩, hlen, hfuel, hsettled,
      fun before μ after htrace hcrashes => run_of_crashes ha hp htrace hcrashes⟩
  · have hbegins := Machine.begins_of_setsOff (Machine.sound_reachable hm) hrun
    have hunderway := hbegins.stage.underway
    exact ⟨hbegins.stage.world.arena, hunderway.placed, hunderway.running, Machine.world_turn hrun⟩

/-- An entry with a shell that an earlier execution left behind. Its body opens a shell itself. -/
def dangling : World :=
  { document := .empty
    entries := #[{ key := "p", script := "+T:a", element := ⟨0⟩ }]
    shells := #[{ name := "a", entry := "p", target := "T", element := ⟨0⟩
                  segments := ["+T:b", "&x:one", "-a", "+T:b"] }]
    openShells := [(("p", "a"), 0)] }

/-- An execution of that entry before its first segment. -/
def visitor : Execution :=
  { entry := 0, key := "p", trigger := ⟨0⟩, segments := ["+T:a"], state := .running }

theorem dangling_arenaSound : dangling.ArenaSound := by
  have hone : ∀ place s, (place, s) ∈ dangling.openShells → place = ("p", "a") ∧ s = 0 := by
    intro place s h
    simpa [dangling] using h
  refine ⟨by decide, fun place s h => ?_, fun place s h => ?_⟩
  · obtain ⟨rfl, rfl⟩ := hone place s h
    decide
  · obtain ⟨rfl, rfl⟩ := hone place s h
    decide

theorem visitor_placed : visitor.Placed dangling := ⟨by decide, fun s hs => by simp [visitor] at hs⟩

/-- The visitor has one segment left and the body of the shell has four; it steps all five. -/
theorem visitor_stops_within_five :
    dangling.ArenaSound ∧ visitor.Placed dangling ∧ visitor.state = .running ∧
      (trace dangling visitor).length ≤ 5 ∧ (trace dangling visitor).length = 5 ∧
      (run dangling visitor).2.state = .finished ∧
      ∀ μ ∈ trace dangling visitor, ¬ μ.Crashes := by
  obtain ⟨-, hlen, -, hsettled, -⟩ :=
    (run_stops_unless_crashed dangling visitor).1 dangling_arenaSound visitor_placed rfl
  have hfinished : (run dangling visitor).2.state = .finished := by decide +kernel
  exact ⟨dangling_arenaSound, visitor_placed, rfl, hlen, by decide +kernel, hfinished,
    hsettled.mp (Or.inl hfinished)⟩

end Execution

namespace Machine

open Execution

/-- A page with two matches of a class, and a script that selects from the second one on with the
greatest step. -/
def overrunning : Machine :=
  registered (init
    { nodes := #[⟨.document, [⟨1⟩, ⟨2⟩]⟩,
        ⟨.element "div" "" [⟨"", "id", "p"⟩, ⟨"", "class", "c"⟩,
          ⟨"", "inline", ".c[1:2:9223372036854775807].title:x |&y:1"⟩], []⟩,
        ⟨.element "p" "" [⟨"", "class", "c"⟩], []⟩] } "inline" [])

theorem overrunning_reachable : overrunning.Reachable :=
  ⟨_, _, [], fun _ _ h => absurd h List.not_mem_nil, (Leads.refl _).step (.register _ _ _)⟩

/-- Its run does not get past the first segment, and comes to no halt. -/
theorem overrunning_unsettled :
    ∃ (w : World) (x : Execution), w.ArenaSound ∧ x.Placed w ∧ x.state = .running ∧
      ¬ (run w x).2.Settled := by
  obtain ⟨⟨i, w, x⟩, hrun, hcrashed⟩ :
      ∃ r ∈ overrunning.setsOff? (.start "p" 0), (run r.2.1 r.2.2).2.crashed = true := by
    decide +kernel
  have hunderway := (begins_of_setsOff (sound_reachable overrunning_reachable) hrun).stage
  refine ⟨w, x, hunderway.world.arena, hunderway.underway.placed, hunderway.underway.running, ?_⟩
  have hstate : (run w x).2.state = .running := of_decide_eq_true hcrashed
  unfold Settled
  rw [hstate]
  simp

end Machine

end PageMacro
