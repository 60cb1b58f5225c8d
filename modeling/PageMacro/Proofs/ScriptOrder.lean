import Mathlib.Data.List.TakeWhile
import PageMacro.Proofs.Isolation
import PageMacro.Proofs.Termination

/-!
# A script is stepped in order

An open hands the rest of the script to a shell, and the execution goes on in the
shell's copy; a close takes it back to the entry, but not to the entry's list. So the
list that an execution works on changes all the time. What stays is what is `left` of
it, as long as every open shell of the entry is the one that the execution is in
(`Sole`): then an open always makes a new shell, and a new shell has for its body what
is left.

With no open shell at the start, and no other execution of an entry with that key in
between, this goes on through all suspensions: what has been stepped and what is left
make up the script. The execution is in one of four situations then (`Progress`).

This is so while no segment ends the program (`Unbroken`). Up to the one that does, what
is stepped is still a beginning of the script.
-/

namespace PageMacro

/-! ## Blank scripts -/

theorem Text.isBlank_of_trim {s : String} (h : (Text.trim s).isEmpty) :
    ∀ c ∈ s.toList, Text.isBlank c := by
  have hnil : Text.trimChars s.toList = [] := by simpa [Text.trim] using h
  unfold Text.trimChars Text.dropEndWhile at hnil
  rw [List.reverse_eq_nil_iff, List.dropWhile_eq_nil_iff] at hnil
  intro c hc
  rw [← List.takeWhile_append_dropWhile (p := Text.isBlank) (l := s.toList)] at hc
  rcases List.mem_append.mp hc with hc | hc
  · exact List.mem_takeWhile_imp hc
  · exact hnil c (List.mem_reverse.mpr hc)

/-- A blank script has no segments. -/
theorem Segment.split_of_blank {script : String} (h : (Text.trim script).isEmpty) :
    Segment.split script = [] := by
  have hbar : '|' ∉ script.toList := fun hm => by
    have := Text.isBlank_of_trim h '|' hm
    revert this
    decide
  unfold Segment.split Text.splitAtChar
  rw [List.splitOn_eq_singleton hbar]
  simpa using h

namespace Execution

/-! ## Verdicts -/

/-- A failure and a wait are those of the segment. -/
def Verdict.Of (segment : String) : Verdict → Prop
  | .next => True
  | .abandon failure =>
    ∃ f, failure = .verb (Segment.verbParts segment).1 (Segment.verbParts segment).2 f
  | .await wait => wait.segment = segment
  | .crash => True

theorem verbParts_of_verbCall {segment verb parameters : String}
    (h : Segment.ofScript? segment = some (.verbCall verb parameters)) :
    Segment.verbParts segment =
      (verb, (Segment.splitParameters parameters).map Segment.unescape) := by
  unfold Segment.verbParts
  rw [h]

theorem conclude_of {x : Execution} {w : World} {segment name : String} {args : List String}
    (h : Segment.verbParts segment = (name, args)) (answer : Answer) :
    (x.conclude w name args answer).2.2.Of segment := by
  unfold conclude
  cases answer with
  | ok v => exact trivial
  | error f => exact ⟨f, by rw [h]⟩

theorem callVerb_of {segment name parameters : String}
    (h : Segment.ofScript? segment = some (.verbCall name parameters)) (x : Execution) (w : World) :
    (x.callVerb w segment name parameters).2.2.Of segment := by
  have hparts := verbParts_of_verbCall h
  unfold callVerb
  split
  · exact trivial
  · dsimp only
    -- what is pending waits with this segment; every other outcome is answered at once
    split
    · exact rfl
    · exact conclude_of hparts _
    · exact conclude_of hparts _
    · exact conclude_of hparts _

/-- **Only a verb call ends or suspends a run** that the program survives. -/
theorem next_or_callVerb {x : Execution} {w : World} (hp : x.Placed w) {segment : String}
    (hlive : (x.step w segment).2.2 ≠ .crash) :
    (x.step w segment).2.2 = .next ∨ ∃ name parameters,
      Segment.ofScript? segment = some (.verbCall name parameters) ∧
        x.step w segment = x.callVerb w segment name parameters := by
  cases hs : Segment.ofScript? segment with
  | none => exact Or.inl (by unfold step; rw [hs])
  | some shape =>
      cases shape with
      | shellOpen target name =>
          refine Or.inl ?_
          cases hx : x.shell with
          | none =>
              have ho : x.opens? segment = some (target, name) := by unfold opens?; rw [hs, hx]
              obtain ⟨-, log, ⟨s, -, heq⟩ | ⟨-, heq⟩⟩ := step_open hp.entry ho
              · rw [heq]
              · rw [heq]
          | some s =>
              unfold step openShell
              rw [hs, hx]
      | shellClose name =>
          refine Or.inl ?_
          cases hc : x.closes? w segment with
          | some s =>
              obtain ⟨_, -, -, heq⟩ := step_close hc
              rw [heq]
          | none =>
              unfold closes? at hc
              rw [hs] at hc
              unfold step closeShell World.detachShell
              rw [hs]
              dsimp only at hc ⊢
              rw [hc]
              rfl
      | verbCall name parameters =>
          refine Or.inr ⟨name, parameters, rfl, ?_⟩
          unfold step
          rw [hs]
      | attrWrite | propRead | nopStore => exact Or.inl (by unfold step; rw [hs]; rfl)
      | indexedWrite =>
          refine Or.inl ?_
          unfold step writeIndexed at hlive ⊢
          rw [hs] at hlive ⊢
          dsimp only at hlive ⊢
          split at hlive
          · exact absurd rfl hlive
          · rfl
          · rfl
      | literalAssign => exact Or.inl (by unfold step assign; rw [hs]; dsimp only; split <;> rfl)
      | propWrite => exact Or.inl (by unfold step writeProp; rw [hs]; dsimp only; split <;> rfl)
      | contentSet => exact Or.inl (by unfold step setContent; rw [hs]; dsimp only; split <;> rfl)

/-- It does so in its own name. -/
theorem step_of {x : Execution} {w : World} (hp : x.Placed w) (segment : String) :
    (x.step w segment).2.2.Of segment := by
  by_cases hcrash : (x.step w segment).2.2 = .crash
  · rw [hcrash]
    exact trivial
  · rcases next_or_callVerb hp hcrash with hnext | ⟨name, parameters, hs, heq⟩
    · rw [hnext]
      exact trivial
    · rw [heq]
      exact callVerb_of hs x w

/-- A verb call leaves the page alone. -/
theorem callVerb_document (x : Execution) (w : World) (segment name parameters : String) :
    (x.callVerb w segment name parameters).1.document = w.document := by
  have hconclude : ∀ (w' : World) (args : List String) (act : StateM Desk Answer),
      (x.conclude (x.atDesk w' act).1 name args (x.atDesk w' act).2).1.document = w'.document := by
    intro w' args act
    rw [atDesk_eq]
    unfold conclude
    split <;> rfl
  unfold callVerb
  split
  · rfl
  · dsimp only
    split
    · rw [atDesk_eq]; rfl
    · rw [hconclude, atDesk_eq]; rfl
    · rw [hconclude, atDesk_eq]; rfl
    · rw [hconclude, atDesk_eq]; rfl

/-- **A segment that fails** has written variables of its scope and records at most, and closes
nothing. -/
theorem step_abandon {x y : Execution} {w w' : World} {segment : String} {f : Failure}
    (hp : x.Placed w) (h : x.step w segment = (w', y, .abandon f)) :
    y.closing = x.closing ∧ ∃ vars log, w' = y.patch w ⟨w.document, vars, log⟩ := by
  have hdocument : w'.document = w.document := by
    rcases next_or_callVerb hp (by rw [h]; simp) with hnext | ⟨name, parameters, -, heq⟩
    · rw [h] at hnext
      simp at hnext
    · rw [← callVerb_document x w segment name parameters, ← heq, h]
  have hgoes := step_goes hp segment
  rw [h] at hgoes
  cases hgoes with
  | patches p c v =>
      refine ⟨rfl, p.vars, p.log, ?_⟩
      rw [← show p.document = w.document from hdocument]
      rfl

/-! ## What is left -/

/-- The segments that an execution has left. -/
def left (x : Execution) : List String := x.segments.drop x.pos

/-- Every open shell of the entry is the one that the execution is in. -/
def Sole (x : Execution) (w : World) : Prop :=
  ∀ name s, (((w.entry x.entry).key, name), s) ∈ w.openShells → x.shell = some s

theorem left_of_segment {x : Execution} {segment : String}
    (h : x.segments[x.pos]? = some segment) : x.left = segment :: x.advance.left := by
  obtain ⟨hlt, heq⟩ := List.getElem?_eq_some_iff.mp h
  unfold left advance
  rw [List.drop_eq_getElem_cons hlt, heq]

theorem left_of_end {x : Execution} (h : x.segments[x.pos]? = none) : x.left = [] :=
  List.drop_eq_nil_of_le (List.getElem?_eq_none_iff.mp h)

/-- **A step keeps what is left**, and every open shell the execution's own. -/
theorem sole_step {x : Execution} {w : World} {segment : String} {r : Stepped}
    (ha : w.ArenaSound) (hsole : x.Sole w) (h : Goes x w segment r) :
    r.2.1.Sole r.1 ∧ r.2.1.left = x.left := by
  have hkey := key_step h
  unfold Sole
  rw [hkey]
  cases h with
  | patches p c v => exact ⟨fun name s hm => hsole name s (patch_openShells p ▸ hm), rfl⟩
  | closes s name hclose hname hfind =>
      refine ⟨fun other t hm => ?_, rfl⟩
      -- the shell that is closed was the only one, so none is left
      have hs := hsole name s (World.filed_of_openShell? hfind)
      have ht := hsole other t (World.mem_unfile.mp hm).1
      obtain rfl : s = t := Option.some.inj (hs.symm.trans ht)
      exact absurd rfl (ha.ne_of_mem_unfile hfind hm)
  | enters target name s log hopen hout hfind =>
      have hs := hsole name s (World.filed_of_openShell? hfind)
      rw [hout] at hs
      simp at hs
  | makes target name log hopen hout hfree =>
      refine ⟨fun other s hm => ?_, rfl⟩
      rcases World.mem_file.mp hm with hm | heq
      · have hs := hsole other s (patch_openShells (x.dueMerged w name log) ▸ hm)
        rw [hout] at hs
        simp at hs
      · rw [(Prod.mk.inj heq).2, patch_shells_size]
        rfl

/-- **What is stepped comes off what is left**, in order. -/
theorem left_steps {trace : List Moment} {r₀ r : Stepped} (hsteps : Steps trace r₀ r) :
    StageSound r₀ → r₀.2.1.Sole r₀.1 →
      r.2.1.Sole r.1 ∧ trace.map (·.segment) ++ r.2.1.left = r₀.2.1.left := by
  induction hsteps with
  | nil r => exact fun _ hsole => ⟨hsole, rfl⟩
  | @cons w x segment trace r hseg rest ih =>
      intro hr hsole
      have hw : w.Sound := hr.world
      have hx : x.advance.Underway w := underway_advance hr.underway
      have hgoes := step_goes hx.placed segment
      obtain ⟨hsole', hleft⟩ := sole_step hw.arena (x := x.advance) hsole hgoes
      obtain ⟨hend, hrest⟩ := ih (stageSound_step hw hx hgoes).1 hsole'
      refine ⟨hend, ?_⟩
      rw [List.map_cons, List.cons_append, hrest, hleft]
      exact (left_of_segment hseg).symm

/-! ## Where an execution stands -/

/-- Where an execution stands that has stepped some segments of a script. -/
inductive Progress (script stepped : List String) (x : Execution) : Prop
  /-- The script is blank: there was nothing to step. -/
  | blank (hstate : x.state = .abandoned) (hnone : script = []) (hstepped : stepped = [])
  /-- It waits for the last segment it has stepped, and the rest is left. -/
  | waiting (wait : Wait) (hstate : x.state = .suspended) (hwait : x.wait = some wait)
      (hlast : stepped.getLast? = some wait.segment) (hleft : stepped ++ x.left = script)
  /-- It has stepped the whole script. -/
  | ended (hstate : x.state = .finished) (hall : stepped = script)
  /-- The last segment it has stepped has failed. -/
  | failed (segment : String) (f : Failure) (hstate : x.state = .abandoned)
      (hlast : stepped.getLast? = some segment)
      (hfailure : x.failure =
        some (.verb (Segment.verbParts segment).1 (Segment.verbParts segment).2 f))
      (hfront : stepped <+: script)

/-- **A run that begins with what is left of a script** steps a beginning of it. -/
theorem front_run {w : World} {x : Execution} {script stepped : List String}
    (hstage : StageSound (w, x, .next)) (hsole : x.Sole w) (hleft : stepped ++ x.left = script) :
    stepped ++ (trace w x).map (·.segment) <+: script := by
  obtain ⟨last, hsteps, -⟩ := stops_run hstage.world.arena hstage.underway.placed
  refine ⟨last.2.1.left, ?_⟩
  rw [List.append_assoc, (left_steps hsteps hstage hsole).2]
  exact hleft

/-- **It goes through the script in order**, if the program survives it. -/
theorem progress_run {w : World} {x : Execution} {script stepped : List String}
    (hstage : StageSound (w, x, .next)) (hlive : Survives w x) (hsole : x.Sole w)
    (hleft : stepped ++ x.left = script) :
    Progress script (stepped ++ (trace w x).map (·.segment)) (run w x).2 ∧
      (run w x).2.Sole (run w x).1 := by
  obtain ⟨last, hsteps, hstop, hlast, hhalt⟩ := runs_of_survives hstage hlive
  obtain ⟨hsole', hmoved⟩ := left_steps hsteps hstage hsole
  have hentry := (stageSound_steps hsteps hstage).1.underway.placed.entry
  have hscript : stepped ++ (trace w x).map (·.segment) ++ last.2.1.left = script := by
    rw [List.append_assoc, hmoved]
    exact hleft
  -- a verdict that stops the run is that of the last segment
  have hof : last.2.2 = .next ∨ ∃ segment,
      (stepped ++ (trace w x).map (·.segment)).getLast? = some segment ∧
        last.2.2.Of segment := by
    rcases steps_last hsteps with ⟨-, heq⟩ | ⟨before, μ, htrace, heq⟩
    · exact Or.inl (heq ▸ rfl)
    · refine Or.inr ⟨μ.segment, by rw [htrace]; simp, ?_⟩
      rw [htrace] at hsteps
      obtain ⟨y, hbefore, hexec, -⟩ := steps_split hsteps
      have hμ := underway_advance (stageSound_steps hbefore hstage).1.underway
      rw [heq]
      exact step_of (hexec ▸ hμ.placed) μ.segment
  rw [← hhalt]
  constructor
  · rw [halt_exec last hentry]
    obtain ⟨w', x', verdict⟩ := last
    cases verdict with
    | next =>
        rw [left_of_end hstop, List.append_nil] at hscript
        exact .ended rfl hscript
    | abandon failure =>
        rcases hof with h | ⟨segment, hseg, f, hf⟩
        · simp at h
        · exact .failed segment f rfl hseg (congrArg some hf) ⟨_, hscript⟩
    | await wait =>
        rcases hof with h | ⟨segment, hseg, hwait⟩
        · simp at h
        · exact .waiting wait rfl rfl (hseg.trans (congrArg some hwait.symm)) hscript
    | crash => exact absurd rfl hlast
  · obtain ⟨log, hworld, -, hsame, hshell, -⟩ := halt_eq hentry hlast
    intro name s hm
    rw [hworld, patch_openShells, patch_entry_vars, hsame] at hm
    rw [hshell]
    exact hsole' name s hm

/-! ## The commit at the end -/

/-- A world in which the pending closes of an execution are merged, and nothing else has changed
but for records. -/
def Commits (x : Execution) (w w' : World) : Prop :=
  ∃ log, w' = x.outside.patch w ⟨w.document, mergeAll w x.closing (w.entry x.entry).vars, log⟩

theorem commits_halt {r : Stepped} (h : r.2.1.entry < r.1.entries.size) (hlive : r.2.2 ≠ .crash) :
    Commits r.2.1 r.1 (halt r).1 := by
  obtain ⟨log, hworld, -⟩ := halt_eq h hlive
  exact ⟨log, hworld⟩

/-- With nothing pending nothing changes. -/
theorem commits_refl {x : Execution} {w : World} (hc : x.closing = []) : Commits x w w := by
  refine ⟨[], ?_⟩
  rw [hc]
  exact patch_self.symm

end Execution

namespace Machine

open Execution

/-! ## Along a history -/

/-- In a history no execution but the one with a number runs an entry with a key. -/
def Undisturbed (m : Machine) (i : Nat) (key : String) : List Happening → Prop
  | [] => True
  | h :: history =>
    (∀ r ∈ m.running? h, r.1 ≠ i → (r.2.1.entry r.2.2.entry).key ≠ key) ∧
      (m.after h).Undisturbed i key history

/-- What goes along a history: where the execution stands, and while it waits, that every open shell
of its entry is its own. -/
structure OnTrack (m : Machine) (i : Nat) (key : String) (script stepped : List String)
    (x : Execution) : Prop where
  there : m.executions[i]? = some x
  progress : Progress script stepped x
  key : x.state = .suspended → (m.world.entry x.entry).key = key
  sole : x.state = .suspended → x.Sole m.world

section OnTrack

variable {m : Machine} {i : Nat} {key : String} {script stepped : List String} {x : Execution}

/-- The execution waits for the last segment it has stepped. -/
theorem OnTrack.waits (ht : m.OnTrack i key script stepped x) {y : Execution} {wait : Wait}
    (hy : m.executions[i]? = some y) (hs : y.state = .suspended) (hwait : y.wait = some wait) :
    y = x ∧ stepped.getLast? = some wait.segment ∧ stepped ++ x.left = script := by
  obtain rfl : x = y := Option.some.inj (ht.there.symm.trans hy)
  refine ⟨rfl, ?_⟩
  cases ht.progress with
  | waiting wait' _ hwait' hlast hleft =>
      obtain rfl : wait' = wait := Option.some.inj (hwait'.symm.trans hwait)
      exact ⟨hlast, hleft⟩
  | blank hstate | ended hstate | failed _ _ hstate => rw [hs] at hstate; simp at hstate

/-- A wait that fails is the end. -/
theorem OnTrack.fails (hm : m.Sound) (ht : m.OnTrack i key script stepped x) {y : Execution}
    {wait : Wait} (hy : m.executions[i]? = some y) (hs : y.state = .suspended)
    (hwait : y.wait = some wait) (f : Failure) (w : World) :
    Progress script stepped (failWait wait f w y).2 ∧
      (failWait wait f w y).2.state ≠ .suspended := by
  obtain ⟨rfl, hlast, hleft⟩ := ht.waits hy hs hwait
  rw [failWait_of_closing_nil (hm.rested y (Array.mem_of_getElem? hy) hs).2.1]
  exact ⟨.failed wait.segment f rfl hlast rfl ⟨_, hleft⟩, by simp [gaveUp]⟩

/-- While other entries run, the open shells of the entry stay the execution's own. -/
theorem OnTrack.spared (hm : m.Sound) (ht : m.OnTrack i key script stepped x) {h : Happening}
    (hidle : ∀ r ∈ m.running? h, r.1 ≠ i)
    (halone : ∀ r ∈ m.running? h, r.1 ≠ i → (r.2.1.entry r.2.2.entry).key ≠ key)
    (hthere : (m.after h).executions[i]? = some x) :
    (m.after h).OnTrack i key script stepped x := by
  have hkey : x.state = .suspended → ((m.after h).world.entry x.entry).key = key := by
    intro hs
    have hhome := (hm.rested x (Array.mem_of_getElem? ht.there) hs).1
    rw [(sound_step hm (step_after m h)).2.keys _ hhome.placed.entry]
    exact ht.key hs
  refine ⟨hthere, ht.progress, hkey, fun hs name s hfiled => ?_⟩
  rw [hkey hs] at hfiled
  refine ht.sole hs name s ?_
  rw [ht.key hs]
  exact filed_after hm (fun r hr => halone r hr (hidle r hr)) name s hfiled

/-- **A run of the execution** goes on with what is left. -/
theorem OnTrack.runs (hm : m.Sound) {h : Happening} {w : World}
    (hrun : m.running? h = some (i, w, x))
    (hthere : (m.after h).executions[i]? = some (run w x).2)
    (hkey : (w.entry x.entry).key = key) (hsole : x.Sole w) (hleft : stepped ++ x.left = script) :
    (m.after h).OnTrack i key script (stepped ++ (m.moments i h).map (·.segment)) (run w x).2 := by
  have hstretch := stretch_of_running hrun
  obtain ⟨hstage, -, -⟩ := hstretch.begins hm
  obtain ⟨hprogress, hsole'⟩ :=
    progress_run hstage (setsOff_of_running hrun).2.1 hsole hleft
  rw [moments_of_running hrun]
  refine ⟨hthere, hprogress, fun hs => ?_, fun _ => by rw [hstretch.world_eq]; exact hsole'⟩
  rw [hstretch.world_eq]
  exact (key_run hstage).trans hkey

/-- **Where the execution is resumed**, what is left of the script is what its run begins with. -/
theorem OnTrack.resumes (hm : m.Sound) (ht : m.OnTrack i key script stepped x) {h : Happening}
    {w : World} {y : Execution} (hset : m.setsOff? h = some (i, w, y)) :
    (w.entry y.entry).key = key ∧ y.Sole w ∧ stepped ++ y.left = script := by
  have hlt : i < m.executions.size := (Array.getElem?_eq_some_iff.mp ht.there).1
  rcases setsOff_cases hset with ⟨_, _, -, hi, -⟩ | ⟨_, z, wait, v, -, hz, hs, hwait, -, rfl⟩
  · omega
  · obtain ⟨rfl, -, hleft⟩ := ht.waits hz hs hwait
    have hhome := (hm.rested z (Array.mem_of_getElem? hz) hs).1
    have hkey : (w.entry z.entry).key = (m.world.entry z.entry).key :=
      (begins_of_setsOff hm hset).grows.keys _ hhome.placed.entry
    refine ⟨hkey.trans (ht.key hs), fun name s hfiled => ?_, hleft⟩
    rw [(beside_of_setsOff hset).openShells] at hfiled
    exact ht.sole hs name s (hkey ▸ hfiled)

/-- **A happening keeps the execution on track.** -/
theorem onTrack_after (hm : m.Sound) (ht : m.OnTrack i key script stepped x) {h : Happening}
    (halone : ∀ r ∈ m.running? h, r.1 ≠ i → (r.2.1.entry r.2.2.entry).key ≠ key) :
    ∃ y, (m.after h).OnTrack i key script (stepped ++ (m.moments i h).map (·.segment)) y := by
  have hlt : i < m.executions.size := (Array.getElem?_eq_some_iff.mp ht.there).1
  have hfate := fate_after m i h
  generalize hleaves : (m.after h).executions[i]? = leaves at hfate
  cases hfate with
  | spared hidle =>
      rw [moments_of_idle hidle, List.map_nil, List.append_nil]
      exact ⟨x, ht.spared hm hidle halone (hleaves.trans ht.there)⟩
  | starts hi => omega
  | refused hi => omega
  | @resumes answer y wait w v hy hs hwait hdesk hlive =>
      have hset := setsOff_settle hy hs hwait hdesk
      obtain ⟨hkey, hsole, hleft⟩ := ht.resumes hm hset
      exact ⟨_, OnTrack.runs hm (running_of_setsOff hset hlive) hleaves hkey hsole hleft⟩
  | rejected hy hs hwait hdesk =>
      obtain ⟨hprogress, hnot⟩ := ht.fails hm hy hs hwait _ _
      have hidle := moments_of_idle (i := i) (m := m) (h := .settle i _) fun r hr => by
        rw [running_of_idle (setsOff_settle_error hy hs hwait hdesk)] at hr
        simp at hr
      rw [hidle, List.map_nil, List.append_nil]
      exact ⟨_, hleaves, hprogress, fun hs => absurd hs hnot, fun hs => absurd hs hnot⟩
  | @interrupted why _ _ hy hs hwait =>
      obtain ⟨hprogress, hnot⟩ := ht.fails hm hy hs hwait _ _
      have hidle := moments_of_idle (i := i) (m := m) (h := .interrupt i why) fun r hr => by
        rw [running_of_idle rfl] at hr
        simp at hr
      rw [hidle, List.map_nil, List.append_nil]
      exact ⟨_, hleaves, hprogress, fun hs => absurd hs hnot, fun hs => absurd hs hnot⟩

/-- **So does every history** in which no other execution of the entry runs. -/
theorem onTrack_afterAll {history : List Happening} (hm : m.Reachable)
    (ht : m.OnTrack i key script stepped x) (halone : m.Undisturbed i key history) :
    ∃ y, (m.afterAll history).OnTrack i key script
      (stepped ++ (m.course i history).map (·.segment)) y := by
  induction history generalizing m stepped x with
  | nil =>
      rw [course, List.map_nil, List.append_nil]
      exact ⟨x, ht⟩
  | cons h history ih =>
      obtain ⟨hfirst, hrest⟩ := halone
      obtain ⟨y, hy⟩ := onTrack_after (sound_reachable hm) ht hfirst
      rw [course, List.map_append, ← List.append_assoc]
      exact ih (hm.after h) hy hrest

end OnTrack

/-! ## Breaking off -/

/-- An execution breaks off in a happening: the world that all earlier segments have left behind,
and the world and the execution after the verb that failed, was rejected or was cancelled. -/
inductive Breaks (m : Machine) (i : Nat) : Happening → World → World → Execution → Prop
  /-- There is no script. -/
  | refusal {key : String} {context : Nat} (hi : i = m.executions.size)
      (hx : ofKey? m.world key context = none) :
      Breaks m i (.start key context) m.world (refusedRecord m.world key)
        (refused m.world key context)
  /-- A segment of a run fails. -/
  | segment {h : Happening} {w w' : World} {x y : Execution} {before : List Moment} {μ : Moment}
      {f : Failure} (hrun : m.running? h = some (i, w, x)) (htrace : trace w x = before ++ [μ])
      (hfails : μ.after = (w', y, .abandon f)) (hpending : y.closing = μ.exec.closing) :
      Breaks m i h μ.world w' y
  /-- What it waits for fails. -/
  | answer {answer : Answer} {x : Execution} {wait : Wait} {w : World} {f : Failure}
      (hx : m.executions[i]? = some x) (hs : x.state = .suspended) (hwait : x.wait = some wait)
      (hdesk : x.atDesk m.world (wait.result.settle answer) = (w, .error f)) :
      Breaks m i (.settle i answer) m.world (x.waitRecord wait f w) x
  /-- It is interrupted while it waits. -/
  | interruption {why : Interruption} {x : Execution} {wait : Wait}
      (hx : m.executions[i]? = some x) (hs : x.state = .suspended) (hwait : x.wait = some wait) :
      Breaks m i (.interrupt i why) m.world (x.waitRecord wait (.abandoned why) m.world) x

/-- The record of a failed wait, as a patch. -/
theorem waitRecord_patch (x : Execution) (w : World) (wait : Wait) (f : Failure) (vars : Store)
    (log : List Record) : ∃ log', x.waitRecord wait f (x.patch w ⟨w.document, vars, log⟩) =
      x.patch w ⟨w.document, vars, log'⟩ :=
  ⟨_, patch_record (x := x) (w := w) ⟨w.document, vars, log⟩ _⟩

/-- **A verb that fails undoes nothing**: it has written variables of its scope and records. -/
theorem Breaks.patches {m : Machine} {i : Nat} {h : Happening} {w₀ w : World} {x : Execution}
    (hm : m.Sound) (hb : m.Breaks i h w₀ w x) :
    ∃ vars log, w = x.patch w₀ ⟨w₀.document, vars, log⟩ := by
  cases hb with
  | refusal hi hx => exact ⟨_, _, (patch_page m.world.document _).symm⟩
  | @segment _ w' _ x' _ before μ f hrun htrace hfails hpending =>
      obtain ⟨hworld, hx, -⟩ := (stretch_of_running hrun).split hm htrace
      exact (step_abandon hx.placed hfails).2
  | answer hx hs hwait hdesk =>
      rw [atDesk_eq] at hdesk
      rw [← (Prod.mk.inj hdesk).1]
      exact ⟨_, waitRecord_patch x m.world _ _ _ _⟩
  | @interruption why _ wait hx hs hwait =>
      have hrecord := waitRecord_patch x m.world wait (.abandoned why) (x.vars m.world) []
      rw [patch_self] at hrecord
      exact ⟨_, hrecord⟩

theorem world_update {m : Machine} {i : Nat} {x : Execution} (hx : m.executions[i]? = some x)
    (f : World → Execution → World × Execution) : (m.update i f).world = (f m.world x).1 := by
  unfold update
  rw [hx]

/-- A run that ends in a failure has failed in its last segment. -/
theorem breaks_run {m : Machine} {i : Nat} {h : Happening} {w : World} {x : Execution}
    (hm : m.Sound) (hrun : m.running? h = some (i, w, x))
    (hstate : (run w x).2.state = .abandoned) :
    ∃ w₀ w' y, m.Breaks i h w₀ w' y ∧ Commits y w' (m.after h).world := by
  have hstretch := stretch_of_running hrun
  obtain ⟨hstage, -, -⟩ := hstretch.begins hm
  obtain ⟨last, hsteps, -, hlast, hhalt⟩ :=
    runs_of_survives hstage (setsOff_of_running hrun).2.1
  have hentry := (stageSound_steps hsteps hstage).1.underway.placed.entry
  have hcommits := commits_halt hentry hlast
  rw [hhalt, ← hstretch.world_eq] at hcommits
  rw [← hhalt] at hstate
  obtain ⟨w', y, verdict⟩ := last
  cases verdict with
  | next => simp [halt, finish] at hstate
  | await wait => simp [halt, suspend] at hstate
  | crash => exact absurd rfl hlast
  | abandon f =>
      rcases steps_last hsteps with ⟨-, heq⟩ | ⟨before, μ, htrace, heq⟩
      · simp at heq
      · obtain ⟨-, hx, -⟩ := hstretch.split hm htrace
        exact ⟨_, w', y, .segment hrun htrace heq.symm (step_abandon hx.placed heq.symm).1,
          hcommits⟩

/-- **Where an execution is abandoned, it has broken off**, and what it does beyond that is the
commit of its pending closes. -/
theorem breaks_after {m : Machine} {i : Nat} {h : Happening} {y : Execution} (hm : m.Sound)
    (hy : (m.after h).executions[i]? = some y) (hstate : y.state = .abandoned)
    (hbefore : ∀ x, m.executions[i]? = some x → x.state ≠ .abandoned) :
    ∃ w₀ w x, m.Breaks i h w₀ w x ∧ Commits x w (m.after h).world := by
  have hfate := fate_after m i h
  rw [hy] at hfate
  generalize hleaves : some y = leaves at hfate
  cases hfate with
  | spared => exact absurd hstate (hbefore y hleaves.symm)
  | starts hi hx hlive =>
      rw [Option.some.inj hleaves] at hstate
      exact breaks_run hm (hi ▸ running_start hx hlive) hstate
  | refused hi hx =>
      rw [world_refused hx]
      exact ⟨_, _, _, .refusal hi hx, commits_refl rfl⟩
  | resumes hx hs hwait hdesk hlive =>
      rw [Option.some.inj hleaves] at hstate
      exact breaks_run hm (running_settle hx hs hwait hdesk hlive) hstate
  | @rejected answer x wait w f hx hs hwait hdesk =>
      have hc := (hm.rested x (Array.mem_of_getElem? hx) hs).2.1
      have hworld : (m.after (.settle i answer)).world = x.waitRecord wait f w := by
        rw [after_of_idle (setsOff_settle_error hx hs hwait hdesk)]
        show (m.settle i answer).world = _
        unfold Machine.settle
        rw [world_update hx, settle_of_error hs hwait hdesk, failWait_of_closing_nil hc]
      rw [hworld]
      exact ⟨_, _, _, .answer hx hs hwait hdesk, commits_refl hc⟩
  | @interrupted why x wait hx hs hwait =>
      have hc := (hm.rested x (Array.mem_of_getElem? hx) hs).2.1
      have hworld : (m.after (.interrupt i why)).world =
          x.waitRecord wait (.abandoned why) m.world := by
        show (m.update i (Execution.interrupt why)).world = _
        rw [world_update hx]
        unfold Execution.interrupt
        rw [hs, hwait]
        dsimp only
        rw [failWait_of_closing_nil hc]
      rw [hworld]
      exact ⟨_, _, _, .interruption hx hs hwait, commits_refl hc⟩

/-! ## Whole scripts -/

/-- The execution that a key starts has the whole script left; a blank script has no segments. -/
theorem ofKey_of_lookup {w : World} {key : String} {e : EntryId} (he : w.lookup? key = some e)
    (context : Nat) :
    ofKey? w key context = none ∧ Segment.split (w.entry e).script = [] ∨
      ∃ x, ofKey? w key context = some x ∧ x.entry = e ∧ x.shell = none ∧
        x.left = Segment.split (w.entry e).script := by
  unfold ofKey?
  rw [he]
  dsimp only
  split
  · rename_i hblank
    exact Or.inl ⟨rfl, Segment.split_of_blank hblank⟩
  · exact Or.inr ⟨_, rfl, rfl, rfl, rfl⟩

/-- A run that is started has the whole script left. -/
theorem sole_of_start {m : Machine} {key : String} {e : EntryId}
    (he : m.world.lookup? key = some e)
    (hfree : ∀ name s, (((m.world.entry e).key, name), s) ∉ m.world.openShells) {context i : Nat}
    {w : World} {x : Execution} (hset : m.setsOff? (.start key context) = some (i, w, x)) :
    (w.entry x.entry).key = (m.world.entry e).key ∧ x.Sole w ∧
      [] ++ x.left = Segment.split (m.world.entry e).script := by
  rcases ofKey_of_lookup he context with ⟨hnone, -⟩ | ⟨y, hy, hentry, -, hleft⟩
  · rw [setsOff_start_none hnone] at hset
    simp at hset
  · obtain ⟨-, rfl, rfl⟩ :
        m.executions.size = i ∧ startRecord m.world key y = w ∧ y = x := by
      simpa using (setsOff_start hy).symm.trans hset
    subst hentry
    exact ⟨rfl, fun name s hs => absurd hs (hfree name s), hleft⟩

/-- **A start is on track** if no shell of the entry is open. -/
theorem onTrack_start {m : Machine} {key : String} {e : EntryId} (hm : m.Sound)
    (he : m.world.lookup? key = some e) (context : Nat)
    (hfree : ∀ name s, (((m.world.entry e).key, name), s) ∉ m.world.openShells)
    (hlive : m.fatal (.start key context) = false) :
    ∃ y, (m.after (.start key context)).OnTrack m.executions.size (m.world.entry e).key
      (Segment.split (m.world.entry e).script)
      ((m.moments m.executions.size (.start key context)).map (·.segment)) y := by
  have hpush : (m.after (.start key context)).executions[m.executions.size]? =
      some (Execution.start m.world key context).2 := by
    rw [after_of_survives hlive]
    exact Array.getElem?_push_size
  rcases ofKey_of_lookup he context with ⟨hnone, hsplit⟩ | ⟨x, hx, -⟩
  · have hidle : ∀ r ∈ m.running? (.start key context), r.1 ≠ m.executions.size := by
      intro r hr
      rw [running_of_idle (setsOff_start_none hnone)] at hr
      simp at hr
    rw [start_of_none hnone] at hpush
    rw [hsplit, moments_of_idle hidle]
    exact ⟨_, hpush, .blank rfl rfl rfl, fun hs => by simp [refused, gaveUp] at hs,
      fun hs => by simp [refused, gaveUp] at hs⟩
  · rw [start_of_ofKey hx] at hpush
    have hset : m.setsOff? (.start key context) =
        some (m.executions.size, startRecord m.world key x, x) := setsOff_start hx
    obtain ⟨hkey, hsole, hall⟩ := sole_of_start he hfree hset
    exact ⟨_, OnTrack.runs hm (running_of_setsOff hset (fatal_start.mp hlive x hx)) hpush hkey
      hsole hall⟩

/-! ## Histories in which the program goes on -/

/-- No segment that is stepped in a history ends the program. -/
def Unbroken (m : Machine) : List Happening → Prop
  | [] => True
  | h :: history =>
    (∀ i w x, m.setsOff? h = some (i, w, x) → ∀ μ ∈ trace w x, ¬ μ.Crashes) ∧
      (m.after h).Unbroken history

/-- **The program ends in a run** where one of its segments crashes. -/
theorem fatal_iff {m : Machine} (hm : m.Sound) {h : Happening} {i : Nat} {w : World} {x : Execution}
    (hset : m.setsOff? h = some (i, w, x)) : m.fatal h = true ↔ ∃ μ ∈ trace w x, μ.Crashes := by
  have hstage := (begins_of_setsOff hm hset).stage
  obtain ⟨last, _, _, hsteps, hlast, hhalt, -⟩ := run_patch hstage
  rw [fatal_of_setsOff hset, ← hhalt, crashed_halt hlast.underway.running, crash_steps hsteps]

/-- A happening is survived if no segment that it sets off crashes. -/
theorem survives_iff {m : Machine} (hm : m.Sound) {h : Happening} :
    m.fatal h = false ↔
      ∀ i w x, m.setsOff? h = some (i, w, x) → ∀ μ ∈ trace w x, ¬ μ.Crashes := by
  cases hset : m.setsOff? h with
  | none => exact iff_of_true (survives_of_idle hset) (by simp)
  | some r =>
      obtain ⟨i, w, x⟩ := r
      rw [Bool.eq_false_iff, ne_eq, fatal_iff hm hset]
      simp

theorem undisturbed_append {m : Machine} {i : Nat} {key : String} {before after : List Happening}
    (h : m.Undisturbed i key (before ++ after)) : m.Undisturbed i key before := by
  induction before generalizing m with
  | nil => trivial
  | cons first before ih => exact ⟨h.1, ih h.2⟩

/-- What a run of the execution begins with, after a history that the program survives. -/
theorem left_before {m : Machine} {key : String} {e : EntryId} (hm : m.Reachable)
    (he : m.world.lookup? key = some e)
    (hfree : ∀ name s, (((m.world.entry e).key, name), s) ∉ m.world.openShells)
    {context : Nat} {later before after : List Happening} {h : Happening}
    (halone : m.Undisturbed m.executions.size (m.world.entry e).key
      (.start key context :: later))
    (hsplit : Happening.start key context :: later = before ++ h :: after)
    (hunbroken : m.Unbroken before) {w : World} {x : Execution}
    (hset : (m.afterAll before).setsOff? h = some (m.executions.size, w, x)) :
    x.Sole w ∧ (m.course m.executions.size before).map (·.segment) ++ x.left =
      Segment.split (m.world.entry e).script := by
  -- the run is the one that the start sets off, or it is resumed some time after it
  cases before with
  | nil =>
      obtain ⟨rfl, -⟩ : Happening.start key context = h ∧ later = after := by simpa using hsplit
      exact (sole_of_start he hfree hset).2
  | cons first before =>
      obtain ⟨rfl, hlater⟩ : Happening.start key context = first ∧ later = before ++ h :: after := by
        simpa using hsplit
      rw [hlater] at halone
      have hlive := (survives_iff (sound_reachable hm)).mpr hunbroken.1
      obtain ⟨y, hy⟩ := onTrack_start (sound_reachable hm) he context hfree hlive
      obtain ⟨z, hz⟩ := onTrack_afterAll (hm.after _) hy (undisturbed_append halone.2)
      have hsound := sound_reachable ((hm.after (.start key context)).afterAll before)
      rw [course, List.map_append]
      exact (hz.resumes hsound hset).2

/-- **A script is stepped in order.** Let an entry with no open shell be started, and let whatever
happens afterwards, only that no other execution of an entry with its key runs. As long as no segment
ends the program, what the execution has stepped is a beginning of the script at any time: it waits
at the end of it with the rest left, or it has stepped the whole script, or the last segment it has
stepped has failed.

Where it breaks off, all that the earlier segments have done is still there. What is added is what
the failing verb has written, and the commit of the closes that were pending; and the execution
stays as it is and steps nothing any more.

A segment of the execution that ends the program is the last one stepped, of a beginning of the
script again. It is no verb, and it changes nothing: no close is committed any more. -/
theorem script_stepped_until_crash {m : Machine} {key : String} {e : EntryId} (hm : m.Reachable)
    (he : m.world.lookup? key = some e)
    (hfree : ∀ name s, (((m.world.entry e).key, name), s) ∉ m.world.openShells)
    (context : Nat) (later : List Happening)
    (halone : m.Undisturbed m.executions.size (m.world.entry e).key
      (.start key context :: later)) :
    let i := m.executions.size
    let history := Happening.start key context :: later
    let script := Segment.split (m.world.entry e).script
    (m.Unbroken history → ∃ y, (m.afterAll history).executions[i]? = some y ∧
      Progress script ((m.course i history).map (·.segment)) y) ∧
    (∀ before h after y, history = before ++ h :: after →
      (∀ x, (m.afterAll before).executions[i]? = some x → x.state ≠ .abandoned) →
      ((m.afterAll before).after h).executions[i]? = some y → y.state = .abandoned →
        (∃ w₀ w x, (m.afterAll before).Breaks i h w₀ w x ∧
          (∃ vars log, w = x.patch w₀ ⟨w₀.document, vars, log⟩) ∧
          Commits x w ((m.afterAll before).after h).world) ∧
        (m.afterAll history).executions[i]? = some y ∧
        ((m.afterAll before).after h).course i after = []) ∧
    ∀ before h after w x, history = before ++ h :: after → m.Unbroken before →
      (m.afterAll before).setsOff? h = some (i, w, x) →
        (m.course i before ++ trace w x).map (·.segment) <+: script ∧
        ∀ stepped μ rest, trace w x = stepped ++ μ :: rest → μ.Crashes →
          rest = [] ∧ run w x = (μ.world, μ.exec) := by
  intro i history script
  refine ⟨fun hunbroken => ?_, ?_, ?_⟩
  · obtain ⟨hfirst, hrest⟩ := halone
    have hlive := (survives_iff (sound_reachable hm)).mpr hunbroken.1
    obtain ⟨x, hx⟩ := onTrack_start (sound_reachable hm) he context hfree hlive
    obtain ⟨y, hy⟩ := onTrack_afterAll (hm.after _) hx hrest
    rw [← List.map_append] at hy
    exact ⟨y, hy.there, hy.progress⟩
  · intro before h after y hsplit hbefore hy hstate
    have hsound := sound_reachable (hm.afterAll before)
    obtain ⟨w₀, w, x, hbreaks, hcommits⟩ := breaks_after hsound hy hstate hbefore
    obtain ⟨hend, hcourse⟩ := afterAll_of_over hy (Or.inr hstate) after
    refine ⟨⟨w₀, w, x, hbreaks, hbreaks.patches hsound, hcommits⟩, ?_, hcourse⟩
    rw [hsplit, show m.afterAll (before ++ h :: after) =
      ((m.afterAll before).after h).afterAll after from List.foldl_append]
    exact hend
  · intro before h after w x hsplit hunbroken hset
    have hstage := (begins_of_setsOff (sound_reachable (hm.afterAll before)) hset).stage
    obtain ⟨hsole, hleft⟩ := left_before hm he hfree halone hsplit hunbroken hset
    refine ⟨?_, fun stepped μ rest htrace hcrashes => ?_⟩
    · rw [List.map_append]
      exact front_run hstage hsole hleft
    · exact run_of_crashes hstage.world.arena hstage.underway.placed htrace hcrashes

/-- A verb that waits for something outside, and one that fails. -/
def faltering : Registry :=
  [("wait", .plain fun _ => pure (.await (.external "w"))),
    ("fail", .plain fun _ => pure (.fail (.host "no")))]

theorem faltering_lawful : faltering.Lawful := by
  intro name verb h
  rcases List.mem_cons.mp h with heq | h
  · obtain ⟨-, rfl⟩ := Prod.mk.inj heq
    exact fun inv => Desk.gives_pure (Result.lawful_outcome _)
  · obtain ⟨-, rfl⟩ := Prod.mk.inj (List.mem_singleton.mp h)
    exact fun inv => Desk.gives_pure (Result.lawful_outcome _)

/-- A script that waits in a shell, closes it, and fails before its last segment. -/
def brokenOff : Machine :=
  registered (page "+T:s |&x:one |wait:w |-s |fail:now |&y:two" faltering)

theorem brokenOff_reachable : brokenOff.Reachable := reachable_registered _ faltering_lawful

/-- Its execution is started, and what it waits for comes. -/
def brokenHistory : List Happening := [.start "p" 0, .settle 0 (.ok .undefined)]

/-- There the execution steps all but the last segment, in two runs, and the entry has got what the
closed shell held. -/
theorem brokenOff_stepped_in_order :
    ∃ e y, brokenOff.world.lookup? "p" = some e ∧
      (brokenOff.afterAll brokenHistory).executions[0]? = some y ∧ y.state = .abandoned ∧
      Progress (Segment.split (brokenOff.world.entry e).script)
        ["+T:s", "&x:one", "wait:w", "-s", "fail:now"] y ∧
      (∃ w₀ w x, (brokenOff.afterAll [.start "p" 0]).Breaks 0 (.settle 0 (.ok .undefined)) w₀ w x ∧
        Commits x w (brokenOff.afterAll brokenHistory).world) ∧
      textOf (((brokenOff.afterAll brokenHistory).world.entry e).vars.held "x") = some "one" := by
  obtain ⟨e, he, hsize, hnone, hstepped, hend, hfirst, htext, hstarts, hsettles⟩ :
      ∃ e ∈ brokenOff.world.lookup? "p", brokenOff.executions.size = 0 ∧
        brokenOff.world.openShells = [] ∧
        (brokenOff.course 0 brokenHistory).map (·.segment) =
          ["+T:s", "&x:one", "wait:w", "-s", "fail:now"] ∧
        (brokenOff.afterAll brokenHistory).executions[0]?.map (·.state) = some .abandoned ∧
        (brokenOff.afterAll [.start "p" 0]).executions[0]?.map (·.state) = some .suspended ∧
        textOf (((brokenOff.afterAll brokenHistory).world.entry e).vars.held "x") =
          some "one" ∧
        brokenOff.fatal (.start "p" 0) = false ∧
        (brokenOff.after (.start "p" 0)).fatal (.settle 0 (.ok .undefined)) = false := by
    decide +kernel
  -- from here on the page itself does not matter
  have hreach := brokenOff_reachable
  generalize brokenOff = m at *
  have hunbroken : m.Unbroken brokenHistory :=
    ⟨(survives_iff (sound_reachable hreach)).mp hstarts,
      (survives_iff (sound_reachable (hreach.after _))).mp hsettles, trivial⟩
  have halone : m.Undisturbed m.executions.size (m.world.entry e).key
      brokenHistory :=
    ⟨fun r hr hne => absurd (number_start hr) hne,
      fun r hr hne => absurd ((number_settle hr).trans hsize.symm) hne, trivial⟩
  have hfree : ∀ name s, (((m.world.entry e).key, name), s) ∉ m.world.openShells :=
    fun name s hs => by rw [hnone] at hs; simp at hs
  obtain ⟨hgoesOn, hbreaks, -⟩ := script_stepped_until_crash hreach he
    hfree 0 [.settle 0 (.ok .undefined)] halone
  obtain ⟨y, hy, hprogress⟩ := hgoesOn hunbroken
  rw [hsize] at hy hprogress hbreaks
  have hstate : y.state = .abandoned := by
    rw [brokenHistory, hy] at hend
    exact Option.some.inj hend
  have hbefore : ∀ x, (m.afterAll [.start "p" 0]).executions[0]? = some x →
      x.state ≠ .abandoned := by
    intro x hx
    rw [hx] at hfirst
    have hwaits : x.state = .suspended := Option.some.inj hfirst
    rw [hwaits]
    simp
  obtain ⟨⟨w₀, w, x, hbreak, -, hcommits⟩, -⟩ :=
    hbreaks [.start "p" 0] (.settle 0 (.ok .undefined)) [] y rfl hbefore hy hstate
  rw [← brokenHistory, hstepped] at hprogress
  exact ⟨e, y, he, hy, hstate, hprogress, ⟨w₀, w, x, hbreak, hcommits⟩, htext⟩

/-- A write that misses cuts its script short, though no verb fails: the second of two segments is
not stepped. -/
theorem overrunning_cut_short :
    ∃ e w x, overrunning.world.lookup? "p" = some e ∧ overrunning.world.openShells = [] ∧
      overrunning.setsOff? (.start "p" 0) = some (0, w, x) ∧
      Segment.split (overrunning.world.entry e).script =
        [".c[1:2:9223372036854775807].title:x", "&y:1"] ∧
      (trace w x).map (·.segment) = [".c[1:2:9223372036854775807].title:x"] ∧
      ¬ Progress (Segment.split (overrunning.world.entry e).script)
        ((trace w x).map (·.segment)) (run w x).2 := by
  obtain ⟨e, he, ⟨i, w, x⟩, hset, rfl, hnone, hsplit, hstepped, hcrashed⟩ :
      ∃ e ∈ overrunning.world.lookup? "p", ∃ r ∈ overrunning.setsOff? (.start "p" 0), r.1 = 0 ∧
        overrunning.world.openShells = [] ∧
        Segment.split (overrunning.world.entry e).script =
          [".c[1:2:9223372036854775807].title:x", "&y:1"] ∧
        (trace r.2.1 r.2.2).map (·.segment) = [".c[1:2:9223372036854775807].title:x"] ∧
        (run r.2.1 r.2.2).2.crashed = true := by
    decide +kernel
  refine ⟨e, w, x, he, hnone, hset, hsplit, hstepped, fun hprogress => ?_⟩
  have hstate : (run w x).2.state = .running := of_decide_eq_true hcrashed
  cases hprogress with
  | blank h | waiting _ h | ended h | failed _ _ h => rw [hstate] at h; simp at h

end Machine

end PageMacro
