import Mathlib.Algebra.GroupWithZero.Nat
import PageMacro.Machine.Run
import PageMacro.Proofs.Step

/-!
# Runs, segment by segment

`Execution.run` has fuel, and `Steps` has not: it relates two stages of a run by the
list of the moments between them, one for each segment that is stepped. A run is a
chain of steps to a stage that has nothing left to step, and then a halt.

That such a chain always exists is the content of `steps_exist`. An open may jump
back to the start of a body that another execution left behind, so the position is
no measure. What never grows is `stepBound`, the segments left together with the
bodies of the entry's open shells that the execution is not in:

* entering an open shell replaces the segments by a body, which leaves the sum;
* a new shell has the rest of the script as its body and is the active one;
* leaving a shell takes it off the list, so its body does not come back.

The last point needs `World.ArenaSound`: a shell filed in two places would come back.
-/

namespace PageMacro

/-- A segment about to be stepped, in its world and by its execution, whose position is already
past it. -/
structure Moment where
  world : World
  exec : Execution
  segment : String

namespace Moment

/-- The stage after the moment. -/
def after (m : Moment) : Execution.Stepped := m.exec.step m.world m.segment

/-- The shell that is closed. -/
def closes? (m : Moment) : Option ShellId := m.exec.closes? m.world m.segment

/-- The target and the name of the shell that is opened. -/
def opens? (m : Moment) : Option (String × String) := m.exec.opens? m.segment

end Moment

namespace Execution

/-- The execution past its next segment. -/
def advance (x : Execution) : Execution := { x with pos := x.pos + 1 }

/-- From one stage of a run to a later one, by the moments between them. -/
inductive Steps : List Moment → Stepped → Stepped → Prop
  | nil (r : Stepped) : Steps [] r r
  | cons {w : World} {x : Execution} {segment : String} {trace : List Moment} {r : Stepped}
      (hseg : x.segments[x.pos]? = some segment) (rest : Steps trace (x.advance.step w segment) r) :
      Steps (⟨w, x.advance, segment⟩ :: trace) (w, x, .next) r

/-- Nothing more is stepped. -/
def Stopped : Stepped → Prop
  | (_, x, .next) => x.segments[x.pos]? = none
  | (_, _, .abandon _) => True
  | (_, _, .await _) => True
  | (_, _, .crash) => True

/-- What a run comes to at a stage where it stops. -/
def halt : Stepped → World × Execution
  | (w, x, .next) => finish none w x
  | (w, x, .abandon f) => finish (some f) w x
  | (w, x, .await wait) => suspend wait w x
  | (w, x, .crash) => (w, x)

/-- What a run with some fuel comes to after a stage. -/
def goOn (fuel : Nat) : Stepped → World × Execution
  | (w, x, .next) => runFor fuel w x
  | (w, x, .abandon f) => finish (some f) w x
  | (w, x, .await wait) => suspend wait w x
  | (w, x, .crash) => (w, x)

theorem runFor_end {w : World} {x : Execution} (fuel : Nat) (h : x.segments[x.pos]? = none) :
    runFor (fuel + 1) w x = halt (w, x, .next) := by
  unfold runFor
  split
  · rfl
  · rename_i hsome
    rw [h] at hsome
    simp at hsome

theorem runFor_segment {w : World} {x : Execution} {segment : String} (fuel : Nat)
    (h : x.segments[x.pos]? = some segment) :
    runFor (fuel + 1) w x = goOn fuel (x.advance.step w segment) := by
  unfold runFor
  split
  · rename_i hnone
    rw [h] at hnone
    simp at hnone
  · rename_i found hfound
    obtain rfl : found = segment := Option.some.inj (hfound.symm.trans h)
    unfold advance
    generalize ({ x with pos := x.pos + 1 } : Execution).step w found = r
    obtain ⟨w', x', verdict⟩ := r
    cases verdict <;> rfl

/-- **A chain of steps is what the run does**, whatever fuel it has beyond its length. -/
theorem goOn_of_steps {trace : List Moment} {r₀ r : Stepped} (h : Steps trace r₀ r)
    (hstop : Stopped r) : ∀ {fuel : Nat}, trace.length < fuel → goOn fuel r₀ = halt r := by
  induction h with
  | nil r =>
      rintro (_ | fuel) hfuel
      · simp at hfuel
      · obtain ⟨w, x, verdict⟩ := r
        cases verdict with
        | next => rw [goOn, runFor_end fuel hstop]
        | abandon | await | crash => rfl
  | cons hseg rest ih =>
      rintro (_ | fuel) hfuel
      · simp at hfuel
      · rw [goOn, runFor_segment fuel hseg]
        exact ih hstop (by simpa using hfuel)

/-! ## The arena along a step -/

theorem arenaSound_patch {x : Execution} {w : World} (h : w.ArenaSound) (p : Patch) :
    (x.patch w p).ArenaSound where
  nodup := by rw [patch_openShells]; exact h.nodup
  bound := by rw [patch_openShells, patch_shells_size]; exact h.bound
  place := by
    intro place s hm
    rw [patch_openShells] at hm
    rw [patch_shell_vars]
    exact h.place place s hm

/-- **A step keeps the arena sound**, and the execution in its place. -/
theorem arenaSound_step {x : Execution} {w : World} {segment : String} {r : Stepped}
    (ha : w.ArenaSound) (hp : x.Placed w) (h : Goes x w segment r) :
    r.1.ArenaSound ∧ r.2.1.Placed r.1 := by
  cases h with
  | patches p c v =>
      exact ⟨arenaSound_patch ha p, (placed_patch hp p).entry, (placed_patch hp p).shell⟩
  | closes s name =>
      refine ⟨ha.unfile _, hp.entry, fun t ht => hp.shell t ?_⟩
      dsimp only at ht
      split at ht
      · simp at ht
      · exact ht
  | enters target name s log hopen hout hfind =>
      refine ⟨arenaSound_patch ha _, (placed_patch hp _).entry, fun t ht => ?_⟩
      rw [← Option.some.inj ht, patch_shells_size]
      exact ha.bound _ s (World.filed_of_openShell? hfind)
  | makes target name log hopen hout hfree =>
      refine ⟨(arenaSound_patch ha _).file ?_, (placed_patch hp _).entry, fun t ht => ?_⟩
      · unfold World.openShell?
        rw [patch_openShells]
        exact hfree
      · rw [← Option.some.inj ht, World.shells_size_file, patch_shells_size]
        exact Nat.lt_succ_self _

/-! ## The bound along a step -/

theorem sum_filter_le {α : Type} {p q : α → Bool} (f : α → Nat) :
    ∀ {l : List α}, (∀ a ∈ l, p a → q a) → ((l.filter p).map f).sum ≤ ((l.filter q).map f).sum
  | [], _ => Nat.le_refl _
  | a :: l, h => by
      have ih := sum_filter_le f (l := l) fun b hb => h b (List.mem_cons_of_mem a hb)
      have ha := h a List.mem_cons_self
      by_cases hp : p a
      · simp only [List.filter_cons, hp, ha hp, if_true, List.map_cons, List.sum_cons]
        omega
      · by_cases hq : q a
        · simp only [List.filter_cons, hp, hq, if_true, List.map_cons, List.sum_cons]
          simp only [Bool.false_eq_true, if_false]
          omega
        · simp only [List.filter_cons, hp, hq]
          exact ih

/-- An element that only the larger sum counts makes room for itself. -/
theorem sum_filter_add_le {α : Type} {p q : α → Bool} (f : α → Nat) {b : α} (hq : q b)
    (hp : ¬ p b) :
    ∀ {l : List α}, b ∈ l → (∀ a ∈ l, p a → q a) →
      f b + ((l.filter p).map f).sum ≤ ((l.filter q).map f).sum
  | a :: l, hb, h => by
      have hrest : ∀ c ∈ l, p c → q c := fun c hc => h c (List.mem_cons_of_mem a hc)
      rcases List.mem_cons.mp hb with rfl | hb
      · have := sum_filter_le f hrest
        simp only [List.filter_cons, hp, hq, if_true, List.map_cons, List.sum_cons]
        simp only [Bool.false_eq_true, if_false]
        omega
      · have ih := sum_filter_add_le f hq hp hb hrest
        have hone := sum_filter_le f (l := [a]) (p := p) (q := q)
          fun c hc => h c (by rw [List.mem_singleton.mp hc]; exact List.mem_cons_self)
        rw [show a :: l = [a] ++ l from rfl, List.filter_append, List.filter_append,
          List.map_append, List.map_append, List.sum_append_nat, List.sum_append_nat]
        omega

theorem foldl_add_if {α : Type} (p : α → Bool) (f : α → Nat) (l : List α) :
    ∀ n, l.foldl (fun n a => if p a then n + f a else n) n = n + ((l.filter p).map f).sum := by
  induction l with
  | nil => intro n; simp
  | cons a l ih =>
      intro n
      rw [List.foldl_cons, ih, List.filter_cons]
      by_cases hp : p a
      · simp only [hp, if_true, List.map_cons, List.sum_cons]
        omega
      · simp [hp]

/-- The open shells of the entry that the execution is not in. -/
def others (x : Execution) (w : World) : List ((String × String) × ShellId) :=
  w.openShells.filter fun pair => pair.1.1 == (w.entry x.entry).key && x.shell != some pair.2

/-- The length of the body of a filed shell. -/
def bodyLength (w : World) (pair : (String × String) × ShellId) : Nat :=
  (w.shell pair.2).segments.length

/-- **The bodies are summed up**: one term for each shell. -/
theorem otherBodies_eq (w : World) (x : Execution) :
    x.otherBodies w = ((x.others w).map (bodyLength w)).sum := by
  have h := foldl_add_if
    (fun pair => pair.1.1 == (w.entry x.entry).key && x.shell != some pair.2) (bodyLength w)
    w.openShells 0
  rw [Nat.zero_add] at h
  exact h

theorem otherBodies_patch (x y : Execution) (w : World) (p : Patch) :
    y.otherBodies (x.patch w p) = y.otherBodies w := by
  have hlen : bodyLength (x.patch w p) = bodyLength w := by
    funext pair
    unfold bodyLength
    rw [patch_shell_vars]
  have hothers : y.others (x.patch w p) = y.others w := by
    unfold others
    rw [patch_openShells, patch_entry_vars]
  rw [otherBodies_eq, otherBodies_eq, hlen, hothers]

/-- Entering an open shell takes its body out of the sum. -/
theorem otherBodies_entered {x : Execution} {w : World} {name : String} {s : ShellId}
    (hout : x.shell = none) (hfind : w.openShell? (w.entry x.entry).key name = some s)
    (body : List String) :
    (w.shell s).segments.length + (x.entered w name s body).otherBodies w ≤ x.otherBodies w := by
  rw [otherBodies_eq, otherBodies_eq]
  unfold others
  exact sum_filter_add_le (bodyLength w) (b := (((w.entry x.entry).key, name), s))
    (by rw [hout]; simp) (by simp [entered]) (World.filed_of_openShell? hfind) (by
      intro pair _ hcount
      rw [hout]
      simp only [entered, Bool.and_eq_true] at hcount ⊢
      exact ⟨hcount.1, rfl⟩)

/-- Making a shell leaves the sum as it is: the new shell is the active one. -/
theorem otherBodies_made {x : Execution} {w : World} (ha : w.ArenaSound) (hout : x.shell = none)
    (name : String) (shell : Shell) (body : List String) :
    (x.entered w name w.shells.size body).otherBodies (w.file shell) = x.otherBodies w := by
  have hothers : (x.entered w name w.shells.size body).others (w.file shell) = x.others w := by
    unfold others World.file
    rw [hout, List.filter_append]
    simp only [entered]
    rw [List.filter_cons_of_neg (by simp), List.filter_nil, List.append_nil]
    refine List.filter_congr fun pair hm => ?_
    have := ha.bound pair.1 pair.2 hm
    have hne : w.shells.size ≠ pair.2 := Nat.ne_of_gt this
    simp only [bne, Option.some_beq_some, beq_eq_false_iff_ne.mpr hne]
    rfl
  rw [otherBodies_eq, otherBodies_eq, hothers]
  refine congrArg List.sum (List.map_congr_left fun pair hm => ?_)
  unfold bodyLength
  rw [World.shell_file_of_lt (ha.bound pair.1 pair.2 (List.mem_filter.mp hm).1)]

/-- **The bound never grows.** -/
theorem stepBound_step {x : Execution} {w : World} {segment : String} {r : Stepped}
    (ha : w.ArenaSound) (h : Goes x w segment r) :
    stepBound r.1 r.2.1 ≤ stepBound w x := by
  unfold stepBound
  cases h with
  | patches p c v => rw [otherBodies_patch]; exact Nat.le_refl _
  | closes s name hclose hname hfind =>
      refine Nat.add_le_add_left ?_ _
      rw [otherBodies_eq, otherBodies_eq]
      unfold others World.unfile
      dsimp only
      rw [List.filter_filter]
      -- a pair counted after the close was counted before: its shell is not the closed one
      refine sum_filter_le (bodyLength w) fun pair hm hcount => ?_
      simp only [Bool.and_eq_true, bne_iff_ne, beq_iff_eq] at hcount ⊢
      obtain ⟨⟨hkey, hshell⟩, hplace⟩ := hcount
      refine ⟨hkey, fun hx => ?_⟩
      have hne := ha.ne_of_mem_unfile hfind (World.mem_unfile.mpr ⟨hm, hplace⟩)
      rw [if_neg (by rw [hx]; simpa using hne)] at hshell
      exact hshell hx
  | enters target name s log hopen hout hfind =>
      -- the segments left are dropped, and the body comes out of the sum
      rw [otherBodies_patch]
      have := otherBodies_entered hout hfind (w.shell s).segments
      simp only [entered] at this ⊢
      omega
  | makes target name log hopen hout hfree =>
      -- the segments left become the body of the active shell, which the sum leaves out
      have hmade := otherBodies_made (arenaSound_patch (x := x) ha (x.dueMerged w name log)) hout
        name (x.newShell w target name) (x.segments.drop x.pos)
      rw [patch_shells_size, otherBodies_patch] at hmade
      have hlen : (x.segments.drop x.pos).length = x.segments.length - x.pos := List.length_drop
      show (x.segments.drop x.pos).length - 0 + _ ≤ _
      rw [hlen]
      exact Nat.le_of_eq (congrArg _ hmade)

/-- **Every run comes to a stop within its bound.** -/
theorem steps_exist : ∀ (n : Nat) {w : World} {x : Execution}, w.ArenaSound → x.Placed w →
    stepBound w x = n →
    ∃ trace r, Steps trace (w, x, .next) r ∧ Stopped r ∧ trace.length ≤ n := by
  intro n
  induction n using Nat.strongRecOn with
  | ind n ih =>
      intro w x ha hp hn
      cases hseg : x.segments[x.pos]? with
      | none => exact ⟨[], _, .nil _, hseg, Nat.zero_le _⟩
      | some segment =>
          have hpos : x.pos < x.segments.length := (List.getElem?_eq_some_iff.mp hseg).1
          -- the segment itself costs one, and its step gives nothing back
          have hadv : stepBound w x = stepBound w x.advance + 1 := by
            show x.segments.length - x.pos + x.otherBodies w =
              x.segments.length - (x.pos + 1) + x.otherBodies w + 1
            omega
          have hp' : x.advance.Placed w := ⟨hp.entry, hp.shell⟩
          have hgoes := step_goes hp' segment
          obtain ⟨ha', hp''⟩ := arenaSound_step ha hp' hgoes
          have hbound := stepBound_step ha hgoes
          obtain ⟨r, hr⟩ : ∃ r, r = x.advance.step w segment := ⟨_, rfl⟩
          have hone : Steps [⟨w, x.advance, segment⟩] (w, x, .next) r := hr ▸ .cons hseg (.nil _)
          rw [← hr] at ha' hp'' hbound
          obtain ⟨w', x', verdict⟩ := r
          cases verdict with
          | next =>
              obtain ⟨trace, r, hsteps, hstop, hlen⟩ :=
                ih (stepBound w' x') (by simp only at hbound; omega) ha' hp'' rfl
              refine ⟨_ :: trace, r, .cons hseg (hr ▸ hsteps), hstop, ?_⟩
              simp only [List.length_cons] at hbound ⊢
              omega
          | abandon | await | crash =>
              exact ⟨_, _, hone, trivial, by rw [List.length_singleton]; omega⟩

/-! ## Whole runs -/

/-- A run from its first segment to its halt, by its moments. The program survives it. -/
def Runs (trace : List Moment) (w : World) (x : Execution) (result : World × Execution) : Prop :=
  ∃ last, Steps trace (w, x, .next) last ∧ Stopped last ∧ last.2.2 ≠ .crash ∧ halt last = result

/-- The moments of a run, at most as many as there is fuel. -/
def traceFor : Nat → World → Execution → List Moment
  | 0, _, _ => []
  | fuel + 1, w, x =>
    match x.segments[x.pos]? with
    | none => []
    | some segment =>
      ⟨w, x.advance, segment⟩ ::
        match x.advance.step w segment with
        | (w, x, .next) => traceFor fuel w x
        | _ => []

/-- The moments of a run. -/
def trace (w : World) (x : Execution) : List Moment := traceFor (stepBound w x) w x

/-- The moments that follow a stage. -/
def traceFrom (fuel : Nat) : Stepped → List Moment
  | (w, x, .next) => traceFor fuel w x
  | _ => []

theorem traceFor_segment {w : World} {x : Execution} {segment : String} (fuel : Nat)
    (h : x.segments[x.pos]? = some segment) :
    traceFor (fuel + 1) w x =
      ⟨w, x.advance, segment⟩ :: traceFrom fuel (x.advance.step w segment) := by
  unfold traceFor
  split
  · rename_i hnone
    rw [h] at hnone
    simp at hnone
  · rename_i found hfound
    obtain rfl : found = segment := Option.some.inj (hfound.symm.trans h)
    generalize x.advance.step w found = r
    obtain ⟨w', x', verdict⟩ := r
    cases verdict <;> rfl

theorem traceFor_end {w : World} {x : Execution} (fuel : Nat) (h : x.segments[x.pos]? = none) :
    traceFor fuel w x = [] := by
  cases fuel with
  | zero => rfl
  | succ fuel =>
      unfold traceFor
      split
      · rfl
      · rename_i hsome
        rw [h] at hsome
        simp at hsome

/-- The moments that are computed are those of the chain. -/
theorem traceFrom_of_steps {trace : List Moment} {r₀ r : Stepped} (h : Steps trace r₀ r)
    (hstop : Stopped r) : ∀ {fuel : Nat}, trace.length ≤ fuel → traceFrom fuel r₀ = trace := by
  induction h with
  | nil r =>
      intro fuel _
      obtain ⟨w, x, verdict⟩ := r
      cases verdict with
      | next => exact traceFor_end fuel hstop
      | abandon | await | crash => rfl
  | cons hseg rest ih =>
      rintro (_ | fuel) hfuel
      · simp at hfuel
      · rw [traceFrom, traceFor_segment fuel hseg]
        exact congrArg _ (ih hstop (by simpa using hfuel))

/-- **`run` does what its trace says**, within its bound. -/
theorem stops_run {w : World} {x : Execution} (ha : w.ArenaSound) (hp : x.Placed w) :
    ∃ last, Steps (trace w x) (w, x, .next) last ∧ Stopped last ∧ halt last = run w x ∧
      (trace w x).length ≤ stepBound w x := by
  obtain ⟨chain, last, hsteps, hstop, hlen⟩ := steps_exist _ ha hp rfl
  have htrace : trace w x = chain := traceFrom_of_steps hsteps hstop hlen
  have hrun : run w x = halt last := goOn_of_steps hsteps hstop (Nat.lt_succ_of_le hlen)
  rw [htrace]
  exact ⟨last, hsteps, hstop, hrun.symm, hlen⟩

end Execution

end PageMacro
