import Mathlib.Data.List.Basic
import PageMacro.Proofs.Reachable

/-!
# Who wins a name

During a stretch the entry writes names and shells are closed; what an entry holds
under a name when the stretch is over should be what the latest of these events
gave it. This module says what it really holds, for every name and every stretch.

A close is merged late, and only names that were not written since its mark are
set. But merging a shell is itself a write, so of several closed shells that wait
with the same name the one merged **first** wins and all others come too late, also
the ones closed after it. `Contest` replays a stretch for one name by this rule: the
entry's value, and the closed shells that still wait with a value for it. The
invariant `Tracks` ties it to the stores: a pending close waits exactly as long as
the name's last write is not later than its mark.

So the latest event wins exactly if the last decision was `Undisputed`: the shell
that was merged had the value of the one closed last.
-/

namespace PageMacro

/-! ## Events and contests -/

/-- Something that concerns the value of a name in an entry. -/
inductive Event where
  /-- The entry wrote or deleted the name, and holds a value now or none. -/
  | wrote (value : Option Value)
  /-- A shell was closed that held a value under the name. -/
  | closed (shell : String) (value : Value)
  /-- A shell was opened, so closed shells of its name are merged first. -/
  | opened (shell : String)

/-- What the latest event gives a name; opening a shell gives nothing. -/
def latest (start : Option Value) (events : List Event) : Option Value :=
  events.foldl
    (fun held event =>
      match event with
      | .wrote value => value
      | .closed _ value => some value
      | .opened _ => held)
    start

/-- How a name stands. -/
structure Contest where
  /-- What the entry holds. -/
  value : Option Value
  /-- The values that the last merge chose from, in the order of closing; none if the entry has
  written the name itself since. -/
  candidates : List Value := []
  /-- The closed shells that wait with a value, by name and in the order of closing. -/
  waiting : List (String × Value) := []

namespace Contest

/-- One of the waiting values is merged. It counts as written then, so the others are too late. -/
def merge (c : Contest) (v : Value) : Contest :=
  { value := some v, candidates := c.waiting.map (·.2) }

/-- The contest after an event. -/
def happen (c : Contest) : Event → Contest
  | .wrote value => { value }
  | .closed shell value => { c with waiting := c.waiting ++ [(shell, value)] }
  | .opened shell =>
    match c.waiting.lookup shell with
    | some v => c.merge v
    | none => c

/-- The contest when everything is merged: the shell closed first comes first. -/
def settle (c : Contest) : Contest :=
  match c.waiting with
  | [] => c
  | (_, v) :: _ => c.merge v

/-- What became of a name. -/
def outcome (start : Option Value) (events : List Event) : Contest :=
  (events.foldl happen { value := start }).settle

/-- The shell that was merged had the value of the one closed last. -/
def Undisputed (c : Contest) : Prop := ∀ v, c.candidates.getLast? = some v → c.value = some v

/-- What the latest event gave. -/
def newest (c : Contest) : Option Value :=
  match c.waiting.getLast? with
  | some (_, v) => some v
  | none =>
    match c.candidates.getLast? with
    | some v => some v
    | none => c.value

theorem newest_merge {c : Contest} {pair : String × Value} (h : c.waiting.getLast? = some pair)
    (v : Value) : (c.merge v).newest = c.newest := by
  have hlast : (c.waiting.map (·.2)).getLast? = some pair.2 := by rw [List.getLast?_map, h]; rfl
  unfold newest merge
  rw [h]
  simp only [List.getLast?_nil, hlast]

theorem getLast_of_lookup {waiting : List (String × Value)} {shell : String} {v : Value}
    (h : waiting.lookup shell = some v) : ∃ pair, waiting.getLast? = some pair := by
  cases waiting with
  | nil => simp at h
  | cons first rest => exact ⟨_, List.getLast?_eq_some_getLast (List.cons_ne_nil first rest)⟩

theorem happen_opened_some {c : Contest} {shell : String} {v : Value}
    (h : c.waiting.lookup shell = some v) : c.happen (.opened shell) = c.merge v := by
  simp only [happen, h]

theorem happen_opened_none {c : Contest} {shell : String} (h : c.waiting.lookup shell = none) :
    c.happen (.opened shell) = c := by
  simp only [happen, h]

theorem newest_happen (c : Contest) (event : Event) :
    (c.happen event).newest = latest c.newest [event] := by
  cases event with
  | wrote value => rfl
  | closed shell value =>
      unfold happen newest
      rw [List.getLast?_append]
      rfl
  | opened shell =>
      show (c.happen (.opened shell)).newest = c.newest
      cases hl : c.waiting.lookup shell with
      | none => rw [happen_opened_none hl]
      | some v =>
          obtain ⟨pair, hlast⟩ := getLast_of_lookup hl
          rw [happen_opened_some hl, newest_merge hlast v]

theorem newest_foldl (events : List Event) :
    ∀ c : Contest, (events.foldl happen c).newest = latest c.newest events := by
  induction events with
  | nil => exact fun c => rfl
  | cons event rest ih =>
      intro c
      rw [List.foldl_cons, ih, newest_happen]
      rfl

theorem newest_settle (c : Contest) : c.settle.newest = c.newest := by
  unfold settle
  split
  · rfl
  · rename_i shell v rest hw
    obtain ⟨pair, hlast⟩ : ∃ pair, c.waiting.getLast? = some pair :=
      ⟨_, by rw [hw]; exact List.getLast?_eq_some_getLast (List.cons_ne_nil _ _)⟩
    exact newest_merge hlast v

/-- **The latest event wins exactly if the last decision was undisputed.** -/
theorem value_eq_latest_iff (start : Option Value) (events : List Event) :
    (outcome start events).value = latest start events ↔ (outcome start events).Undisputed := by
  -- merging changes the value and never what the latest event gave
  have hnewest : (outcome start events).newest = latest start events := by
    unfold outcome
    rw [newest_settle, newest_foldl]
    rfl
  have hnone : (outcome start events).waiting = [] := by
    unfold outcome settle
    split
    · assumption
    · rfl
  rw [← hnewest]
  unfold newest Undisputed
  rw [hnone]
  simp only [List.getLast?_nil]
  cases hc : (outcome start events).candidates.getLast? with
  | none => simp
  | some v => simp

/-- At no time two closed shells wait with a value. -/
def Alone (c : Contest) : List Event → Prop
  | [] => c.waiting.length ≤ 1
  | event :: rest => c.waiting.length ≤ 1 ∧ (c.happen event).Alone rest

instance decidableAlone : (c : Contest) → (events : List Event) → Decidable (c.Alone events)
  | c, [] => inferInstanceAs (Decidable (c.waiting.length ≤ 1))
  | c, event :: rest =>
    have := decidableAlone (c.happen event) rest
    inferInstanceAs (Decidable (c.waiting.length ≤ 1 ∧ (c.happen event).Alone rest))

/-- The last merge, if any, had one shell to choose from. -/
def Unchallenged (c : Contest) : Prop :=
  c.candidates = [] ∨ ∃ v, c.candidates = [v] ∧ c.value = some v

theorem unchallenged_merge {c : Contest} {shell : String} {v : Value}
    (h : c.waiting = [(shell, v)]) : (c.merge v).Unchallenged := by
  refine Or.inr ⟨v, ?_, rfl⟩
  unfold merge
  rw [h]
  rfl

theorem single_of_lookup {waiting : List (String × Value)} {shell : String} {v : Value}
    (hone : waiting.length ≤ 1) (h : waiting.lookup shell = some v) : waiting = [(shell, v)] := by
  match waiting, hone with
  | [], _ => simp at h
  | [(name, u)], _ =>
      rw [lookup_cons_ite] at h
      split at h
      · rename_i heq
        rw [heq, Option.some.inj h]
      · simp at h
  | _ :: _ :: _, hone => simp at hone

theorem unchallenged_happen {c : Contest} (hone : c.waiting.length ≤ 1) (h : c.Unchallenged)
    (event : Event) : (c.happen event).Unchallenged := by
  cases event with
  | wrote value => exact Or.inl rfl
  | closed shell value => exact h
  | opened shell =>
      cases hl : c.waiting.lookup shell with
      | none => rwa [happen_opened_none hl]
      | some v =>
          rw [happen_opened_some hl]
          exact unchallenged_merge (single_of_lookup hone hl)

theorem unchallenged_settle {c : Contest} (hone : c.waiting.length ≤ 1) (h : c.Unchallenged) :
    c.settle.Unchallenged := by
  unfold settle
  split
  · exact h
  · rename_i shell v rest hw
    have hrest : rest = [] := by
      rw [hw, List.length_cons] at hone
      exact List.eq_nil_of_length_eq_zero (by omega)
    rw [hrest] at hw
    exact unchallenged_merge hw

theorem unchallenged_foldl (events : List Event) : ∀ c : Contest, c.Unchallenged → c.Alone events →
    (events.foldl happen c).settle.Unchallenged := by
  induction events with
  | nil => exact fun c h hone => unchallenged_settle hone h
  | cons event rest ih => exact fun c h hone => ih _ (unchallenged_happen hone.1 h event) hone.2

/-- Where closed shells never wait together, nothing is disputed. -/
theorem undisputed_of_alone {start : Option Value} {events : List Event}
    (h : Alone { value := start } events) : (outcome start events).Undisputed := by
  intro v hv
  rcases unchallenged_foldl events { value := start } (Or.inl rfl) h with hnone | ⟨u, hu, hvalue⟩
  · rw [outcome, hnone] at hv
    simp at hv
  · rw [outcome, hu, List.getLast?_singleton] at hv
    rw [outcome, hvalue, ← Option.some.inj hv]

end Contest

/-! ## Moments -/

/-- The entry's variables at a moment. -/
def Moment.entryVars (μ : Moment) : Store := (μ.world.entry μ.exec.entry).vars

/-- The entry's variables after a moment. -/
def Moment.entryVarsAfter (μ : Moment) : Store := (μ.after.1.entry μ.exec.entry).vars

/-- What a moment means for a name. -/
def Moment.events (name : String) (μ : Moment) : List Event :=
  match μ.closes?, μ.opens? with
  | some s, _ =>
    match (μ.world.shell s).vars.held name with
    | some v => [.closed (μ.world.shell s).name v]
    | none => []
  | none, some (_, shell) => [.opened shell]
  | none, none =>
    if μ.exec.shell = none ∧ μ.entryVars.revision < μ.entryVarsAfter.lastWrite name then
      [.wrote (μ.entryVarsAfter.held name)]
    else []

namespace Execution

/-! ## Merges of pending closes -/

/-- A pending close waits with a value unless the name was written since. -/
def live (w : World) (vars : Store) (name : String) (p : PendingClose) : Option (String × Value) :=
  if vars.lastWrite name ≤ p.mark then
    ((w.shell p.shell).vars.held name).map fun v => ((w.shell p.shell).name, v)
  else none

theorem live_none_of_late {w : World} {vars : Store} {name : String} {p : PendingClose}
    (h : p.mark < vars.lastWrite name) : live w vars name p = none := by
  unfold live
  rw [if_neg (by omega)]

theorem live_eq_some {w : World} {vars : Store} {name : String} {p : PendingClose}
    {pair : String × Value} (h : live w vars name p = some pair) :
    vars.lastWrite name ≤ p.mark ∧ (w.shell p.shell).vars.held name = some pair.2 ∧
      pair.1 = (w.shell p.shell).name := by
  unfold live at h
  split at h
  · rename_i hle
    obtain ⟨v, hv, rfl⟩ := Option.map_eq_some_iff.mp h
    exact ⟨hle, hv, rfl⟩
  · simp at h

theorem live_eq_none {w : World} {vars : Store} {name : String} {p : PendingClose}
    (h : live w vars name p = none) :
    p.mark < vars.lastWrite name ∨ (w.shell p.shell).vars.held name = none := by
  unfold live at h
  split at h
  · exact Or.inr (Option.map_eq_none_iff.mp h)
  · exact Or.inl (by omega)

/-- Only the last write of the name matters. -/
theorem live_congr {w : World} {vars vars' : Store} {name : String}
    (h : vars'.lastWrite name = vars.lastWrite name) : live w vars' name = live w vars name := by
  funext p
  unfold live
  rw [h]

/-- Names written after all marks are left alone by every merge. -/
theorem mergeAll_untouched {w : World} {name : String} (pending : List PendingClose) :
    ∀ vars : Store, (∀ p ∈ pending, live w vars name p = none) →
      vars.Untouched (mergeAll w pending vars) name := by
  induction pending with
  | nil => exact fun vars _ => ⟨rfl, rfl⟩
  | cons p rest ih =>
      intro vars h
      obtain ⟨hw, hv⟩ := Store.mergeSince_untouched (live_eq_none (h p List.mem_cons_self))
      obtain ⟨hw', hv'⟩ := ih (vars.mergeSince (w.shell p.shell).vars p.mark).1 fun q hq => by
        rw [live_congr hw]
        exact h q (List.mem_cons_of_mem p hq)
      exact ⟨hw'.trans hw, hv'.trans hv⟩

/-- **Of the closes that wait with a value, the first one is merged**, and the name counts as
written then. -/
theorem mergeAll_first {w : World} {name : String} {pair : String × Value}
    (pending : List PendingClose) :
    ∀ vars : Store, (∀ p ∈ pending, p.mark ≤ vars.revision) →
      (pending.filterMap (live w vars name)).head? = some pair →
      (mergeAll w pending vars).held name = some pair.2 ∧
        vars.revision < (mergeAll w pending vars).lastWrite name := by
  induction pending with
  | nil => intro vars _ h; simp at h
  | cons p rest ih =>
      intro vars hmarks h
      have hstep := Store.becomes_mergeSince vars (w.shell p.shell).vars p.mark
      have hmark := hmarks p List.mem_cons_self
      cases hp : live w vars name p with
      | some found =>
          -- merged here: the name is written now, so the others are too late
          rw [List.filterMap_cons_some hp, List.head?_cons] at h
          obtain rfl : found = pair := Option.some.inj h
          obtain ⟨hlast, hheld, -⟩ := live_eq_some hp
          obtain ⟨hset, hlate⟩ := Store.mergeSince_set hmark hlast hheld
          obtain ⟨hw, hv⟩ := @mergeAll_untouched w name rest
            (vars.mergeSince (w.shell p.shell).vars p.mark).1 fun q hq => by
              have := hmarks q (List.mem_cons_of_mem p hq)
              exact live_none_of_late (by omega)
          exact ⟨hv.trans hset, hw ▸ hlate⟩
      | none =>
          rw [List.filterMap_cons_none hp] at h
          obtain ⟨hw, -⟩ := Store.mergeSince_untouched (live_eq_none hp)
          obtain ⟨hheld, hlate⟩ := ih (vars.mergeSince (w.shell p.shell).vars p.mark).1
            (fun q hq => Nat.le_trans (hmarks q (List.mem_cons_of_mem p hq)) hstep.1)
            (by rw [live_congr hw]; exact h)
          exact ⟨hheld, Nat.lt_of_le_of_lt hstep.1 hlate⟩

/-! ## What an open merges -/

/-- The first close that waits under a shell's name is the first that an open of it merges. -/
theorem lookup_waiting (w : World) (vars : Store) (name shell : String)
    (pending : List PendingClose) :
    (pending.filterMap (live w vars name)).lookup shell =
      (((pending.filter fun p => (w.shell p.shell).name == shell).filterMap
        (live w vars name)).head?).map (·.2) := by
  induction pending with
  | nil => rfl
  | cons p rest ih =>
      cases hp : live w vars name p with
      | none =>
          rw [List.filterMap_cons_none hp, ih, List.filter_cons]
          split
          · rw [List.filterMap_cons_none hp]
          · rfl
      | some pair =>
          obtain ⟨-, -, hpair⟩ := live_eq_some hp
          rw [List.filterMap_cons_some hp, show pair = (pair.1, pair.2) from rfl, lookup_cons_ite,
            List.filter_cons, hpair]
          by_cases hname : (w.shell p.shell).name = shell
          · rw [if_pos (beq_iff_eq.mpr hname), if_pos hname.symm, List.filterMap_cons_some hp]
            rfl
          · rw [if_neg (fun h => hname (beq_iff_eq.mp h)), if_neg (Ne.symm hname), ih]

/-- If none of the merged closes waits with a value, those that are kept are all that wait. -/
theorem filterMap_kept {f : PendingClose → Option (String × Value)} {which : PendingClose → Bool}
    (pending : List PendingClose) (h : (pending.filter which).filterMap f = []) :
    (pending.filter fun p => !which p).filterMap f = pending.filterMap f := by
  induction pending with
  | nil => rfl
  | cons p rest ih =>
      by_cases hp : which p
      · -- merged, and by the hypothesis it waited with nothing
        rw [List.filter_cons_of_pos hp] at h
        rw [List.filter_cons_of_neg (by simp [hp])]
        cases hf : f p with
        | none =>
            rw [List.filterMap_cons_none hf] at h ⊢
            exact ih h
        | some pair => rw [List.filterMap_cons_some hf] at h; simp at h
      · rw [List.filter_cons_of_neg hp] at h
        rw [List.filter_cons_of_pos (by simp [hp])]
        cases hf : f p with
        | none => rw [List.filterMap_cons_none hf, List.filterMap_cons_none hf, ih h]
        | some pair => rw [List.filterMap_cons_some hf, List.filterMap_cons_some hf, ih h]

/-! ## The contest along a stretch -/

/-- The contest agrees with the stores: the entry holds its value, and exactly the pending closes
that wait with a value are in it. -/
structure Tracks (name : String) (c : Contest) (w : World) (x : Execution) : Prop where
  value : (w.entry x.entry).vars.held name = c.value
  waiting : x.closing.filterMap (live w (w.entry x.entry).vars name) = c.waiting

/-- Where shells are as they were, pending closes wait as before. -/
theorem filterMap_live_congr {w w' : World} {vars : Store} {name : String}
    {pending : List PendingClose} (h : ∀ p ∈ pending, w'.shell p.shell = w.shell p.shell) :
    pending.filterMap (live w' vars name) = pending.filterMap (live w vars name) := by
  refine List.filterMap_congr fun p hp => ?_
  unfold live
  rw [h p hp]

/-- Where the name was written after all marks, nothing waits. -/
theorem filterMap_live_late {w : World} {vars : Store} {name : String}
    {pending : List PendingClose} (h : ∀ p ∈ pending, p.mark < vars.lastWrite name) :
    pending.filterMap (live w vars name) = [] :=
  List.filterMap_eq_nil_iff.mpr fun p hp => live_none_of_late (h p hp)

/-- What a merge of some pending closes does to a name: the first that waits with a value gives it,
and if there is none the name stays as it is. -/
theorem tracks_merge (name : String) (w : World) {pending : List PendingClose} {vars : Store}
    (hmarks : ∀ p ∈ pending, p.mark ≤ vars.revision) :
    (∃ pair, (pending.filterMap (live w vars name)).head? = some pair ∧
      (mergeAll w pending vars).held name = some pair.2 ∧
      vars.revision < (mergeAll w pending vars).lastWrite name) ∨
    pending.filterMap (live w vars name) = [] ∧ vars.Untouched (mergeAll w pending vars) name := by
  cases h : pending.filterMap (live w vars name) with
  | nil =>
      exact Or.inr ⟨rfl, mergeAll_untouched pending vars (List.filterMap_eq_nil_iff.mp h)⟩
  | cons pair rest =>
      have hhead : (pending.filterMap (live w vars name)).head? = some pair := by rw [h]; rfl
      exact Or.inl ⟨pair, rfl, mergeAll_first pending vars hmarks hhead⟩

section Steps

variable {x : Execution} {w : World} {segment name : String} {c : Contest}

theorem closes_of_opens {pair : String × String} (h : x.opens? segment = some pair) :
    x.closes? w segment = none := by
  unfold opens? at h
  unfold closes?
  split at h
  · rename_i hs _
    rw [hs]
  · simp at h

theorem events_closes {s : ShellId} (h : x.closes? w segment = some s) :
    Moment.events name ⟨w, x, segment⟩ =
      match (w.shell s).vars.held name with
      | some v => [.closed (w.shell s).name v]
      | none => [] := by
  unfold Moment.events
  rw [show Moment.closes? ⟨w, x, segment⟩ = some s from h]

theorem events_opens {target shell : String} (h : x.opens? segment = some (target, shell)) :
    Moment.events name ⟨w, x, segment⟩ = [.opened shell] := by
  unfold Moment.events
  rw [show Moment.closes? ⟨w, x, segment⟩ = none from closes_of_opens h,
    show Moment.opens? ⟨w, x, segment⟩ = some (target, shell) from h]

theorem events_patches (hopen : x.opens? segment = none) (hclose : x.closes? w segment = none) :
    Moment.events name ⟨w, x, segment⟩ =
      if x.shell = none ∧ (w.entry x.entry).vars.revision <
          ((x.step w segment).1.entry x.entry).vars.lastWrite name then
        [.wrote (((x.step w segment).1.entry x.entry).vars.held name)]
      else [] := by
  unfold Moment.events
  rw [show Moment.closes? ⟨w, x, segment⟩ = none from hclose,
    show Moment.opens? ⟨w, x, segment⟩ = none from hopen]
  rfl

/-- An open merges the closes of its name, as the contest does. -/
theorem tracks_open {w' : World} {y : Execution} {shell : String} (hx : x.Underway w)
    (ht : Tracks name c w x) (hentry : y.entry = x.entry) (hclosing : y.closing = x.kept w shell)
    (hvars : (w'.entry x.entry).vars = mergeAll w (x.due w shell) (w.entry x.entry).vars)
    (hshells : ∀ p ∈ x.closing, w'.shell p.shell = w.shell p.shell) :
    Tracks name (c.happen (.opened shell)) w' y := by
  have hkept : ∀ p ∈ x.kept w shell, p ∈ x.closing := fun p hp => (List.mem_filter.mp hp).1
  have hlookup := lookup_waiting w (w.entry x.entry).vars name shell x.closing
  rw [ht.waiting] at hlookup
  have hmarks : ∀ p ∈ x.due w shell, p.mark ≤ (w.entry x.entry).vars.revision :=
    fun p hp => hx.marks p (List.mem_filter.mp hp).1
  rcases tracks_merge name w hmarks with ⟨pair, hhead, hheld, hlate⟩ | ⟨hnone, huntouched⟩
  · -- one of them waits with a value, and after its merge all others are too late
    rw [show (x.closing.filter fun p => (w.shell p.shell).name == shell) = x.due w shell from rfl,
      hhead] at hlookup
    rw [Contest.happen_opened_some hlookup]
    refine ⟨?_, ?_⟩
    · rw [hentry, hvars, hheld]
      rfl
    · rw [hentry, hclosing, hvars]
      refine filterMap_live_late fun p hp => ?_
      have := hx.marks p (hkept p hp)
      omega
  · rw [show (x.closing.filter fun p => (w.shell p.shell).name == shell) = x.due w shell from rfl,
      hnone] at hlookup
    rw [Contest.happen_opened_none hlookup]
    refine ⟨?_, ?_⟩
    · rw [hentry, hvars, huntouched.2]
      exact ht.value
    · rw [hentry, hclosing, hvars, filterMap_live_congr fun p hp => hshells p (hkept p hp),
        live_congr huntouched.1, ← ht.waiting]
      exact filterMap_kept x.closing hnone

/-- The entry's variables after a patch outside of shells. -/
theorem entryVars_patch (hp : x.Placed w) (hout : x.shell = none) (p : Patch) :
    ((x.patch w p).entry x.entry).vars = p.vars := by
  have h := vars_patch hp p
  unfold vars at h
  rw [hout] at h
  exact h

/-- The entry leaves the name alone, and with it everything that waits. -/
theorem tracks_patch_untouched (hx : x.Underway w) (ht : Tracks name c w x) (hout : x.shell = none)
    {p : Patch} (hname : (w.entry x.entry).vars.Untouched p.vars name) :
    Tracks name c (x.patch w p) x := by
  have hvars := entryVars_patch hx.placed hout p
  constructor
  · rw [hvars, hname.2]
    exact ht.value
  · rw [hvars, live_congr hname.1,
      filterMap_live_congr fun q _ => patch_shell_of_entry hout p q.shell]
    exact ht.waiting

/-- The entry writes the name, later than every mark. -/
theorem tracks_patch_written (hx : x.Underway w) (hout : x.shell = none) {p : Patch}
    (hlate : (w.entry x.entry).vars.revision < p.vars.lastWrite name) :
    Tracks name (c.happen (.wrote (p.vars.held name))) (x.patch w p) x := by
  have hvars := entryVars_patch hx.placed hout p
  constructor
  · rw [hvars]
    rfl
  · rw [hvars]
    refine filterMap_live_late fun q hq => ?_
    have := hx.marks q hq
    omega

/-- Inside a shell neither the entry nor a closed shell is in reach. -/
theorem tracks_patch_inside (hx : x.Underway w) (ht : Tracks name c w x) {s : ShellId}
    (hs : x.shell = some s) (p : Patch) : Tracks name c (x.patch w p) x := by
  constructor
  · rw [patch_entry_of_shell hs]
    exact ht.value
  · rw [patch_entry_of_shell hs, filterMap_live_congr fun q hq =>
      patch_shell_of_ne hx.placed (hx.inactive q hq) p]
    exact ht.waiting

/-- A close waits behind those that wait already, if its shell holds the name: its mark is the
revision of this moment, so the name was not written since. -/
theorem waiting_closed (ht : Tracks name c w x) (hsound : (w.entry x.entry).vars.Sound)
    (s : ShellId) :
    (x.closing ++ [(⟨s, (w.entry x.entry).vars.revision⟩ : PendingClose)]).filterMap
        (live w (w.entry x.entry).vars name) =
      c.waiting ++ (((w.shell s).vars.held name).map fun v => ((w.shell s).name, v)).toList := by
  have hlive : live w (w.entry x.entry).vars name ⟨s, (w.entry x.entry).vars.revision⟩ =
      ((w.shell s).vars.held name).map fun v => ((w.shell s).name, v) := if_pos (hsound name)
  rw [List.filterMap_append, ht.waiting]
  refine congrArg (c.waiting ++ ·) ?_
  cases hh : (w.shell s).vars.held name with
  | none => rw [hh] at hlive; exact List.filterMap_cons_none hlive
  | some v => rw [hh] at hlive; exact List.filterMap_cons_some hlive

/-- **The contest follows every step.** -/
theorem tracks_step (hw : w.Sound) (hx : x.Underway w) (ht : Tracks name c w x) :
    Tracks name ((Moment.events name ⟨w, x, segment⟩).foldl Contest.happen c)
      (x.step w segment).1 (x.step w segment).2.1 := by
  have hgoes := step_goes hx.placed segment
  obtain ⟨r, hr⟩ : ∃ r, r = x.step w segment := ⟨_, rfl⟩
  rw [← hr] at hgoes ⊢
  cases hgoes with
  | patches p v verdict hopen hclose hlaw =>
      rw [events_patches hopen hclose, ← hr]
      dsimp only
      cases hscope : x.shell with
      | some s =>
          rw [if_neg fun h => by simp at h]
          have := tracks_patch_inside hx ht hscope p
          exact ⟨this.value, this.waiting⟩
      | none =>
          have hb : (w.entry x.entry).vars.Becomes p.vars := by
            have := (hlaw hw.verbs).1
            unfold vars at this
            rw [hscope] at this
            exact this
          rw [entryVars_patch hx.placed hscope]
          -- a name that was not written has the last write of a sound store
          rcases hb.2 name with hname | ⟨hlate, -⟩
          · have hlast := hname.1
            have hle := hw.stores x.entry name
            rw [if_neg (by omega)]
            have := tracks_patch_untouched hx ht hscope hname
            exact ⟨this.value, this.waiting⟩
          · rw [if_pos ⟨rfl, hlate⟩]
            have := tracks_patch_written (c := c) hx hscope hlate
            exact ⟨this.value, this.waiting⟩
  | closes s shell hclose hname hfind =>
      rw [events_closes hclose]
      have hwaiting := waiting_closed ht (hw.stores x.entry) s
      cases hh : (w.shell s).vars.held name with
      | none =>
          rw [hh, Option.map_none, Option.toList_none, List.append_nil] at hwaiting
          exact ⟨ht.value, hwaiting⟩
      | some v =>
          rw [hh] at hwaiting
          exact ⟨ht.value, hwaiting⟩
  | enters target shell s log hopen hout hfind =>
      rw [events_opens hopen]
      exact tracks_open hx ht rfl rfl (entryVars_patch hx.placed hout _)
        fun p _ => patch_shell_of_entry hout _ p.shell
  | makes target shell log hopen hout hfree =>
      rw [events_opens hopen]
      refine tracks_open hx ht rfl rfl (entryVars_patch hx.placed hout _) fun p hp => ?_
      rw [World.shell_file_of_lt (by rw [patch_shells_size]; exact hx.exist p hp)]
      exact patch_shell_of_entry hout _ p.shell

end Steps

/-- **The contest follows every chain of steps.** -/
theorem tracks_steps {trace : List Moment} {r₀ r : Stepped} {name : String}
    (hsteps : Steps trace r₀ r) :
    ∀ {c : Contest}, StageSound r₀ → Tracks name c r₀.1 r₀.2.1 →
      Tracks name ((trace.flatMap (Moment.events name)).foldl Contest.happen c) r.1 r.2.1 := by
  induction hsteps with
  | nil r => exact fun _ ht => ht
  | @cons w x segment trace r hseg rest ih =>
      intro c hr ht
      have hw : w.Sound := hr.world
      have hx : x.advance.Underway w := underway_advance hr.underway
      have hstep := (stageSound_step hw hx (step_goes hx.placed segment)).1
      rw [List.flatMap_cons, List.foldl_append]
      exact ih hstep (tracks_step hw hx ⟨ht.value, ht.waiting⟩)

/-- A halt settles the contest. -/
theorem tracks_halt {r : Stepped} {name : String} {c : Contest} (hr : StageSound r)
    (hlive : r.2.2 ≠ .crash) (ht : Tracks name c r.1 r.2.1) :
    ((halt r).1.entry r.2.1.entry).vars.held name = c.settle.value := by
  have hentry := hr.underway.placed.entry
  obtain ⟨log, hworld, -⟩ := halt_eq hentry hlive
  have hvars : ((halt r).1.entry r.2.1.entry).vars =
      mergeAll r.1 r.2.1.closing (r.1.entry r.2.1.entry).vars := by
    rw [hworld]
    exact entryVars_patch (outside_placed hentry) rfl _
  rw [hvars]
  unfold Contest.settle
  rcases tracks_merge name r.1 hr.underway.marks with ⟨pair, hhead, hheld, -⟩ | ⟨hnone, huntouched⟩
  · rw [ht.waiting] at hhead
    cases hw : c.waiting with
    | nil => rw [hw] at hhead; simp at hhead
    | cons first rest =>
        rw [hw, List.head?_cons] at hhead
        rw [hheld, ← Option.some.inj hhead]
        rfl
  · rw [← ht.waiting, hnone, huntouched.2]
    exact ht.value

/-- A chain of steps keeps the entry of the execution. -/
theorem entry_steps {trace : List Moment} {r₀ r : Stepped} (hsteps : Steps trace r₀ r) :
    StageSound r₀ → r.2.1.entry = r₀.2.1.entry := by
  induction hsteps with
  | nil r => exact fun _ => rfl
  | @cons w x segment trace r hseg rest ih =>
      intro hr
      have hw : w.Sound := hr.world
      have hx : x.advance.Underway w := underway_advance hr.underway
      have hgoes := step_goes hx.placed segment
      rw [ih (stageSound_step hw hx hgoes).1]
      exact (entry_step hgoes).1

end Execution

namespace Machine

open Execution Contest

/-- What an entry holds under a name after a stretch, by its events. -/
theorem held_after_stretch {m m' : Machine} {w : World} {x : Execution} (hm : m.Sound)
    (hs : m.Stretch w x m') (name : String) :
    (m'.world.entry x.entry).vars.held name =
      (outcome ((w.entry x.entry).vars.held name)
        ((trace w x).flatMap (Moment.events name))).value := by
  obtain ⟨hstage, hnone, -⟩ := hs.begins hm
  obtain ⟨last, hsteps, -, hlive, hhalt⟩ := runs_of_survives hstage hs.survives
  have hlast := (stageSound_steps hsteps hstage).1
  have hstart : Tracks name { value := (w.entry x.entry).vars.held name } w x :=
    ⟨rfl, by rw [hnone]; rfl⟩
  have hfinal := tracks_halt hlast hlive (tracks_steps hsteps hstage hstart)
  rw [entry_steps hsteps hstage, hhalt, ← hs.world_eq] at hfinal
  exact hfinal

/-- **What an entry holds after a stretch**, for every name: what the contest of its events gives.
That is what the latest event gave exactly if the last decision was undisputed, and so whenever
closed shells never wait together with a value for the name. -/
theorem latest_event_wins_iff_undisputed {m m' : Machine} {w : World} {x : Execution}
    (hm : m.Reachable) (hs : m.Stretch w x m') (name : String) :
    let start := (w.entry x.entry).vars.held name
    let events := (trace w x).flatMap (Moment.events name)
    let final := (m'.world.entry x.entry).vars.held name
    Runs (trace w x) w x (run w x) ∧ m'.world = (run w x).1 ∧
      final = (outcome start events).value ∧
      (final = latest start events ↔ (outcome start events).Undisputed) ∧
      (Alone { value := start } events → final = latest start events) := by
  have hsound := sound_reachable hm
  have hstage := (hs.begins hsound).1
  have hheld := held_after_stretch hsound hs name
  dsimp only
  refine ⟨runs_of_survives hstage hs.survives, hs.world_eq, hheld, ?_, ?_⟩
  · rw [hheld]
    exact value_eq_latest_iff _ _
  · intro halone
    rw [hheld]
    exact (value_eq_latest_iff _ _).mpr (undisputed_of_alone halone)

/-- A shell is closed with `one`, the entry writes `two`, another shell is closed with `three`. -/
def inTurn : Machine := registered (page "+T:a |&x:one |-a |&x:two |+T:b |&x:three |-b" [])

/-- The latest event wins there. -/
theorem inTurn_latest_wins :
    ∃ x ∈ ofKey? inTurn.world "p" 0,
      ((inTurn.start "p" 0).world.entry x.entry).vars.held "x" =
          latest (((startRecord inTurn.world "p" x).entry x.entry).vars.held "x")
            ((trace (startRecord inTurn.world "p" x) x).flatMap (Moment.events "x")) ∧
        textOf (((inTurn.start "p" 0).world.entry x.entry).vars.held "x") = some "three" := by
  obtain ⟨x, hx, hlive, hone, htext⟩ : ∃ x ∈ ofKey? inTurn.world "p" 0,
      Survives (startRecord inTurn.world "p" x) x ∧
      Alone { value := ((startRecord inTurn.world "p" x).entry x.entry).vars.held "x" }
        ((trace (startRecord inTurn.world "p" x) x).flatMap (Moment.events "x")) ∧
      textOf (((inTurn.start "p" 0).world.entry x.entry).vars.held "x") = some "three" := by
    decide +kernel
  have hlawful : Registry.Lawful [] := fun _ _ h => by simp at h
  obtain ⟨-, -, -, -, halone⟩ := latest_event_wins_iff_undisputed
    (reachable_registered _ hlawful) (@Stretch.start inTurn "p" 0 x hx hlive) "x"
  exact ⟨x, hx, halone hone, htext⟩

/-- Two shells are closed one after the other, with `one` and with `two`. -/
def disputed : Machine := registered (page "+T:a |&x:one |-a |+T:b |&x:two |-b" [])

/-- **A later close can lose to an earlier one**: the entry of that page holds `one` in the end. -/
theorem later_close_can_lose :
    ¬ ∀ (m m' : Machine) (w : World) (x : Execution) (name : String),
      m.Reachable → m.Stretch w x m' →
      (m'.world.entry x.entry).vars.held name =
        latest ((w.entry x.entry).vars.held name) ((trace w x).flatMap (Moment.events name)) := by
  intro h
  obtain ⟨x, hx, hlive, hfinal, hlatest⟩ : ∃ x ∈ ofKey? disputed.world "p" 0,
      Survives (startRecord disputed.world "p" x) x ∧
      textOf (((disputed.start "p" 0).world.entry x.entry).vars.held "x") = some "one" ∧
      textOf (latest (((startRecord disputed.world "p" x).entry x.entry).vars.held "x")
        ((trace (startRecord disputed.world "p" x) x).flatMap (Moment.events "x"))) =
          some "two" := by
    decide +kernel
  have hlawful : Registry.Lawful [] := fun _ _ h => by simp at h
  have heq := h disputed _ _ _ "x" (reachable_registered _ hlawful)
    (@Stretch.start disputed "p" 0 x hx hlive)
  rw [heq, hlatest] at hfinal
  simp at hfinal

end Machine

end PageMacro
