import PageMacro.Proofs.IndirectCall

/-!
# What a call does to the variables

A call of a verb has two parts: what the verb does when it is called, and what is done with the
answer once there is one, which may be much later and at a desk that others have written to in the
meantime. `FullCall` is a call with both parts, and `Passage` the variables at its ends.

The standard verbs check whatever they are given before they write, so a call that comes to a
failure has not written anything, whether or not the failure is recovered from. A call that succeeds
does what is said by `Performs`, where `call` does what the verb does that it reaches.
-/

namespace PageMacro

/-! ## Fields of an object -/

namespace Json

theorem nodup_fields? {fields : List (String × Tree)} {after : List Char} :
    ∀ (fuel : Nat) (cs : List Char) (found : List (String × Tree)),
      (found.map Prod.fst).Nodup → fields? fuel cs found = some (fields, after) →
      (fields.map Prod.fst).Nodup := by
  intro fuel
  induction fuel with
  | zero =>
      intro cs found _ h
      rw [fields?] at h
      cases h
  | succ fuel ih =>
      intro cs found hfound h
      rw [fields?] at h
      split at h
      · obtain ⟨named, -, h⟩ := Option.bind_eq_some_iff.mp h
        dsimp only at h
        split at h
        · obtain ⟨valued, -, h⟩ := Option.bind_eq_some_iff.mp h
          have hput := @nodup_names_putField _ (String.ofList named.1) valued.1 _ hfound
          split at h
          · exact ih _ _ hput h
          · obtain ⟨rfl, -⟩ := Prod.mk.inj (Option.some.inj h)
            exact hput
          · cases h
        · cases h
      · cases h

theorem nodup_value? {fuel : Nat} {cs after : List Char} {fields : List (String × Tree)}
    (h : value? fuel cs = some (.map fields, after)) : (fields.map Prod.fst).Nodup := by
  cases fuel with
  | zero =>
      rw [value?] at h
      cases h
  | succ fuel =>
      rw [value?] at h
      split at h
      · cases h
      · cases h
      · cases h
      · obtain ⟨pair, -, hpair⟩ := Option.map_eq_some_iff.mp h
        cases hpair
      · split at h
        · cases h
        · obtain ⟨pair, -, hpair⟩ := Option.map_eq_some_iff.mp h
          cases hpair
      · split at h
        · cases h
          exact List.nodup_nil
        · obtain ⟨pair, hread, hpair⟩ := Option.map_eq_some_iff.mp h
          cases hpair
          exact nodup_fields? _ _ [] List.nodup_nil hread
      · obtain ⟨pair, -, hpair⟩ := Option.map_eq_some_iff.mp h
        cases hpair

/-- No name comes twice among the fields that are read. -/
theorem nodup_parseFields? {text : String} {fields : List (String × Tree)}
    (h : parseFields? text = some fields) : (fields.map Prod.fst).Nodup := by
  unfold parseFields? at h
  split at h
  · rename_i read hread
    obtain rfl := Option.some.inj h
    unfold parse? at hread
    dsimp only at hread
    split at hread
    · cases hread
    · split at hread
      · rename_i tree rest hvalue
        split at hread
        · obtain rfl := Option.some.inj hread
          exact nodup_value? hvalue
        · cases hread
      · cases hread
  · obtain rfl := Option.some.inj h
    exact List.nodup_nil
  · cases h

end Json

namespace Store

/-- One store is another one after the fields of an object have been set, each name to its field. -/
structure Loads (s : Store) (fields : List (String × Tree)) (s' : Store) : Prop where
  held : ∀ name, s'.held name = ((fields.lookup name).map Value.ofTree).or (s.held name)
  /-- All of them count as written. -/
  written : ∀ name, name ∈ fields.map Prod.fst → s.revision < s'.lastWrite name
  others : ∀ name, name ∉ fields.map Prod.fst → s.Untouched s' name

theorem loads_setAll {fields : List (String × Tree)} (hnames : (fields.map Prod.fst).Nodup)
    (s : Store) : s.Loads fields (s.setAll (fields.map fun p => (p.1, .ofTree p.2))) := by
  have hsame : (fields.map fun p => (p.1, Value.ofTree p.2)).map Prod.fst =
      fields.map Prod.fst := by
    rw [List.map_map]
    rfl
  have hheld : ∀ name, (s.setAll (fields.map fun p => (p.1, .ofTree p.2))).held name =
      ((fields.lookup name).map Value.ofTree).or (s.held name) := by
    intro name
    rw [held_setAll_last, lastMention_map, lastMention_of_nodup hnames]
  refine ⟨hheld, fun name hname => ?_, fun name hname => ⟨?_, ?_⟩⟩
  · exact lastWrite_setAll_of_mem _ s (hsame ▸ hname)
  · exact lastWrite_setAll_of_not_mem _ s (hsame ▸ hname)
  · rw [hheld, lookup_of_not_mem hname]
    rfl

end Store

/-- The variable that a call names: its first argument without a leading `$`. -/
def Invocation.variable (inv : Invocation) : String :=
  Text.withoutStart "$" ((inv.arg 0).text inv.label)

/-! ## Calls from beginning to end -/

/-- A call of a verb: where it starts, and where its answer arrives. -/
structure FullCall (verbs : Registry) (globals : Option Globals) (verb : Verb)
    (inv : Invocation) where
  start : Desk
  /-- What the result is settled with. -/
  answer : Answer
  /-- The desk when the answer is there. Without a job that is the one that the verb has left. -/
  resumed : Desk
  gets : ((verb.invoke verbs globals inv).run start).1.Gets answer

/-- The variables when a verb is called and when it returns, when its answer is there and when it
has been dealt with. -/
structure Passage where
  start : Store
  left : Store
  resumed : Store
  finish : Store

/-- Neither part of a call changes a variable. -/
def Passage.Still (p : Passage) : Prop := p.left = p.start ∧ p.finish = p.resumed

namespace FullCall

variable {verbs : Registry} {globals : Option Globals} {verb : Verb} {inv : Invocation}

/-- What the verb hands back. -/
def result (c : FullCall verbs globals verb inv) : Result :=
  ((verb.invoke verbs globals inv).run c.start).1

/-- What comes of the verb, its job and its continuation, before any recovery. -/
def reply (c : FullCall verbs globals verb inv) : Answer :=
  ((c.result.continued c.answer).run c.resumed).1

/-- What the call gives in the end. -/
def final (c : FullCall verbs globals verb inv) : Answer :=
  ((c.result.settle c.answer).run c.resumed).1

/-- The variables on the way. -/
def passage (c : FullCall verbs globals verb inv) : Passage where
  start := c.start.vars
  left := ((verb.invoke verbs globals inv).run c.start).2.vars
  resumed := c.resumed.vars
  finish := ((c.result.settle c.answer).run c.resumed).2.vars

end FullCall

namespace Verb

/-- What a call that succeeds does to the variables, by the name of the verb. -/
inductive Performs (verbs : Registry) :
    String → Invocation → Passage → Answer → Value → Prop
  | keeps {name : String} {inv : Invocation} {p : Passage} {answer : Answer} {v : Value}
      (hname : name ∈ ["log", "exc", "sleep", "ajax", "secret", "eval"]) (hstill : p.Still) :
      Performs verbs name inv p answer v
  /-- One variable is set to the value that the call gives. -/
  | assigns {name : String} {inv : Invocation} {p : Passage} {answer : Answer} {v : Value}
      (hname : name ∈ ["inc", "dec", "toggle", "clamp"])
      (hleft : p.left = p.start.set inv.variable v) (hfinish : p.finish = p.resumed) :
      Performs verbs name inv p answer v
  /-- The fields of the object that the answer holds are set. -/
  | loads {inv : Invocation} {p : Passage} {body : Value} {fields : List (String × Tree)}
      (hfields : Json.parseFields? (body.text inv.label) = some fields)
      (hleft : p.left = p.start) (hfinish : p.resumed.Loads fields p.finish) :
      Performs verbs "vars" inv p (.ok body) (.object (.map fields))
  /-- The target does it. -/
  | calls {inv : Invocation} {p : Passage} {answer : Answer} {v : Value} {verb : Verb}
      (hverb : verbs.lookup inv.target = some verb)
      (htarget : Performs verbs inv.target inv.passedOn p answer v) :
      Performs verbs "call" inv p answer v
  /-- A function of the page's module, or nothing of that name. -/
  | elsewhere {inv : Invocation} {p : Passage} {answer : Answer} {v : Value}
      (hverb : verbs.lookup inv.target = none) (hstill : p.Still) :
      Performs verbs "call" inv p answer v

/-! ## Steps that check -/

/-- Steps that leave the desk alone, whether they fail or not. -/
def Checks {α : Type} (steps : Attempt α) : Prop := ∀ d, (steps.run.run d).2 = d

/-- A check fails and nothing is done, or it gives something to go on with. -/
theorem attempt_bind {α : Type} {steps : Attempt α} (h : Checks steps) (next : α → Attempt Result)
    (d : Desk) :
    (∃ f, (attempt (steps >>= next)).run d = (.fail f, d)) ∨
      ∃ a, steps.run.run d = (.ok a, d) ∧
        (attempt (steps >>= next)).run d = (attempt (next a)).run d := by
  have hdesk : (steps.run.run d).2 = d := h d
  have hbind : (steps >>= next).run.run d =
      (ExceptT.bindCont next (steps.run.run d).1).run (steps.run.run d).2 := rfl
  unfold attempt
  rw [StateT.run_bind, hbind]
  cases hrun : steps.run.run d with
  | mk reply d' =>
      rw [hrun] at hdesk
      obtain rfl : d' = d := hdesk
      cases reply with
      | error f => exact .inl ⟨f, rfl⟩
      | ok a => exact .inr ⟨a, rfl, rfl⟩

theorem checks_varName (inv : Invocation) : Checks (varName inv) := by
  intro d
  unfold varName
  dsimp only
  split
  · rfl
  · rfl

theorem variable_of_varName {inv : Invocation} {d d' : Desk} {name : String}
    (h : (varName inv).run.run d = (.ok name, d')) : name = inv.variable := by
  unfold varName at h
  dsimp only at h
  split at h
  · cases h
  · exact (Except.ok.inj (congrArg Prod.fst h)).symm

theorem checks_numberArg (inv : Invocation) (i : Nat) (default : Float) :
    Checks (numberArg inv i default) := by
  intro d
  unfold numberArg
  split
  · rfl
  · split <;> rfl

theorem checks_get : Checks (get : Attempt Desk) := fun _ => rfl

theorem checks_requestArg (deps : Deps) (inv : Invocation) : Checks (requestArg deps inv) := by
  intro d
  unfold requestArg
  dsimp only
  split
  · rfl
  · split <;> rfl

/-! ## One call -/

/-- What has to be known of a result and the desk that the verb has left, for whatever answer and at
whatever desk it is settled. -/
structure Atomic (verbs : Registry) (name : String) (inv : Invocation) (d : Desk) (r : Result)
    (d' : Desk) : Prop where
  fails : ∀ answer f e e', r.Gets answer → (r.continued answer).run e = (.error f, e') →
    Passage.Still ⟨d.vars, d'.vars, e.vars, e'.vars⟩
  succeeds : ∀ answer v e e', r.Gets answer → (r.continued answer).run e = (.ok v, e') →
    Performs verbs name inv ⟨d.vars, d'.vars, e.vars, e'.vars⟩ answer v
  recovers : ∀ recover, r.onFailure = some recover → ∀ f e, ((recover f).run e).2.vars = e.vars

section Atomic

variable {verbs : Registry} {name : String} {inv : Invocation} {d d' : Desk} {r : Result}

/-- Without a continuation the answer stays as it is. -/
theorem run_continued_of_none (hnone : r.onValue = none) (answer : Answer) (e : Desk) :
    (r.continued answer).run e = (answer, e) := by
  unfold Result.continued
  rw [hnone]
  cases answer <;> rfl

/-- A verb that has changed no variable, and leaves no continuation behind. -/
theorem atomic_still (hvars : d'.vars = d.vars) (hnone : r.onValue = none)
    (hrecovers : ∀ recover, r.onFailure = some recover →
      ∀ f e, ((recover f).run e).2.vars = e.vars)
    (hperforms : ∀ p answer v, p.Still → Performs verbs name inv p answer v) :
    Atomic verbs name inv d r d' where
  fails := by
    intro answer f e e' _ hrun
    rw [run_continued_of_none hnone] at hrun
    exact ⟨hvars, congrArg Desk.vars (Prod.mk.inj hrun).2.symm⟩
  succeeds := by
    intro answer v e e' _ hrun
    rw [run_continued_of_none hnone] at hrun
    exact hperforms _ _ _ ⟨hvars, congrArg Desk.vars (Prod.mk.inj hrun).2.symm⟩
  recovers := hrecovers

theorem atomic_fail (f : Failure) (hvars : d'.vars = d.vars) :
    Atomic verbs name inv d (.fail f) d' where
  fails := by
    intro answer g e e' _ hrun
    rw [run_continued_of_none rfl] at hrun
    exact ⟨hvars, congrArg Desk.vars (Prod.mk.inj hrun).2.symm⟩
  succeeds := by
    intro answer v e e' hgets hrun
    rw [run_continued_of_none rfl] at hrun
    obtain ⟨rfl, -⟩ := Prod.mk.inj hrun
    -- there is nothing but the failure to settle it with
    cases hgets with
    | value h => cases h
    | pending _ h => cases h
  recovers := fun _ h => by cases h

theorem atomic_done {v : Value} (hname : name ∈ ["inc", "dec", "toggle", "clamp"])
    (hvars : d'.vars = d.vars.set inv.variable v) : Atomic verbs name inv d (.done v) d' where
  fails := by
    intro answer f e e' hgets hrun
    rw [run_continued_of_none rfl] at hrun
    obtain ⟨rfl, -⟩ := Prod.mk.inj hrun
    cases hgets with
    | failure h => cases h
    | crash h => cases h
    | pending _ h => cases h
  succeeds := by
    intro answer u e e' hgets hrun
    rw [run_continued_of_none rfl] at hrun
    obtain ⟨rfl, rfl⟩ := Prod.mk.inj hrun
    cases hgets with
    | value h =>
        obtain rfl : v = u := Outcome.value.inj h
        exact .assigns hname hvars rfl
    | pending _ h => cases h
  recovers := fun _ h => by cases h

/-! ### Verbs that set fields -/

/-- What `vars` hands back. -/
def loading (inv : Invocation) (request : Fetch.Request) : Result where
  outcome := .pending (.fetch request)
  onValue := some (loadFields inv request.url)
  onFailure := some fun f => do
    inv.report .error "failed to load variables"
      [("url", .text request.url), ("error", .text f.message)]
    return .ok .undefined

/-- The fields are set if the whole body can be read, and nothing is set otherwise. -/
theorem loadFields_cases (inv : Invocation) (url : String) (body : Value) (e : Desk) :
    (∃ f, (loadFields inv url body).run e = (.error f, e)) ∨
      ∃ fields e', Json.parseFields? (body.text inv.label) = some fields ∧
        (loadFields inv url body).run e = (.ok (.object (.map fields)), e') ∧
        e.vars.Loads fields e'.vars := by
  unfold loadFields
  cases hread : Json.parseFields? (body.text inv.label) with
  | none => exact .inl ⟨_, rfl⟩
  | some fields =>
      exact .inr ⟨fields, _, rfl, rfl, Store.loads_setAll (Json.nodup_parseFields? hread) e.vars⟩

theorem atomic_loading (request : Fetch.Request) (hvars : d'.vars = d.vars) :
    Atomic verbs "vars" inv d (loading inv request) d' where
  fails := by
    intro answer f e e' _ hrun
    cases answer with
    | error g => exact ⟨hvars, congrArg Desk.vars (Prod.mk.inj hrun).2.symm⟩
    | ok body =>
        rcases loadFields_cases inv request.url body e with ⟨g, hfail⟩ | ⟨fields, e'', -, hload, -⟩
        · exact ⟨hvars, congrArg Desk.vars (Prod.mk.inj (hfail.symm.trans hrun)).2.symm⟩
        · cases (Prod.mk.inj (hload.symm.trans hrun)).1
  succeeds := by
    intro answer v e e' _ hrun
    cases answer with
    | error g => cases (Prod.mk.inj hrun).1
    | ok body =>
        rcases loadFields_cases inv request.url body e with
          ⟨g, hfail⟩ | ⟨fields, e'', hread, hload, hloads⟩
        · cases (Prod.mk.inj (hfail.symm.trans hrun)).1
        · obtain ⟨hv, rfl⟩ := Prod.mk.inj (hload.symm.trans hrun)
          obtain rfl := Except.ok.inj hv
          exact .loads hread hvars hloads
  recovers := by
    intro recover hrecover f e
    obtain rfl := Option.some.inj hrecover
    rfl

end Atomic

/-! ## The standard verbs -/

/-- Steps that fail without doing anything, or set a variable to what they give. -/
def Sets (name : String) (steps : Attempt Result) : Prop :=
  ∀ d, (∃ f, (attempt steps).run d = (.fail f, d)) ∨
    ∃ v, (attempt steps).run d = (.done v, { d with vars := d.vars.set name v })

theorem sets_assignTo (name : String) (v : Value) : Sets name (assignTo name v) :=
  fun _ => .inr ⟨v, rfl⟩

/-- A check before such steps. -/
theorem sets_bind {α : Type} {name : String} {steps : Attempt α} (h : Checks steps)
    {next : α → Attempt Result} (hn : ∀ a, Sets name (next a)) : Sets name (steps >>= next) := by
  intro d
  rcases attempt_bind h next d with hfail | ⟨a, -, hrun⟩
  · exact .inl hfail
  · rw [hrun]
    exact hn a d

/-- The first check gives the name. -/
theorem sets_varName (inv : Invocation) {next : String → Attempt Result}
    (hn : Sets inv.variable (next inv.variable)) : Sets inv.variable (varName inv >>= next) := by
  intro d
  rcases attempt_bind (checks_varName inv) next d with hfail | ⟨name, hname, hrun⟩
  · exact .inl hfail
  · obtain rfl := variable_of_varName hname
    rw [hrun]
    exact hn d

/-- A verb that sets the variable that it is given, or fails. -/
def Assigning (run : Invocation → StateM Desk Result) : Prop :=
  ∀ inv d, (∃ f, (run inv).run d = (.fail f, d)) ∨
    ∃ v, (run inv).run d = (.done v, { d with vars := d.vars.set inv.variable v })

theorem step_assigning (sign : Float) : Assigning (step sign) := fun inv =>
  sets_varName inv (sets_bind (checks_numberArg inv 1 1.0) fun _ =>
    sets_bind checks_get fun _ => sets_assignTo _ _)

theorem toggle_assigning : Assigning toggle := fun inv =>
  sets_varName inv (sets_bind checks_get fun _ => sets_assignTo _ _)

theorem clamp_assigning : Assigning clamp := fun inv =>
  sets_varName inv (sets_bind (checks_numberArg inv 1 0.0) fun _ =>
    sets_bind (checks_numberArg inv 2 100.0) fun _ =>
    sets_bind checks_get fun _ => sets_assignTo _ _)

/-- A verb that changes no variable and leaves nothing behind for later. -/
def Keeping (run : Invocation → StateM Desk Result) : Prop :=
  ∀ inv d, ∃ outcome log, (run inv).run d = ({ outcome }, { d with log })

theorem log_keeping : Keeping log := fun _ _ => ⟨_, _, rfl⟩

theorem sleep_keeping : Keeping sleep := fun _ _ => ⟨_, _, rfl⟩

theorem run_get_bind (next : Desk → StateM Desk Result) (d : Desk) :
    ((get : StateM Desk Desk) >>= next).run d = (next d).run d := rfl

theorem exc_keeping : Keeping exc := by
  intro inv d
  unfold exc
  split
  · exact ⟨_, _, rfl⟩
  · dsimp only
    split
    · exact ⟨_, _, rfl⟩
    · split
      · rw [run_get_bind]
        split <;> exact ⟨_, _, rfl⟩
      · exact ⟨_, _, rfl⟩

theorem eval_keeping (deps : Deps) : Keeping (eval deps) := by
  intro inv d
  unfold eval
  dsimp only
  split
  · exact ⟨_, _, rfl⟩
  · rw [run_get_bind]
    split <;> exact ⟨_, _, rfl⟩

theorem secret_keeping (deps : Deps) : Keeping (secret deps) := by
  intro inv d
  unfold secret
  dsimp only
  split
  · exact ⟨_, _, rfl⟩
  · split <;> exact ⟨_, _, rfl⟩

theorem ajax_keeping (deps : Deps) : Keeping (ajax deps) := by
  intro inv d
  rcases attempt_bind (checks_requestArg deps inv) _ d with ⟨f, hfail⟩ | ⟨request, -, hrun⟩
  · exact ⟨_, _, hfail⟩
  · exact ⟨_, _, hrun⟩

theorem vars_cases (deps : Deps) (inv : Invocation) (d : Desk) :
    (∃ f, (vars deps inv).run d = (.fail f, d)) ∨
      ∃ request, (vars deps inv).run d = (loading inv request, d) := by
  rcases attempt_bind (checks_requestArg deps inv) _ d with hfail | ⟨request, -, hrun⟩
  · exact .inl hfail
  · exact .inr ⟨request, hrun⟩

/-! ## Calls -/

/-- Calls of a verb with these arguments are atomic, wherever they start. -/
def AtomicCall (verbs : Registry) (globals : Option Globals) (name : String) (verb : Verb)
    (inv : Invocation) : Prop :=
  ∀ d, Atomic verbs name inv d ((verb.invoke verbs globals inv).run d).1
    ((verb.invoke verbs globals inv).run d).2

section Calls

variable {verbs : Registry} {globals : Option Globals} {name : String} {inv : Invocation}
  {run : Invocation → StateM Desk Result}

theorem invoke_plain {d d' : Desk} {r : Result} (h : (run inv).run d = (r, d')) :
    ((Verb.plain run).invoke verbs globals inv).run d =
      ({ r with outcome := Outcome.recovered r.outcome }, d') := by
  unfold invoke
  rw [invokeWithin, StateT.run_bind, h]
  rfl

theorem atomic_assigning (h : Assigning run) (hname : name ∈ ["inc", "dec", "toggle", "clamp"])
    (inv : Invocation) : AtomicCall verbs globals name (.plain run) inv := by
  intro d
  rcases h inv d with ⟨f, hrun⟩ | ⟨v, hrun⟩
  · rw [invoke_plain hrun]
    exact atomic_fail f rfl
  · rw [invoke_plain hrun]
    exact atomic_done hname rfl

theorem atomic_keeping (h : Keeping run)
    (hname : name ∈ ["log", "exc", "sleep", "ajax", "secret", "eval"]) (inv : Invocation) :
    AtomicCall verbs globals name (.plain run) inv := by
  intro d
  obtain ⟨outcome, log, hrun⟩ := h inv d
  rw [invoke_plain hrun]
  exact atomic_still rfl rfl (fun _ h => by cases h) fun _ _ _ => .keeps hname

theorem atomic_vars (deps : Deps) (inv : Invocation) :
    AtomicCall verbs globals "vars" (.plain (vars deps)) inv := by
  intro d
  rcases vars_cases deps inv d with ⟨f, hrun⟩ | ⟨request, hrun⟩
  · rw [invoke_plain hrun]
    exact atomic_fail f rfl
  · rw [invoke_plain hrun]
    exact atomic_loading request rfl

/-- With its recovery replaced, the result of the target is the one of `call`. -/
theorem Atomic.swallowed {d d' : Desk} {r : Result} {verb : Verb}
    (hverb : verbs.lookup inv.target = some verb)
    (h : Atomic verbs inv.target inv.passedOn d r d') :
    Atomic verbs "call" inv d { r with onFailure := some (swallow inv inv.target) } d' := by
  have hgets : ∀ answer, Result.Gets { r with onFailure := some (swallow inv inv.target) } answer →
      r.Gets answer := by
    intro answer hgets
    cases hgets with
    | value houtcome => exact .value houtcome
    | failure houtcome => exact .failure houtcome
    | crash houtcome => exact .crash houtcome
    | pending _ houtcome => exact .pending _ houtcome
  refine ⟨fun answer f e e' hg hrun => ?_, fun answer v e e' hg hrun => ?_,
    fun recover hrecover f e => ?_⟩
  · exact h.fails answer f e e' (hgets answer hg) hrun
  · exact .calls hverb (h.succeeds answer v e e' (hgets answer hg) hrun)
  · obtain rfl := Option.some.inj hrecover
    rfl

/-- A call through `call` is atomic if the call that it makes is. -/
theorem atomic_call (htarget : ∀ verb, inv.args ≠ [] → verbs.lookup inv.target = some verb →
    AtomicCall verbs globals inv.target verb inv.passedOn) :
    AtomicCall verbs globals "call" .call inv := by
  intro d
  by_cases hargs : inv.args = []
  · have hfail : (invoke verbs globals .call inv).run d =
        (.fail (.missingArgument "function name"), d) := by
      unfold invoke
      rw [invokeWithin, hargs]
      rfl
    rw [hfail]
    exact atomic_fail _ rfl
  · cases hverb : verbs.lookup inv.target with
    | some verb =>
        rw [invoke_registered hargs hverb, StateT.run_bind]
        exact (htarget verb hargs hverb d).swallowed hverb
    | none =>
        by_cases hg : ∃ g, globals = some g ∧ inv.target ∈ g.functions
        · obtain ⟨g, rfl, hmem⟩ := hg
          rw [invoke_function hargs hverb hmem]
          refine atomic_still rfl rfl (fun recover hrecover f e => ?_) fun _ _ _ => .elsewhere hverb
          obtain rfl := Option.some.inj hrecover
          rfl
        · have hnone : ∀ g, globals = some g → inv.target ∉ g.functions :=
            fun g heq hmem => hg ⟨g, heq, hmem⟩
          rw [invoke_missing hargs hverb hnone]
          exact atomic_still rfl rfl (fun _ h => by cases h) fun _ _ _ => .elsewhere hverb

end Calls

/-- **A standard verb is atomic**, however many calls it takes to get to it. -/
theorem atomic_standard (deps : Deps) (globals : Option Globals) :
    ∀ (n : Nat) {name : String} {verb : Verb} (inv : Invocation), inv.args.length < n →
      (standard deps).lookup name = some verb →
      AtomicCall (standard deps) globals name verb inv := by
  -- on the number of arguments: a call through `call` has one less
  intro n
  induction n with
  | zero => exact fun inv h => absurd h (Nat.not_lt_zero _)
  | succ n ih =>
      intro name verb inv hlength hverb
      have hmem := mem_of_lookup hverb
      simp only [standard, List.mem_cons, Prod.mk.injEq, List.not_mem_nil, or_false] at hmem
      rcases hmem with ⟨rfl, rfl⟩ | ⟨rfl, rfl⟩ | ⟨rfl, rfl⟩ | ⟨rfl, rfl⟩ | ⟨rfl, rfl⟩ | ⟨rfl, rfl⟩ |
        ⟨rfl, rfl⟩ | ⟨rfl, rfl⟩ | ⟨rfl, rfl⟩ | ⟨rfl, rfl⟩ | ⟨rfl, rfl⟩ | ⟨rfl, rfl⟩
      · exact atomic_keeping log_keeping (by decide) inv
      · exact atomic_assigning (step_assigning 1.0) (by decide) inv
      · exact atomic_assigning (step_assigning (-1.0)) (by decide) inv
      · exact atomic_assigning toggle_assigning (by decide) inv
      · exact atomic_assigning clamp_assigning (by decide) inv
      · exact atomic_keeping exc_keeping (by decide) inv
      · exact atomic_keeping sleep_keeping (by decide) inv
      · refine atomic_call fun verb hargs htarget => ih inv.passedOn ?_ htarget
        have hfewer : inv.passedOn.args.length < inv.args.length := length_callArgs_lt hargs
        omega
      · exact atomic_keeping (eval_keeping deps) (by decide) inv
      · exact atomic_keeping (ajax_keeping deps) (by decide) inv
      · exact atomic_vars deps inv
      · exact atomic_keeping (secret_keeping deps) (by decide) inv

/-- What a full call of a standard verb does, by what comes of it. -/
theorem passage_of_reply {deps : Deps} {globals : Option Globals} {name : String} {verb : Verb}
    {inv : Invocation} (hverb : (standard deps).lookup name = some verb)
    (c : FullCall (standard deps) globals verb inv) :
    (∀ f, c.reply = .error f → c.passage.Still) ∧
      ∀ v, c.reply = .ok v →
        c.final = .ok v ∧ Performs (standard deps) name inv c.passage c.answer v := by
  have hatomic := atomic_standard deps globals _ inv (Nat.lt_succ_self _) hverb c.start
  cases hrun : (c.result.continued c.answer).run c.resumed with
  | mk reply replied =>
      have hreply : c.reply = reply := congrArg Prod.fst hrun
      rw [hreply]
      constructor
      · rintro f rfl
        obtain ⟨hleft, hreplied⟩ := hatomic.fails c.answer f c.resumed replied c.gets hrun
        refine ⟨hleft, ?_⟩
        show ((c.result.settle c.answer).run c.resumed).2.vars = c.resumed.vars
        -- the recovery, if there is one, comes after the failure and changes nothing either
        cases hr : c.result.onFailure with
        | some recover =>
            rw [Result.settle_of_error hrun hr]
            exact (hatomic.recovers recover hr f replied).trans hreplied
        | none =>
            have hrecovered : c.result.recovered (.error f) = pure (.error f) := by
              unfold Result.recovered
              rw [hr]
            rw [Result.settle_eq, StateT.run_bind, hrun]
            show ((c.result.recovered (.error f)).run replied).2.vars = c.resumed.vars
            rw [hrecovered]
            exact hreplied
      · rintro v rfl
        have hsettle : (c.result.settle c.answer).run c.resumed = (.ok v, replied) :=
          Result.settle_of_ok hrun
        have hperforms := hatomic.succeeds c.answer v c.resumed replied c.gets hrun
        unfold FullCall.final FullCall.passage
        rw [hsettle]
        exact ⟨rfl, hperforms⟩

end Verb

/-! ## Segments -/

namespace Execution

open Verb

variable {x : Execution} {w : World}

/-- What happens at the desk happens to the variables of the active scope. -/
theorem vars_atDesk {α : Type} (hp : x.Placed w) (act : StateM Desk α) :
    x.vars (x.atDesk w act).1 = (act.run { vars := x.vars w }).2.vars := by
  rw [atDesk_eq]
  exact vars_patch hp _

theorem placed_atDesk {α : Type} (hp : x.Placed w) (act : StateM Desk α) :
    x.Placed (x.atDesk w act).1 := by
  rw [atDesk_eq]
  exact placed_patch hp _

/-- An answer that is a failure in the end has changed nothing. -/
theorem vars_of_failed {deps : Deps} {globals : Option Globals} {name : String} {verb : Verb}
    {inv : Invocation} (hp : x.Placed w) (hverb : (standard deps).lookup name = some verb)
    {called : World × Result}
    (hcalled : x.atDesk w (verb.invoke (standard deps) globals inv) = called) {answer : Answer}
    (hgets : called.2.Gets answer) {f : Failure}
    (hfailed : (x.atDesk called.1 (called.2.settle answer)).2 = .error f) :
    x.vars (x.atDesk called.1 (called.2.settle answer)).1 = x.vars w := by
  subst hcalled
  let c : FullCall (standard deps) globals verb inv :=
    { start := { vars := x.vars w }
      answer
      resumed := { vars := x.vars (x.atDesk w (verb.invoke (standard deps) globals inv)).1 }
      gets := hgets }
  have hfinal : c.final = .error f := hfailed
  obtain ⟨hstill, hok⟩ := passage_of_reply hverb c
  cases hreply : c.reply with
  | ok v => cases (hok v hreply).1.symm.trans hfinal
  | error g =>
      -- the second desk starts with the variables that the first one has left
      obtain ⟨hleft, hfinish⟩ := hstill g hreply
      have hcalled := vars_atDesk hp (verb.invoke (standard deps) globals inv)
      rw [vars_atDesk (placed_atDesk hp _)]
      exact hfinish.trans (hcalled.trans hleft)

/-- A run is abandoned for a failure only, and that is only reported. -/
theorem vars_conclude {name : String} {args : List String} {answer : Answer} {f : Failure}
    (h : (x.conclude w name args answer).2.2 = .abandon f) :
    (∃ g, answer = .error g) ∧ x.vars (x.conclude w name args answer).1 = x.vars w := by
  cases answer with
  | ok v => cases h
  | error g => exact ⟨⟨g, rfl⟩, rfl⟩

/-- **A segment that gives up at once on a standard verb has not changed a variable.** -/
theorem vars_of_abandoned {deps : Deps} {name segment parameters : String} {f : Failure}
    (hp : x.Placed w) (hverbs : w.verbs = standard deps)
    (habandon : (x.callVerb w segment name parameters).2.2 = .abandon f) :
    x.vars (x.callVerb w segment name parameters).1 = x.vars w := by
  unfold callVerb at habandon ⊢
  rw [hverbs] at habandon ⊢
  cases hverb : (standard deps).lookup name with
  | none =>
      rw [hverb] at habandon
      cases habandon
  | some verb =>
      rw [hverb] at habandon
      dsimp only at habandon ⊢
      generalize hcalled : x.atDesk w (verb.invoke (standard deps) w.globals
        (x.invocation w name (Segment.splitParameters parameters))) = called at habandon ⊢
      cases houtcome : called.2.outcome with
      | pending job =>
          rw [houtcome] at habandon
          cases habandon
      | value v =>
          rw [houtcome] at habandon
          obtain ⟨⟨g, hg⟩, hvars⟩ := vars_conclude habandon
          exact hvars.trans (vars_of_failed hp hverb hcalled (.value houtcome) hg)
      | failure e =>
          rw [houtcome] at habandon
          obtain ⟨⟨g, hg⟩, hvars⟩ := vars_conclude habandon
          exact hvars.trans (vars_of_failed hp hverb hcalled (.failure houtcome) hg)
      | crash text =>
          rw [houtcome] at habandon
          obtain ⟨⟨g, hg⟩, hvars⟩ := vars_conclude habandon
          exact hvars.trans (vars_of_failed hp hverb hcalled (.crash houtcome) hg)

end Execution

/-! ## The main result -/

namespace Verb

/-- **The standard verbs are atomic.** If the verb, its job or its continuation fails, whether or
not the failure is recovered from, no variable has changed, and a segment that gives up leaves the
active scope as it was. If the call succeeds it gives what its continuation gives and does to the
variables what the verb is there for. -/
theorem standard_verbs_are_atomic (deps : Deps) (globals : Option Globals) {name : String}
    {verb : Verb} (hverb : (standard deps).lookup name = some verb) (inv : Invocation)
    (c : FullCall (standard deps) globals verb inv) :
    (∀ f, c.reply = .error f → c.passage.Still) ∧
    (∀ v, c.reply = .ok v →
      c.final = .ok v ∧ Performs (standard deps) name inv c.passage c.answer v) ∧
    ∀ (x : Execution) (w : World) (segment parameters : String) (f : Failure),
      x.Placed w → w.verbs = standard deps →
      (x.callVerb w segment name parameters).2.2 = .abandon f →
      x.vars (x.callVerb w segment name parameters).1 = x.vars w := by
  obtain ⟨hfails, hsucceeds⟩ := passage_of_reply hverb c
  exact ⟨hfails, hsucceeds, fun x w segment parameters f hp hverbs habandon =>
    Execution.vars_of_abandoned hp hverbs habandon⟩

/-- Nothing can be reached from here. -/
def isolated : Deps where
  evaluate := fun _ _ _ => .error .noFetcher

/-- The second bound is the value of a variable that is not set. -/
def unbounded : Invocation where
  name := "clamp"
  args := [.string "$n", .number 1.0, .undefined]
  raw := ["$n", "1", "!top"]
  scopeName := "p"
  scopeElement := Document.root
  trigger := Document.root
  label := fun _ => "p"

/-- The name and the first bound are right, and still nothing is written. -/
theorem unbounded_clamp_writes_nothing :
    ∃ c : FullCall (standard isolated) none (.plain clamp) unbounded,
      c.start.vars.held "n" = some (.boolean true) ∧ c.reply = .error (.notANumber "") ∧
        c.passage.left = c.start.vars ∧ c.passage.finish = c.start.vars := by
  have hverb : (standard isolated).lookup "clamp" = some (.plain clamp) := rfl
  let start : Desk := { vars := Store.set {} "n" (.boolean true) }
  have hrun : ((Verb.plain clamp).invoke (standard isolated) none unbounded).run start =
      (.fail (.notANumber ""), start) := rfl
  let c : FullCall (standard isolated) none (.plain clamp) unbounded :=
    { start, answer := .error (.notANumber ""), resumed := start
      gets := by rw [hrun]; exact .failure rfl }
  have hreply : c.reply = .error (.notANumber "") := rfl
  obtain ⟨hfails, -⟩ := standard_verbs_are_atomic isolated none hverb unbounded c
  obtain ⟨hleft, hfinish⟩ := hfails _ hreply
  exact ⟨c, rfl, hreply, hleft, hfinish⟩

end Verb

end PageMacro
