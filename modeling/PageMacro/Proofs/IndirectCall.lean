import PageMacro.Proofs.Reachable

/-!
# Calls through `call`

`call:name:a:b` calls a verb by its name, or a function of the page's module. Three things happen to
the call on the way: the arguments move one place to the left, the word `this` becomes the
triggering element, and the recovery that the verb left behind is replaced by one that reports the
failure and goes on with undefined (`swallow`). `invoke_registered` is all that later proofs need to
know about it: calling `call` is calling the verb with `Invocation.passedOn`, with the recovery
replaced.

What a result is settled with is up to its outcome (`Result.Gets`), and what the recovery gets to see
is the answer after the continuation (`Result.continued`). So a result whose recovery gives a value
whatever happens cannot fail, and a verb that succeeds does not notice that its recovery was
replaced.
-/

namespace PageMacro

/-! ## What comes of a result -/

namespace Result

/-- The answers that a result can be settled with: its outcome, or whatever its job gives. -/
inductive Gets (r : Result) : Answer → Prop where
  | value {v : Value} : r.outcome = .value v → Gets r (.ok v)
  | failure {f : Failure} : r.outcome = .failure f → Gets r (.error f)
  | crash {text : String} : r.outcome = .crash text → Gets r (.error (.crashed text))
  | pending {job : Job} (answer : Answer) : r.outcome = .pending job → Gets r answer

/-- The answer after the continuation, before any recovery. -/
def continued (r : Result) (answer : Answer) : StateM Desk Answer :=
  match answer, r.onValue with
  | .ok v, some next => next v
  | answer, _ => pure answer

/-- What the recovery makes of an answer. -/
def recovered (r : Result) (answer : Answer) : StateM Desk Answer :=
  match answer, r.onFailure with
  | .error f, some recover => recover f
  | answer, _ => pure answer

/-- A result that gives a value in the end, whatever it is settled with. -/
def NeverFails (r : Result) : Prop :=
  ∀ answer, r.Gets answer → ∀ d, ∃ v d', (r.settle answer).run d = (.ok v, d')

variable {r : Result} {answer : Answer} {d d' : Desk}

theorem settle_eq (r : Result) (answer : Answer) :
    r.settle answer = r.continued answer >>= r.recovered := by
  obtain ⟨outcome, onValue, onFailure⟩ := r
  cases answer with
  | error f => rfl
  | ok v => cases onValue <;> rfl

/-- If the continuation succeeds there is nothing to recover from. -/
theorem settle_of_ok {v : Value} (h : (r.continued answer).run d = (.ok v, d')) :
    (r.settle answer).run d = (.ok v, d') := by
  rw [settle_eq, StateT.run_bind, h]
  rfl

/-- The recovery sees the failure of the verb, of its job or of its continuation. -/
theorem settle_of_error {f : Failure} {recover : Failure → StateM Desk Answer}
    (h : (r.continued answer).run d = (.error f, d')) (hr : r.onFailure = some recover) :
    (r.settle answer).run d = (recover f).run d' := by
  have hrecovered : r.recovered (.error f) = recover f := by
    unfold recovered
    rw [hr]
  rw [settle_eq, StateT.run_bind, h]
  show (r.recovered (.error f)).run d' = _
  rw [hrecovered]

/-- A recovery that always gives a value makes a result that never fails. -/
theorem neverFails_of_recovery {recover : Failure → StateM Desk Answer}
    (hr : r.onFailure = some recover) (h : ∀ f d, ∃ v d', (recover f).run d = (.ok v, d')) :
    r.NeverFails := by
  intro answer _ d
  cases hc : (r.continued answer).run d with
  | mk reply d' =>
    cases reply with
    | ok v => exact ⟨v, d', settle_of_ok hc⟩
    | error f =>
      rw [settle_of_error hc hr]
      exact h f d'

theorem neverFails_done (v : Value) : (done v).NeverFails := by
  intro answer hgets d
  cases hgets with
  | value h => exact ⟨_, d, rfl⟩
  | failure h => cases h
  | crash h => cases h
  | pending _ h => cases h

end Result

/-! ## What is passed on -/

namespace Invocation

/-- What is to be called. -/
def target (inv : Invocation) : String := (inv.arg 0).text inv.label

/-- The direct call of the target with the other arguments. -/
def direct (inv : Invocation) : Invocation :=
  { inv with
    name := inv.target
    args := inv.args.drop 1
    raw := inv.raw.drop 1
    logAttrs := inv.logAttrs ++ [("function", .text inv.target)] }

/-- The call of the target that `call` makes. -/
def passedOn (inv : Invocation) : Invocation := { inv.direct with args := Verb.callArgs inv }

/-- There is one parameter as written for each argument. -/
def Aligned (inv : Invocation) : Prop := inv.raw.length = inv.args.length

end Invocation

namespace Verb

open Invocation

section Arguments

variable {inv : Invocation}

theorem length_callArgs (inv : Invocation) :
    (callArgs inv).length = min inv.raw.length inv.args.length - 1 := by
  unfold callArgs
  rw [List.length_map, List.length_drop, List.length_zip]

theorem length_callArgs_lt (h : inv.args ≠ []) : (callArgs inv).length < inv.args.length := by
  have hpos : 0 < inv.args.length := List.length_pos_iff.mpr h
  rw [length_callArgs]
  omega

/-- An argument is passed on as it is, or as the triggering element if `this` is written there. -/
theorem callArgs_getElem? {i : Nat} {raw : String} {arg : Value} (hraw : inv.raw[i + 1]? = some raw)
    (harg : inv.args[i + 1]? = some arg) :
    (callArgs inv)[i]? = some (if raw = "this" then .object (.element inv.trigger) else arg) := by
  have hzip : (inv.raw.zip inv.args)[1 + i]? = some (raw, arg) := by
    rw [Nat.add_comm 1 i, List.getElem?_zip_eq_some]
    exact ⟨hraw, harg⟩
  unfold callArgs
  rw [List.getElem?_map, List.getElem?_drop, hzip]
  simp

/-- Without the word `this` the target gets the other arguments as they are. -/
theorem passedOn_of_not_this (haligned : inv.Aligned) (h : "this" ∉ inv.raw.drop 1) :
    inv.passedOn = inv.direct := by
  have hargs : callArgs inv = inv.args.drop 1 := by
    refine List.ext_getElem? fun i => ?_
    rw [List.getElem?_drop, Nat.add_comm 1 i]
    by_cases hi : i + 1 < inv.args.length
    · have hi' : i + 1 < inv.raw.length := haligned ▸ hi
      have hmem : inv.raw[i + 1] ∈ inv.raw.drop 1 :=
        List.mem_drop_iff_getElem.mpr ⟨i, by omega, by simp [Nat.add_comm]⟩
      have hne : inv.raw[i + 1] ≠ "this" := fun heq => h (heq ▸ hmem)
      rw [callArgs_getElem? (List.getElem?_eq_getElem hi') (List.getElem?_eq_getElem hi),
        if_neg hne, List.getElem?_eq_getElem hi]
    · have hlen : (callArgs inv).length ≤ i := by
        rw [length_callArgs]
        omega
      rw [List.getElem?_eq_none hlen, List.getElem?_eq_none (by omega)]
  unfold passedOn
  rw [hargs]
  rfl

theorem aligned_passedOn (h : inv.Aligned) : inv.passedOn.Aligned := by
  have hlen : inv.raw.length = inv.args.length := h
  show (inv.raw.drop 1).length = (callArgs inv).length
  rw [length_callArgs, List.length_drop]
  omega

end Arguments

/-! ## Calls of calls -/

section Calls

variable {verbs : Registry} {globals : Option Globals} {inv : Invocation}

/-- A depth beyond the number of arguments makes no difference: no call through `call` is cut off. -/
theorem invokeWithin_of_lt :
    ∀ (depth depth' : Nat) (verb : Verb) (inv : Invocation), inv.args.length < depth →
      inv.args.length < depth' →
      invokeWithin verbs globals depth verb inv = invokeWithin verbs globals depth' verb inv := by
  intro depth
  induction depth with
  | zero => exact fun _ _ _ h => absurd h (Nat.not_lt_zero _)
  | succ depth ih =>
    intro depth' verb inv h h'
    obtain ⟨depth', rfl⟩ : ∃ n, depth' = n + 1 := ⟨depth' - 1, by omega⟩
    cases verb with
    | plain run => rw [invokeWithin, invokeWithin]
    | call =>
      rw [invokeWithin, invokeWithin]
      cases hargs : inv.args with
      | nil => rfl
      | cons target rest =>
        dsimp only
        cases hl : verbs.lookup (target.text inv.label) with
        | none => rfl
        | some verb =>
          -- the call within has one argument less, and so it may have one level less
          have hfewer : (callArgs inv).length < inv.args.length :=
            length_callArgs_lt (by rw [hargs]; exact List.cons_ne_nil _ _)
          have hdepth : (callArgs inv).length < depth := by omega
          have hdepth' : (callArgs inv).length < depth' := by omega
          dsimp only
          rw [ih depth' verb _ hdepth hdepth']

/-- What `call` does, by what there is of the name that it is given. -/
theorem invoke_call (hargs : inv.args ≠ []) :
    invoke verbs globals .call inv =
      match verbs.lookup inv.target with
      | some verb => do
        let r ← invokeWithin verbs globals inv.args.length verb inv.passedOn
        return { r with onFailure := some (swallow inv inv.target) }
      | none =>
        match globals with
        | some g =>
          if g.functions.contains inv.target then
            let plain := (callArgs inv).map (plainArg inv.label)
            return { outcome := .pending (.call fun _ => g.call inv.target plain)
                     onFailure := some (swallow inv inv.target) }
          else invokeWithin.missing inv inv.target
        | none => invokeWithin.missing inv inv.target := by
  obtain ⟨target, rest, hcons⟩ := List.exists_cons_of_ne_nil hargs
  have htarget : inv.target = target.text inv.label := by
    unfold Invocation.target arg
    rw [hcons]
    rfl
  unfold invoke passedOn direct
  rewrite [invokeWithin, hcons, htarget]
  rfl

/-- **Calling through `call` is calling the target**, with the recovery replaced. -/
theorem invoke_registered (hargs : inv.args ≠ []) {verb : Verb}
    (h : verbs.lookup inv.target = some verb) :
    invoke verbs globals .call inv = do
      let r ← verb.invoke verbs globals inv.passedOn
      return { r with onFailure := some (swallow inv inv.target) } := by
  have hfewer : inv.passedOn.args.length < inv.args.length := length_callArgs_lt hargs
  have hdepth : invokeWithin verbs globals inv.args.length verb inv.passedOn =
      verb.invoke verbs globals inv.passedOn :=
    invokeWithin_of_lt _ _ verb _ hfewer (Nat.lt_succ_self _)
  rw [invoke_call hargs, h]
  dsimp only
  rw [hdepth]

/-- A function of the module is a job. -/
theorem invoke_function (hargs : inv.args ≠ []) (h : verbs.lookup inv.target = none) {g : Globals}
    (hg : inv.target ∈ g.functions) :
    invoke verbs (some g) .call inv =
      pure { outcome := .pending (.call fun _ =>
               g.call inv.target ((callArgs inv).map (plainArg inv.label)))
             onFailure := some (swallow inv inv.target) } := by
  rw [invoke_call hargs, h]
  dsimp only
  rw [if_pos (List.contains_iff_mem.mpr hg)]

/-- A name that nothing has is reported. -/
theorem invoke_missing (hargs : inv.args ≠ []) (h : verbs.lookup inv.target = none)
    (hg : ∀ g, globals = some g → inv.target ∉ g.functions) :
    invoke verbs globals .call inv = invokeWithin.missing inv inv.target := by
  rw [invoke_call hargs, h]
  dsimp only
  cases globals with
  | none => rfl
  | some g =>
    have hnot : ¬ g.functions.contains inv.target = true :=
      fun hmem => hg g rfl (List.contains_iff_mem.mp hmem)
    dsimp only
    rw [if_neg hnot]

theorem swallow_run (inv : Invocation) (function : String) (f : Failure) (d : Desk) :
    (swallow inv function f).run d = (.ok .undefined, { d with log := d.log ++
      [⟨.error, "call failed",
        inv.logAttrs ++ [("function", .text function), ("error", .text f.message)]⟩] }) :=
  rfl

theorem swallow_gives (inv : Invocation) (function : String) (f : Failure) (d : Desk) :
    ∃ v d', (swallow inv function f).run d = (.ok v, d') :=
  ⟨_, _, swallow_run inv function f d⟩

/-- **What `call` gives never fails.** -/
theorem neverFails_call (hargs : inv.args ≠ []) (d : Desk) :
    ((invoke verbs globals .call inv).run d).1.NeverFails := by
  cases hl : verbs.lookup inv.target with
  | some verb =>
    rw [invoke_registered hargs hl]
    exact Result.neverFails_of_recovery rfl (swallow_gives inv inv.target)
  | none =>
    by_cases hg : ∃ g, globals = some g ∧ inv.target ∈ g.functions
    · obtain ⟨g, rfl, hmem⟩ := hg
      rw [invoke_function hargs hl hmem]
      exact Result.neverFails_of_recovery rfl (swallow_gives inv inv.target)
    · have hnone : ∀ g, globals = some g → inv.target ∉ g.functions :=
        fun g heq hmem => hg ⟨g, heq, hmem⟩
      rw [invoke_missing hargs hl hnone]
      exact Result.neverFails_done .undefined

/-- A chain of calls: the first call, and each next one is what a call through `call` passes on to
`call` itself. -/
inductive Nested (verbs : Registry) (outer : Invocation) : Nat → Invocation → Prop where
  | first : Nested verbs outer 0 outer
  | next {n : Nat} {inv : Invocation} : Nested verbs outer n inv → inv.args ≠ [] →
      verbs.lookup inv.target = some .call → Nested verbs outer (n + 1) inv.passedOn

/-- Each call of a chain has one argument less than the one before, and one parameter less. -/
theorem Nested.aligned {outer : Invocation} {n : Nat} (h : Nested verbs outer n inv)
    (haligned : outer.Aligned) : inv.Aligned ∧ inv.args.length + n = outer.args.length := by
  induction h with
  | first => exact ⟨haligned, rfl⟩
  | @next n inv _ hargs _ ih =>
    have hpos : 0 < inv.args.length := List.length_pos_iff.mpr hargs
    have hsame : inv.raw.length = inv.args.length := ih.1
    have hlen : inv.passedOn.args.length = inv.args.length - 1 := by
      show (callArgs inv).length = _
      rw [length_callArgs, hsame, Nat.min_self]
    refine ⟨aligned_passedOn ih.1, ?_⟩
    have hsum := ih.2
    omega

end Calls

end Verb

/-! ## Executions -/

namespace Execution

variable {x : Execution} {w : World}

theorem atDesk_of_gives {act : StateM Desk Answer} (h : ∀ d, ∃ v d', act.run d = (.ok v, d')) :
    ∃ v w', x.atDesk w act = (w', .ok v) := by
  obtain ⟨v, d', hrun⟩ := h { vars := x.vars w }
  unfold atDesk
  rw [hrun]
  exact ⟨v, _, rfl⟩

theorem conclude_of_gives {act : StateM Desk Answer} (h : ∀ d, ∃ v d', act.run d = (.ok v, d'))
    (name : String) (args : List String) :
    ∃ v w', x.conclude (x.atDesk w act).1 name args (x.atDesk w act).2 =
      (w', { x with current := v }, .next) := by
  obtain ⟨v, w', hact⟩ := atDesk_of_gives h
  rw [hact]
  exact ⟨v, w', rfl⟩

/-- The parameters of an invocation are as many as its arguments. -/
theorem aligned_invocation (x : Execution) (w : World) (name : String) (parameters : List String) :
    (x.invocation w name parameters).Aligned := by
  show (parameters.map Segment.unescape).length = (parameters.map (argument (x.vars w))).length
  rw [List.length_map, List.length_map]

/-- Whatever comes of its job, an execution that waits for it goes on with a value. -/
def GoesOn (wait : Wait) : Prop :=
  ∀ answer w x, x.state = .suspended → x.wait = some wait →
    ∃ v w', settle answer w x = run w' (x.resumed v)

theorem goesOn_of_neverFails {wait : Wait} (h : wait.result.NeverFails)
    (hjob : wait.result.outcome = .pending wait.job) : GoesOn wait := by
  intro answer w x hstate hwait
  obtain ⟨v, w', hdesk⟩ := atDesk_of_gives (h answer (.pending answer hjob))
  exact ⟨v, w', settle_of_ok hstate hwait hdesk⟩

/-- **A segment that calls `call` is not abandoned**: it goes on at once, or it waits for something
that it goes on after. -/
theorem callVerb_goesOn {segment name parameters : String} (hname : w.verbs.lookup name = some .call)
    (hparameters : Segment.splitParameters parameters ≠ []) :
    (∃ v w', x.callVerb w segment name parameters = (w', { x with current := v }, .next)) ∨
      ∃ wait w', x.callVerb w segment name parameters = (w', x, .await wait) ∧ GoesOn wait := by
  have hargs : (x.invocation w name (Segment.splitParameters parameters)).args ≠ [] := by
    show (Segment.splitParameters parameters).map (argument (x.vars w)) ≠ []
    rwa [Ne, List.map_eq_nil_iff]
  have hnever : (x.atDesk w (Verb.call.invoke w.verbs w.globals
      (x.invocation w name (Segment.splitParameters parameters)))).2.NeverFails :=
    Verb.neverFails_call hargs { vars := x.vars w }
  unfold callVerb
  rw [hname]
  dsimp only
  generalize x.atDesk w (Verb.call.invoke w.verbs w.globals
    (x.invocation w name (Segment.splitParameters parameters))) = called at hnever ⊢
  cases houtcome : called.2.outcome with
  | pending job => exact .inr ⟨_, _, rfl, goesOn_of_neverFails hnever houtcome⟩
  | value v => exact .inl (conclude_of_gives (hnever _ (.value houtcome)) name _)
  | failure f => exact .inl (conclude_of_gives (hnever _ (.failure houtcome)) name _)
  | crash text => exact .inl (conclude_of_gives (hnever _ (.crash houtcome)) name _)

end Execution

/-! ## The main result -/

namespace Verb

open Execution

/-- A result that is another one with its failures swallowed: it waits for the same job, it gives the
value of the other one when there is nothing to recover from, and otherwise it gives undefined and a
record of the failure. -/
structure Swallows (inv : Invocation) (r r' : Result) : Prop where
  outcome : r'.outcome = r.outcome
  succeeds : ∀ answer v d d', (r.continued answer).run d = (.ok v, d') →
    (r.settle answer).run d = (.ok v, d') ∧ (r'.settle answer).run d = (.ok v, d')
  fails : ∀ answer f d d', (r.continued answer).run d = (.error f, d') →
    (r'.settle answer).run d = (.ok .undefined, { d' with log := d'.log ++
      [⟨.error, "call failed",
        inv.logAttrs ++ [("function", .text inv.target), ("error", .text f.message)]⟩] })

theorem swallows_of_recovery (inv : Invocation) (r : Result) :
    Swallows inv r { r with onFailure := some (swallow inv inv.target) } where
  outcome := rfl
  succeeds := fun answer v d d' h => ⟨Result.settle_of_ok h, Result.settle_of_ok h⟩
  fails := by
    intro answer f d d' h
    rw [← swallow_run]
    exact Result.settle_of_error h rfl

/-- **`call` is the direct call with failures swallowed.** However calls are nested, none is cut off
by its depth, each has as many parameters as arguments, and each has fewer than the one before, so
that every position that is read is there. What comes of `call` never fails, and a segment that calls
it goes on whatever its job gives. A registered verb does what it does in a direct call with the
other parameters, its failures swallowed; a name that nothing has changes no variable. -/
theorem call_swallows_failures (verbs : Registry) (globals : Option Globals) (inv : Invocation)
    (hargs : inv.args ≠ []) (haligned : inv.Aligned) :
    (∀ depth, inv.args.length < depth →
      invokeWithin verbs globals depth .call inv = invoke verbs globals .call inv) ∧
    (∀ n inner, Nested verbs inv n inner →
      inner.Aligned ∧ inner.args.length + n = inv.args.length ∧
      ∀ i, i + 1 < inner.args.length → ∃ raw arg, inner.raw[i + 1]? = some raw ∧
        inner.args[i + 1]? = some arg ∧ inner.passedOn.args[i]? =
          some (if raw = "this" then .object (.element inner.trigger) else arg)) ∧
    (∀ d, ((invoke verbs globals .call inv).run d).1.NeverFails) ∧
    (∀ (x : Execution) (w : World) (segment name parameters target : String) (rest : List String),
      w.verbs.lookup name = some .call → Segment.splitParameters parameters = target :: rest →
      (x.invocation w name (target :: rest)).Aligned ∧
      (∃ verb attrs, verb = (argument (x.vars w) target).text w.document.label ∧
        (x.invocation w name (target :: rest)).direct =
          { x.invocation w verb rest with logAttrs := attrs }) ∧
      ((∃ v w', x.callVerb w segment name parameters = (w', { x with current := v }, .next)) ∨
        ∃ wait w', x.callVerb w segment name parameters = (w', x, .await wait) ∧ GoesOn wait)) ∧
    (∀ verb, verbs.lookup inv.target = some verb → "this" ∉ inv.raw.drop 1 →
      ∀ d r d', (verb.invoke verbs globals inv.direct).run d = (r, d') →
        ∃ r', (invoke verbs globals .call inv).run d = (r', d') ∧ Swallows inv r r') ∧
    (verbs.lookup inv.target = none → (∀ g, globals = some g → inv.target ∉ g.functions) →
      ∀ d, (invoke verbs globals .call inv).run d = (.done .undefined, { d with log := d.log ++
        [⟨.error, "call target not found", inv.logAttrs ++ [("function", .text inv.target)]⟩] })) := by
  refine ⟨?_, ?_, neverFails_call hargs, ?_, ?_, ?_⟩
  · intro depth hdepth
    exact invokeWithin_of_lt depth _ .call inv hdepth (Nat.lt_succ_self _)
  · intro n inner hnested
    obtain ⟨hinner, hlen⟩ := hnested.aligned haligned
    refine ⟨hinner, hlen, fun i hi => ?_⟩
    have hi' : i + 1 < inner.raw.length := hinner ▸ hi
    have hraw : inner.raw[i + 1]? = some inner.raw[i + 1] := List.getElem?_eq_getElem hi'
    have harg : inner.args[i + 1]? = some inner.args[i + 1] := List.getElem?_eq_getElem hi
    exact ⟨_, _, hraw, harg, callArgs_getElem? hraw harg⟩
  · intro x w segment name parameters target rest hname hparameters
    have hsome : Segment.splitParameters parameters ≠ [] := by
      rw [hparameters]
      exact List.cons_ne_nil target rest
    exact ⟨aligned_invocation x w name _, ⟨_, _, rfl, rfl⟩, callVerb_goesOn hname hsome⟩
  · intro verb hverb hthis d r d' hdirect
    rw [invoke_registered hargs hverb, passedOn_of_not_this haligned hthis, StateT.run_bind, hdirect]
    exact ⟨_, rfl, swallows_of_recovery inv r⟩
  · intro hverb hglobals d
    rw [invoke_missing hargs hverb hglobals]
    rfl

/-- A verb that fails after a write. -/
def failing : Registry :=
  [("call", .call),
    ("half", .plain fun inv => do
      modify fun d => { d with vars := d.vars.set "a" (inv.arg 0) }
      return .fail .noFetcher)]

/-- It is called through two calls. -/
def twice : Invocation where
  name := "call"
  args := [.string "call", .string "half", .string "x"]
  raw := ["call", "half", "x"]
  scopeName := "p"
  scopeElement := Document.root
  trigger := Document.root
  label := fun _ => "p"

/-- What the verb wrote before it failed stays; the failure does not. -/
theorem failure_is_swallowed :
    twice.args ≠ [] ∧ twice.Aligned ∧ twice.passedOn.args.length + 1 = twice.args.length ∧
      ∃ r d, (invoke failing none .call twice).run { vars := {} } = (r, d) ∧
        d.vars.held "a" = some (.string "x") ∧ r.outcome = .failure .noFetcher ∧
        ∃ v d', (r.settle (.error .noFetcher)).run d = (.ok v, d') := by
  have hargs : twice.args ≠ [] := List.cons_ne_nil _ _
  have haligned : twice.Aligned := rfl
  have hlookup : failing.lookup twice.target = some .call := rfl
  obtain ⟨_, hchain, hnever, _, hdirect, _⟩ :=
    call_swallows_failures failing none twice hargs haligned
  obtain ⟨_, hlen, _⟩ := hchain 1 twice.passedOn (.next .first hargs hlookup)
  obtain ⟨r, hrun, hswallows⟩ := hdirect .call hlookup (by decide) { vars := {} } _ _ rfl
  have hgets : r.NeverFails := by
    have hnow := hnever { vars := {} }
    rwa [hrun] at hnow
  have houtcome : r.outcome = .failure .noFetcher := hswallows.outcome
  exact ⟨hargs, haligned, hlen, r, _, hrun, rfl, houtcome, hgets _ (.failure houtcome) _⟩

end Verb

end PageMacro
