import PageMacro.Proofs.Store
import PageMacro.Verb.Standard

/-!
# What verbs do to their desk

A verb is handed a desk and may do anything to it in principle. What the interpreter
relies on is a relation between the desk before and after: that the store is the store
before, after some writes (`Desk.Gives`, which the merges rely on), or that the log has
grown by certain records only. `Desk.Ensures` is about any such relation that is kept
by doing nothing, by one thing after the other, by writing variables and by reporting
what is no warning (`Desk.Allows`). So it is proved once for the ways of combining
actions and then read off for every standard verb.

`Result.Respects`, `Verb.Respects` and `Registry.Respects` ask the same of a host's verb
and of the continuations it leaves behind; `Lawful` is the case of the writes. The verb
`call` adds nothing: it respects what the verbs it can reach respect.
-/

namespace PageMacro

namespace Desk

/-- `act` changes the desk as the relation says, and what it gives satisfies `P`. -/
def Ensures {α : Type} (R : Desk → Desk → Prop) (act : StateM Desk α) (P : α → Prop) : Prop :=
  ∀ d : Desk, R d (act.run d).2 ∧ P (act.run d).1

/-- A relation that holds of whatever reads, writes variables and reports what is no warning. -/
structure Allows (R : Desk → Desk → Prop) : Prop where
  refl : ∀ d, R d d
  trans : ∀ {d d' d''}, R d d' → R d' d'' → R d d''
  writes : ∀ (d : Desk) (vars : Store), d.vars.Becomes vars → R d { d with vars }
  reports : ∀ (d : Desk) (record : Record), record.level ≠ .warn →
    R d { d with log := d.log ++ [record] }

namespace Allows

variable {R : Desk → Desk → Prop}

theorem pure {α : Type} {P : α → Prop} {a : α} (hR : Allows R) (h : P a) :
    Ensures R (Pure.pure a : StateM Desk α) P :=
  fun d => ⟨hR.refl d, h⟩

theorem bind {α β : Type} {P : α → Prop} {Q : β → Prop} {act : StateM Desk α}
    {next : α → StateM Desk β} (hR : Allows R) (h : Ensures R act P)
    (hn : ∀ a, P a → Ensures R (next a) Q) : Ensures R (act >>= next) Q := by
  intro d
  obtain ⟨h1, hP⟩ := h d
  obtain ⟨h2, hQ⟩ := hn (act.run d).1 hP (act.run d).2
  exact ⟨hR.trans h1 h2, hQ⟩

theorem get (hR : Allows R) : Ensures R (MonadState.get : StateM Desk Desk) fun _ => True :=
  fun d => ⟨hR.refl d, trivial⟩

theorem write {f : Store → Store} (hR : Allows R) (h : ∀ s : Store, s.Becomes (f s)) :
    Ensures R (modify fun d => { d with vars := f d.vars } : StateM Desk PUnit) fun _ => True :=
  fun d => ⟨hR.writes d _ (h d.vars), trivial⟩

theorem report (hR : Allows R) (inv : Invocation) {level : Level} (hlevel : level ≠ .warn)
    (message : String) (attrs : LogAttrs) :
    Ensures R (inv.report level message attrs) fun _ => True :=
  fun d => ⟨hR.reports d _ hlevel, trivial⟩

end Allows

/-- `act` changes variables by writes only, and what it gives satisfies `P`. -/
def Gives {α : Type} (act : StateM Desk α) (P : α → Prop) : Prop :=
  ∀ d : Desk, d.vars.Becomes (act.run d).2.vars ∧ P (act.run d).1

/-- The relation of writes. -/
def Writes (d d' : Desk) : Prop := d.vars.Becomes d'.vars

theorem allows_writes : Allows Writes where
  refl := fun d => Store.Becomes.refl d.vars
  trans := Store.Becomes.trans
  writes := fun _ _ h => h
  reports := fun d _ _ => Store.Becomes.refl d.vars

theorem gives_pure {α : Type} {P : α → Prop} {a : α} (h : P a) :
    Gives (pure a : StateM Desk α) P :=
  allows_writes.pure h

end Desk

open Desk

/-- What a verb leaves behind for later keeps to a relation. -/
structure Result.Respects (R : Desk → Desk → Prop) (r : Result) : Prop where
  /-- The continuation does. -/
  onValue : ∀ next, r.onValue = some next → ∀ v, Ensures R (next v) fun _ => True
  /-- The recovery does. -/
  onFailure : ∀ recover, r.onFailure = some recover → ∀ f, Ensures R (recover f) fun _ => True

/-- A verb that keeps to a relation, now and later. -/
def Verb.Respects (R : Desk → Desk → Prop) : Verb → Prop
  | .plain run => ∀ inv, Ensures R (run inv) (Result.Respects R)
  | .call => True

/-- All verbs of a registry keep to a relation. -/
def Registry.Respects (R : Desk → Desk → Prop) (verbs : Registry) : Prop :=
  ∀ name verb, (name, verb) ∈ verbs → verb.Respects R

/-- What a verb leaves behind for later changes variables by writes only. -/
structure Result.Lawful (r : Result) : Prop where
  /-- The continuation does. -/
  onValue : ∀ next, r.onValue = some next → ∀ v, Gives (next v) fun _ => True
  /-- The recovery does. -/
  onFailure : ∀ recover, r.onFailure = some recover → ∀ f, Gives (recover f) fun _ => True

/-- A verb that changes variables by writes only, now and later. -/
def Verb.Lawful : Verb → Prop
  | .plain run => ∀ inv, Gives (run inv) Result.Lawful
  | .call => True

/-- All verbs of a registry are lawful. -/
def Registry.Lawful (verbs : Registry) : Prop := ∀ name verb, (name, verb) ∈ verbs → verb.Lawful

namespace Result

theorem respects_outcome (R : Desk → Desk → Prop) (outcome : Outcome) :
    Respects R { outcome } := by
  constructor <;> intro _ h <;> exact absurd h (by simp)

/-- Settling a result keeps to what the result respects. -/
theorem Respects.settle {R : Desk → Desk → Prop} {r : Result} (h : r.Respects R)
    (hR : Allows R) (answer : Answer) : Ensures R (r.settle answer) fun _ => True := by
  unfold Result.settle
  dsimp only
  split
  · rename_i v next hn
    refine hR.bind (h.onValue next hn v) fun answer _ => ?_
    split
    · rename_i f recover hr
      exact h.onFailure recover hr f
    · exact hR.pure trivial
  · refine hR.bind (hR.pure (P := fun _ => True) trivial) fun answer _ => ?_
    split
    · rename_i f recover hr
      exact h.onFailure recover hr f
    · exact hR.pure trivial

theorem lawful_iff_respects {r : Result} : r.Lawful ↔ r.Respects Writes :=
  ⟨fun h => ⟨h.onValue, h.onFailure⟩, fun h => ⟨h.onValue, h.onFailure⟩⟩

theorem lawful_outcome (outcome : Outcome) : Lawful { outcome } :=
  lawful_iff_respects.mpr (respects_outcome Writes outcome)

/-- Settling a lawful result changes variables by writes only. -/
theorem Lawful.settle {r : Result} (h : r.Lawful) (answer : Answer) :
    Gives (r.settle answer) fun _ => True :=
  (lawful_iff_respects.mp h).settle allows_writes answer

end Result

namespace Verb

theorem gives_iff_ensures {act : StateM Desk Result} :
    Gives act Result.Lawful ↔ Ensures Writes act (Result.Respects Writes) :=
  forall_congr' fun _ => and_congr_right fun _ => Result.lawful_iff_respects

theorem lawful_iff_respects {verb : Verb} : verb.Lawful ↔ verb.Respects Writes := by
  cases verb with
  | plain run => exact forall_congr' fun _ => gives_iff_ensures
  | call => exact Iff.rfl

theorem registry_lawful_iff_respects {verbs : Registry} :
    verbs.Lawful ↔ verbs.Respects Writes :=
  forall_congr' fun _ => forall_congr' fun _ => forall_congr' fun _ => lawful_iff_respects

theorem respects_of_lookup {R : Desk → Desk → Prop} {verbs : Registry} {name : String}
    {verb : Verb} (h : verbs.Respects R) (hl : verbs.lookup name = some verb) :
    verb.Respects R := by
  induction verbs with
  | nil => simp at hl
  | cons pair rest ih =>
      obtain ⟨key, first⟩ := pair
      rw [lookup_cons_ite] at hl
      split at hl
      · exact h key verb (by rw [Option.some.inj hl]; exact List.mem_cons_self)
      · exact ih (fun n v hm => h n v (List.mem_cons_of_mem _ hm)) hl

theorem lawful_of_lookup {verbs : Registry} {name : String} {verb : Verb}
    (h : verbs.Lawful) (hl : verbs.lookup name = some verb) : verb.Lawful :=
  lawful_iff_respects.mpr (respects_of_lookup (registry_lawful_iff_respects.mp h) hl)

section Ensured

variable {R : Desk → Desk → Prop}

theorem swallow_ensures (hR : Allows R) (inv : Invocation) (function : String) (f : Failure) :
    Ensures R (swallow inv function f) fun _ => True :=
  hR.bind (hR.report inv (by decide) _ _) fun _ _ => hR.pure trivial

/-- **Calling a verb keeps to what the verbs respect**, however many calls through `call` it
takes. -/
theorem invokeWithin_ensures (hR : Allows R) {verbs : Registry} {globals : Option Globals}
    (h : verbs.Respects R) :
    ∀ (depth : Nat) (verb : Verb) (inv : Invocation), verb.Respects R →
      Ensures R (invokeWithin verbs globals depth verb inv) (Result.Respects R) := by
  have hmissing : ∀ inv name, Ensures R (invokeWithin.missing inv name) (Result.Respects R) :=
    fun inv name => hR.bind (hR.report inv (by decide) _ _) fun _ _ =>
      hR.pure (Result.respects_outcome R _)
  have hplain : ∀ run inv, (Verb.plain run).Respects R →
      Ensures R (do let r ← run inv; return { r with outcome := Outcome.recovered r.outcome })
        (Result.Respects R) := fun run inv hrun =>
    hR.bind (hrun inv) fun r hr => hR.pure ⟨hr.onValue, hr.onFailure⟩
  intro depth
  induction depth with
  | zero =>
      intro verb inv hverb
      cases verb with
      | plain run => exact hplain run inv hverb
      | call => exact hR.pure (Result.respects_outcome R _)
  | succ depth ih =>
      intro verb inv hverb
      cases verb with
      | plain run => exact hplain run inv hverb
      | call =>
          rw [invokeWithin]
          split
          · exact hR.pure (Result.respects_outcome R _)
          · dsimp only
            split
            · -- a verb of the registry: its recovery is replaced, its continuation stays
              rename_i verb hl
              refine hR.bind (ih verb _ (respects_of_lookup h hl)) fun r hr =>
                hR.pure ⟨hr.onValue, ?_⟩
              intro recover hrec f
              rw [← Option.some.inj hrec]
              exact swallow_ensures hR inv _ f
            · split
              · split
                · -- a function of the module runs elsewhere, so only its recovery is left
                  refine hR.pure ⟨fun _ hn => absurd hn (by simp), ?_⟩
                  intro recover hrec f
                  rw [← Option.some.inj hrec]
                  exact swallow_ensures hR inv _ f
                · exact hmissing inv _
              · exact hmissing inv _

theorem invoke_ensures (hR : Allows R) {verbs : Registry} {globals : Option Globals} {verb : Verb}
    (h : verbs.Respects R) (hv : verb.Respects R) (inv : Invocation) :
    Ensures R (verb.invoke verbs globals inv) (Result.Respects R) :=
  invokeWithin_ensures hR h _ verb inv hv

theorem invoke_gives {verbs : Registry} {globals : Option Globals} {verb : Verb}
    (h : verbs.Lawful) (hv : verb.Lawful) (inv : Invocation) :
    Gives (verb.invoke verbs globals inv) Result.Lawful :=
  gives_iff_ensures.mpr (invoke_ensures allows_writes (registry_lawful_iff_respects.mp h)
    (lawful_iff_respects.mp hv) inv)

/-! ## The standard verbs

Their steps may fail on the way; `Tries` is `Ensures` for such steps. -/

/-- `Desk.Ensures` for steps that may fail. -/
def Tries {α : Type} (R : Desk → Desk → Prop) (steps : Attempt α) (P : α → Prop) : Prop :=
  Ensures R steps.run fun r => ∀ a, r = .ok a → P a

theorem tries_bind (hR : Allows R) {α β : Type} {P : α → Prop} {Q : β → Prop} {steps : Attempt α}
    {next : α → Attempt β} (h : Tries R steps P) (hn : ∀ a, P a → Tries R (next a) Q) :
    Tries R (steps >>= next) Q := by
  show Ensures R (steps.run >>= ExceptT.bindCont next) _
  refine hR.bind h fun r hr => ?_
  cases r with
  | ok a => exact hn a (hr a rfl)
  | error f => exact hR.pure fun a ha => absurd ha (by simp)

theorem tries_pure (hR : Allows R) {α : Type} {P : α → Prop} {a : α} (h : P a) :
    Tries R (pure a) P :=
  hR.pure fun _ hb => by rw [← Except.ok.inj hb]; exact h

theorem tries_throw (hR : Allows R) {α : Type} {P : α → Prop} (f : Failure) :
    Tries R (throw f : Attempt α) P :=
  hR.pure fun a ha => absurd ha (by simp)

theorem tries_lift (hR : Allows R) {α : Type} {P : α → Prop} {act : StateM Desk α}
    (h : Ensures R act P) : Tries R (liftM act) P :=
  hR.bind h fun _ ha => hR.pure fun _ hb => by rw [← Except.ok.inj hb]; exact ha

theorem tries_get (hR : Allows R) : Tries R (get : Attempt Desk) fun _ => True :=
  tries_lift hR hR.get

theorem attempt_ensures (hR : Allows R) {steps : Attempt Result}
    (h : Tries R steps (Result.Respects R)) : Ensures R (attempt steps) (Result.Respects R) := by
  refine hR.bind h fun r hr => ?_
  cases r with
  | ok r => exact hR.pure (hr r rfl)
  | error f => exact hR.pure (Result.respects_outcome R _)

theorem varName_tries (hR : Allows R) (inv : Invocation) :
    Tries R (varName inv) fun _ => True := by
  unfold varName
  dsimp only
  split
  · exact tries_bind hR (P := fun _ => True) (tries_throw hR _) fun _ _ => tries_pure hR trivial
  · exact tries_pure hR trivial

theorem numberArg_tries (hR : Allows R) (inv : Invocation) (i : Nat) (default : Float) :
    Tries R (numberArg inv i default) fun _ => True := by
  unfold numberArg
  split
  · exact tries_pure hR trivial
  · split
    · exact tries_pure hR trivial
    · exact tries_throw hR _

theorem assignTo_tries (hR : Allows R) (name : String) (v : Value) :
    Tries R (assignTo name v) (Result.Respects R) :=
  tries_bind hR (tries_lift hR (hR.write fun s => Store.becomes_set s name v))
    fun _ _ => tries_pure hR (Result.respects_outcome R _)

theorem step_ensures (hR : Allows R) (sign : Float) (inv : Invocation) :
    Ensures R (step sign inv) (Result.Respects R) :=
  attempt_ensures hR (tries_bind hR (varName_tries hR inv) fun _ _ =>
    tries_bind hR (numberArg_tries hR inv 1 1.0) fun _ _ =>
    tries_bind hR (tries_get hR) fun _ _ => assignTo_tries hR _ _)

theorem requestArg_tries (hR : Allows R) (deps : Deps) (inv : Invocation) :
    Tries R (requestArg deps inv) fun _ => True := by
  have hthrow : ∀ (f : Failure) (next : PUnit → Attempt Fetch.Request),
      (∀ u, Tries R (next u) fun _ => True) → Tries R (throw f >>= next) fun _ => True :=
    fun f next hnext => tries_bind hR (P := fun _ => True) (tries_throw hR f) fun u _ => hnext u
  have hurl : ∀ request : Fetch.Request, Tries R (do
      if request.url.isEmpty then throw (.missingArgument "url")
      return request) fun _ => True := by
    intro request
    dsimp only
    split
    · exact hthrow _ _ fun _ => tries_pure hR trivial
    · exact tries_pure hR trivial
  unfold requestArg
  split
  · exact hthrow _ _ fun _ => hurl _
  · exact hurl _

theorem loadFields_ensures (hR : Allows R) (inv : Invocation) (url : String) (body : Value) :
    Ensures R (loadFields inv url body) fun _ => True := by
  unfold loadFields
  split
  · exact hR.pure trivial
  · refine hR.bind (hR.write fun s => Store.becomes_setAll _ s) fun _ _ => ?_
    exact hR.bind (hR.report inv (by decide) _ _) fun _ _ => hR.pure trivial

theorem vars_ensures (hR : Allows R) (deps : Deps) (inv : Invocation) :
    Ensures R (vars deps inv) (Result.Respects R) := by
  refine attempt_ensures hR
    (tries_bind hR (requestArg_tries hR deps inv) fun request _ => tries_pure hR ?_)
  constructor
  · intro next hn v
    rw [← Option.some.inj hn]
    exact loadFields_ensures hR inv _ v
  · intro recover hr f
    rw [← Option.some.inj hr]
    exact hR.bind (hR.report inv (by decide) _ _) fun _ _ => hR.pure trivial

theorem exc_ensures (hR : Allows R) (inv : Invocation) :
    Ensures R (exc inv) (Result.Respects R) := by
  have hdone : ∀ v, Ensures R (pure (Result.done v)) (Result.Respects R) :=
    fun v => hR.pure (Result.respects_outcome R _)
  unfold exc
  split
  · exact hdone _
  · dsimp only
    split
    · exact hdone _
    · split
      · refine hR.bind hR.get fun d _ => ?_
        split
        · exact hdone _
        · exact hdone _
      · exact hdone _

theorem eval_ensures (hR : Allows R) (deps : Deps) (inv : Invocation) :
    Ensures R (eval deps inv) (Result.Respects R) := by
  have houtcome : ∀ outcome, Ensures R (pure { outcome }) (Result.Respects R) :=
    fun outcome => hR.pure (Result.respects_outcome R outcome)
  unfold eval
  dsimp only
  split
  · exact houtcome _
  · refine hR.bind hR.get fun d _ => ?_
    split
    · exact houtcome _
    · exact houtcome _

theorem secret_ensures (hR : Allows R) (deps : Deps) (inv : Invocation) :
    Ensures R (secret deps inv) (Result.Respects R) := by
  have houtcome : ∀ outcome, Ensures R (pure { outcome }) (Result.Respects R) :=
    fun outcome => hR.pure (Result.respects_outcome R outcome)
  unfold secret
  dsimp only
  split
  · exact houtcome _
  · split
    · exact houtcome _
    · exact houtcome _
    · exact houtcome _

/-- **The standard verbs write variables and report, and warn of nothing.** -/
theorem standard_respects (hR : Allows R) (deps : Deps) : (standard deps).Respects R := by
  intro name verb h
  -- one goal for each verb, in the order of the list
  simp only [standard, List.mem_cons, Prod.mk.injEq, List.not_mem_nil, or_false] at h
  rcases h with ⟨-, rfl⟩ | ⟨-, rfl⟩ | ⟨-, rfl⟩ | ⟨-, rfl⟩ | ⟨-, rfl⟩ | ⟨-, rfl⟩ | ⟨-, rfl⟩ |
    ⟨-, rfl⟩ | ⟨-, rfl⟩ | ⟨-, rfl⟩ | ⟨-, rfl⟩ | ⟨-, rfl⟩ <;> try intro inv
  · exact hR.bind (hR.report inv (by decide) _ _) fun _ _ => hR.pure (Result.respects_outcome R _)
  · exact step_ensures hR 1.0 inv
  · exact step_ensures hR (-1.0) inv
  · exact attempt_ensures hR (tries_bind hR (varName_tries hR inv) fun _ _ =>
      tries_bind hR (tries_get hR) fun _ _ => assignTo_tries hR _ _)
  · exact attempt_ensures hR (tries_bind hR (varName_tries hR inv) fun _ _ =>
      tries_bind hR (numberArg_tries hR inv 1 0.0) fun _ _ =>
      tries_bind hR (numberArg_tries hR inv 2 100.0) fun _ _ =>
      tries_bind hR (tries_get hR) fun _ _ => assignTo_tries hR _ _)
  · exact exc_ensures hR inv
  · exact hR.pure (Result.respects_outcome R _)
  · trivial
  · exact eval_ensures hR deps inv
  · exact attempt_ensures hR (tries_bind hR (requestArg_tries hR deps inv) fun _ _ =>
      tries_bind hR (tries_lift hR (hR.report inv (by decide) _ _)) fun _ _ =>
      tries_pure hR (Result.respects_outcome R _))
  · exact vars_ensures hR deps inv
  · exact secret_ensures hR deps inv

end Ensured

/-- **The standard verbs are lawful.** -/
theorem standard_lawful (deps : Deps) : (standard deps).Lawful :=
  registry_lawful_iff_respects.mpr (standard_respects allows_writes deps)

end Verb

end PageMacro
