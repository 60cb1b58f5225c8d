import PageMacro.Lint.Check
import PageMacro.Proofs.Pieces
import PageMacro.Proofs.Registration

/-!
# Checking a page and running it

`World.lint` reads the scripts that are registered, and `Execution.step` reads the segments that an
execution has, which may have come to it through the body of a shell that another execution left
open. Both take a segment apart in the same way, since the segments of a script are trimmed already
(`Segment.trim_of_mem_split`). So what is left to show is that while nothing is registered again,
every segment that is stepped is one of the script registered under the key of the execution. Then a
step warns of a segment if and only if it is one of the problems reported.

A verb of the host may write any record, the two warnings included. So `Registry.Says` is a
parameter of the results: what is logged is what was reported, or what a verb has said itself. The
standard verbs say nothing of the kind.
-/

namespace PageMacro

open Execution

/-! ## Segments of a script are trimmed -/

theorem Segment.trim_of_mem_split {script segment : String}
    (h : segment ∈ Segment.split script) : Text.trim segment = segment := by
  obtain ⟨piece, -, rfl⟩ := List.mem_map.mp (List.mem_filter.mp h).1
  unfold Text.trim
  rw [String.toList_ofList, Text.trimChars_idem]

/-! ## What is reported -/

namespace Lint

/-- **What is wrong with a segment of a script** is what a step finds wrong with it. -/
theorem causeOf?_eq_some_iff {verbs : Registry} {segment : String}
    (htrim : Text.trim segment = segment) {cause : Cause} :
    causeOf? verbs segment = some cause ↔
      cause = .malformed ∧ Segment.ofScript? segment = none ∨
      ∃ name parameters, cause = .unknownVerb name ∧
        Segment.ofScript? segment = some (.verbCall name parameters) ∧
        verbs.lookup name = none := by
  unfold causeOf? Segment.classify Segment.verbName?
  rw [htrim]
  cases hread : Segment.ofScript? segment with
  | none =>
      rw [if_pos (by decide)]
      constructor
      · rintro ⟨⟩
        exact .inl ⟨rfl, rfl⟩
      · rintro (⟨rfl, -⟩ | ⟨_, _, -, hcall, -⟩)
        · rfl
        · cases hcall
  | some shape =>
      have hkind : ¬ (((some shape).map Segment.kind).getD .malformed == .malformed) = true := by
        cases shape <;> exact Bool.false_ne_true
      rw [if_neg hkind]
      cases shape with
      | verbCall name parameters =>
          dsimp only
          constructor
          · intro hcause
            split at hcause
            · cases hcause
            · rename_i hverb
              cases hcause
              exact .inr ⟨name, parameters, rfl, rfl, Option.not_isSome_iff_eq_none.mp hverb⟩
          · rintro (⟨-, hnone⟩ | ⟨_, _, rfl, hcall, hverb⟩)
            · cases hnone
            · cases hcall
              rw [hverb]
              rfl
      | attrWrite | indexedWrite | shellOpen | shellClose | propRead | literalAssign | propWrite
        | nopStore | contentSet => simp

theorem mem_problemsOf_iff {verbs : Registry} {key : String} {segments : List String}
    {p : Problem} : p ∈ problemsOf verbs key segments ↔
      ∃ i : Nat, segments[i]? = some p.segment ∧ p.key = key ∧ p.index = i ∧
        causeOf? verbs p.segment = some p.cause := by
  unfold problemsOf
  rw [List.mem_filterMap]
  constructor
  · rintro ⟨⟨segment, i⟩, hmem, heq⟩
    obtain ⟨cause, hcause, rfl⟩ := Option.map_eq_some_iff.mp heq
    exact ⟨i, List.mem_zipIdx_iff_getElem?.mp hmem, rfl, rfl, hcause⟩
  · rintro ⟨i, hi, hkey, hindex, hcause⟩
    refine ⟨(p.segment, i), List.mem_zipIdx_iff_getElem?.mpr hi, ?_⟩
    show (causeOf? verbs p.segment).map _ = _
    rw [hcause, Option.map_some, ← hkey, ← hindex]

end Lint

namespace World

/-- A segment of the script that is registered under a key. -/
def HasSegment (w : World) (key segment : String) : Prop :=
  ∃ text, w.text? key = some text ∧ segment ∈ Segment.split text

/-- **What is reported**: every segment of a registered script that has something wrong with it,
with its place. -/
theorem mem_lint_iff {w : World} (hw : w.Listed) {p : Lint.Problem} :
    p ∈ w.lint ↔ ∃ text, w.text? p.key = some text ∧
      ∃ i : Nat, (Segment.split text)[i]? = some p.segment ∧ p.index = i ∧
        Lint.causeOf? w.verbs p.segment = some p.cause := by
  unfold lint text?
  rw [List.mem_flatMap]
  constructor
  · rintro ⟨key, -, hp⟩
    split at hp
    · rename_i e hfind
      obtain ⟨i, hi, rfl, hindex, hcause⟩ := Lint.mem_problemsOf_iff.mp hp
      exact ⟨_, by rw [hfind]; rfl, i, hi, hindex, hcause⟩
    · exact absurd hp List.not_mem_nil
  · rintro ⟨text, htext, i, hi, hindex, hcause⟩
    obtain ⟨e, hfind, rfl⟩ := Option.map_eq_some_iff.mp htext
    refine ⟨p.key, hw p.key e hfind, ?_⟩
    rw [hfind]
    exact Lint.mem_problemsOf_iff.mpr ⟨i, hi, rfl, hindex, hcause⟩

theorem exists_problem {w : World} (hw : w.Listed) {key segment : String}
    (hsegment : w.HasSegment key segment) {cause : Lint.Cause}
    (hcause : Lint.causeOf? w.verbs segment = some cause) :
    ∃ p ∈ w.lint, p.key = key ∧ p.segment = segment ∧ p.cause = cause := by
  obtain ⟨text, htext, hmem⟩ := hsegment
  obtain ⟨i, hi⟩ := List.mem_iff_getElem?.mp hmem
  exact ⟨⟨key, i, segment, cause⟩, (mem_lint_iff hw).mpr ⟨text, htext, i, hi, rfl, hcause⟩, rfl,
    rfl, rfl⟩

end World

/-! ## Records -/

/-- The two warnings about a segment that is passed over. -/
def Record.Flags (r : Record) : Prop :=
  r.level = .warn ∧ (r.message = "dropping malformed segment" ∨ r.message = "unknown verb")

instance (r : Record) : Decidable r.Flags := inferInstanceAs (Decidable (_ ∧ _))

/-- The warning of an execution in a scope that comes to a problem. The host's own causes are not
found by executions. -/
def Lint.Problem.warning? (p : Lint.Problem) (scope : String) : Option Record :=
  match p.cause with
  | .malformed => some ⟨.warn, "dropping malformed segment",
      [("key", .text p.key), ("segment", .text p.segment)]⟩
  | .unknownVerb name => some ⟨.warn, "unknown verb", [("key", .text p.key),
      ("scope", .text scope), ("verb", .text name), ("error", .text "unknown verb")]⟩
  | .host _ => none

/-- A log that has grown by good records only. -/
def LogGrows (good : Record → Prop) (log log' : List Record) : Prop :=
  ∃ records, log' = log ++ records ∧ ∀ r ∈ records, good r

namespace LogGrows

variable {good : Record → Prop}

theorem refl (log : List Record) : LogGrows good log log :=
  ⟨[], (List.append_nil log).symm, fun _ h => absurd h List.not_mem_nil⟩

theorem trans {log log' log'' : List Record} (h : LogGrows good log log')
    (h' : LogGrows good log' log'') : LogGrows good log log'' := by
  obtain ⟨records, rfl, hgood⟩ := h
  obtain ⟨records', rfl, hgood'⟩ := h'
  refine ⟨records ++ records', List.append_assoc .., fun r hr => ?_⟩
  rcases List.mem_append.mp hr with hr | hr
  · exact hgood r hr
  · exact hgood' r hr

theorem one {r : Record} (log : List Record) (h : good r) : LogGrows good log (log ++ [r]) :=
  ⟨[r], rfl, fun _ hr => List.mem_singleton.mp hr ▸ h⟩

theorem foldl {α : Type} {f : World → α → World}
    (hf : ∀ w a, LogGrows good w.log (f w a).log) (l : List α) (w : World) :
    LogGrows good w.log (l.foldl f w).log := by
  induction l generalizing w with
  | nil => exact refl w.log
  | cons a l ih => exact (hf w a).trans (ih (f w a))

end LogGrows

/-- What is at the desk before and after good records only. -/
def Desk.Reports (good : Record → Prop) (d d' : Desk) : Prop := LogGrows good d.log d'.log

theorem Desk.allows_reports {good : Record → Prop} (hgood : ∀ r : Record, ¬ r.Flags → good r) :
    Desk.Allows (Desk.Reports good) where
  refl := fun d => .refl d.log
  trans := LogGrows.trans
  writes := fun d _ _ => .refl d.log
  reports := fun d _ hlevel => .one d.log (hgood _ fun hflags => hlevel hflags.1)

theorem Desk.Ensures.reports_mono {α : Type} {good good' : Record → Prop} {act : StateM Desk α}
    {P Q : α → Prop} (h : Desk.Ensures (Desk.Reports good) act P)
    (hgood : ∀ r, good r → good' r) (hP : ∀ a, P a → Q a) :
    Desk.Ensures (Desk.Reports good') act Q := by
  intro d
  obtain ⟨⟨records, hlog, hrecords⟩, ha⟩ := h d
  exact ⟨⟨records, hlog, fun r hr => hgood r (hrecords r hr)⟩, hP _ ha⟩

theorem Registry.Respects.reports_mono {good good' : Record → Prop} {verbs : Registry}
    (h : verbs.Respects (Desk.Reports good)) (hgood : ∀ r, good r → good' r) :
    verbs.Respects (Desk.Reports good') := by
  intro name verb hmem
  have hverb := h name verb hmem
  cases verb with
  | call => trivial
  | plain run =>
      refine fun inv => (hverb inv).reports_mono hgood fun r hr => ⟨?_, ?_⟩
      · exact fun next hnext v => (hr.onValue next hnext v).reports_mono hgood fun _ h => h
      · exact fun recover hrec f => (hr.onFailure recover hrec f).reports_mono hgood fun _ h => h

/-- Of the two warnings, the verbs write only such as `said` allows. -/
def Registry.Says (verbs : Registry) (said : Record → Prop) : Prop :=
  verbs.Respects (Desk.Reports fun r => r.Flags → said r)

/-- **The standard verbs write neither warning.** -/
theorem Verb.standard_says (deps : Verb.Deps) :
    (Verb.standard deps).Says fun _ => False :=
  Verb.standard_respects (Desk.allows_reports fun _ hflags h => hflags h) deps

namespace Execution

/-! ## What a step logs -/

/-- A step logs good records only, and so does what it leaves behind for later. -/
structure Quiet (good : Record → Prop) (w : World) (r : Stepped) : Prop where
  log : LogGrows good w.log r.1.log
  wait : ∀ wait, r.2.2 = .await wait → wait.result.Respects (Desk.Reports good)

theorem quiet_next {good : Record → Prop} {w w' : World} (h : LogGrows good w.log w'.log)
    (x : Execution) : Quiet good w (w', x, .next) :=
  ⟨h, fun _ hwait => by simp at hwait⟩

theorem log_modifyVars (x : Execution) (w : World) (f : Store → Store) :
    (x.modifyVars w f).log = w.log := by
  unfold modifyVars
  cases x.shell <;> rfl

theorem log_openShell (w : World) (e : EntryId) (target name : String) (body : List String) :
    (w.openShell e target name body).1.log = w.log := by
  unfold World.openShell
  dsimp only
  split <;> rfl

section Handlers

variable {good : Record → Prop} (hgood : ∀ r : Record, ¬ r.Flags → good r) (x : Execution)
  (w : World)

include hgood

theorem log_miss {message : String} (attrs : LogAttrs)
    (hm : message ≠ "dropping malformed segment" ∧ message ≠ "unknown verb") :
    LogGrows good w.log (x.miss w message attrs).log := by
  refine .one w.log (hgood _ fun hflags => ?_)
  rcases hflags.2 with heq | heq
  · exact hm.1 heq
  · exact hm.2 heq

theorem log_report {level : Level} (message : String) (attrs : LogAttrs) (hlevel : level ≠ .warn) :
    LogGrows good w.log (w.report level message attrs).log :=
  .one w.log (hgood _ fun hflags => hlevel hflags.1)

theorem quiet_writeAttr (target attr rhs : String) :
    Quiet good w (x.writeAttr w target attr rhs) := by
  have hput : ∀ value, ∀ w element, LogGrows good w.log (putAttr attr value w element).log := by
    intro value w element
    cases value <;> exact .refl w.log
  unfold writeAttr
  refine quiet_next (LogGrows.trans ?_ (.foldl (hput _) _ _)) _
  split
  · exact log_miss hgood x w _ (by decide)
  · exact .refl w.log

theorem log_putContent (markup : String) (element : NodeId) :
    LogGrows good w.log (x.putContent markup w element).log := by
  unfold putContent
  split
  · exact .refl w.log
  · exact log_miss hgood x w _ (by decide)

theorem log_putProperty (property value : String) (element : NodeId) :
    LogGrows good w.log (x.putProperty property value w element).log := by
  unfold putProperty
  split
  · exact log_putContent hgood x w value element
  · split
    · exact .refl w.log
    · split
      · exact .refl w.log
      · exact log_report hgood w _ _ (by decide)

theorem quiet_writeIndexed (target index property rhs : String) :
    Quiet good w (x.writeIndexed w target index property rhs) := by
  unfold writeIndexed
  dsimp only
  split
  · exact ⟨.refl w.log, fun wait hwait => by simp at hwait⟩
  · exact quiet_next (log_miss hgood x w _ (by decide)) _
  · exact quiet_next (.foldl (fun w => log_putProperty hgood x w property _) _ _) _

theorem quiet_writeProp (target property rhs : String) :
    Quiet good w (x.writeProp w target property rhs) := by
  unfold writeProp
  dsimp only
  split
  · exact quiet_next (log_miss hgood x w _ (by decide)) _
  · exact quiet_next (.foldl (fun w => log_putProperty hgood x w property _) _ _) _

theorem quiet_setContent (id rhs : String) : Quiet good w (x.setContent w id rhs) := by
  unfold setContent
  split
  · exact quiet_next (log_miss hgood x w _ (by decide)) _
  · exact quiet_next (log_putContent hgood x w _ _) _

theorem quiet_readProp (name id property : String) :
    Quiet good w (x.readProp w name id property) := by
  unfold readProp
  refine quiet_next ?_ _
  rw [log_modifyVars]
  split
  · exact log_miss hgood x w _ (by decide)
  · exact .refl w.log

omit hgood in
theorem quiet_assign (name rhs : String) : Quiet good w (x.assign w name rhs) := by
  unfold assign
  split
  · refine quiet_next ?_ _
    split
    · exact .refl w.log
    · rw [log_modifyVars]
      exact .refl w.log
  · refine quiet_next ?_ _
    rw [log_modifyVars]
    exact .refl w.log

omit hgood in
theorem quiet_nop (name : String) : Quiet good w (x.nop w name) := by
  refine quiet_next ?_ _
  rw [log_modifyVars]
  exact .refl w.log

theorem log_commitWhere (which : Shell → Bool) :
    LogGrows good w.log (x.commitWhere which w).1.log :=
  .foldl (fun w _ => log_report hgood (w.modifyEntryVars _ _) _ _ (by decide)) _ _

theorem quiet_openShell (target name : String) : Quiet good w (x.openShell w target name) := by
  unfold openShell
  split
  · exact quiet_next (log_miss hgood x w _ (by decide)) _
  · have hmerged := log_commitWhere hgood x w fun shell => shell.name == name
    generalize x.commitWhere (fun shell => shell.name == name) w = merged at hmerged
    obtain ⟨w', x'⟩ := merged
    have hopened := log_openShell w' x'.entry target name (x'.segments.drop x'.pos)
    dsimp only at hmerged ⊢
    generalize w'.openShell x'.entry target name (x'.segments.drop x'.pos) = opened at hopened
    refine quiet_next (hmerged.trans ?_) _
    rw [← hopened]
    exact log_report hgood opened.1 _ _ (by decide)

theorem quiet_closeShell (name : String) : Quiet good w (x.closeShell w name) := by
  unfold closeShell
  cases hfind : w.openShell? (w.entry x.entry).key name with
  | none =>
      unfold World.detachShell
      rw [hfind]
      exact quiet_next (log_miss hgood x w _ (by decide)) _
  | some s =>
      rw [World.detachShell_eq hfind]
      have hlog : LogGrows good w.log (w.unfile ((w.entry x.entry).key, name)).log := .refl w.log
      exact quiet_next hlog _

omit hgood in
theorem log_atDesk {α : Type} {act : StateM Desk α} {P : α → Prop}
    (hact : Desk.Ensures (Desk.Reports good) act P) :
    LogGrows good w.log (x.atDesk w act).1.log ∧ P (x.atDesk w act).2 := by
  obtain ⟨⟨records, hlog, hrecords⟩, hP⟩ := hact { vars := x.vars w }
  refine ⟨⟨records, ?_, hrecords⟩, hP⟩
  show (x.modifyVars w _).log ++ (act.run { vars := x.vars w }).2.log = _
  rw [log_modifyVars, hlog]
  rfl

theorem quiet_conclude (name : String) (args : List String) {r : Result} {w' : World}
    (hr : r.Respects (Desk.Reports good)) (hlog : LogGrows good w.log w'.log) (answer : Answer) :
    Quiet good w (x.conclude (x.atDesk w' (r.settle answer)).1 name args
      (x.atDesk w' (r.settle answer)).2) := by
  have hdesk := hlog.trans
    (log_atDesk x w' (hr.settle (Desk.allows_reports hgood) answer)).1
  unfold conclude
  split
  · exact quiet_next hdesk _
  · exact ⟨hdesk.trans (log_report hgood _ _ _ (by decide)), fun _ hwait => by simp at hwait⟩

theorem quiet_callVerb (hverbs : w.verbs.Respects (Desk.Reports good))
    (segment name parameters : String)
    (hunknown : w.verbs.lookup name = none → good ⟨.warn, "unknown verb", [("key", .text x.key),
      ("scope", .text (x.scopeName w)), ("verb", .text name), ("error", .text "unknown verb")]⟩) :
    Quiet good w (x.callVerb w segment name parameters) := by
  unfold callVerb
  cases hl : w.verbs.lookup name with
  | none => exact quiet_next (.one w.log (hunknown hl)) _
  | some verb =>
      dsimp only
      have hinvoke : Desk.Ensures (Desk.Reports good) (verb.invoke w.verbs w.globals
          (x.invocation w name (Segment.splitParameters parameters)))
          (Result.Respects (Desk.Reports good)) :=
        Verb.invoke_ensures (Desk.allows_reports hgood) hverbs (Verb.respects_of_lookup hverbs hl) _
      obtain ⟨hlog, hresult⟩ := log_atDesk x w hinvoke
      split
      · refine ⟨hlog, fun wait hwait => ?_⟩
        rw [← Verdict.await.inj hwait]
        exact hresult
      · exact quiet_conclude hgood x w name _ hresult hlog _
      · exact quiet_conclude hgood x w name _ hresult hlog _
      · exact quiet_conclude hgood x w name _ hresult hlog _

/-- **What a step logs**: besides the two warnings, and what the verbs write themselves, nothing
that could be taken for one of them. -/
theorem quiet_step (hverbs : w.verbs.Respects (Desk.Reports good)) (segment : String)
    (hmalformed : Segment.ofScript? segment = none → good ⟨.warn, "dropping malformed segment",
      [("key", .text x.key), ("segment", .text segment)]⟩)
    (hunknown : ∀ name parameters, Segment.ofScript? segment = some (.verbCall name parameters) →
      w.verbs.lookup name = none → good ⟨.warn, "unknown verb", [("key", .text x.key),
        ("scope", .text (x.scopeName w)), ("verb", .text name),
        ("error", .text "unknown verb")]⟩) :
    Quiet good w (x.step w segment) := by
  unfold step
  cases hread : Segment.ofScript? segment with
  | none => exact quiet_next (.one w.log (hmalformed hread)) _
  | some shape =>
      cases shape with
      | attrWrite target attr rhs => exact quiet_writeAttr hgood x w target attr rhs
      | indexedWrite target index property rhs =>
          exact quiet_writeIndexed hgood x w target index property rhs
      | shellOpen target name => exact quiet_openShell hgood x w target name
      | shellClose name => exact quiet_closeShell hgood x w name
      | propRead name element property => exact quiet_readProp hgood x w name element property
      | literalAssign name rhs => exact quiet_assign x w name rhs
      | propWrite target property rhs => exact quiet_writeProp hgood x w target property rhs
      | nopStore name => exact quiet_nop x w name
      | contentSet element rhs => exact quiet_setContent hgood x w element rhs
      | verbCall verb parameters =>
          exact quiet_callVerb hgood x w hverbs segment verb parameters
            (hunknown verb parameters hread)

theorem log_halt (r : Stepped) : LogGrows good r.1.log (halt r).1.log := by
  obtain ⟨w, x, verdict⟩ := r
  cases verdict with
  | next | abandon | await => exact log_commitWhere hgood x w fun _ => true
  | crash => exact .refl w.log

end Handlers

/-! ## What a run logs -/

theorem key_halt (r : Stepped) : (halt r).2.key = r.2.1.key := by
  obtain ⟨w, x, verdict⟩ := r
  cases verdict <;> rfl

/-- A step keeps the verbs, and the execution its key. -/
theorem verbs_step {x : Execution} {w : World} {segment : String} {r : Stepped}
    (h : Goes x w segment r) : r.1.verbs = w.verbs ∧ r.2.1.key = x.key := by
  cases h with
  | patches p c v => exact ⟨patch_verbs p, rfl⟩
  | closes s name => exact ⟨rfl, rfl⟩
  | enters target name s log => exact ⟨patch_verbs _, rfl⟩
  | makes target name log => exact ⟨patch_verbs (x.dueMerged w name log), rfl⟩

theorem verbs_steps {chain : List Moment} {r₀ r : Stepped} (hsteps : Steps chain r₀ r) :
    StageSound r₀ → (r.1.verbs = r₀.1.verbs ∧ r.2.1.key = r₀.2.1.key) ∧
      ∀ μ ∈ chain, μ.world.verbs = r₀.1.verbs ∧ μ.exec.key = r₀.2.1.key := by
  induction hsteps with
  | nil r => exact fun _ => ⟨⟨rfl, rfl⟩, fun _ h => absurd h List.not_mem_nil⟩
  | @cons w x segment chain r hseg rest ih =>
      intro hr
      have hw : w.Sound := hr.world
      have hx : x.advance.Underway w := underway_advance hr.underway
      have hgoes := step_goes hx.placed segment
      obtain ⟨hverbs, hkey⟩ := verbs_step hgoes
      have hrest := ih (stageSound_step hw hx hgoes).1
      rw [hverbs, hkey] at hrest
      refine ⟨hrest.1, fun μ hμ => ?_⟩
      rcases List.mem_cons.mp hμ with rfl | hμ
      · exact ⟨rfl, rfl⟩
      · exact hrest.2 μ hμ

theorem quiet_steps {good : Record → Prop} {chain : List Moment} {r₀ r : Stepped}
    (hsteps : Steps chain r₀ r) : (∀ μ ∈ chain, Quiet good μ.world μ.after) →
      (∀ wait, r₀.2.2 = .await wait → wait.result.Respects (Desk.Reports good)) →
        Quiet good r₀.1 r := by
  induction hsteps with
  | nil r => exact fun _ hwait => ⟨.refl r.1.log, hwait⟩
  | @cons w x segment chain r hseg rest ih =>
      intro h _
      have hfirst : Quiet good w (x.advance.step w segment) := h _ List.mem_cons_self
      have hrest := ih (fun μ hμ => h μ (List.mem_cons_of_mem _ hμ)) hfirst.wait
      exact ⟨hfirst.log.trans hrest.log, hrest.wait⟩

/-- **What a run logs** is what its steps log, and the merges at its end. -/
theorem quiet_run {good : Record → Prop} (hgood : ∀ r : Record, ¬ r.Flags → good r) {w : World}
    {x : Execution} (hstage : StageSound (w, x, .next))
    (h : ∀ μ ∈ trace w x, Quiet good μ.world μ.after) :
    LogGrows good w.log (run w x).1.log ∧ ((run w x).2.state = .suspended →
      ∀ wait, (run w x).2.wait = some wait → wait.result.Respects (Desk.Reports good)) := by
  obtain ⟨last, hsteps, -, hhalt, -⟩ := stops_run hstage.world.arena hstage.underway.placed
  have hquiet := quiet_steps hsteps h fun _ hwait => by simp at hwait
  have hlast := (stageSound_steps hsteps hstage).1.underway
  rw [← hhalt]
  refine ⟨hquiet.log.trans (log_halt hgood last), fun hs wait hwait => ?_⟩
  have hlive : last.2.2 ≠ .crash := by
    intro hcrash
    rw [halt_of_crash hcrash, hlast.running] at hs
    simp at hs
  obtain ⟨_, -, -, -, -, hwaits⟩ := halt_eq hlast.placed.entry hlive
  obtain ⟨wait', hverdict, hwait'⟩ := hwaits hs
  obtain rfl : wait' = wait := Option.some.inj (hwait'.symm.trans hwait)
  exact hquiet.wait wait' hverdict

theorem verbs_run {w : World} {x : Execution} (hstage : StageSound (w, x, .next)) :
    (run w x).1.verbs = w.verbs ∧ (run w x).2.key = x.key ∧
      ∀ μ ∈ trace w x, μ.world.verbs = w.verbs ∧ μ.exec.key = x.key := by
  obtain ⟨last, _, _, hsteps, -, hhalt, hworld, -⟩ := run_patch hstage
  obtain ⟨⟨hverbs, hkey⟩, hmoments⟩ := verbs_steps hsteps hstage
  rw [hworld, patch_verbs, ← hhalt, key_halt]
  exact ⟨hverbs, hkey, hmoments⟩

/-- **After a moment that does not stop the run** it does what a run from there does. -/
theorem trace_after {w : World} {x : Execution} (hstage : StageSound (w, x, .next))
    {before after : List Moment} {μ : Moment} (htrace : trace w x = before ++ μ :: after)
    {w' : World} {x' : Execution} (hnext : μ.after = (w', x', .next)) : after = trace w' x' := by
  obtain ⟨last, hsteps, hstop, -, -⟩ := stops_run hstage.world.arena hstage.underway.placed
  rw [htrace] at hsteps
  obtain ⟨y, hbefore, hexec, hafter⟩ := steps_split hsteps
  have hmoment := (stageSound_steps hbefore hstage).1
  have hgoes := step_goes (underway_advance hmoment.underway).placed μ.segment
  have hlater : StageSound μ.after := by
    have := (stageSound_step hmoment.world (underway_advance hmoment.underway) hgoes).1
    rw [← hexec] at this
    exact this
  rw [hnext] at hafter hlater
  obtain ⟨last', hsteps', hstop', -, -⟩ := stops_run hlater.world.arena hlater.underway.placed
  -- both are what a run with enough fuel for either steps
  have hfuel : after.length ≤ max after.length (trace w' x').length := Nat.le_max_left _ _
  rw [← traceFrom_of_steps hafter hstop hfuel]
  exact traceFrom_of_steps hsteps' hstop' (Nat.le_max_right _ _)

end Execution

/-! ## What is reported and what is logged -/

/-- Of the two warnings, a page leads to those of its problems, and to what its verbs say. -/
def World.Expects (page : World) (said : Record → Prop) (r : Record) : Prop :=
  r.Flags → said r ∨ ∃ p ∈ page.lint, ∃ scope, p.warning? scope = some r

/-- **A step warns of what is reported.** -/
theorem Execution.quiet_of_segment {page w : World} (hlisted : page.Listed)
    (hverbs : w.verbs = page.verbs) {said : Record → Prop} (hsaid : page.verbs.Says said)
    {x : Execution} {segment : String} (hsegment : page.HasSegment x.key segment) :
    Quiet (page.Expects said) w (x.step w segment) := by
  have htrim : Text.trim segment = segment := by
    obtain ⟨_, -, hmem⟩ := hsegment
    exact Segment.trim_of_mem_split hmem
  have hproblem : ∀ {cause}, Lint.causeOf? page.verbs segment = some cause →
      ∀ {r}, (∀ p : Lint.Problem, p.key = x.key → p.segment = segment → p.cause = cause →
        p.warning? (x.scopeName w) = some r) → page.Expects said r := by
    intro cause hcause r hwarning _
    obtain ⟨p, hp, hkey, hseg, hc⟩ := World.exists_problem hlisted hsegment hcause
    exact .inr ⟨p, hp, x.scopeName w, hwarning p hkey hseg hc⟩
  have hrespects : w.verbs.Respects (Desk.Reports (page.Expects said)) := by
    rw [hverbs]
    exact hsaid.reports_mono fun r hr hflags => .inl (hr hflags)
  refine quiet_step (fun r hno hflags => absurd hflags hno) x w hrespects segment ?_ ?_
  · intro hread
    refine hproblem ((Lint.causeOf?_eq_some_iff htrim).mpr (.inl ⟨rfl, hread⟩))
      fun p hkey hseg hcause => ?_
    unfold Lint.Problem.warning?
    rw [hcause, hkey, hseg]
  · intro name parameters hread hunknown
    rw [hverbs] at hunknown
    refine hproblem ((Lint.causeOf?_eq_some_iff htrim).mpr
      (.inr ⟨name, parameters, rfl, hread, hunknown⟩)) fun p hkey hseg hcause => ?_
    unfold Lint.Problem.warning?
    rw [hcause, hkey]

/-- **What is reported is passed over with its warning**, and nothing else changes. -/
theorem Execution.step_of_problem {page w : World} (hlisted : page.Listed)
    (hverbs : w.verbs = page.verbs) {x : Execution} {p : Lint.Problem} (hp : p ∈ page.lint)
    (hkey : p.key = x.key) :
    ∃ r, p.warning? (x.scopeName w) = some r ∧
      x.step w p.segment = ({ w with log := w.log ++ [r] }, x, .next) := by
  obtain ⟨text, -, i, hi, -, hcause⟩ := (World.mem_lint_iff hlisted).mp hp
  have htrim := Segment.trim_of_mem_split (List.mem_of_getElem? hi)
  unfold Lint.Problem.warning?
  rcases (Lint.causeOf?_eq_some_iff htrim).mp hcause with ⟨hmalformed, hread⟩ |
    ⟨name, parameters, hunknown, hread, hverb⟩
  · rw [hmalformed, hkey]
    refine ⟨_, rfl, ?_⟩
    unfold step
    rw [hread]
    rfl
  · rw [hunknown, hkey]
    refine ⟨_, rfl, ?_⟩
    unfold step
    rw [hread]
    dsimp only
    rw [← hverbs] at hverb
    unfold callVerb
    rw [hverb]
    rfl

theorem World.SameFiling.lint_eq {w w' : World} (h : w.SameFiling w')
    (hverbs : w'.verbs = w.verbs) : w'.lint = w.lint := by
  have hscript : ∀ e, (w'.entry e).script = (w.entry e).script := fun e => by rw [h.entries e]
  unfold World.lint
  rw [h.order, hverbs]
  simp only [h.lookup, hscript]

namespace Machine

/-! ## Turns -/

/-- A happening that is a turn of an execution. -/
def Happening.Turn : Happening → Prop
  | .start .. => True
  | .settle .. => True
  | .interrupt .. => True
  | _ => False

/-- **A turn that sets off no run** leaves the world as it is, finds no script, or fails a wait,
maybe after its continuation. -/
theorem idle_turn {m : Machine} {h : Happening} (hturn : h.Turn) (hrun : m.setsOff? h = none) :
    (m.turn h).world = m.world ∨ (∃ key, (m.turn h).world = refusedRecord m.world key) ∨
      ∃ x ∈ m.executions, ∃ wait f w, x.state = .suspended ∧ x.wait = some wait ∧
        (w = m.world ∨ ∃ answer, w = (x.atDesk m.world (wait.result.settle answer)).1) ∧
        (m.turn h).world = (failWait wait f w x).1 := by
  have hupdate : ∀ (i : Nat) (f : World → Execution → World × Execution),
      (m.update i f).world = m.world ∨
        ∃ x, m.executions[i]? = some x ∧ (m.update i f).world = (f m.world x).1 := by
    intro i f
    unfold update
    split
    · rename_i x hx
      exact .inr ⟨x, hx, rfl⟩
    · exact .inl rfl
  cases h with
  | start key context =>
      cases hx : ofKey? m.world key context with
      | some x => rw [setsOff_start hx] at hrun; simp at hrun
      | none =>
          rw [← after_of_idle hrun]
          exact .inr (.inl ⟨key, world_refused hx⟩)
  | settle i answer =>
      rcases hupdate i (Execution.settle answer) with hsame | ⟨x, hx, hworld⟩
      · exact .inl hsame
      · by_cases hwaits : ∃ wait, x.state = .suspended ∧ x.wait = some wait
        · obtain ⟨wait, hs, hwait⟩ := hwaits
          rcases hdesk : x.atDesk m.world (wait.result.settle answer) with ⟨w, f | v⟩
          · rw [settle_of_error hs hwait hdesk] at hworld
            exact .inr (.inr ⟨x, Array.mem_of_getElem? hx, wait, f, w, hs, hwait,
              .inr ⟨answer, by rw [hdesk]⟩, hworld⟩)
          · rw [setsOff_settle hx hs hwait hdesk] at hrun
            simp at hrun
        · rw [settle_of_not_waiting answer fun wait hs hwait => hwaits ⟨wait, hs, hwait⟩] at hworld
          exact .inl hworld
  | interrupt i why =>
      rcases hupdate i (Execution.interrupt why) with hsame | ⟨x, hx, hworld⟩
      · exact .inl hsame
      · unfold Execution.interrupt at hworld
        split at hworld
        · rename_i wait hs hwait
          exact .inr (.inr ⟨x, Array.mem_of_getElem? hx, wait, _, m.world, hs, hwait, .inl rfl,
            hworld⟩)
        · exact .inl hworld
  | control | register | remove | load | verbs | host => exact hturn.elim

/-- **Who is suspended after a happening** was so before, or has run. -/
theorem suspended_after {m : Machine} {h : Happening} {i : Nat} {y : Execution}
    (hy : (m.after h).executions[i]? = some y) (hs : y.state = .suspended) :
    m.executions[i]? = some y ∨ ∃ w x, m.running? h = some (i, w, x) ∧ y = (run w x).2 := by
  have hfate := fate_after m i h
  rw [hy] at hfate
  generalize hleaves : some y = leaves at hfate
  cases hfate with
  | spared => exact .inl rfl
  | starts hi hx hlive =>
      exact .inr ⟨_, _, hi ▸ running_start hx hlive, Option.some.inj hleaves⟩
  | refused hi hx =>
      rw [Option.some.inj hleaves] at hs
      simp [refused, gaveUp] at hs
  | resumes hx hs' hwait hdesk hlive =>
      exact .inr ⟨_, _, running_settle hx hs' hwait hdesk hlive, Option.some.inj hleaves⟩
  | rejected | interrupted =>
      rw [Option.some.inj hleaves] at hs
      simp [failWait, finish] at hs

/-! ## While nothing is registered -/

/-- A happening that registers and removes nothing and leaves the verbs. -/
def Happening.Steady : Happening → Prop
  | .register .. => False
  | .remove .. => False
  | .verbs .. => False
  | _ => True

theorem Happening.Steady.calm {h : Happening} (hsteady : h.Steady) : h.Calm := by
  cases h <;> trivial

/-- Nothing is under way and no shell is open. -/
structure Fresh (m : Machine) : Prop where
  idle : ∀ x ∈ m.executions, x.state ≠ .suspended
  closed : m.world.openShells = []

/-- What holds while nothing is registered: the scripts and the verbs are those of the page, all
that can be stepped under a key is of the script registered under it, and who waits has the key of
its entry and will log good records only. -/
structure Abides (page : World) (good : Record → Prop) (m : Machine) : Prop where
  filing : page.SameFiling m.world
  verbs : m.world.verbs = page.verbs
  scripts : ∀ key, m.Attributed key (fun _ => page.HasSegment key) (page.HasSegment key)
  keys : ∀ x ∈ m.executions, x.state = .suspended → x.key = (m.world.entry x.entry).key
  waits : ∀ x ∈ m.executions, x.state = .suspended → ∀ wait, x.wait = some wait →
    wait.result.Respects (Desk.Reports good)

theorem Fresh.abides {m : Machine} (h : m.Fresh) (good : Record → Prop) :
    Abides m.world good m where
  filing := .refl _
  verbs := rfl
  scripts := fun key =>
    ⟨fun name s hs => by rw [h.closed] at hs; exact absurd hs List.not_mem_nil,
      fun i x hx hs => absurd hs (h.idle x (Array.mem_of_getElem? hx))⟩
  keys := fun x hx hs => absurd hs (h.idle x hx)
  waits := fun x hx hs => absurd hs (h.idle x hx)

/-- An execution starts with the key of its entry and the segments of its script. -/
theorem started {w : World} (hw : w.Keyed) {key : String} {context : Nat} {x : Execution}
    (h : ofKey? w key context = some x) :
    x.key = (w.entry x.entry).key ∧ w.text? x.key = some (w.entry x.entry).script ∧
      x.segments = Segment.split (w.entry x.entry).script := by
  unfold ofKey? at h
  split at h
  · cases h
  · rename_i e hfind
    dsimp only at h
    split at h
    · cases h
    · rw [← Option.some.inj h]
      refine ⟨rfl, ?_, rfl⟩
      dsimp only
      unfold World.text?
      rw [hw key e hfind, hfind]
      rfl

section Abides

variable {page : World} {good : Record → Prop} {m : Machine} {h : Happening}

theorem verbs_of_setsOff {i : Nat} {w : World} {x : Execution}
    (hrun : m.setsOff? h = some (i, w, x)) : w.verbs = m.world.verbs := by
  rcases setsOff_cases hrun with ⟨_, _, -, -, -, rfl⟩ | ⟨_, y, _, _, -, -, -, -, hdesk, -⟩
  · rfl
  · rw [atDesk_eq] at hdesk
    rw [← (Prod.mk.inj hdesk).1, patch_verbs]

theorem Abides.text (ha : Abides page good m) (key : String) : page.text? key = m.world.text? key :=
  (World.text_of_scripts ha.filing.table (fun e => by rw [ha.filing.entries e]) key).symm

/-- Who runs has the key of its entry. -/
theorem Abides.key_of_setsOff (hm : m.Reachable) (ha : Abides page good m) {i : Nat} {w : World}
    {x : Execution} (hrun : m.setsOff? h = some (i, w, x)) : x.key = (w.entry x.entry).key := by
  rw [(beside_of_setsOff hrun).entries]
  rcases setsOff_cases hrun with ⟨_, _, -, -, hx, -⟩ | ⟨_, y, _, _, -, hy, hs, -, -, rfl⟩
  · exact (started (keyed_reachable hm) hx).1
  · exact ha.keys y (Array.mem_of_getElem? hy) hs

/-- **All that is stepped under a key** is of the script registered under it. -/
theorem Abides.scripts_after (hm : m.Reachable) (ha : Abides page good m) (h : Happening)
    (key : String) :
    (m.after h).Attributed key (fun _ => page.HasSegment key) (page.HasSegment key) ∧
      ∀ i w x, m.setsOff? h = some (i, w, x) → (w.entry x.entry).key = key →
        ∀ μ ∈ trace w x, page.HasSegment key μ.segment := by
  refine attributed_after (sound_reachable hm) (ha.scripts key) (fun _ _ _ hown => hown)
    (.inl fun _ hshared => hshared) ?_ fun _ _ _ _ _ _ _ _ => rfl
  intro i w x hrun hkey hi segment hsegment
  rcases setsOff_cases hrun with ⟨_, _, -, -, hx, -⟩ | ⟨_, y, _, _, -, hy, -⟩
  · obtain ⟨-, htext, hsegments⟩ := started (keyed_reachable hm) hx
    rw [← hkey, ← ha.key_of_setsOff hm hrun]
    exact ⟨_, (ha.text x.key).trans htext, hsegments ▸ hsegment⟩
  · rw [hi] at hy
    simp at hy

/-- What a run steps, and with which verbs. -/
theorem Abides.moments (hm : m.Reachable) (ha : Abides page good m) {i : Nat} {w : World}
    {x : Execution} (hrun : m.setsOff? h = some (i, w, x)) {μ : Moment} (hμ : μ ∈ trace w x) :
    page.HasSegment x.key μ.segment ∧ μ.world.verbs = page.verbs ∧ μ.exec.key = x.key := by
  have hsegment := (ha.scripts_after hm h x.key).2 i w x hrun (ha.key_of_setsOff hm hrun).symm μ hμ
  obtain ⟨hverbs, hkey⟩ := (verbs_run (begins_of_setsOff (sound_reachable hm) hrun).stage).2.2 μ hμ
  exact ⟨hsegment, (hverbs.trans (verbs_of_setsOff hrun)).trans ha.verbs, hkey⟩

/-- **What a run logs** while nothing is registered. -/
theorem Abides.quiet_run {said : Record → Prop} (hm : m.Reachable)
    (ha : Abides page (page.Expects said) m) (hlisted : page.Listed)
    (hsaid : page.verbs.Says said) {i : Nat} {w : World} {x : Execution}
    (hrun : m.setsOff? h = some (i, w, x)) :
    LogGrows (page.Expects said) m.world.log (run w x).1.log ∧
      ((run w x).2.state = .suspended → ∀ wait, (run w x).2.wait = some wait →
        wait.result.Respects (Desk.Reports (page.Expects said))) := by
  have hgood : ∀ r : Record, ¬ r.Flags → page.Expects said r :=
    fun r hno hflags => absurd hflags hno
  have hbegins : LogGrows (page.Expects said) m.world.log w.log := by
    rcases setsOff_cases hrun with ⟨key, _, -, -, -, rfl⟩ |
      ⟨answer, y, wait, v, -, hy, hs, hwait, hdesk, -⟩
    · exact log_report hgood m.world _ _ (by decide)
    · have hrespects := ha.waits y (Array.mem_of_getElem? hy) hs wait hwait
      have hlog := (log_atDesk y m.world (hrespects.settle (Desk.allows_reports hgood) answer)).1
      rw [hdesk] at hlog
      exact hlog
  have hquiet := Execution.quiet_run hgood
    (begins_of_setsOff (sound_reachable hm) hrun).stage fun μ hμ => by
      obtain ⟨hsegment, hverbs, hkey⟩ := ha.moments hm hrun hμ
      exact quiet_of_segment hlisted hverbs hsaid (hkey ▸ hsegment)
  exact ⟨hbegins.trans hquiet.1, hquiet.2⟩

/-- **What a turn logs** while nothing is registered. -/
theorem Abides.log_turn {said : Record → Prop} (hm : m.Reachable)
    (ha : Abides page (page.Expects said) m) (hlisted : page.Listed)
    (hsaid : page.verbs.Says said) (hturn : h.Turn) :
    LogGrows (page.Expects said) m.world.log (m.turn h).world.log := by
  have hgood : ∀ r : Record, ¬ r.Flags → page.Expects said r :=
    fun r hno hflags => absurd hflags hno
  cases hrun : m.setsOff? h with
  | some r =>
      obtain ⟨i, w, x⟩ := r
      rw [world_turn hrun]
      exact (ha.quiet_run hm hlisted hsaid hrun).1
  | none =>
      rcases idle_turn hturn hrun with hsame | ⟨key, hrefused⟩ |
        ⟨x, hx, wait, f, w, hs, hwait, hw, hfailed⟩
      · rw [hsame]
        exact .refl _
      · rw [hrefused]
        exact .one _ (hgood _ (by simp [Record.Flags]))
      · rw [hfailed, failWait_of_closing_nil ((sound_reachable hm).rested x hx hs).2.1]
        have hdesk : LogGrows (page.Expects said) m.world.log w.log := by
          rcases hw with rfl | ⟨answer, rfl⟩
          · exact .refl _
          · exact (log_atDesk x m.world
              ((ha.waits x hx hs wait hwait).settle (Desk.allows_reports hgood) answer)).1
        exact hdesk.trans (log_report hgood w _ _ (by decide))

/-- The verbs stay. -/
theorem verbs_turn (hm : m.Sound) (hsteady : h.Steady) :
    (m.turn h).world.verbs = m.world.verbs := by
  by_cases hturn : h.Turn
  · cases hrun : m.setsOff? h with
    | some r =>
        obtain ⟨i, w, x⟩ := r
        rw [world_turn hrun, (verbs_run (begins_of_setsOff hm hrun).stage).1, verbs_of_setsOff hrun]
    | none =>
        rcases idle_turn hturn hrun with hsame | ⟨key, hrefused⟩ |
          ⟨x, hx, wait, f, w, hs, -, hw, hfailed⟩
        · rw [hsame]
        · rw [hrefused]
          rfl
        · rw [hfailed, failWait_of_closing_nil (hm.rested x hx hs).2.1]
          show w.verbs = _
          rcases hw with rfl | ⟨answer, rfl⟩
          · rfl
          · rw [atDesk_eq, patch_verbs]
  · cases h with
    | start | settle | interrupt => exact absurd trivial hturn
    | register | remove | verbs => exact hsteady.elim
    | control | host => rfl
    | load key values =>
        show (m.world.loadVars key values).1.verbs = _
        unfold World.loadVars
        split <;> rfl

theorem verbs_after (hm : m.Sound) (hsteady : h.Steady) :
    (m.after h).world.verbs = m.world.verbs := by
  cases hfatal : m.fatal h with
  | true => rw [after_of_fatal hfatal]
  | false => rw [after_of_survives hfatal, verbs_turn hm hsteady]

/-- **A happening that registers nothing** leaves all that as it is. -/
theorem Abides.after {said : Record → Prop} (hm : m.Reachable)
    (ha : Abides page (page.Expects said) m) (hlisted : page.Listed)
    (hsaid : page.verbs.Says said) (hsteady : h.Steady) :
    Abides page (page.Expects said) (m.after h) := by
  have hsound := sound_reachable hm
  have hfiling := sameFiling_of_calm hsound hsteady.calm
  refine ⟨ha.filing.trans hfiling, (verbs_after hsound hsteady).trans ha.verbs,
    fun key => (ha.scripts_after hm h key).1, fun y hy hs => ?_, fun y hy hs => ?_⟩
  · obtain ⟨i, hi⟩ := Array.mem_iff_getElem?.mp hy
    rcases suspended_after hi hs with hbefore | ⟨w, x, hrun, rfl⟩
    · rw [hfiling.entries]
      exact ha.keys y (Array.mem_of_getElem? hbefore) hs
    · have hset := (setsOff_of_running hrun).1
      have hstage := (begins_of_setsOff hsound hset).stage
      rw [(verbs_run hstage).2.1, (stretch_of_running hrun).world_eq, key_run hstage]
      exact ha.key_of_setsOff hm hset
  · obtain ⟨i, hi⟩ := Array.mem_iff_getElem?.mp hy
    rcases suspended_after hi hs with hbefore | ⟨w, x, hrun, rfl⟩
    · exact ha.waits y (Array.mem_of_getElem? hbefore) hs
    · exact (ha.quiet_run hm hlisted hsaid (setsOff_of_running hrun).1).2 hs

theorem Abides.afterAll {said : Record → Prop} (hm : m.Reachable)
    (ha : Abides page (page.Expects said) m) (hlisted : page.Listed)
    (hsaid : page.verbs.Says said) {history : List Happening}
    (hsteady : ∀ h ∈ history, h.Steady) : Abides page (page.Expects said) (m.afterAll history) := by
  induction history generalizing m with
  | nil => exact ha
  | cons h history ih =>
      rw [List.forall_mem_cons] at hsteady
      exact ih (hm.after h) (ha.after hm hlisted hsaid hsteady.1) hsteady.2

end Abides

/-- **The check of a page agrees with its runs.** Let nothing be under way, and then any turns of
executions happen while nothing is registered, removed or changed among the verbs. Then the problems
reported stay the same. A turn logs neither of the two warnings if nothing is reported, other than
what a verb says itself, and in general only those of problems that are reported. And whenever an
execution steps a segment that is reported under its key, it logs the warning of the problem,
changes nothing else, and goes on with what is next. A turn that the program does not survive is no
exception to any of this. -/
theorem lint_agrees_with_execution {m : Machine} (hm : m.Reachable) (hfresh : m.Fresh)
    {said : Record → Prop} (hsaid : m.world.verbs.Says said) {history : List Happening}
    (hsteady : ∀ h ∈ history, h.Steady) {h : Happening} (hturn : h.Turn) :
    let now := m.afterAll history
    now.world.lint = m.world.lint ∧
      (∃ records, (now.turn h).world.log = now.world.log ++ records ∧
        (m.world.lint = [] → ∀ r ∈ records, r.Flags → said r) ∧
        ∀ r ∈ records, r.Flags → ¬ said r →
          ∃ p ∈ m.world.lint, ∃ scope, p.warning? scope = some r) ∧
      ∀ i w x, now.setsOff? h = some (i, w, x) →
        ∀ before μ after, trace w x = before ++ μ :: after →
          ∀ p ∈ m.world.lint, p.key = x.key → p.segment = μ.segment →
            ∃ r, p.warning? (μ.exec.scopeName μ.world) = some r ∧
              μ.after = ({ μ.world with log := μ.world.log ++ [r] }, μ.exec, .next) ∧
              after = trace { μ.world with log := μ.world.log ++ [r] } μ.exec := by
  intro now
  have hlisted : m.world.Listed := (wellFiled_reachable hm).listed
  have hnow : now.Reachable := hm.afterAll history
  have ha : Abides m.world (m.world.Expects said) now :=
    (hfresh.abides _).afterAll hm hlisted hsaid hsteady
  refine ⟨ha.filing.lint_eq ha.verbs, ?_, ?_⟩
  · obtain ⟨records, hlog, hrecords⟩ := ha.log_turn hnow hlisted hsaid hturn
    refine ⟨records, hlog, fun hnone r hr hflags => ?_, fun r hr hflags hsilent => ?_⟩
    · rcases hrecords r hr hflags with hsays | ⟨p, hp, -⟩
      · exact hsays
      · rw [hnone] at hp
        exact absurd hp List.not_mem_nil
    · exact (hrecords r hr hflags).resolve_left hsilent
  · intro i w x hrun before μ after htrace p hp hkey hsegment
    have hμ : μ ∈ trace w x := by rw [htrace]; simp
    obtain ⟨-, hverbs, hsame⟩ := ha.moments hnow hrun hμ
    obtain ⟨r, hwarning, hstep⟩ :=
      step_of_problem hlisted hverbs hp (hkey.trans hsame.symm)
    rw [hsegment] at hstep
    have hstage := (begins_of_setsOff (sound_reachable hnow) hrun).stage
    exact ⟨r, hwarning, hstep, trace_after hstage htrace hstep⟩

/-- A script that waits in a shell before it calls a verb that there is none of. -/
def straying : Machine := registered (page "+T:s |wait:w |nope:1 |&x:one" waiting)

/-- The second execution comes to the problem in the body that the first one has left open. -/
theorem flagged_in_open_body :
    ∃ p ∈ straying.world.lint, p.index = 2 ∧ ∃ w x before μ after r,
      (straying.afterAll [.start "p" 0, .start "p" 0]).setsOff? (.settle 1 (.ok .undefined)) =
        some (1, w, x) ∧
      trace w x = before ++ μ :: after ∧ after.map (·.segment) = ["&x:one"] ∧
      p.warning? (μ.exec.scopeName μ.world) = some r ∧
      μ.after = ({ μ.world with log := μ.world.log ++ [r] }, μ.exec, .next) := by
  have hreachable : straying.Reachable := reachable_registered _ waiting_lawful
  obtain ⟨⟨i, w, x⟩, hrun, rfl, hkey, hsegments, hlint, hexecutions, hopen⟩ :
      ∃ r ∈ (straying.afterAll [.start "p" 0, .start "p" 0]).setsOff? (.settle 1 (.ok .undefined)),
        r.1 = 1 ∧ r.2.2.key = "p" ∧
        (trace r.2.1 r.2.2).map (·.segment) = ["nope:1", "&x:one"] ∧
        straying.world.lint = [⟨"p", 2, "nope:1", .unknownVerb "nope"⟩] ∧
        straying.executions.size = 0 ∧ straying.world.openShells = [] := by
    decide +kernel
  have hsaid : straying.world.verbs.Says fun _ => False := by
    intro name verb hmem
    obtain ⟨-, rfl⟩ := Prod.mk.inj (List.mem_singleton.mp hmem)
    exact fun inv => (Desk.allows_reports fun _ hno hflags => hno hflags).pure
      (Result.respects_outcome _ _)
  -- from here on nothing depends on how the machine was made
  generalize straying = m at *
  have hfresh : m.Fresh :=
    ⟨fun x hx => by rw [Array.eq_empty_of_size_eq_zero hexecutions] at hx; simp at hx, hopen⟩
  have hsteady : ∀ h ∈ [Happening.start "p" 0, .start "p" 0], h.Steady := by
    intro h hmem
    rw [List.eq_of_mem_replicate (n := 2) hmem]
    trivial
  obtain ⟨μ, after, htrace, hμ, hafter⟩ := List.map_eq_cons_iff.mp hsegments
  have hp : ⟨"p", 2, "nope:1", .unknownVerb "nope"⟩ ∈ m.world.lint := by
    rw [hlint]
    exact List.mem_singleton_self _
  obtain ⟨r, hwarning, hstep, -⟩ := (lint_agrees_with_execution hreachable hfresh hsaid hsteady
    (h := .settle 1 (.ok .undefined)) trivial).2.2 1 w x hrun [] μ after htrace _ hp hkey.symm
      hμ.symm
  exact ⟨_, hp, rfl, w, x, [], μ, after, r, hrun, htrace, hafter, hwarning, hstep⟩

end Machine

end PageMacro
