import PageMacro.Proofs.Registration
import PageMacro.Proofs.Rendering
import PageMacro.Proofs.ScriptOrder

/-!
# What scripts do to the page

A script changes the page element by element: it sets attributes, or it replaces the content of an
element, by markup or by a text. `Through` follows a document from one replacement to the next;
between them only attributes change. Which replacements a segment makes is said by
`Execution.replaces`, apart from the handlers, and `through_step` says that these are all.

So a page stays printable as long as no replacement is at fault (`Replacement.Spoils`), and a
replacement that is at fault makes a printable page unprintable. That is so for every library of
markup that writes as it should (`Html.Library.Lawful`), however it reads. Nothing in the program
keeps a script from a replacement at fault: the content of an `input` can be set like that of any
other element, and then the whole page cannot be written any more.
-/

namespace PageMacro

open Execution

namespace Document

open Html

/-! ## Replacements of content -/

/-- The trees of the markup that is put into an element; nothing if it cannot be read. -/
def fragment? (d : Document) (id : NodeId) (markup : String) : Option (List Markup) :=
  (d.html.fragment (d.context id) markup).toOption

/-- The new content of an element when a property is a view of the content. -/
def viewContent? (d : Document) (id : NodeId) (property text : String) : Option (List Markup) :=
  if property == "innerHTML" then d.fragment? id text
  else if property == "textContent" || property == "innerText" then some [.text text]
  else if property == "value" && d.tag id == "textarea" then some [.text text]
  else none

/-- The new content of an element when one of its properties is written; nothing if the content
stays. -/
def newContent? (d : Document) (id : NodeId) (property value : String) : Option (List Markup) :=
  if property == "text" || property == "style" then d.fragment? id value
  else if Style.isKnown property then none
  else d.viewContent? id property ((Value.parse value).text d.label)

/-- What a write of an element comes to: its content is replaced, or only attributes change. -/
def Becomes (d : Document) (id : NodeId) : Option (List Markup) → Document → Prop
  | some trees, d' => d' = d.replaceChildren id trees
  | none, d' => d.SameShape d'

theorem setContent_cases (d : Document) (id : NodeId) (markup : String) :
    (∃ trees, d.fragment? id markup = some trees ∧
      d.setContent id markup = .ok (d.replaceChildren id trees)) ∨
    (d.fragment? id markup = none ∧ ∃ e, d.setContent id markup = .error e) := by
  unfold fragment? setContent
  cases d.html.fragment (d.context id) markup with
  | ok trees => exact .inl ⟨trees, rfl, rfl⟩
  | error cause => exact .inr ⟨rfl, _, rfl⟩

/-- No property that reflects an attribute is a view of the content. -/
theorem viewContent?_of_reflects {d : Document} {id : NodeId} {property attr : String}
    (h : textProperties.lookup property = some attr ∨ flagProperties.lookup property = some attr)
    (text : String) : d.viewContent? id property text = none := by
  have hviews : ∀ view ∈ ["innerHTML", "textContent", "innerText", "value"],
      textProperties.lookup view = none ∧ flagProperties.lookup view = none := by decide
  have hne : ∀ view ∈ ["innerHTML", "textContent", "innerText", "value"], property ≠ view := by
    rintro view hview rfl
    rw [(hviews property hview).1, (hviews property hview).2] at h
    simp at h
  simp only [List.forall_mem_cons] at hne
  simp [viewContent?, hne]

/-- **What a write of a property comes to.** -/
theorem setProperty_cases (d : Document) (id : NodeId) (property : String) (value : Value) :
    (∃ d', d.setProperty id property value = .ok d' ∧
      d.Becomes id (d.viewContent? id property (value.text d.label)) d') ∨
    (d.viewContent? id property (value.text d.label) = none ∧
      ∃ e, d.setProperty id property value = .error e) := by
  unfold setProperty
  dsimp only
  split
  · rename_i attr hattr
    rw [viewContent?_of_reflects (.inl hattr)]
    exact .inl ⟨_, rfl, sameShape_setAttr ..⟩
  · split
    · rename_i attr hattr
      rw [viewContent?_of_reflects (.inr hattr)]
      refine .inl ⟨_, rfl, ?_⟩
      split
      · exact sameShape_setAttr ..
      · exact sameShape_removeAttr ..
    · -- the views of the content, in the order in which they are tried
      unfold viewContent?
      split
      · rcases d.setContent_cases id (value.text d.label) with ⟨trees, hsome, hok⟩ | ⟨hnone, herror⟩
        · rw [hsome]
          exact .inl ⟨_, hok, rfl⟩
        · exact .inr ⟨hnone, herror⟩
      · split
        · exact .inl ⟨_, rfl, rfl⟩
        · by_cases hvalue : property == "value"
          · rw [if_pos hvalue, hvalue, Bool.true_and]
            refine .inl ⟨_, rfl, ?_⟩
            split
            · rfl
            · exact sameShape_setAttr ..
          · rw [if_neg hvalue, Bool.eq_false_iff.mpr hvalue, Bool.false_and]
            exact .inr ⟨rfl, _, rfl⟩

end Document

/-- The content of an element is replaced. -/
structure Replacement where
  before : Document
  element : NodeId
  trees : List Html.Markup

namespace Replacement

/-- The page afterwards. -/
def after (c : Replacement) : Document := c.before.replaceChildren c.element c.trees

/-- The new content is at fault. -/
def Spoils (c : Replacement) : Prop := c.before.Spoils c.element c.trees

end Replacement

namespace Execution

theorem becomes_putContent (x : Execution) (markup : String) (w : World) (element : NodeId) :
    w.document.Becomes element (w.document.fragment? element markup)
      (x.putContent markup w element).document := by
  unfold putContent
  rcases w.document.setContent_cases element markup with ⟨trees, hsome, hok⟩ | ⟨hnone, e, herror⟩
  · rw [hsome, hok]
    rfl
  · rw [hnone, herror]
    exact .refl _

/-- **What a write of a property does to the page.** -/
theorem becomes_putProperty (x : Execution) (property value : String) (w : World)
    (element : NodeId) :
    w.document.Becomes element (w.document.newContent? element property value)
      (x.putProperty property value w element).document := by
  unfold putProperty Document.newContent?
  split
  · exact becomes_putContent x value w element
  · unfold Document.setStyle
    by_cases hstyle : Style.isKnown property
    · rw [if_pos hstyle, if_pos hstyle]
      dsimp only
      split
      · exact Document.sameShape_removeAttr ..
      · exact Document.sameShape_setAttr ..
    · rw [if_neg hstyle, if_neg hstyle]
      dsimp only
      rcases w.document.setProperty_cases element property (.parse value) with
        ⟨d', hok, hbecomes⟩ | ⟨hnone, e, herror⟩
      · rw [hok]
        exact hbecomes
      · -- a property that the page does not know becomes an attribute
        rw [hnone, herror]
        exact Document.sameShape_setAttr ..

end Execution

/-! ## From one replacement to the next -/

/-- From one document to another by replacements of content. Between them only attributes change. -/
inductive Through : Document → List Replacement → Document → Prop
  | shape {d d' : Document} (h : d.SameShape d') : Through d [] d'
  | replace {d d' : Document} {c : Replacement} {rest : List Replacement}
      (h : d.SameShape c.before) (helement : c.before.isElement c.element = true)
      (hrest : Through c.after rest d') : Through d (c :: rest) d'

namespace Through

variable {d d' d'' : Document} {cs more : List Replacement}

theorem of_eq (h : d' = d) : Through d [] d' := .shape (h ▸ .refl d)

theorem after_shape (h : d.SameShape d') (h' : Through d' cs d'') : Through d cs d'' := by
  cases h' with
  | shape h' => exact .shape (h.trans h')
  | replace h' helement hrest => exact .replace (h.trans h') helement hrest

theorem trans (h : Through d cs d') (h' : Through d' more d'') : Through d (cs ++ more) d'' := by
  induction h with
  | shape h => exact h'.after_shape h
  | replace h helement _ ih => exact .replace h helement (ih h')

/-- A document stays sound, and every replacement is of an element. -/
theorem sound (h : Through d cs d') (hs : d.Sound) :
    d'.Sound ∧ ∀ c ∈ cs, c.before.Sound ∧ c.before.isElement c.element = true := by
  induction h with
  | shape h => exact ⟨h.sound hs, fun c hc => absurd hc List.not_mem_nil⟩
  | replace h helement _ ih =>
      have hbefore := h.sound hs
      obtain ⟨hlast, hrest⟩ := ih (Document.sound_replaceChildren hbefore helement _)
      exact ⟨hlast, List.forall_mem_cons.mpr ⟨⟨hbefore, helement⟩, hrest⟩⟩

/-- **A page stays printable as long as no replacement is at fault**, and no longer. -/
theorem printable (h : Through d cs d') (hs : d.Sound) (hp : d.Printable) :
    ((∀ c ∈ cs, ¬ c.Spoils) ↔ ∀ c ∈ cs, c.after.Printable) ∧
      ((∀ c ∈ cs, ¬ c.Spoils) → d'.Printable) := by
  induction h with
  | shape h =>
      refine ⟨?_, fun _ => h.printable hs hp⟩
      exact iff_of_true (fun c hc => absurd hc List.not_mem_nil)
        fun c hc => absurd hc List.not_mem_nil
  | @replace d d' c rest h helement _ ih =>
      have hbefore := h.sound hs
      have hone : c.after.Printable ↔ ¬ c.Spoils :=
        Document.printable_replaceChildren hbefore (h.printable hs hp) helement c.trees
      -- the rest starts from a printable page only if this replacement is not at fault
      have hrest := ih (Document.sound_replaceChildren hbefore helement c.trees)
      rw [List.forall_mem_cons, List.forall_mem_cons, ← hone]
      exact ⟨and_congr_right fun hafter => (hrest hafter).1,
        fun hkeeps => (hrest hkeeps.1).2 hkeeps.2⟩

end Through

/-! ## Segments -/

theorem Document.isElement_of_mem_elements {d : Document} {id : NodeId} (h : id ∈ d.elements) :
    d.isElement id = true :=
  (List.mem_filter.mp h).2

theorem Document.isElement_of_elementById? {d : Document} {name : String} {id : NodeId}
    (h : d.elementById? name = some id) : d.isElement id = true := by
  unfold elementById? at h
  split at h
  · cases h
  · exact isElement_of_mem_elements (List.mem_of_find?_eq_some h)

theorem Document.isElement_of_elementsByClass {d : Document} {name : String} {id : NodeId}
    (h : id ∈ d.elementsByClass name) : d.isElement id = true := by
  unfold elementsByClass at h
  split at h
  · exact absurd h List.not_mem_nil
  · exact isElement_of_mem_elements (List.mem_filter.mp h).1

/-- What a selector finds are elements. -/
theorem Selector.isElement_of_named {d : Document} {token : String} {id : NodeId}
    (h : id ∈ named d token) : d.isElement id = true := by
  unfold named found at h
  split at h
  · exact Document.isElement_of_elementById? (Option.mem_toList.mp h)
  · exact Document.isElement_of_elementsByClass h

/-- So is what an index expression selects of it. -/
theorem Selector.isElement_of_resolve {d : Document} {token index : String} {nodes : List NodeId}
    (h : resolve d token index = some nodes) {id : NodeId} (hid : id ∈ nodes) :
    d.isElement id = true := by
  unfold resolve at h
  split at h
  · rw [← Option.some.inj h] at hid
    exact Document.isElement_of_elementById? (Option.mem_toList.mp hid)
  · unfold lookUp at h
    dsimp only at h
    split at h
    · rw [← Option.some.inj h] at hid
      obtain ⟨position, -, hfound⟩ := List.mem_filterMap.mp hid
      exact Document.isElement_of_elementsByClass (List.mem_of_getElem? hfound)
    · cases h

namespace Execution

/-- The replacements when a property of several elements is written, one after the other. -/
def puts (x : Execution) (property value : String) : World → List NodeId → List Replacement
  | _, [] => []
  | w, element :: rest =>
    ((w.document.newContent? element property value).map
        (Replacement.mk w.document element)).toList ++
      x.puts property value (x.putProperty property value w element) rest

/-- The markup that `$element` shows. -/
def shown (x : Execution) (w : World) (rhs : String) : String :=
  let label := w.document.label
  if rhs.isEmpty then x.current.display label
  else Segment.unescape
    (Segment.expandWords (fun name => ((x.vars w).get name).display label) rhs)

/-- The replacements that a segment makes. -/
def replaces (x : Execution) (w : World) (segment : String) : List Replacement :=
  match Segment.ofScript? segment with
  | some (.indexedWrite target index property rhs) =>
    x.puts property (x.resolve w rhs) w ((Selector.resolve w.document target index).getD [])
  | some (.propWrite target property rhs) =>
    x.puts property (x.resolve w rhs) w (Selector.named w.document target)
  | some (.contentSet id rhs) => x.puts "text" (x.shown w rhs) w (w.document.elementById? id).toList
  | _ => []

theorem through_becomes {d d' : Document} {element : NodeId} {o : Option (List Html.Markup)}
    (helement : d.isElement element = true) (h : d.Becomes element o d') :
    Through d (o.map (Replacement.mk d element)).toList d' := by
  cases o with
  | none => exact .shape h
  | some trees => exact .replace (.refl d) helement (.of_eq h)

theorem isElement_becomes {d d' : Document} {element j : NodeId} {o : Option (List Html.Markup)}
    (helement : d.isElement element = true) (h : d.Becomes element o d')
    (hj : d.isElement j = true) : d'.isElement j = true := by
  cases o with
  | none => exact (Document.SameShape.isElement_eq h j).trans hj
  | some trees =>
      obtain rfl : d' = d.replaceChildren element trees := h
      exact Document.isElement_replaceChildren helement trees hj

theorem through_puts (x : Execution) (property value : String) :
    ∀ (elements : List NodeId) (w : World),
      (∀ element ∈ elements, w.document.isElement element = true) →
      Through w.document (x.puts property value w elements)
        (elements.foldl (x.putProperty property value) w).document := by
  intro elements
  induction elements with
  | nil => exact fun w _ => .of_eq rfl
  | cons element rest ih =>
      intro w hall
      obtain ⟨helement, hrest⟩ := List.forall_mem_cons.mp hall
      have hbecomes := becomes_putProperty x property value w element
      exact (through_becomes helement hbecomes).trans
        (ih _ fun j hj => isElement_becomes helement hbecomes (hrest j hj))

/-! ### Segments that leave the page alone -/

theorem document_modifyVars (x : Execution) (w : World) (f : Store → Store) :
    (x.modifyVars w f).document = w.document := by
  unfold modifyVars
  cases x.shell <;> rfl

theorem document_atDesk {α : Type} (x : Execution) (w : World) (act : StateM Desk α) :
    (x.atDesk w act).1.document = w.document := by
  rw [atDesk_eq]
  exact patch_document _

theorem document_commitWhere (x : Execution) (w : World) (which : Shell → Bool) :
    (x.commitWhere which w).1.document = w.document := by
  unfold commitWhere
  dsimp only
  generalize x.closing.filter (fun p => which (w.shell p.shell)) = due
  induction due generalizing w with
  | nil => rfl
  | cons p rest ih => exact (ih (x.commitOne w p)).trans rfl

theorem document_openShell (x : Execution) (w : World) (target name : String) :
    (x.openShell w target name).1.document = w.document := by
  unfold openShell
  split
  · rfl
  · have hcommit := document_commitWhere x w fun shell => shell.name == name
    generalize x.commitWhere (fun shell => shell.name == name) w = committed at hcommit
    obtain ⟨w', x'⟩ := committed
    dsimp only at hcommit ⊢
    rw [← hcommit]
    unfold World.openShell
    dsimp only
    split <;> rfl

theorem document_closeShell (x : Execution) (w : World) (name : String) :
    (x.closeShell w name).1.document = w.document := by
  unfold closeShell World.detachShell
  cases w.openShell? (w.entry x.entry).key name with
  | none => rfl
  | some s => rfl

theorem document_readProp (x : Execution) (w : World) (name id property : String) :
    (x.readProp w name id property).1.document = w.document := by
  unfold readProp
  refine (document_modifyVars ..).trans ?_
  split <;> rfl

theorem document_assign (x : Execution) (w : World) (name rhs : String) :
    (x.assign w name rhs).1.document = w.document := by
  unfold assign
  split
  · dsimp only
    split
    · rfl
    · exact document_modifyVars ..
  · exact document_modifyVars ..

theorem sameShape_putAttrs (attr : String) (value : Option String) (elements : List NodeId)
    (w : World) : w.document.SameShape (elements.foldl (putAttr attr value) w).document := by
  induction elements generalizing w with
  | nil => exact .refl _
  | cons element rest ih =>
      refine Document.SameShape.trans ?_ (ih _)
      cases value with
      | none => exact Document.sameShape_removeAttr ..
      | some value => exact Document.sameShape_setAttr ..

theorem sameShape_writeAttr (x : Execution) (w : World) (target attr rhs : String) :
    w.document.SameShape (x.writeAttr w target attr rhs).1.document := by
  unfold writeAttr
  refine Document.SameShape.trans ?_ (sameShape_putAttrs _ _ _ _)
  split <;> exact .refl _

/-! ### Steps and runs -/

/-- **The replacements of a segment are all that it does to the page**, attributes apart. -/
theorem through_step (x : Execution) (w : World) (segment : String) :
    Through w.document (x.replaces w segment) (x.step w segment).1.document := by
  unfold replaces step
  cases Segment.ofScript? segment with
  | none => exact .of_eq rfl
  | some parsed =>
      cases parsed with
      | attrWrite target attr rhs => exact .shape (sameShape_writeAttr ..)
      | shellOpen target name => exact .of_eq (document_openShell ..)
      | shellClose name => exact .of_eq (document_closeShell ..)
      | propRead name element property => exact .of_eq (document_readProp ..)
      | literalAssign name rhs => exact .of_eq (document_assign ..)
      | nopStore name => exact .of_eq (document_modifyVars ..)
      | verbCall verb parameters => exact .of_eq (callVerb_document ..)
      | indexedWrite target index property rhs =>
          -- where nothing is found, that is logged and nothing is replaced
          unfold writeIndexed
          dsimp only
          cases hfound : Selector.resolve w.document target index with
          | none => exact .of_eq rfl
          | some elements =>
              have hputs := through_puts x property (x.resolve w rhs) elements w
                fun _ => Selector.isElement_of_resolve hfound
              rw [Option.getD_some]
              cases elements with
              | nil => exact hputs
              | cons element rest => exact hputs
      | propWrite target property rhs =>
          have hputs := through_puts x property (x.resolve w rhs)
            (Selector.named w.document target) w fun _ => Selector.isElement_of_named
          unfold writeProp
          dsimp only
          generalize Selector.named w.document target = elements at hputs ⊢
          cases elements with
          | nil => exact hputs
          | cons element rest => exact hputs
      | contentSet id rhs =>
          have hputs := through_puts x "text" (x.shown w rhs) (w.document.elementById? id).toList w
            fun _ h => Document.isElement_of_elementById? (Option.mem_toList.mp h)
          unfold setContent
          dsimp only
          generalize w.document.elementById? id = found at hputs ⊢
          cases found with
          | none => exact hputs
          | some element => exact hputs

end Execution

/-- The replacements that a moment makes. -/
def Moment.replaces (μ : Moment) : List Replacement := μ.exec.replaces μ.world μ.segment

namespace Execution

theorem through_steps {trace : List Moment} {r₀ r : Stepped} (hsteps : Steps trace r₀ r) :
    Through r₀.1.document (trace.flatMap Moment.replaces) r.1.document := by
  induction hsteps with
  | nil r => exact .of_eq rfl
  | cons hseg rest ih => exact (through_step _ _ _).trans ih

theorem document_finish (failure : Option Failure) (w : World) (x : Execution) :
    (finish failure w x).1.document = w.document :=
  document_commitWhere x w fun _ => true

theorem document_halt (r : Stepped) : (halt r).1.document = r.1.document := by
  obtain ⟨w, x, verdict⟩ := r
  cases verdict with
  | next => exact document_finish none w x
  | abandon f => exact document_finish (some f) w x
  | await wait => exact document_commitWhere x w fun _ => true
  | crash => rfl

/-- **So it is with a run.** -/
theorem through_run {w : World} {x : Execution} (ha : w.ArenaSound) (hp : x.Placed w) :
    Through w.document ((trace w x).flatMap Moment.replaces) (run w x).1.document := by
  obtain ⟨last, hsteps, -, hhalt, -⟩ := stops_run ha hp
  rw [← hhalt, document_halt]
  exact through_steps hsteps

end Execution

/-! ## Histories -/

namespace Machine

/-- The replacements that scripts make in a happening. -/
def replaces (m : Machine) (h : Happening) : List Replacement :=
  match m.running? h with
  | some (_, w, x) => (trace w x).flatMap Moment.replaces
  | none => []

/-- The replacements that scripts make in a history. -/
def replacesAll (m : Machine) : List Happening → List Replacement
  | [] => []
  | h :: history => m.replaces h ++ (m.after h).replacesAll history

/-- The host may set attributes, scripts among them, and leaves the content of the page to the
scripts. -/
def LeavesContent (m : Machine) : Happening → Prop
  | .host document .. => m.world.document.SameShape document
  | _ => True

/-- So it does all along. -/
def LeavesContentAll (m : Machine) : List Happening → Prop
  | [] => True
  | h :: history => m.LeavesContent h ∧ (m.after h).LeavesContentAll history

theorem document_update {m : Machine} {i : Nat} {f : World → Execution → World × Execution}
    (hf : ∀ x, m.executions[i]? = some x → (f m.world x).1.document = m.world.document) :
    (m.update i f).world.document = m.world.document := by
  unfold update
  split
  · rename_i x hx
    exact hf x hx
  · rfl

theorem document_failWait (wait : Wait) (f : Failure) (w : World) (x : Execution) :
    (failWait wait f w x).1.document = w.document := by
  unfold failWait
  exact document_finish _ _ x

/-- Where no script runs, only the host changes the page. -/
theorem sameShape_turn {m : Machine} {h : Happening} (hrun : m.setsOff? h = none)
    (hleaves : m.LeavesContent h) : m.world.document.SameShape (m.turn h).world.document := by
  have of_eq : ∀ {w : World}, w.document = m.world.document →
      m.world.document.SameShape w.document := fun h => h ▸ .refl _
  cases h with
  | start key context =>
      cases hx : ofKey? m.world key context with
      | some x => exact absurd ((setsOff_start hx).symm.trans hrun) (Option.some_ne_none _)
      | none =>
          rw [← after_of_idle hrun, world_refused hx]
          exact .refl _
  | settle i answer =>
      refine of_eq (document_update (i := i) (f := Execution.settle answer) fun x hx => ?_)
      by_cases hwaits : ∃ wait, x.state = .suspended ∧ x.wait = some wait
      · obtain ⟨wait, hs, hwait⟩ := hwaits
        rcases hdesk : x.atDesk m.world (wait.result.settle answer) with ⟨w, f | v⟩
        · rw [settle_of_error hs hwait hdesk, document_failWait]
          have hdocument := document_atDesk x m.world (wait.result.settle answer)
          rw [hdesk] at hdocument
          exact hdocument
        · have hruns := (setsOff_settle hx hs hwait hdesk).symm.trans hrun
          exact absurd hruns (Option.some_ne_none _)
      · rw [settle_of_not_waiting answer fun wait hs hwait => hwaits ⟨wait, hs, hwait⟩]
  | interrupt i why =>
      refine of_eq (document_update (i := i) (f := Execution.interrupt why) fun x _ => ?_)
      unfold Execution.interrupt
      split
      · exact document_failWait ..
      · rfl
  | register naming element =>
      obtain ⟨key, generated, -, -, hregisters⟩ := World.registers m.world naming element
      exact of_eq hregisters.document
  | remove key =>
      refine of_eq ?_
      show (m.world.remove key).document = _
      unfold World.remove
      split <;> rfl
  | load key values =>
      refine of_eq ?_
      show (m.world.loadVars key values).1.document = _
      unfold World.loadVars
      split <;> rfl
  | control | verbs => exact .refl _
  | host document globals now log => exact hleaves

theorem sameShape_after {m : Machine} {h : Happening} (hrun : m.running? h = none)
    (hleaves : m.LeavesContent h) : m.world.document.SameShape (m.after h).world.document := by
  cases hfatal : m.fatal h with
  | true =>
      rw [after_of_fatal hfatal]
      exact .refl _
  | false =>
      rw [running_of_survives hfatal] at hrun
      rw [after_of_survives hfatal]
      exact sameShape_turn hrun hleaves

theorem Stretch.document {m m' : Machine} {w : World} {x : Execution} (h : Stretch m w x m') :
    w.document = m.world.document := by
  cases h with
  | start => rfl
  | @settle i y wait answer w v hi hs hwait h =>
      have hdocument := document_atDesk y m.world (wait.result.settle answer)
      rw [h] at hdocument
      exact hdocument

/-- **A happening does to the page what the replacements say**, attributes apart. -/
theorem through_after {m : Machine} (hm : m.Sound) {h : Happening} (hleaves : m.LeavesContent h) :
    Through m.world.document (m.replaces h) (m.after h).world.document := by
  unfold replaces
  split
  · rename_i i w x hrun
    have hstretch := stretch_of_running hrun
    obtain ⟨hstage, -, -⟩ := hstretch.begins hm
    rw [hstretch.world_eq, ← hstretch.document]
    exact through_run hstage.world.arena hstage.underway.placed
  · rename_i hrun
    exact .shape (sameShape_after hrun hleaves)

/-- So does a history. -/
theorem through_afterAll {m : Machine} (hm : m.Sound) {history : List Happening}
    (hleaves : m.LeavesContentAll history) :
    Through m.world.document (m.replacesAll history) (m.afterAll history).world.document := by
  induction history generalizing m with
  | nil => exact .of_eq rfl
  | cons h history ih =>
      exact (through_after hm hleaves.1).trans (ih (sound_step hm (step_after m h)).1 hleaves.2)

/-- **A page stays printable if and only if no replacement is at fault.** Let a library write as it
should. Whatever scripts run on a page that it has read and can write: a replacement of content
leaves a printable page printable exactly if it is not at fault. So the page is printable after every
replacement if and only if none of them is, and then it is printable at the end. -/
theorem printable_throughout_iff_unspoiled {html : Html.Library} (hhtml : html.Lawful)
    {markup : String} {d : Document} (hparse : Document.parse html markup = .ok d)
    (hp : d.Printable) (scriptAttr : String)
    {verbs : Registry} (hv : verbs.Lawful) {history : List Happening}
    (hleaves : (init d scriptAttr verbs).LeavesContentAll history) :
    (∀ c ∈ (init d scriptAttr verbs).replacesAll history, c.before.Printable →
      (c.after.Printable ↔ ¬ c.Spoils)) ∧
    ((∀ c ∈ (init d scriptAttr verbs).replacesAll history, c.after.Printable) ↔
      ∀ c ∈ (init d scriptAttr verbs).replacesAll history, ¬ c.Spoils) ∧
    ((∀ c ∈ (init d scriptAttr verbs).replacesAll history, ¬ c.Spoils) →
      ((init d scriptAttr verbs).afterAll history).world.document.Printable) := by
  have hs : d.Sound := Document.sound_parse hhtml hparse
  have hthrough := through_afterAll (sound_init d scriptAttr hv) hleaves
  obtain ⟨hiff, hend⟩ := hthrough.printable hs hp
  refine ⟨fun c hc hbefore => ?_, hiff.symm, hend⟩
  obtain ⟨hsound, helement⟩ := (hthrough.sound hs).2 c hc
  exact Document.printable_replaceChildren hsound hbefore helement c.trees

/-! ## A page with an input -/

/-- A page with an `input` and a `p`, each with a script that shows `x` in it. -/
def inputMarkup : String := "<input id=i inline=$i:x><p id=d inline=$d:x>"

/-- What is read from it. -/
def inputTrees : List Html.Markup :=
  [.element "html" "" []
    [.element "head" "" [] [],
      .element "body" "" []
        [.element "input" "" [⟨"", "id", "i"⟩, ⟨"", "inline", "$i:x"⟩] [],
          .element "p" "" [⟨"", "id", "d"⟩, ⟨"", "inline", "$d:x"⟩] []]]]

/-- A library that reads this page, and a fragment as a text. -/
def inputLibrary : Html.Library where
  parse := fun _ => .ok inputTrees
  fragment := fun _ text => .ok [.text text]
  write := Html.Markup.write false

theorem lawful_inputLibrary : inputLibrary.Lawful := ⟨Html.complete_write false⟩

def inputPage : Document :=
  (Document.empty inputLibrary).replaceChildren Document.root inputTrees

theorem parse_inputMarkup : Document.parse inputLibrary inputMarkup = .ok inputPage := rfl

/-- The page with the standard verbs, where nothing is fetched or evaluated. -/
def inputMachine : Machine :=
  init inputPage "inline" (Verb.standard { evaluate := fun _ _ _ => .ok .undefined })

/-- Both elements are registered, and one of the scripts is started. -/
def showing (key : String) : List Happening :=
  [.register .numbered ⟨2⟩, .register .numbered ⟨3⟩, .start key 0]

/-- A script of one segment that shows something makes one replacement. -/
theorem replaces_of_shows {m : Machine} {h : Happening} {i : Nat} {w : World}
    {x : Execution} {segment id rhs : String} {element : NodeId} {trees : List Html.Markup}
    (hrun : m.running? h = some (i, w, x)) (hseg : x.segments = [segment]) (hpos : x.pos = 0)
    (hkind : Segment.ofScript? segment = some (.contentSet id rhs))
    (hfind : w.document.elementById? id = some element)
    (htrees : w.document.fragment? element (x.advance.shown w rhs) = some trees) :
    m.replaces h = [⟨w.document, element, trees⟩] := by
  have hnext : x.segments[x.pos]? = some segment := by rw [hseg, hpos]; rfl
  have hstop : Stopped (x.advance.step w segment) := by
    have hend : x.advance.segments[x.advance.pos]? = none := by
      show x.segments[x.pos + 1]? = none
      rw [hseg, hpos]
      rfl
    unfold step
    rw [hkind]
    dsimp only
    unfold setContent
    rw [hfind]
    exact hend
  have htrace : trace w x = [⟨w, x.advance, segment⟩] := by
    refine traceFrom_of_steps (.cons hnext (.nil _)) hstop ?_
    unfold stepBound
    rw [hseg, hpos]
    exact Nat.le_add_right ..
  have hone : x.advance.replaces w segment = [⟨w.document, element, trees⟩] := by
    have hcontent : w.document.newContent? element "text" (x.advance.shown w rhs) = some trees :=
      htrees
    unfold Execution.replaces
    rw [hkind]
    dsimp only
    rw [hfind, Option.toList_some, puts, hcontent]
    rfl
  unfold replaces
  rw [hrun]
  dsimp only
  rw [htrace, List.flatMap_singleton]
  exact hone

/-- The elements of the page. -/
theorem inputPage_facts :
    inputPage.Printable ∧ inputPage.Attached ⟨2⟩ ∧
      inputPage.elementById? "i" = some ⟨2⟩ ∧ inputPage.elementById? "d" = some ⟨3⟩ ∧
      inputPage.tag ⟨2⟩ = "input" ∧ inputPage.tag ⟨3⟩ = "p" := by
  obtain ⟨hrender, hhtml, hbody, hinput, hi, hd, htag₂, htag₃⟩ :
      inputPage.render?.isSome ∧ ⟨5⟩ ∈ inputPage.inside Document.root ∧
        ⟨4⟩ ∈ inputPage.inside ⟨5⟩ ∧ ⟨2⟩ ∈ inputPage.inside ⟨4⟩ ∧
        inputPage.elementById? "i" = some ⟨2⟩ ∧ inputPage.elementById? "d" = some ⟨3⟩ ∧
        inputPage.tag ⟨2⟩ = "input" ∧ inputPage.tag ⟨3⟩ = "p" := by
    decide +kernel
  exact ⟨hrender, .inside hhtml (.inside hbody (.inside hinput (.refl _))), hi, hd, htag₂, htag₃⟩

theorem fragment?_inputPage (id : NodeId) (text : String) :
    inputPage.fragment? id text = some [.text text] := rfl

/-- The run of a script that shows `x` in its element. -/
def Shows (key segment : String) : Prop :=
  Segment.ofScript? segment = some (.contentSet key "x") ∧
    ∃ r ∈ (inputMachine.afterAll ((showing key).take 2)).running? (.start key 0),
      r.2.2.segments = [segment] ∧ r.2.2.pos = 0 ∧ r.2.2.advance.shown r.2.1 "x" = "x"

theorem shows_both : Shows "i" "$i:x" ∧ Shows "d" "$d:x" := by
  unfold Shows
  decide +kernel

/-- Only the script replaces anything. -/
theorem replacesAll_showing (m : Machine) (key : String) : m.replacesAll (showing key) =
    (m.afterAll ((showing key).take 2)).replaces (.start key 0) := by
  have hregister : ∀ (m : Machine) naming element, m.replaces (.register naming element) = [] :=
    fun _ _ _ => rfl
  simp only [showing, replacesAll, hregister, List.take_succ_cons, List.take_zero, List.nil_append,
    List.append_nil, afterAll, List.foldl_cons, List.foldl_nil]

theorem leavesContentAll_showing (m : Machine) (key : String) : m.LeavesContentAll (showing key) :=
  ⟨trivial, trivial, trivial, trivial⟩

/-- The registrations leave the page as it is. -/
theorem document_opening (m : Machine) (key : String) :
    (m.afterAll ((showing key).take 2)).world.document = m.world.document := by
  have hregister : ∀ (m : Machine) naming element,
      (m.after (.register naming element)).world.document = m.world.document := by
    intro m naming element
    obtain ⟨_, _, -, -, hregisters⟩ := m.world.registers naming element
    exact hregisters.document
  exact (hregister _ _ _).trans (hregister _ _ _)

theorem replacesAll_of_shows {key segment : String} {element : NodeId}
    (h : Shows key segment) (hfind : inputPage.elementById? key = some element) :
    inputMachine.replacesAll (showing key) = [⟨inputPage, element, [.text "x"]⟩] := by
  obtain ⟨hkind, ⟨i, w, x⟩, hrun, hseg, hpos, hshown⟩ := h
  have htrees := fragment?_inputPage element "x"
  have hopening := document_opening inputMachine key
  rw [replacesAll_showing]
  -- from here on neither the machine nor the page is to be computed
  generalize inputMachine.afterAll ((showing key).take 2) = m at hrun hopening
  have hdocument : w.document = inputPage := (stretch_of_running hrun).document.trans hopening
  generalize inputPage = page at hfind htrees hdocument
  subst hdocument
  exact replaces_of_shows hrun hseg hpos hkind hfind (hshown.symm ▸ htrees)

/-- Showing `x` in the `p` leaves the page printable. -/
theorem paragraph_keeps_page : inputLibrary.Lawful ∧
    Document.parse inputLibrary inputMarkup = .ok inputPage ∧ inputPage.Printable ∧
    inputMachine.LeavesContentAll (showing "d") ∧
    (inputMachine.afterAll (showing "d")).world.document.Printable := by
  obtain ⟨hprintable, -, -, hd, -, htag⟩ := inputPage_facts
  have hleaves := leavesContentAll_showing inputMachine "d"
  obtain ⟨-, -, hend⟩ := printable_throughout_iff_unspoiled lawful_inputLibrary parse_inputMarkup
    hprintable "inline" (Verb.standard_lawful _) hleaves
  refine ⟨lawful_inputLibrary, parse_inputMarkup, hprintable, hleaves, hend ?_⟩
  have hreplaces : (init inputPage "inline" (Verb.standard _)).replacesAll (showing "d") = _ :=
    replacesAll_of_shows shows_both.2 hd
  rw [hreplaces, List.forall_mem_singleton]
  rintro ⟨-, ⟨hvoid, -⟩ | hbad⟩
  · have hp : "p" ∈ Html.voidTags := htag ▸ hvoid
    exact absurd hp (by decide)
  · have hx : Html.allWritable [.text "x"] = false := hbad
    exact absurd hx (by decide)

/-- **Showing something in an `input` costs the whole page.** The page has been read and can be
written, its script is one segment, and afterwards the page cannot be written. -/
theorem input_content_costs_page :
    ¬ ∀ (html : Html.Library) (markup : String) (d : Document) (scriptAttr : String)
        (deps : Verb.Deps) (history : List Happening), html.Lawful →
      (∀ context text, ∃ trees, html.fragment context text = .ok trees) →
      Document.parse html markup = .ok d → d.Printable →
      (init d scriptAttr (Verb.standard deps)).LeavesContentAll history →
      ((init d scriptAttr (Verb.standard deps)).afterAll history).world.document.Printable := by
  intro hall
  obtain ⟨hprintable, hattached, hi, -, htag, -⟩ := inputPage_facts
  have hleaves := leavesContentAll_showing inputMachine "i"
  have hend := hall inputLibrary inputMarkup inputPage "inline" _ (showing "i")
    lawful_inputLibrary (fun _ _ => ⟨_, rfl⟩) parse_inputMarkup hprintable hleaves
  have hthrough := through_afterAll (sound_init inputPage "inline" (Verb.standard_lawful _)) hleaves
  have hreplaces : (init inputPage "inline" (Verb.standard _)).replacesAll (showing "i") = _ :=
    replacesAll_of_shows shows_both.1 hi
  rw [hreplaces] at hthrough
  generalize ((init inputPage "inline" (Verb.standard _)).afterAll (showing "i")).world.document =
    final at hthrough hend
  have hsound := Document.sound_parse lawful_inputLibrary parse_inputMarkup
  have hspoils : inputPage.Spoils ⟨2⟩ [.text "x"] :=
    ⟨hattached, .inl ⟨htag ▸ (by decide : "input" ∈ Html.voidTags), List.cons_ne_nil _ _⟩⟩
  cases hthrough with
  | replace hshape helement hrest =>
      cases hrest with
      | shape hlast =>
          have hsound' := Document.sound_replaceChildren hsound helement [.text "x"]
          exact (Document.printable_replaceChildren hsound hprintable helement _).mp
            (hlast.symm.printable (hlast.sound hsound') hend) hspoils

end Machine

end PageMacro
