import PageMacro.Proofs.Printable

/-!
# What a write leaves alone

A write of an element is one edit: new content, or one attribute with a new value or without one.
`Edited` says what an edit does to the page, by what can be looked up afterwards. Of all nodes there
were only the element's own is another one, and of that node everything but the one place is as it
was. Which edit a segment makes is said by `Execution.edit?`, apart from the handlers: the ways that
a property write tries, in their order, each with its condition (`Document.propertyEdit?`).

A segment finds its targets first and then writes to one after the other, each time to the page as
the writes before have left it. `Turns` is that sequence. A target that an earlier write has
detached has its turn as well, and nothing that is still attached is changed by it.
-/

namespace PageMacro

/-- The one place of an element that a write changes, and what it holds then. -/
inductive Edit where
  | content (trees : List Html.Markup)
  /-- Without a value the attribute is removed. -/
  | attribute (name : String) (value : Option String)

namespace Edit

/-- An attribute that the edit leaves alone. -/
def spares : Edit → Html.Attr → Bool
  | .content _, _ => true
  | .attribute name _, a => !(a.space.isEmpty && a.name == name)

/-- The element holds what the edit has put there. -/
def Done (d : Document) (id : NodeId) : Edit → Prop
  | .content trees => d.innerTrees id = trees
  | .attribute name value => d.attr? id name = value

end Edit

/-- One document comes from another by one edit of an element. -/
structure Edited (d d' : Document) (id : NodeId) (e : Edit) : Prop where
  size : d.nodes.size ≤ d'.nodes.size
  /-- All other nodes are as they were. -/
  others : ∀ other, other.index < d.nodes.size → other ≠ id → d'.node? other = d.node? other
  tag : d'.tag? id = d.tag? id
  space : d'.space id = d.space id
  /-- All other attributes are as they were, and in their order. -/
  attrs : (d'.attrs id).filter e.spares = (d.attrs id).filter e.spares
  inside : ∀ name value, e = .attribute name value → d'.inside id = d.inside id
  done : e.Done d' id

namespace Document

open Html

variable {d d' : Document} {id : NodeId}

/-! ## Attributes -/

theorem node?_modifyAttrs (f : List Attr → List Attr) {tag space : String} {attrs : List Attr}
    {children : List NodeId} (hnode : d.node? id = some ⟨.element tag space attrs, children⟩)
    (j : NodeId) :
    (d.modifyAttrs id f).node? j =
      if j = id then some ⟨.element tag space (f attrs), children⟩ else d.node? j := by
  unfold modifyAttrs modify node?
  dsimp only
  rw [Array.getElem?_modify]
  split
  · rename_i heq
    obtain rfl : id = j := congrArg NodeId.mk heq
    have hfound : d.nodes[id.index]? = some ⟨.element tag space attrs, children⟩ := hnode
    rw [if_pos rfl, hfound]
    rfl
  · rename_i hne
    rw [if_neg fun h => hne (congrArg NodeId.index h).symm]

/-- A change of the attributes of an element that leaves all but one alone. -/
theorem edited_modifyAttrs {f : List Attr → List Attr} {name : String} {value : Option String}
    (hid : d.isElement id = true)
    (hspares : ∀ attrs, (f attrs).filter (Edit.attribute name value).spares =
      attrs.filter (Edit.attribute name value).spares)
    (hvalue : ∀ attrs, attrValue? name (f attrs) = value) :
    Edited d (d.modifyAttrs id f) id (.attribute name value) := by
  unfold isElement at hid
  split at hid
  · rename_i tag space attrs children hnode
    have hlookup := node?_modifyAttrs f hnode
    have hself : (d.modifyAttrs id f).node? id = some ⟨.element tag space (f attrs), children⟩ := by
      rw [hlookup, if_pos rfl]
    refine ⟨?_, fun other _ hne => ?_, ?_, ?_, ?_, fun _ _ _ => ?_, ?_⟩
    · exact Nat.le_of_eq (Array.size_modify ..).symm
    · rw [hlookup, if_neg hne]
    · unfold tag?
      rw [hself, hnode]
      rfl
    · unfold Document.space
      rw [hself, hnode]
    · unfold Document.attrs
      rw [hself, hnode]
      exact hspares attrs
    · unfold Document.inside
      rw [hself, hnode]
      rfl
    · show attrValue? name ((d.modifyAttrs id f).attrs id) = value
      unfold Document.attrs
      rw [hself]
      exact hvalue attrs
  · contradiction

/-- Setting an attribute leaves those of other names alone. -/
theorem filter_putAttr (name value : String) (attrs : List Attr) :
    (putAttr name value attrs).filter (fun a => !(a.space.isEmpty && a.name == name)) =
      attrs.filter fun a => !(a.space.isEmpty && a.name == name) := by
  induction attrs with
  | nil => simp [putAttr]
  | cons a rest ih =>
    rw [putAttr]
    split
    · rename_i hsame
      rw [List.filter_cons_of_neg (by simpa using hsame),
        List.filter_cons_of_neg (by simpa using hsame)]
    · rename_i hother
      rw [List.filter_cons, List.filter_cons, ih]

theorem attrValue?_putAttr (name value : String) (attrs : List Attr) :
    attrValue? name (putAttr name value attrs) = some value := by
  unfold attrValue?
  induction attrs with
  | nil => simp [putAttr]
  | cons a rest ih =>
    rw [putAttr]
    split
    · rename_i hsame
      rw [List.find?_cons_of_pos (by simpa using hsame)]
      rfl
    · rename_i hother
      rw [List.find?_cons_of_neg (by simpa using hother)]
      exact ih

theorem attrValue?_eraseAttr (name : String) (attrs : List Attr) :
    attrValue? name (eraseAttr name attrs) = none := by
  have hnone :
      (eraseAttr name attrs).find? (fun a => a.space.isEmpty && a.name == name) = none := by
    rw [List.find?_eq_none]
    intro a ha
    have hother := (List.mem_filter.mp ha).2
    rw [Bool.not_eq_true'] at hother
    exact Bool.eq_false_iff.mp hother
  unfold attrValue?
  rw [hnone]
  rfl

theorem edited_setAttr (hid : d.isElement id = true) (name value : String) :
    Edited d (d.setAttr id name value) id (.attribute name (some value)) :=
  edited_modifyAttrs hid (filter_putAttr name value) (attrValue?_putAttr name value)

theorem edited_removeAttr (hid : d.isElement id = true) (name : String) :
    Edited d (d.removeAttr id name) id (.attribute name none) := by
  refine edited_modifyAttrs hid (fun attrs => ?_) (attrValue?_eraseAttr name)
  unfold eraseAttr
  rw [List.filter_filter]
  exact List.filter_congr fun a _ => Bool.and_self _

/-! ## Content -/

/-- What a node is decides over its namespace and its attributes. -/
theorem attrs_congr {j : NodeId}
    (h : (d'.node? j).map (·.content) = (d.node? j).map (·.content)) :
    d'.space j = d.space j ∧ d'.attrs j = d.attrs j := by
  unfold Document.space Document.attrs
  revert h
  rcases d'.node? j with - | ⟨content', children'⟩ <;>
    rcases d.node? j with - | ⟨content, children⟩ <;> intro h
  · exact ⟨rfl, rfl⟩
  · cases h
  · cases h
  · obtain rfl : content' = content := Option.some.inj h
    cases content' <;> exact ⟨rfl, rfl⟩

theorem edited_replaceChildren (hid : d.isElement id = true) (trees : List Markup) :
    Edited d (d.replaceChildren id trees) id (.content trees) := by
  obtain ⟨node, hnode, -⟩ := holds_of_isElement hid
  have hlt : id.index < d.nodes.size := (Array.getElem?_eq_some_iff.mp hnode).1
  have hcontent := content_replaceChildren hlt trees hlt
  refine ⟨?_, fun other hother hne => ?_, ?_, ?_, ?_, ?_, ?_⟩
  · rw [size_replaceChildren]
    exact (adds_insertAll d trees).size
  · rw [node?_replaceChildren hlt, if_neg hne]
    exact (adds_insertAll d trees).old other.index hother
  · unfold tag?
    rw [hcontent]
  · exact (attrs_congr hcontent).1
  · rw [(attrs_congr hcontent).2]
  · intro name value h
    cases h
  · exact innerTrees_replaceChildren hlt trees

/-! ## Properties -/

/-- What a write of a property that can be set comes to; nothing if there is no such property, or if
it does not accept the value. -/
def reflected? (d : Document) (id : NodeId) (property : String) (value : Value) : Option Edit :=
  match textProperties.lookup property with
  | some attr => some (.attribute attr (some (value.text d.label)))
  | none =>
    match flagProperties.lookup property with
    | some attr => some (.attribute attr (if value.truthy then some "" else none))
    | none =>
      if property = "value" ∧ d.tag id ≠ "textarea" then
        some (.attribute "value" (some (value.text d.label)))
      else (d.viewContent? id property (value.text d.label)).map .content

/-- What a property write comes to: new content for `text` and `style`, else a style if the name is
one, else a property that accepts the value, else an attribute of that name. It comes to nothing if
new content cannot be read. -/
def propertyEdit? (d : Document) (id : NodeId) (property value : String) : Option Edit :=
  if property = "text" ∨ property = "style" then (d.fragment? id value).map .content
  else if Style.isKnown property then
    let styles := Style.set (d.attr id "style") property value
    some (.attribute "style" (if styles.isEmpty then none else some styles))
  else some ((d.reflected? id property (.parse value)).getD (.attribute property (some value)))

/-- What one turn makes of the page. -/
def Comes (d : Document) (id : NodeId) : Option Edit → Document → Prop
  | some e, d' => Edited d d' id e
  | none, d' => d' = d

theorem setStyle_comes (hid : d.isElement id = true) {name : String} (h : Style.isKnown name = true)
    (value : String) :
    ∃ d', d.setStyle id name value = .ok d' ∧
      Edited d d' id (.attribute "style" (if (Style.set (d.attr id "style") name value).isEmpty then
        none else some (Style.set (d.attr id "style") name value))) := by
  unfold setStyle
  rw [if_pos h]
  refine ⟨_, rfl, ?_⟩
  split
  · exact edited_removeAttr hid "style"
  · exact edited_setAttr hid "style" _

/-- **A property accepts a value exactly if the write comes to something**, and then it is that. -/
theorem setProperty_comes (hid : d.isElement id = true) (property : String) (value : Value) :
    (∃ d' e, d.setProperty id property value = .ok d' ∧
      d.reflected? id property value = some e ∧ Edited d d' id e) ∨
    (d.reflected? id property value = none ∧ ∃ e, d.setProperty id property value = .error e) := by
  unfold setProperty reflected?
  cases textProperties.lookup property with
  | some attr => exact .inl ⟨_, _, rfl, rfl, edited_setAttr hid _ _⟩
  | none =>
    cases flagProperties.lookup property with
    | some attr =>
      refine .inl ⟨_, _, rfl, rfl, ?_⟩
      split
      · exact edited_setAttr hid _ _
      · exact edited_removeAttr hid _
    | none =>
      -- the views of the content, in the order in which they are tried, and `value`
      unfold viewContent?
      dsimp only
      split
      · rename_i hhtml
        have hvalue : ¬ (property = "value" ∧ d.tag id ≠ "textarea") := by
          rw [beq_iff_eq.mp hhtml]
          exact fun h => absurd h.1 (by decide)
        rw [if_neg hvalue]
        rcases d.setContent_cases id (value.text d.label) with ⟨trees, hsome, hok⟩ | ⟨hnone, herror⟩
        · rw [hsome]
          exact .inl ⟨_, _, hok, rfl, edited_replaceChildren hid trees⟩
        · rw [hnone]
          exact .inr ⟨rfl, herror⟩
      · split
        · rename_i htext
          have hvalue : ¬ (property = "value" ∧ d.tag id ≠ "textarea") := by
            rintro ⟨rfl, -⟩
            exact absurd htext (by decide)
          rw [if_neg hvalue]
          exact .inl ⟨_, _, rfl, rfl, edited_replaceChildren hid _⟩
        · by_cases hvalue : property = "value"
          · subst hvalue
            rw [if_pos (beq_self_eq_true "value"), beq_self_eq_true, Bool.true_and]
            by_cases harea : d.tag id = "textarea"
            · have hnot : ¬ ("value" = "value" ∧ d.tag id ≠ "textarea") := fun h => h.2 harea
              rw [if_neg hnot, beq_iff_eq.mpr harea]
              exact .inl ⟨d.setText id _, _, rfl, rfl, edited_replaceChildren hid _⟩
            · have hplain : "value" = "value" ∧ d.tag id ≠ "textarea" := ⟨rfl, harea⟩
              rw [if_pos hplain, beq_eq_false_iff_ne.mpr harea]
              exact .inl ⟨d.setAttr id "value" _, _, rfl, rfl, edited_setAttr hid _ _⟩
          · have hne : (property == "value") = false := beq_eq_false_iff_ne.mpr hvalue
            have hnot : ¬ (property = "value" ∧ d.tag id ≠ "textarea") := fun h => hvalue h.1
            rw [hne, if_neg hnot]
            exact .inr ⟨rfl, _, rfl⟩

/-! ## Turns -/

namespace Comes

variable {d d' : Document} {id : NodeId} {o : Option Edit}

theorem size (h : d.Comes id o d') : d.nodes.size ≤ d'.nodes.size := by
  cases o with
  | none => exact Nat.le_of_eq (congrArg (·.nodes.size) h.symm)
  | some e => exact Edited.size h

theorem others (h : d.Comes id o d') {other : NodeId} (hold : other.index < d.nodes.size)
    (hne : other ≠ id) : d'.node? other = d.node? other := by
  cases o with
  | none => exact congrArg (·.node? other) h
  | some e => exact Edited.others h other hold hne

/-- Elements stay elements. -/
theorem isElement (h : d.Comes id o d') {other : NodeId} (helement : d.isElement other = true) :
    d'.isElement other = true := by
  obtain ⟨node, hnode, -⟩ := holds_of_isElement helement
  rw [isElement_eq_isSome] at helement ⊢
  by_cases hother : other = id
  · subst hother
    cases o with
    | none => exact (congrArg (·.tag? other) h) ▸ helement
    | some e => exact (Edited.tag h) ▸ helement
  · have hsame : d'.node? other = d.node? other :=
      h.others (Array.getElem?_eq_some_iff.mp hnode).1 hother
    unfold tag? at helement ⊢
    rw [hsame]
    exact helement

end Comes

/-- One element after the other has its turn, on the page as the turns before have left it. -/
inductive Turns (edit? : Document → NodeId → Option Edit) :
    Document → List NodeId → Document → Prop
  | done (d : Document) : Turns edit? d [] d
  | turn {d d' d'' : Document} {id : NodeId} {rest : List NodeId}
      (hturn : d.Comes id (edit? d id) d') (hrest : Turns edit? d' rest d'') :
      Turns edit? d (id :: rest) d''

namespace Turns

variable {edit? : Document → NodeId → Option Edit} {d d' : Document} {ids : List NodeId}

theorem eq_of_nil (h : Turns edit? d [] d') : d' = d := by
  cases h
  rfl

theorem size (h : Turns edit? d ids d') : d.nodes.size ≤ d'.nodes.size := by
  induction h with
  | done d => exact Nat.le_refl _
  | turn hturn _ ih => exact Nat.le_trans hturn.size ih

/-- **Turns leave all other nodes alone.** -/
theorem others (h : Turns edit? d ids d') {other : NodeId} (hold : other.index < d.nodes.size)
    (hnot : other ∉ ids) : d'.node? other = d.node? other := by
  induction h with
  | done d => rfl
  | turn hturn _ ih =>
      obtain ⟨hne, hrest⟩ := not_or.mp (mt List.mem_cons.mpr hnot)
      rw [ih (Nat.lt_of_lt_of_le hold hturn.size) hrest]
      exact hturn.others hold hne

/-- A way down that passes none of the elements is still there after their turns. -/
theorem way_down (h : Turns edit? d ids d') {start j : NodeId} (hbelow : d.Below start j)
    (hclear : ∀ id ∈ ids, ¬ d.Below id j) : d'.Below start j := by
  -- on the way down: each node on it has the end of the way below it, so it is none of them
  induction hbelow with
  | refl => exact .refl _
  | @inside outer inner j hin hrest ih =>
      have hnot : outer ∉ ids := fun hmem => hclear outer hmem (.inside hin hrest)
      have hold : outer.index < d.nodes.size := by
        unfold Document.inside at hin
        split at hin
        · rename_i hnode
          exact (Array.getElem?_eq_some_iff.mp hnode).1
        · exact absurd hin List.not_mem_nil
      have hsame : d'.inside outer = d.inside outer := by
        unfold Document.inside
        rw [h.others hold hnot]
      exact .inside (hsame ▸ hin) (ih hclear)

theorem append {before after : List NodeId} (h : Turns edit? d (before ++ after) d') :
    ∃ d₁, Turns edit? d before d₁ ∧ Turns edit? d₁ after d' := by
  induction before generalizing d with
  | nil => exact ⟨d, .done d, h⟩
  | cons id before ih =>
      cases h with
      | turn hturn hrest =>
          obtain ⟨d₁, hbefore, hafter⟩ := ih hrest
          exact ⟨d₁, .turn hturn hbefore, hafter⟩

/-- **What becomes of an element that has one turn is what that turn makes of it.** -/
theorem once {before after : List NodeId} {id : NodeId}
    (h : Turns edit? d (before ++ id :: after) d') (hid : id.index < d.nodes.size)
    (hbefore : id ∉ before) (hafter : id ∉ after) :
    ∃ d₁ d₂ : Document, d₁.node? id = d.node? id ∧ d₁.Comes id (edit? d₁ id) d₂ ∧
      d'.node? id = d₂.node? id := by
  obtain ⟨d₁, hfirst, hrest⟩ := h.append
  cases hrest with
  | @turn _ d₂ _ _ _ hturn hlast =>
      have hid₂ : id.index < d₂.nodes.size :=
        Nat.lt_of_lt_of_le hid (Nat.le_trans hfirst.size hturn.size)
      exact ⟨d₁, d₂, hfirst.others hid hbefore, hturn, hlast.others hid₂ hafter⟩

end Turns

end Document

/-! ## Segments -/

/-- The elements that a segment writes to, as they are found at its start; nothing if it is no
write. Where an index expression selects a position outside of the matches, the program ends and no
element is written. -/
def Segment.targets? (d : Document) : Segment → Option (List NodeId)
  | .attrWrite target _ _ => some (Selector.named d target)
  | .indexedWrite target index _ _ => some ((Selector.resolve d target index).getD [])
  | .propWrite target _ _ => some (Selector.named d target)
  | .contentSet id _ => some (d.elementById? id).toList
  | _ => none

theorem Segment.isElement_of_targets? {d : Document} {segment : Segment} {targets : List NodeId}
    (h : segment.targets? d = some targets) : ∀ id ∈ targets, d.isElement id = true := by
  intro id hid
  cases segment with
  | attrWrite | propWrite =>
      obtain rfl := Option.some.inj h
      exact Selector.isElement_of_named hid
  | indexedWrite target index =>
      obtain rfl := Option.some.inj h
      cases hfound : Selector.resolve d target index with
      | none =>
          rw [hfound] at hid
          exact absurd hid List.not_mem_nil
      | some nodes =>
          rw [hfound] at hid
          exact Selector.isElement_of_resolve hfound hid
  | contentSet =>
      obtain rfl := Option.some.inj h
      exact Document.isElement_of_elementById? (Option.mem_toList.mp hid)
  | shellOpen | shellClose | propRead | literalAssign | nopStore | verbCall => cases h

namespace Execution

open Document

variable {w : World} {element : NodeId}

theorem putAttr_comes (hid : w.document.isElement element = true) (attr : String)
    (value : Option String) :
    w.document.Comes element (some (.attribute attr value))
      (putAttr attr value w element).document := by
  cases value with
  | none => exact edited_removeAttr hid attr
  | some value => exact edited_setAttr hid attr value

theorem putContent_comes (x : Execution) (hid : w.document.isElement element = true)
    (markup : String) :
    w.document.Comes element ((w.document.fragment? element markup).map .content)
      (x.putContent markup w element).document := by
  unfold putContent
  rcases w.document.setContent_cases element markup with ⟨trees, hsome, hok⟩ | ⟨hnone, e, herror⟩
  · rw [hsome, hok]
    exact edited_replaceChildren hid trees
  · rw [hnone, herror]
    rfl

/-- **What a property write does to the page is the edit that it comes to.** -/
theorem putProperty_comes (x : Execution) (hid : w.document.isElement element = true)
    (property value : String) :
    w.document.Comes element (w.document.propertyEdit? element property value)
      (x.putProperty property value w element).document := by
  unfold putProperty propertyEdit?
  by_cases hcontent : property = "text" ∨ property = "style"
  · have hview : (property == "text" || property == "style") = true := by
      rw [Bool.or_eq_true, beq_iff_eq, beq_iff_eq]
      exact hcontent
    rw [if_pos hview, if_pos hcontent]
    exact putContent_comes x hid value
  · have hview : ¬ (property == "text" || property == "style") = true := by
      rw [Bool.or_eq_true, beq_iff_eq, beq_iff_eq]
      exact hcontent
    rw [if_neg hview, if_neg hcontent]
    by_cases hstyle : Style.isKnown property = true
    · obtain ⟨d', hok, hedited⟩ := setStyle_comes hid hstyle value
      rw [if_pos hstyle, hok]
      exact hedited
    · have herror : w.document.setStyle element property value = .error (.unknownStyle property) :=
        if_neg hstyle
      rw [if_neg hstyle, herror]
      dsimp only
      rcases setProperty_comes hid property (.parse value) with
        ⟨d', e, hok, hsome, hedited⟩ | ⟨hnone, e, herror⟩
      · rw [hok, hsome]
        exact hedited
      · -- no such property, or one that refuses the value: an attribute in the end
        rw [hnone, herror]
        exact edited_setAttr hid property value

/-- The value that an attribute write sets; none if it is one reference to an unset variable. -/
def attrText? (x : Execution) (w : World) (rhs : String) : Option String :=
  let name := String.ofList rhs.toList.tail
  if rhs.toList.head? = some '!' ∧ Segment.isIdent name ∧ !(x.vars w).has name then none
  else some (x.resolve w rhs)

/-- The edit that a segment makes of an element, on the page as it is when the turn comes. What is
written has been worked out at the start. -/
def edit? (x : Execution) (w : World) (segment : Segment) (d : Document) (element : NodeId) :
    Option Edit :=
  match segment with
  | .attrWrite _ attr rhs => some (.attribute attr (x.attrText? w rhs))
  | .indexedWrite _ _ property rhs => d.propertyEdit? element property (x.resolve w rhs)
  | .propWrite _ property rhs => d.propertyEdit? element property (x.resolve w rhs)
  | .contentSet _ rhs => (d.fragment? element (x.shown w rhs)).map .content
  | _ => none

/-- A loop over elements gives each its turn. -/
theorem turns_foldl {put : World → NodeId → World} {edit? : Document → NodeId → Option Edit}
    (hput : ∀ (w : World) (element : NodeId), w.document.isElement element = true →
      w.document.Comes element (edit? w.document element) (put w element).document)
    (elements : List NodeId) (w : World)
    (helements : ∀ element ∈ elements, w.document.isElement element = true) :
    Turns edit? w.document elements (elements.foldl put w).document := by
  induction elements generalizing w with
  | nil => exact .done _
  | cons element rest ih =>
      obtain ⟨helement, hrest⟩ := List.forall_mem_cons.mp helements
      have hcomes := hput w element helement
      exact .turn hcomes (ih _ fun j hj => hcomes.isElement (hrest j hj))

theorem turns_putProperties (x : Execution) (w : World) (property value : String)
    {elements : List NodeId} (helements : ∀ id ∈ elements, w.document.isElement id = true) :
    Turns (fun d element => d.propertyEdit? element property value) w.document elements
      (elements.foldl (x.putProperty property value) w).document :=
  turns_foldl (fun _ _ h => x.putProperty_comes h property value) elements w helements

theorem turns_writeAttr (x : Execution) (w : World) (target attr rhs : String) :
    Turns (fun _ _ => some (.attribute attr (x.attrText? w rhs))) w.document
      (Selector.named w.document target) (x.writeAttr w target attr rhs).1.document := by
  have hturns : ∀ (value : Option String) (w' : World), w'.document = w.document →
      Turns (fun _ _ => some (.attribute attr value)) w.document
        (Selector.named w.document target)
        ((Selector.named w.document target).foldl (putAttr attr value) w').document := by
    intro value w' hsame
    rw [← hsame]
    exact turns_foldl (fun _ _ h => putAttr_comes h attr value) _ w'
      fun _ => Selector.isElement_of_named
  have hlogged : (if (Selector.named w.document target).isEmpty then
      x.miss w "selector matched no elements" [("selector", .text target), ("error", noMatch)]
    else w).document = w.document := by
    split <;> rfl
  unfold writeAttr
  dsimp only
  split
  · rename_i name hname
    have hvalue : x.attrText? w rhs =
        if Segment.isIdent (String.ofList name) && !(x.vars w).has (String.ofList name) then none
        else some (x.resolve w rhs) := by
      unfold attrText?
      rw [hname, List.head?_cons, List.tail_cons]
      refine if_congr ?_ rfl rfl
      rw [Bool.and_eq_true]
      exact and_iff_right rfl
    rw [hvalue]
    exact hturns _ _ hlogged
  · rename_i hother
    have hvalue : x.attrText? w rhs = some (x.resolve w rhs) := by
      unfold attrText?
      refine if_neg fun h => ?_
      obtain ⟨name, hname⟩ := List.head?_eq_some_iff.mp h.1
      exact hother name hname
    rw [hvalue]
    exact hturns _ _ hlogged

/-- **A segment that writes gives each of its targets one turn.** -/
theorem turns_step (x : Execution) (w : World) {segment : String} {parsed : Segment}
    {targets : List NodeId} (hread : Segment.ofScript? segment = some parsed)
    (htargets : parsed.targets? w.document = some targets) :
    Turns (x.edit? w parsed) w.document targets (x.step w segment).1.document := by
  have helements := Segment.isElement_of_targets? htargets
  unfold step
  rw [hread]
  cases parsed with
  | shellOpen | shellClose | propRead | literalAssign | nopStore | verbCall => cases htargets
  | attrWrite target attr rhs =>
      obtain rfl := Option.some.inj htargets
      exact turns_writeAttr x w target attr rhs
  | indexedWrite target index property rhs =>
      obtain rfl := Option.some.inj htargets
      have hturns := turns_putProperties x w property (x.resolve w rhs) helements
      -- where nothing is found, that is logged and nothing is written
      show Turns _ _ _ (x.writeIndexed w target index property rhs).1.document
      unfold writeIndexed
      dsimp only
      generalize Selector.resolve w.document target index = found at hturns ⊢
      cases found with
      | none => exact hturns
      | some elements =>
          cases elements with
          | nil => exact hturns
          | cons element rest => exact hturns
  | propWrite target property rhs =>
      obtain rfl := Option.some.inj htargets
      have hturns := turns_putProperties x w property (x.resolve w rhs) helements
      show Turns _ _ _ (x.writeProp w target property rhs).1.document
      unfold writeProp
      dsimp only
      generalize Selector.named w.document target = elements at hturns ⊢
      cases elements with
      | nil => exact hturns
      | cons element rest => exact hturns
  | contentSet id rhs =>
      obtain rfl := Option.some.inj htargets
      show Turns _ _ _ (x.setContent w id rhs).1.document
      unfold setContent
      cases hfound : w.document.elementById? id with
      | none => exact .done _
      | some element =>
          have helement := Document.isElement_of_elementById? hfound
          exact .turn (x.putContent_comes helement (x.shown w rhs)) (.done _)

/-- **An element write touches its targets only.** Without a target the page stays as it is. Every
element that is none of the targets stays the node it is, and is still attached unless it was below
one. Each target has its turn, and one that has a single turn differs in the end from what it was by
the edit of that turn: in one place, or not at all if new content is refused. -/
theorem writes_touch_targets_only (x : Execution) (w : World) {segment : String} {parsed : Segment}
    {targets : List NodeId} (hread : Segment.ofScript? segment = some parsed)
    (htargets : parsed.targets? w.document = some targets) :
    let d := w.document
    let d' := (x.step w segment).1.document
    (targets = [] → d' = d) ∧
    (∀ id, d.isElement id = true → id ∉ targets → d'.node? id = d.node? id) ∧
    (∀ id, d.Attached id → (∀ target ∈ targets, ¬ d.Below target id) → d'.Attached id) ∧
    Turns (x.edit? w parsed) d targets d' ∧
    ∀ before id after, targets = before ++ id :: after → id ∉ before → id ∉ after →
      ∃ d₁ d₂ : Document, d₁.node? id = d.node? id ∧ d'.node? id = d₂.node? id ∧
        d₁.Comes id (x.edit? w parsed d₁ id) d₂ ∧
        (x.edit? w parsed d₁ id = none → d'.node? id = d.node? id) := by
  intro d d'
  have hturns : Turns (x.edit? w parsed) d targets d' := turns_step x w hread htargets
  have helements : ∀ id ∈ targets, d.isElement id = true := Segment.isElement_of_targets? htargets
  have hlt : ∀ id, d.isElement id = true → id.index < d.nodes.size := by
    intro id hid
    obtain ⟨node, hnode, -⟩ := holds_of_isElement hid
    exact (Array.getElem?_eq_some_iff.mp hnode).1
  refine ⟨?_, fun id hid hnot => hturns.others (hlt id hid) hnot,
    fun id hattached hclear => hturns.way_down hattached hclear, hturns, ?_⟩
  · intro hnone
    rw [hnone] at hturns
    exact hturns.eq_of_nil
  · intro before id after hsplit hbefore hafter
    have hmem : id ∈ targets := hsplit ▸ List.mem_append_right _ List.mem_cons_self
    rw [hsplit] at hturns
    obtain ⟨d₁, d₂, hfirst, hcomes, hlast⟩ :=
      hturns.once (hlt id (helements id hmem)) hbefore hafter
    refine ⟨d₁, d₂, hfirst, hlast, hcomes, fun hnone => ?_⟩
    rw [hnone] at hcomes
    obtain rfl : d₂ = d₁ := hcomes
    exact hlast.trans hfirst

/-- Of two matches one stands inside the other: the write of the outer one detaches the inner one.
A third element does not change. -/
def nestedMatches : Document :=
  { nodes := #[⟨.document, [⟨1⟩, ⟨3⟩]⟩, ⟨.element "div" "" [⟨"", "class", "t"⟩], [⟨2⟩]⟩,
    ⟨.element "p" "" [⟨"", "class", "t"⟩], []⟩, ⟨.element "p" "" [⟨"", "title", "kept"⟩], []⟩] }

theorem nested_matches_are_written :
    ∃ (x : Execution) (w : World), w.document = nestedMatches ∧
      Segment.ofScript? ".t.text:new" = some (.propWrite ".t" "text" "new") ∧
      Selector.named w.document ".t" = [⟨1⟩, ⟨2⟩] ∧
      (x.step w ".t.text:new").1.document.node? ⟨3⟩ =
        some ⟨.element "p" "" [⟨"", "title", "kept"⟩], []⟩ ∧
      (x.step w ".t.text:new").1.document.Attached ⟨3⟩ := by
  have hread : Segment.ofScript? ".t.text:new" = some (.propWrite ".t" "text" "new") := by
    decide +kernel
  have hnamed : Selector.named nestedMatches ".t" = [⟨1⟩, ⟨2⟩] := by decide +kernel
  have hnode : nestedMatches.node? ⟨3⟩ =
      some ⟨.element "p" "" [⟨"", "title", "kept"⟩], []⟩ := rfl
  have helement : nestedMatches.isElement ⟨3⟩ = true := rfl
  have hroot : nestedMatches.inside root = [⟨1⟩, ⟨3⟩] := rfl
  have houter : nestedMatches.inside ⟨1⟩ = [⟨2⟩] := rfl
  have hinner : nestedMatches.inside ⟨2⟩ = [] := rfl
  generalize nestedMatches = page at *
  have hattached : page.Attached ⟨3⟩ :=
    below_iff.mpr (.inr ⟨⟨3⟩, by simp [hroot], .refl _⟩)
  have hnotInner : ¬ page.Below ⟨2⟩ ⟨3⟩ := by
    rw [below_iff, hinner]
    rintro (h | ⟨inner, hin, -⟩)
    · exact absurd h (by decide)
    · exact absurd hin List.not_mem_nil
  have hnotOuter : ¬ page.Below ⟨1⟩ ⟨3⟩ := by
    rw [below_iff, houter]
    rintro (h | ⟨inner, hin, hbelow⟩)
    · exact absurd h (by decide)
    · exact hnotInner (List.mem_singleton.mp hin ▸ hbelow)
  have hclear : ∀ target ∈ [⟨1⟩, ⟨2⟩], ¬ page.Below target ⟨3⟩ :=
    List.forall_mem_cons.mpr ⟨hnotOuter, List.forall_mem_singleton.mpr hnotInner⟩
  have htargets : (Segment.propWrite ".t" "text" "new").targets? page = some [⟨1⟩, ⟨2⟩] :=
    congrArg some hnamed
  let x : Execution := { entry := 0, key := "k", trigger := ⟨1⟩, segments := [] }
  let w : World := { document := page }
  obtain ⟨-, hothers, hstays, -⟩ :=
    writes_touch_targets_only x w hread htargets
  refine ⟨x, w, rfl, hread, hnamed, ?_, hstays ⟨3⟩ hattached hclear⟩
  exact (hothers ⟨3⟩ helement (by decide)).trans hnode

end Execution

end PageMacro
