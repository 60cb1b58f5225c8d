import PageMacro.Element

/-!
# When a page can be written

Writing stops at an element that has no content and yet has some. That is all that is asked of the
library that writes the page (`Html.Library.Lawful`), and the standard one complies
(`Html.Library.lawful_standard`); how it reads markup does not matter. What the writer meets is the
tree under the root, up to a depth that the length of the table gives. `printable_iff` says it
without trees and depths: a page can be written if and only if every such element that is attached to
it is empty.

That the depth is enough rests on `Sound`: nodes can be ranked so that what stands inside a node has
a smaller rank, and no rank exceeds the length of the table. New content comes with new nodes, and
there are as many new ranks as new nodes: the new nodes take the smallest ones, and all others move
up.

`printable_replaceChildren` is about one change of content. Of all nodes it touches the one whose
content is replaced and the new ones, so if the page was printable before, it is printable after
unless that node is attached and one of them is at fault. Attributes do not matter (`SameShape`).
-/

namespace PageMacro

namespace Html

/-! ## Trees -/

mutual

/-- Whether all elements in a tree that have no content are empty. -/
def Markup.writable : Markup → Bool
  | .element tag _ _ children =>
    if voidTags.contains tag then children.isEmpty else allWritable children
  | .doctype .. => true
  | .text _ => true
  | .comment _ => true

/-- Whether all trees can be written. -/
def allWritable : List Markup → Bool
  | [] => true
  | m :: rest => m.writable && allWritable rest

end

@[simp] theorem complete_plain (s : String) : (Written.plain s).complete = true := rfl

theorem complete_andThen (a b : Written) :
    (a.andThen b).complete = (a.complete && b.complete) := by
  unfold Written.andThen
  split
  · rename_i h
    rw [h]
    rfl
  · rename_i h
    rw [Bool.eq_false_iff.mpr h]
    rfl

mutual

/-- **The writer stops exactly at what is not writable.** -/
theorem complete_write (literal : Bool) (m : Markup) :
    (m.write literal).complete = m.writable := by
  cases m with
  | doctype | text | comment => simp [Markup.write, Markup.writable]
  | element tag space attrs children =>
      unfold Markup.write Markup.writable
      split
      · cases children <;> rfl
      · rw [complete_andThen, complete_andThen, complete_writeAll]
        simp

theorem complete_writeAll (literal : Bool) (ms : List Markup) :
    (writeAll literal ms).complete = allWritable ms := by
  cases ms with
  | nil => rfl
  | cons m rest =>
      unfold writeAll allWritable
      rw [complete_andThen, complete_write, complete_writeAll]

end

/-- A library stops writing exactly at an element that has no content and yet has some. -/
structure Library.Lawful (html : Library) : Prop where
  complete_write : ∀ m : Markup, (html.write m).complete = m.writable

theorem Library.lawful_standard : standard.Lawful := ⟨complete_write false⟩

theorem Library.Lawful.complete_writeAll {html : Library} (h : html.Lawful) (ms : List Markup) :
    (html.writeAll ms).complete = allWritable ms := by
  induction ms with
  | nil => rfl
  | cons m rest ih =>
      unfold writeAll allWritable
      rw [complete_andThen, h.complete_write, ih]

theorem allWritable_append (ms more : List Markup) :
    allWritable (ms ++ more) = (allWritable ms && allWritable more) := by
  induction ms with
  | nil => rfl
  | cons m rest ih => rw [List.cons_append, allWritable, allWritable, ih, Bool.and_assoc]

theorem allWritable_flatMap {α : Type} (f : α → List Markup) (l : List α) :
    allWritable (l.flatMap f) = true ↔ ∀ a ∈ l, allWritable (f a) = true := by
  induction l with
  | nil => simp [allWritable]
  | cons a l ih =>
      rw [List.flatMap_cons, allWritable_append, Bool.and_eq_true, ih, List.forall_mem_cons]

end Html

/-- Whether a node can have others inside it. -/
def Content.holds : Content → Bool
  | .document => true
  | .element .. => true
  | .doctype .. => false
  | .text _ => false
  | .comment _ => false

/-- The tag of an element; nothing else has one. -/
def Content.tag? : Content → Option String
  | .element tag _ _ => some tag
  | _ => none

namespace Document

open Html

/-! ## What is attached to a page -/

/-- The nodes directly inside a node that can have some. -/
def inside (d : Document) (id : NodeId) : List NodeId :=
  match d.node? id with
  | some node => if node.content.holds then node.children else []
  | none => []

/-- The tag of a node if it is an element. -/
def tag? (d : Document) (id : NodeId) : Option String :=
  ((d.node? id).map (·.content)).bind Content.tag?

theorem tag_eq_getD (d : Document) (id : NodeId) : d.tag id = (d.tag? id).getD "" := by
  unfold tag tag?
  rcases d.node? id with - | ⟨content, children⟩
  · rfl
  · cases content <;> rfl

theorem isElement_eq_isSome (d : Document) (id : NodeId) : d.isElement id = (d.tag? id).isSome := by
  unfold isElement tag?
  rcases d.node? id with - | ⟨content, children⟩
  · rfl
  · cases content <;> rfl

/-- From a node down to another one. -/
inductive Below (d : Document) : NodeId → NodeId → Prop
  | refl (id : NodeId) : Below d id id
  | inside {outer inner id : NodeId} (hin : inner ∈ d.inside outer) (rest : Below d inner id) :
      Below d outer id

/-- A node is part of the page. -/
def Attached (d : Document) (id : NodeId) : Prop := d.Below root id

/-- A node is empty if it is an element that has no content. -/
def Fits (d : Document) (id : NodeId) : Prop := d.tag id ∈ voidTags → d.inside id = []

/-- The page can be written. -/
def Printable (d : Document) : Prop := d.render?.isSome

/-- What stands inside a node has a smaller rank. -/
structure Ranked (d : Document) (rank : NodeId → Nat) : Prop where
  root : ∃ children, d.node? root = some ⟨.document, children⟩
  /-- It exists, and is no page of its own. -/
  exist : ∀ {outer id : NodeId}, id ∈ d.inside outer →
    ∃ node, d.node? id = some node ∧ node.content ≠ .document
  smaller : ∀ {outer id : NodeId}, id ∈ d.inside outer → rank id < rank outer
  bound : ∀ {id : NodeId}, id.index < d.nodes.size → rank id ≤ d.nodes.size

/-- The nodes of a document make a tree under the root, and its library writes as it should. -/
structure Sound (d : Document) : Prop where
  ranked : ∃ rank, d.Ranked rank
  html : d.html.Lawful

section Tree

variable {d : Document} {rank : NodeId → Nat}

theorem below_iff {outer id : NodeId} :
    d.Below outer id ↔ id = outer ∨ ∃ inner ∈ d.inside outer, d.Below inner id := by
  constructor
  · intro h
    cases h with
    | refl => exact .inl rfl
    | inside hin rest => exact .inr ⟨_, hin, rest⟩
  · rintro (rfl | ⟨inner, hin, rest⟩)
    · exact .refl _
    · exact .inside hin rest

theorem Below.trans {a b c : NodeId} (h : d.Below a b) (h' : d.Below b c) : d.Below a c := by
  induction h with
  | refl => exact h'
  | inside hin _ ih => exact .inside hin (ih h')

/-- All nodes below a node fit if it fits and all nodes below those inside it do. -/
theorem forall_below_iff {outer : NodeId} :
    (∀ id, d.Below outer id → d.Fits id) ↔
      d.Fits outer ∧ ∀ inner ∈ d.inside outer, ∀ id, d.Below inner id → d.Fits id := by
  constructor
  · exact fun h => ⟨h _ (.refl _), fun inner hin id hid => h id (.inside hin hid)⟩
  · rintro ⟨hfits, hinside⟩ id hid
    rcases below_iff.mp hid with rfl | ⟨inner, hin, hbelow⟩
    · exact hfits
    · exact hinside inner hin id hbelow

/-- The tree of a node that exists is not empty. -/
theorem tree_ne_nil {id : NodeId} {node : Node} (h : d.node? id = some node)
    (hcontent : node.content ≠ .document) (depth : Nat) : d.tree (depth + 1) id ≠ [] := by
  obtain ⟨content, children⟩ := node
  unfold tree
  rw [h]
  cases content with
  | document => exact absurd rfl hcontent
  | doctype | element | text | comment => simp

/-- A node is written with nothing inside it, as what is inside it, or as an element around that. -/
theorem tree_succ_cases (d : Document) (depth : Nat) (id : NodeId) :
    (d.inside id = [] ∧ allWritable (d.tree (depth + 1) id) = true) ∨
    (d.tag id = "" ∧ d.tree (depth + 1) id = (d.inside id).flatMap (d.tree depth)) ∨
    ∃ space attrs, d.tree (depth + 1) id =
      [.element (d.tag id) space attrs ((d.inside id).flatMap (d.tree depth))] := by
  rw [tree]
  unfold inside tag
  cases d.node? id with
  | none => exact .inl ⟨rfl, rfl⟩
  | some node =>
      obtain ⟨content, children⟩ := node
      cases content with
      | document => exact .inr (.inl ⟨rfl, rfl⟩)
      | element tag space attrs => exact .inr (.inr ⟨space, attrs, rfl⟩)
      | doctype | text | comment => exact .inl ⟨rfl, rfl⟩

/-- What is inside a node is written as nothing only if there is nothing. -/
theorem flatMap_tree_eq_nil_iff (hr : d.Ranked rank) {depth : Nat} {outer : NodeId}
    (hrank : ∀ inner ∈ d.inside outer, rank inner < depth) :
    (d.inside outer).flatMap (d.tree depth) = [] ↔ d.inside outer = [] := by
  constructor
  · intro h
    refine List.eq_nil_iff_forall_not_mem.mpr fun inner hin => ?_
    obtain ⟨node, hnode, hcontent⟩ := hr.exist hin
    obtain ⟨n, rfl⟩ := Nat.exists_eq_add_one_of_ne_zero (Nat.ne_zero_of_lt (hrank inner hin))
    exact tree_ne_nil hnode hcontent n (List.flatMap_eq_nil_iff.mp h inner hin)
  · intro h
    rw [h]
    rfl

/-- **The tree under a node is writable if and only if all nodes below it fit.** -/
theorem allWritable_tree (hr : d.Ranked rank) :
    ∀ {depth : Nat} {id : NodeId}, rank id < depth →
      (allWritable (d.tree depth id) = true ↔ ∀ j, d.Below id j → d.Fits j) := by
  -- on the depth to which the tree is read: the rank says that it suffices
  intro depth
  induction depth with
  | zero => exact fun h => absurd h (Nat.not_lt_zero _)
  | succ depth ih =>
      intro id hid
      have hrank : ∀ inner ∈ d.inside id, rank inner < depth := fun inner hin =>
        Nat.lt_of_lt_of_le (hr.smaller hin) (Nat.le_of_lt_succ hid)
      have hinner : allWritable ((d.inside id).flatMap (d.tree depth)) = true ↔
          ∀ inner ∈ d.inside id, ∀ j, d.Below inner j → d.Fits j := by
        rw [allWritable_flatMap]
        exact forall₂_congr fun inner hin => ih (hrank inner hin)
      rw [forall_below_iff]
      rcases tree_succ_cases d depth id with
        ⟨hempty, hwritable⟩ | ⟨htag, htree⟩ | ⟨space, attrs, htree⟩
      · rw [hempty]
        exact iff_of_true hwritable ⟨fun _ => hempty, fun inner h => absurd h List.not_mem_nil⟩
      · rw [htree, hinner]
        refine ⟨fun h => ⟨fun hvoid => ?_, h⟩, fun h => h.2⟩
        rw [htag] at hvoid
        exact absurd hvoid (by decide)
      · rw [htree, allWritable, allWritable, Bool.and_true, Markup.writable]
        split
        · -- an element that has no content: what is inside it must be nothing
          rename_i hvoid
          rw [List.isEmpty_iff, flatMap_tree_eq_nil_iff hr hrank]
          constructor
          · intro hempty
            rw [hempty]
            exact ⟨fun _ => hempty, fun inner h => absurd h List.not_mem_nil⟩
          · exact fun h => h.1 (List.contains_iff_mem.mp hvoid)
        · rename_i hvoid
          rw [hinner]
          exact ⟨fun h => ⟨fun hv => absurd (List.contains_iff_mem.mpr hv) hvoid, h⟩, fun h => h.2⟩

/-- **A page is printable if and only if everything attached to it fits.** -/
theorem printable_iff (h : d.Sound) : d.Printable ↔ ∀ id, d.Attached id → d.Fits id := by
  obtain ⟨⟨rank, hr⟩, hhtml⟩ := h
  obtain ⟨children, hroot⟩ := hr.root
  have hin : (root : NodeId).index < d.nodes.size := (Array.getElem?_eq_some_iff.mp hroot).1
  have hcomplete : d.written.complete = allWritable (d.tree d.depth root) :=
    hhtml.complete_writeAll _
  have hprint : d.Printable ↔ d.written.complete = true := by
    unfold Printable render? Written.whole?
    split <;> simp_all
  rw [hprint, hcomplete]
  exact allWritable_tree hr (Nat.lt_succ_of_le (hr.bound hin))

end Tree

/-! ## New nodes -/

/-- New nodes are added at the end, each after those inside it; `ids` are some of them. -/
structure Adds (d d' : Document) (ids : List NodeId) : Prop where
  size : d.nodes.size ≤ d'.nodes.size
  old : ∀ i, i < d.nodes.size → d'.nodes[i]? = d.nodes[i]?
  ids : ∀ id ∈ ids, d.nodes.size ≤ id.index ∧ id.index < d'.nodes.size
  new : ∀ {i : Nat} {node : Node}, d.nodes.size ≤ i → d'.nodes[i]? = some node →
    node.content ≠ .document ∧ ∀ c ∈ node.children, d.nodes.size ≤ c.index ∧ c.index < i

namespace Adds

variable {d d' d'' : Document} {ids more : List NodeId}

theorem refl (d : Document) : d.Adds d [] where
  size := Nat.le_refl _
  old := fun _ _ => rfl
  ids := fun _ h => absurd h List.not_mem_nil
  new := fun hi h => absurd (Array.getElem?_eq_some_iff.mp h).1 (Nat.not_lt.mpr hi)

theorem trans (h : d.Adds d' ids) (h' : d'.Adds d'' more) : d.Adds d'' (ids ++ more) where
  size := Nat.le_trans h.size h'.size
  old := fun i hi => (h'.old i (Nat.lt_of_lt_of_le hi h.size)).trans (h.old i hi)
  ids := fun id hid => by
    rcases List.mem_append.mp hid with hid | hid
    · exact ⟨(h.ids id hid).1, Nat.lt_of_lt_of_le (h.ids id hid).2 h'.size⟩
    · exact ⟨Nat.le_trans h.size (h'.ids id hid).1, (h'.ids id hid).2⟩
  new := fun {i node} hi hnode => by
    by_cases hlt : i < d'.nodes.size
    · rw [h'.old i hlt] at hnode
      exact h.new hi hnode
    · obtain ⟨hcontent, hchildren⟩ := h'.new (Nat.le_of_not_lt hlt) hnode
      exact ⟨hcontent, fun c hc =>
        ⟨Nat.le_trans h.size (hchildren c hc).1, (hchildren c hc).2⟩⟩

/-- One more node, around those that have just been added. -/
theorem add (h : d.Adds d' ids) {node : Node} (hcontent : node.content ≠ .document)
    (hchildren : node.children = ids) : d.Adds (d'.add node).2 [(d'.add node).1] where
  size := by
    show _ ≤ (d'.nodes.push node).size
    rw [Array.size_push]
    exact Nat.le_succ_of_le h.size
  old := fun i hi => by
    have hlt : i < d'.nodes.size := Nat.lt_of_lt_of_le hi h.size
    show (d'.nodes.push node)[i]? = _
    rw [Array.getElem?_push_lt hlt, ← h.old i hi, Array.getElem?_eq_getElem hlt]
  ids := fun id hid => by
    rw [List.mem_singleton.mp hid]
    refine ⟨h.size, ?_⟩
    show d'.nodes.size < (d'.nodes.push node).size
    rw [Array.size_push]
    exact Nat.lt_succ_self _
  new := fun {i found} hi hfound => by
    have hpush : (d'.nodes.push node)[i]? = some found := hfound
    rw [Array.getElem?_push] at hpush
    split at hpush
    · rename_i heq
      obtain rfl := Option.some.inj hpush
      refine ⟨hcontent, fun c hc => ?_⟩
      rw [heq]
      exact h.ids c (hchildren ▸ hc)
    · exact h.new hi hpush

end Adds

mutual

theorem adds_insert (d : Document) (t : Markup) : d.Adds (d.insert t).2 [(d.insert t).1] := by
  cases t with
  | doctype | text | comment => exact (Adds.refl d).add (by simp) rfl
  | element tag space attrs children => exact (adds_insertAll d children).add (by simp) rfl

theorem adds_insertAll (d : Document) (ts : List Markup) :
    d.Adds (d.insertAll ts).2 (d.insertAll ts).1 := by
  cases ts with
  | nil => exact Adds.refl d
  | cons t rest => exact (adds_insert d t).trans (adds_insertAll (d.insert t).2 rest)

end

mutual

theorem html_insert (d : Document) (t : Markup) : (d.insert t).2.html = d.html := by
  cases t with
  | doctype | text | comment => rfl
  | element tag space attrs children => exact html_insertAll d children

theorem html_insertAll (d : Document) (ts : List Markup) : (d.insertAll ts).2.html = d.html := by
  cases ts with
  | nil => rfl
  | cons t rest => exact (html_insertAll (d.insert t).2 rest).trans (html_insert d t)

end

/-- A document has the nodes that another one has from `n` on. -/
def Shares (d d' : Document) (n : Nat) : Prop :=
  ∀ i, n ≤ i → i < d.nodes.size → d'.nodes[i]? = d.nodes[i]?

/-- The node that has been added last, where it has been added on top of `n` nodes. -/
theorem node?_add {d d' : Document} {node : Node} {n depth : Nat} (hn : n ≤ d.nodes.size)
    (hsame : Shares (d.add node).2 d' n) (hdepth : (d.add node).2.nodes.size ≤ n + depth) :
    d'.node? (d.add node).1 = some node ∧ Shares d d' n ∧
      ∃ inner, depth = inner + 1 ∧ d.nodes.size ≤ n + inner := by
  have hsize : (d.add node).2.nodes.size = d.nodes.size + 1 := Array.size_push ..
  refine ⟨?_, fun i hi hlt => ?_, ?_⟩
  · have hlast := hsame d.nodes.size hn (by rw [hsize]; exact Nat.lt_succ_self _)
    exact hlast.trans (Array.getElem?_push_size ..)
  · rw [hsame i hi (by rw [hsize]; exact Nat.lt_succ_of_lt hlt)]
    show (d.nodes.push node)[i]? = _
    rw [Array.getElem?_push_lt hlt, Array.getElem?_eq_getElem hlt]
  · rw [hsize] at hdepth
    exact ⟨depth - 1, by omega, by omega⟩

mutual

/-- **What has been added reads back**, in any document that has the new nodes. -/
theorem tree_insert {d d' : Document} {depth : Nat} (t : Markup)
    (hsame : Shares (d.insert t).2 d' d.nodes.size)
    (hdepth : (d.insert t).2.nodes.size ≤ d.nodes.size + depth) :
    d'.tree depth (d.insert t).1 = [t] := by
  cases t with
  | doctype | text | comment =>
      rw [insert] at hsame hdepth ⊢
      obtain ⟨hnode, -, inner, rfl, -⟩ := node?_add (Nat.le_refl _) hsame hdepth
      rw [tree, hnode]
  | element tag space attrs children =>
      rw [insert] at hsame hdepth ⊢
      obtain ⟨hnode, hinner, inner, rfl, hle⟩ :=
        node?_add (adds_insertAll d children).size hsame hdepth
      dsimp only at hnode ⊢
      rw [tree, hnode]
      dsimp only
      rw [tree_insertAll children hinner hle]

theorem tree_insertAll {d d' : Document} {depth : Nat} (ts : List Markup)
    (hsame : Shares (d.insertAll ts).2 d' d.nodes.size)
    (hdepth : (d.insertAll ts).2.nodes.size ≤ d.nodes.size + depth) :
    (d.insertAll ts).1.flatMap (d'.tree depth) = ts := by
  cases ts with
  | nil => rfl
  | cons t rest =>
      have hfirst := adds_insert d t
      have hrest := adds_insertAll (d.insert t).2 rest
      have hone : d'.tree depth (d.insert t).1 = [t] := by
        refine tree_insert t (fun i hi hlt => ?_) (Nat.le_trans hrest.size hdepth)
        rw [← hrest.old i hlt]
        exact hsame i hi (Nat.lt_of_lt_of_le hlt hrest.size)
      have hmore : ((d.insert t).2.insertAll rest).1.flatMap (d'.tree depth) = rest :=
        tree_insertAll rest (fun i hi => hsame i (Nat.le_trans hfirst.size hi))
          (Nat.le_trans hdepth (Nat.add_le_add_right hfirst.size depth))
      show ((d.insert t).1 :: ((d.insert t).2.insertAll rest).1).flatMap (d'.tree depth) = _
      rw [List.flatMap_cons, hone, hmore]
      rfl

end

/-! ## New content -/

section Replace

variable {d : Document} {id : NodeId} {rank : NodeId → Nat}

theorem node?_replaceChildren (hid : id.index < d.nodes.size) (trees : List Markup) (j : NodeId) :
    (d.replaceChildren id trees).node? j =
      if j = id then (d.node? id).map fun node => { node with children := (d.insertAll trees).1 }
      else (d.insertAll trees).2.node? j := by
  have hold := (adds_insertAll d trees).old id.index hid
  unfold replaceChildren node? modify
  dsimp only
  rw [Array.getElem?_modify]
  split
  · rename_i heq
    obtain rfl : id = j := congrArg NodeId.mk heq
    rw [if_pos rfl, hold]
  · rename_i hne
    rw [if_neg fun h => hne (congrArg NodeId.index h).symm]

theorem size_replaceChildren (trees : List Markup) :
    (d.replaceChildren id trees).nodes.size = (d.insertAll trees).2.nodes.size :=
  Array.size_modify ..

theorem html_replaceChildren (trees : List Markup) : (d.replaceChildren id trees).html = d.html :=
  html_insertAll d trees

theorem content_replaceChildren (hid : id.index < d.nodes.size) (trees : List Markup) {j : NodeId}
    (hj : j.index < d.nodes.size) :
    ((d.replaceChildren id trees).node? j).map (·.content) = (d.node? j).map (·.content) := by
  rw [node?_replaceChildren hid]
  split
  · rename_i heq
    rw [heq, Option.map_map]
    rfl
  · exact congrArg _ ((adds_insertAll d trees).old j.index hj)

theorem inside_congr {d d' : Document} {j : NodeId} (h : d'.node? j = d.node? j) :
    d'.inside j = d.inside j := by
  unfold inside
  rw [h]

theorem inside_replaceChildren_of_ne (hid : id.index < d.nodes.size) (trees : List Markup)
    {j : NodeId} (hj : j.index < d.nodes.size) (hne : j ≠ id) :
    (d.replaceChildren id trees).inside j = d.inside j := by
  refine inside_congr ?_
  rw [node?_replaceChildren hid, if_neg hne]
  exact (adds_insertAll d trees).old j.index hj

theorem inside_replaceChildren_self (trees : List Markup) {node : Node}
    (hnode : d.node? id = some node) (hholds : node.content.holds = true) :
    (d.replaceChildren id trees).inside id = (d.insertAll trees).1 := by
  have hid : id.index < d.nodes.size := (Array.getElem?_eq_some_iff.mp hnode).1
  unfold inside
  rw [node?_replaceChildren hid, if_pos rfl, hnode]
  exact if_pos hholds

/-- What is inside a new node is new, and comes before it. -/
theorem inside_replaceChildren_new (hid : id.index < d.nodes.size) (trees : List Markup)
    {j c : NodeId} (hj : d.nodes.size ≤ j.index) (hc : c ∈ (d.replaceChildren id trees).inside j) :
    d.nodes.size ≤ c.index ∧ c.index < j.index ∧
      j.index < (d.replaceChildren id trees).nodes.size := by
  have hne : j ≠ id := fun h => absurd hid (Nat.not_lt.mpr (h ▸ hj))
  unfold inside at hc
  rw [node?_replaceChildren hid, if_neg hne] at hc
  split at hc
  · rename_i node hnode
    split at hc
    · obtain ⟨-, hchildren⟩ := (adds_insertAll d trees).new hj hnode
      refine ⟨(hchildren c hc).1, (hchildren c hc).2, ?_⟩
      rw [size_replaceChildren]
      exact (Array.getElem?_eq_some_iff.mp hnode).1
    · exact absurd hc List.not_mem_nil
  · exact absurd hc List.not_mem_nil

theorem node?_replaceChildren_new (hid : id.index < d.nodes.size) (trees : List Markup) {j : NodeId}
    (hj : d.nodes.size ≤ j.index) (hlt : j.index < (d.replaceChildren id trees).nodes.size) :
    ∃ node, (d.replaceChildren id trees).node? j = some node ∧ node.content ≠ .document := by
  have hne : j ≠ id := fun h => absurd hid (Nat.not_lt.mpr (h ▸ hj))
  rw [size_replaceChildren] at hlt
  have hnode := Array.getElem?_eq_getElem hlt
  rw [node?_replaceChildren hid, if_neg hne]
  exact ⟨_, hnode, ((adds_insertAll d trees).new hj hnode).1⟩

/-- Existing nodes stay, and stay what they are. -/
theorem node?_replaceChildren_old (hid : id.index < d.nodes.size) (trees : List Markup) {j : NodeId}
    {node : Node} (hnode : d.node? j = some node) :
    ∃ node', (d.replaceChildren id trees).node? j = some node' ∧ node'.content = node.content := by
  have hj : j.index < d.nodes.size := (Array.getElem?_eq_some_iff.mp hnode).1
  have hcontent := content_replaceChildren hid trees hj
  rw [hnode] at hcontent
  exact Option.map_eq_some_iff.mp hcontent

/-- What was put in is read back. -/
theorem flatMap_tree_replaceChildren (hid : id.index < d.nodes.size) (trees : List Markup) :
    (d.insertAll trees).1.flatMap ((d.replaceChildren id trees).tree
      (d.replaceChildren id trees).depth) = trees := by
  refine tree_insertAll trees (fun i hi hlt => ?_) ?_
  · have hne : (⟨i⟩ : NodeId) ≠ id := fun h => absurd hid (Nat.not_lt.mpr (h ▸ hi))
    have hnew := node?_replaceChildren hid trees ⟨i⟩
    rw [if_neg hne] at hnew
    exact hnew
  · unfold depth
    rw [size_replaceChildren]
    omega

theorem innerTrees_replaceChildren (hid : id.index < d.nodes.size) (trees : List Markup) :
    (d.replaceChildren id trees).innerTrees id = trees := by
  have hnode : d.node? id = some d.nodes[id.index] := Array.getElem?_eq_getElem hid
  unfold innerTrees
  rw [node?_replaceChildren hid, if_pos rfl, hnode]
  exact flatMap_tree_replaceChildren hid trees

/-- The ranks after a change of content: the new nodes take the smallest ones. -/
def rankWith (rank : NodeId → Nat) (n more : Nat) (id : NodeId) : Nat :=
  if id.index < n then rank id + more else id.index - n

theorem ranked_replaceChildren (hr : d.Ranked rank) (trees : List Markup) {node : Node}
    (hnode : d.node? id = some node) (hholds : node.content.holds = true) :
    (d.replaceChildren id trees).Ranked (rankWith rank d.nodes.size
      ((d.replaceChildren id trees).nodes.size - d.nodes.size)) := by
  have hid : id.index < d.nodes.size := (Array.getElem?_eq_some_iff.mp hnode).1
  have hsize : d.nodes.size ≤ (d.replaceChildren id trees).nodes.size := by
    rw [size_replaceChildren]
    exact (adds_insertAll d trees).size
  have hids : ∀ c ∈ (d.insertAll trees).1, d.nodes.size ≤ c.index ∧
      c.index < (d.replaceChildren id trees).nodes.size := by
    rw [size_replaceChildren]
    exact (adds_insertAll d trees).ids
  have hrange : ∀ {outer c : NodeId}, c ∈ d.inside outer → c.index < d.nodes.size := fun hc =>
    (hr.exist hc).elim fun _ h => (Array.getElem?_eq_some_iff.mp h.1).1
  -- the node itself, an old one, or a new one
  have hcases : ∀ outer : NodeId, outer = id ∨ (outer.index < d.nodes.size ∧ outer ≠ id) ∨
      d.nodes.size ≤ outer.index := fun outer => by
    by_cases houter : outer = id
    · exact .inl houter
    · rcases Nat.lt_or_ge outer.index d.nodes.size with h | h
      · exact .inr (.inl ⟨h, houter⟩)
      · exact .inr (.inr h)
  refine ⟨?_, ?_, ?_, ?_⟩
  · obtain ⟨children, hroot⟩ := hr.root
    obtain ⟨⟨content, children'⟩, hnode', hcontent⟩ := node?_replaceChildren_old hid trees hroot
    obtain rfl : content = .document := hcontent
    exact ⟨children', hnode'⟩
  · intro outer c hc
    rcases hcases outer with rfl | ⟨houter, hne⟩ | houter
    · rw [inside_replaceChildren_self trees hnode hholds] at hc
      exact node?_replaceChildren_new hid trees (hids c hc).1 (hids c hc).2
    · rw [inside_replaceChildren_of_ne hid trees houter hne] at hc
      obtain ⟨inner, hinner, hcontent⟩ := hr.exist hc
      obtain ⟨inner', hinner', hsame⟩ := node?_replaceChildren_old hid trees hinner
      exact ⟨inner', hinner', hsame ▸ hcontent⟩
    · obtain ⟨hnew, hlt, hbound⟩ := inside_replaceChildren_new hid trees houter hc
      exact node?_replaceChildren_new hid trees hnew (Nat.lt_trans hlt hbound)
  · -- old ranks are raised above those of new nodes; of these the inner one has the smaller number
    intro outer c hc
    unfold rankWith
    rcases hcases outer with rfl | ⟨houter, hne⟩ | houter
    · rw [inside_replaceChildren_self trees hnode hholds] at hc
      have := hids c hc
      rw [if_neg (Nat.not_lt.mpr this.1), if_pos hid]
      omega
    · rw [inside_replaceChildren_of_ne hid trees houter hne] at hc
      rw [if_pos (hrange hc), if_pos houter]
      exact Nat.add_lt_add_right (hr.smaller hc) _
    · obtain ⟨hnew, hlt, -⟩ := inside_replaceChildren_new hid trees houter hc
      rw [if_neg (Nat.not_lt.mpr hnew), if_neg (Nat.not_lt.mpr houter)]
      omega
  · intro j hj
    unfold rankWith
    split
    · rename_i hold
      have := hr.bound hold
      omega
    · omega

theorem holds_of_isElement (h : d.isElement id = true) :
    ∃ node, d.node? id = some node ∧ node.content.holds = true := by
  unfold isElement at h
  split at h
  · rename_i hnode
    exact ⟨_, hnode, rfl⟩
  · contradiction

theorem sound_replaceChildren (hs : d.Sound) (hid : d.isElement id = true) (trees : List Markup) :
    (d.replaceChildren id trees).Sound := by
  obtain ⟨⟨rank, hr⟩, hhtml⟩ := hs
  obtain ⟨node, hnode, hholds⟩ := holds_of_isElement hid
  exact ⟨⟨_, ranked_replaceChildren hr trees hnode hholds⟩, by rwa [html_replaceChildren]⟩

/-- **A page that has been read is sound.** -/
theorem sound_parse {html : Library} (hhtml : html.Lawful) {markup : String}
    (h : parse html markup = .ok d) : d.Sound := by
  have hempty : (empty html).Ranked fun _ => 0 := by
    refine ⟨⟨[], rfl⟩, ?_, ?_, fun _ => Nat.zero_le _⟩ <;> intro outer c hc <;>
      refine absurd hc ?_ <;> unfold inside empty node? <;> dsimp only <;>
      rcases outer with ⟨_ | i⟩ <;> simp [Content.holds]
  unfold parse at h
  cases htrees : html.parse markup with
  | error e => rw [htrees] at h; simp [bind, Except.bind] at h
  | ok trees =>
      rw [htrees] at h
      obtain rfl : (empty html).replaceChildren root trees = d := by
        simpa [bind, Except.bind, pure, Except.pure] using h
      have hroot : (empty html).node? root = some ⟨.document, []⟩ := rfl
      exact ⟨⟨_, ranked_replaceChildren hempty trees hroot rfl⟩, by rwa [html_replaceChildren]⟩

/-- A way down leads to the same node as before, or passes the node whose content is new. -/
theorem below_or_passes (hr : d.Ranked rank) (hid : id.index < d.nodes.size) (trees : List Markup)
    {start j : NodeId} (h : d.Below start j) (hstart : start.index < d.nodes.size) :
    (d.replaceChildren id trees).Below start j ∨ (d.replaceChildren id trees).Below start id := by
  induction h with
  | refl => exact .inl (.refl _)
  | @inside outer inner j hin _ ih =>
      by_cases houter : outer = id
      · exact .inr (houter ▸ .refl _)
      · have hinner : inner.index < d.nodes.size :=
          (hr.exist hin).elim fun _ h => (Array.getElem?_eq_some_iff.mp h.1).1
        rw [← inside_replaceChildren_of_ne hid trees hstart houter] at hin
        exact (ih hinner).imp (.inside hin) (.inside hin)

/-- A way down after the change was there before, or goes through the node whose content is new. -/
theorem below_of_replaceChildren (hr : d.Ranked rank) (trees : List Markup) {node : Node}
    (hnode : d.node? id = some node) (hholds : node.content.holds = true) {start j : NodeId}
    (h : (d.replaceChildren id trees).Below start j) (hstart : start.index < d.nodes.size) :
    (d.Below start j ∧ j.index < d.nodes.size) ∨
      (d.Below start id ∧
        ∃ c ∈ (d.insertAll trees).1, (d.replaceChildren id trees).Below c j) := by
  have hid : id.index < d.nodes.size := (Array.getElem?_eq_some_iff.mp hnode).1
  induction h with
  | refl => exact .inl ⟨.refl _, hstart⟩
  | @inside outer inner j hin rest ih =>
      by_cases houter : outer = id
      · subst houter
        rw [inside_replaceChildren_self trees hnode hholds] at hin
        exact .inr ⟨.refl _, inner, hin, rest⟩
      · rw [inside_replaceChildren_of_ne hid trees hstart houter] at hin
        have hinner : inner.index < d.nodes.size :=
          (hr.exist hin).elim fun _ h => (Array.getElem?_eq_some_iff.mp h.1).1
        exact (ih hinner).imp (fun h => ⟨.inside hin h.1, h.2⟩) fun h => ⟨.inside hin h.1, h.2⟩

theorem tag_congr {d d' : Document} {j : NodeId}
    (h : (d'.node? j).map (·.content) = (d.node? j).map (·.content)) : d'.tag j = d.tag j := by
  rw [tag_eq_getD, tag_eq_getD]
  unfold tag?
  rw [h]

/-- Elements stay elements. -/
theorem isElement_replaceChildren (hid : d.isElement id = true) (trees : List Markup) {j : NodeId}
    (hj : d.isElement j = true) : (d.replaceChildren id trees).isElement j = true := by
  obtain ⟨node, hnode, -⟩ := holds_of_isElement hid
  unfold isElement at hj
  split at hj
  · rename_i tag space attrs children hfound
    obtain ⟨⟨content, children'⟩, hnode', hcontent⟩ := node?_replaceChildren_old
      (Array.getElem?_eq_some_iff.mp hnode).1 trees hfound
    obtain rfl : content = .element tag space attrs := hcontent
    unfold isElement
    rw [hnode']
  · contradiction

/-- New content of a node is at fault: the node is part of the page, and either it must be empty, or
something in the new content must be and is not. -/
def Spoils (d : Document) (id : NodeId) (trees : List Markup) : Prop :=
  d.Attached id ∧ ((d.tag id ∈ voidTags ∧ trees ≠ []) ∨ allWritable trees = false)

/-- The new content is writable if and only if all new nodes fit. -/
theorem allWritable_iff_fits (hr : d.Ranked rank) (trees : List Markup) {node : Node}
    (hnode : d.node? id = some node) (hholds : node.content.holds = true) :
    allWritable trees = true ↔
      ∀ c ∈ (d.insertAll trees).1, ∀ j, (d.replaceChildren id trees).Below c j →
        (d.replaceChildren id trees).Fits j := by
  have hid : id.index < d.nodes.size := (Array.getElem?_eq_some_iff.mp hnode).1
  have hranked := ranked_replaceChildren hr trees hnode hholds
  have hadds := adds_insertAll d trees
  have hback := flatMap_tree_replaceChildren hid trees
  have hwritable : allWritable trees = true ↔ ∀ c ∈ (d.insertAll trees).1,
      allWritable ((d.replaceChildren id trees).tree (d.replaceChildren id trees).depth c) =
        true := by
    rw [← allWritable_flatMap, hback]
  rw [hwritable]
  refine forall₂_congr fun c hc => allWritable_tree hranked (Nat.lt_succ_of_le (hranked.bound ?_))
  rw [size_replaceChildren]
  exact (hadds.ids c hc).2

/-- **New content leaves a printable page printable unless it is at fault.** -/
theorem printable_replaceChildren (hs : d.Sound) (hp : d.Printable) (hid : d.isElement id = true)
    (trees : List Markup) : (d.replaceChildren id trees).Printable ↔ ¬ d.Spoils id trees := by
  have hs' := sound_replaceChildren hs hid trees
  obtain ⟨node, hnode, hholds⟩ := holds_of_isElement hid
  have hlt : id.index < d.nodes.size := (Array.getElem?_eq_some_iff.mp hnode).1
  rw [printable_iff hs] at hp
  obtain ⟨⟨rank, hr⟩, -⟩ := hs
  obtain ⟨children, hroot⟩ := hr.root
  have hstart : root.index < d.nodes.size := (Array.getElem?_eq_some_iff.mp hroot).1
  have hself := inside_replaceChildren_self trees hnode hholds
  have hnew := allWritable_iff_fits hr trees hnode hholds
  have htag : ∀ {j : NodeId}, j.index < d.nodes.size →
      (d.replaceChildren id trees).tag j = d.tag j := fun hj =>
    tag_congr (content_replaceChildren hlt trees hj)
  rw [printable_iff hs']
  constructor
  · rintro hfits ⟨hattached, hfault⟩
    have hstill : (d.replaceChildren id trees).Attached id :=
      (below_or_passes hr hlt trees hattached hstart).elim (fun h => h) fun h => h
    rcases hfault with ⟨hvoid, hne⟩ | hbad
    · -- the node must be empty, so there are no new nodes
      have hempty := hfits id hstill (by rw [htag hlt]; exact hvoid)
      rw [hself] at hempty
      cases trees with
      | nil => exact hne rfl
      | cons t rest => exact absurd hempty (List.cons_ne_nil _ _)
    · -- all new nodes are attached
      refine Bool.eq_false_iff.mp hbad (hnew.mpr fun c hc j hj => hfits j ?_)
      exact hstill.trans (.inside (hself ▸ hc) hj)
  · intro hkeeps j hj
    rcases below_of_replaceChildren hr trees hnode hholds hj hstart with
      ⟨hold, hjlt⟩ | ⟨hattached, c, hc, hbelow⟩
    · -- an old node: only the content of one of them has changed
      intro hvoid
      rw [htag hjlt] at hvoid
      by_cases hjid : j = id
      · subst hjid
        have hnone : trees = [] := Classical.byContradiction fun hne =>
          hkeeps ⟨hold, .inl ⟨hvoid, hne⟩⟩
        rw [hself, hnone]
        rfl
      · rw [inside_replaceChildren_of_ne hlt trees hjlt hjid]
        exact hp j hold hvoid
    · have hwritable : allWritable trees = true := eq_true_of_ne_false fun hbad =>
        hkeeps ⟨hattached, .inr hbad⟩
      exact hnew.mp hwritable c hc j hbelow

end Replace

end Document

/-! ## Attributes -/

/-- What a node is, without its attributes. -/
def Content.bare : Content → Content
  | .element tag space _ => .element tag space []
  | .document => .document
  | .doctype name publicId systemId => .doctype name publicId systemId
  | .text s => .text s
  | .comment s => .comment s

@[simp] theorem Content.holds_bare (content : Content) : content.bare.holds = content.holds := by
  cases content <;> rfl

@[simp] theorem Content.tag?_bare (content : Content) : content.bare.tag? = content.tag? := by
  cases content <;> rfl

@[simp] theorem Content.bare_eq_document {content : Content} :
    content.bare = .document ↔ content = .document := by
  cases content <;> simp [Content.bare]

/-- A node without its attributes. -/
def Node.bare (node : Node) : Node := { node with content := node.content.bare }

namespace Document

open Html

/-- The node of an identity, without its attributes. -/
def bare? (d : Document) (id : NodeId) : Option Node := (d.node? id).map Node.bare

/-- Two documents that differ in attributes only. -/
structure SameShape (d d' : Document) : Prop where
  size : d'.nodes.size = d.nodes.size
  bare : ∀ id, d'.bare? id = d.bare? id
  html : d'.html = d.html

namespace SameShape

variable {d d' d'' : Document}

theorem refl (d : Document) : d.SameShape d := ⟨rfl, fun _ => rfl, rfl⟩

theorem symm (h : d.SameShape d') : d'.SameShape d :=
  ⟨h.size.symm, fun id => (h.bare id).symm, h.html.symm⟩

theorem trans (h : d.SameShape d') (h' : d'.SameShape d'') : d.SameShape d'' :=
  ⟨h'.size.trans h.size, fun id => (h'.bare id).trans (h.bare id), h'.html.trans h.html⟩

theorem inside_eq (h : d.SameShape d') (id : NodeId) : d'.inside id = d.inside id := by
  have hbare : ∀ d : Document, d.inside id =
      (d.bare? id).elim [] fun node => if node.content.holds then node.children else [] := by
    intro d
    unfold inside bare?
    cases d.node? id <;> simp [Node.bare]
  rw [hbare, hbare, h.bare]

theorem tag?_eq (h : d.SameShape d') (id : NodeId) : d'.tag? id = d.tag? id := by
  have hbare : ∀ d : Document, d.tag? id = (d.bare? id).bind (·.content.tag?) := by
    intro d
    unfold tag? bare?
    cases d.node? id <;> simp [Node.bare]
  rw [hbare, hbare, h.bare]

theorem tag_eq (h : d.SameShape d') (id : NodeId) : d'.tag id = d.tag id := by
  rw [tag_eq_getD, tag_eq_getD, h.tag?_eq]

theorem isElement_eq (h : d.SameShape d') (id : NodeId) : d'.isElement id = d.isElement id := by
  rw [isElement_eq_isSome, isElement_eq_isSome, h.tag?_eq]

theorem sound (h : d.SameShape d') (hs : d.Sound) : d'.Sound := by
  have hnode : ∀ {id : NodeId} {node : Node}, d.node? id = some node →
      ∃ node', d'.node? id = some node' ∧ node'.bare = node.bare := by
    intro id node hnode
    have hbare := h.bare id
    unfold bare? at hbare
    rw [hnode] at hbare
    exact Option.map_eq_some_iff.mp hbare
  obtain ⟨⟨rank, hr⟩, hhtml⟩ := hs
  refine ⟨⟨rank, ?_, ?_, ?_, ?_⟩, h.html ▸ hhtml⟩
  · obtain ⟨children, hroot⟩ := hr.root
    obtain ⟨⟨content, children'⟩, hroot', hbare⟩ := hnode hroot
    obtain rfl : content = .document := Content.bare_eq_document.mp (congrArg Node.content hbare)
    exact ⟨children', hroot'⟩
  · intro outer id hid
    rw [h.inside_eq] at hid
    obtain ⟨node, hid, hcontent⟩ := hr.exist hid
    obtain ⟨node', hid', hbare⟩ := hnode hid
    refine ⟨node', hid', fun hdocument => hcontent ?_⟩
    refine Content.bare_eq_document.mp ?_
    have hsame : node'.content.bare = node.content.bare := congrArg Node.content hbare
    rw [← hsame]
    exact Content.bare_eq_document.mpr hdocument
  · intro outer id hid
    rw [h.inside_eq] at hid
    exact hr.smaller hid
  · intro id hid
    rw [h.size] at hid ⊢
    exact hr.bound hid

theorem below (h : d.SameShape d') {start id : NodeId} (hb : d.Below start id) :
    d'.Below start id := by
  induction hb with
  | refl => exact .refl _
  | inside hin _ ih => exact .inside (h.inside_eq _ ▸ hin) ih

theorem printable (h : d.SameShape d') (hs : d.Sound) (hp : d.Printable) : d'.Printable := by
  rw [printable_iff hs] at hp
  rw [printable_iff (h.sound hs)]
  intro id hid hvoid
  rw [h.inside_eq]
  exact hp id (h.symm.below hid) (h.tag_eq id ▸ hvoid)

end SameShape

theorem sameShape_modifyAttrs (d : Document) (id : NodeId) (f : List Attr → List Attr) :
    d.SameShape (d.modifyAttrs id f) := by
  refine ⟨Array.size_modify .., fun j => ?_, rfl⟩
  unfold bare? node? modifyAttrs modify
  dsimp only
  rw [Array.getElem?_modify]
  split
  · cases d.nodes[j.index]? with
    | none => rfl
    | some node =>
        obtain ⟨content, children⟩ := node
        cases content <;> rfl
  · rfl

theorem sameShape_setAttr (d : Document) (id : NodeId) (name value : String) :
    d.SameShape (d.setAttr id name value) := sameShape_modifyAttrs d id _

theorem sameShape_removeAttr (d : Document) (id : NodeId) (name : String) :
    d.SameShape (d.removeAttr id name) := sameShape_modifyAttrs d id _

end Document

end PageMacro
