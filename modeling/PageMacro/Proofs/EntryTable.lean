import PageMacro.Proofs.EventBindings

/-!
# The table of entries and the list of keys

The entries stand in a table under their keys, and the keys in a list of their own, in the order of
registration. Both have to change together: a registration may use another element's key again, or
bring back one that was removed, and a removal takes a key out of both. Whoever goes through the
list takes it for granted that there is an entry under every key, as the bindings do; `bindings?` is
the same work without that trust, and gives nothing if a key has no entry.

What carries everything is that the table has the listed keys in the order of the list (`Matched`).
From it follows what one happening does to the list (`listAfter`), and from that what a history
does: keys that it does not remove stay in their places, one after the other, and new ones come
after them (`filter_order_afterAll`).
-/

namespace PageMacro

namespace World

/-! ## Entries under keys -/

/-- The entry under a key, if there is one. -/
def filed? (w : World) (key : String) : Option Entry :=
  (w.lookup? key).bind fun e => w.entries[e]?

section Filed

variable {w : World} {key : String}

theorem filed_of_lookup (hw : w.Sound) {e : EntryId} (h : w.lookup? key = some e) :
    w.filed? key = some (w.entry e) := by
  have hlt : e < w.entries.size := hw.table key e (mem_of_lookup h)
  unfold filed? entry
  rw [h, Option.bind_some, Array.getElem?_eq_getElem hlt, Option.getD_some]

theorem filed_of_none (h : w.lookup? key = none) : w.filed? key = none := by
  unfold filed?
  rw [h, Option.bind_none]

theorem isSome_filed (hw : w.Sound) : (w.filed? key).isSome = (w.lookup? key).isSome := by
  cases h : w.lookup? key with
  | none => rw [filed_of_none h]; rfl
  | some e => rw [filed_of_lookup hw h]; rfl

/-- A removal takes one key and leaves the entries under all others. -/
theorem filed_remove (w : World) (key other : String) :
    (w.remove key).filed? other = if other = key then none else w.filed? other := by
  have hentries : (w.remove key).entries = w.entries := by
    unfold remove
    split <;> rfl
  unfold filed?
  rw [lookup_remove, hentries]
  split <;> rfl

/-- An entry of the element has been filed under the key, in place of one that may have been there;
the entries under other keys are as they were. -/
structure Files (w w' : World) (element : NodeId) (key : String) : Prop where
  self : ∃ entry, w'.filed? key = some entry ∧ entry.element = element
  others : ∀ other, other ≠ key → w'.filed? other = w.filed? other

theorem Registers.files {w' : World} {element : NodeId} {generated : Nat} (hw : w.WellFiled)
    (h : w.Registers element key generated w') (hsound : w'.Sound) : w.Files w' element key where
  self := by
    obtain ⟨e, hfind, helement, -⟩ := h.filed_self hw.sound
    exact ⟨_, filed_of_lookup hsound hfind, helement⟩
  others := fun other hne => by
    have hlookup := h.lookup_of_ne hne
    cases hfind : w.lookup? other with
    | none =>
        rw [hfind] at hlookup
        rw [filed_of_none hfind, filed_of_none hlookup]
    | some e =>
        rw [hfind] at hlookup
        rw [filed_of_lookup hw.sound hfind, filed_of_lookup hsound hlookup,
          h.entry_of_ne hw hne hfind]

end Filed

/-! ## The same keys in the same order -/

/-- The table has the keys that are listed, in the order of the list. -/
def Matched (w : World) : Prop := w.table.map Prod.fst = w.order

section Matched

variable {w w' : World} {element : NodeId} {key place : String} {generated : Nat}

theorem Matched.mem_order (hw : w.Matched) : key ∈ w.order ↔ (w.lookup? key).isSome = true := by
  rw [← hw]
  exact isSome_lookup_iff.symm

theorem Matched.not_mem_order (hw : w.Matched) : key ∉ w.order ↔ w.lookup? key = none := by
  rw [hw.mem_order, Option.not_isSome_iff_eq_none]

theorem Matched.of_same (hw : w.Matched) (horder : w'.order = w.order)
    (htable : w'.table = w.table) : w'.Matched := by
  unfold Matched
  rw [horder, htable]
  exact hw

/-- A new entry lists its key last, unless another entry was there under the same key. -/
theorem Matched.order_fileEntry (hw : w.Matched) (key script : String) (element : NodeId) :
    (w.fileEntry key script element).order =
      if key ∈ w.order then w.order else w.order ++ [key] := by
  rw [fileEntry_order]
  by_cases hmem : key ∈ w.order
  · rw [if_pos hmem, if_neg]
    rw [Option.isNone_iff_eq_none, ← hw.not_mem_order]
    exact not_not_intro hmem
  · rw [if_neg hmem, if_pos]
    rw [Option.isNone_iff_eq_none, ← hw.not_mem_order]
    exact hmem

/-- **A registration lists its key last**, unless it is listed already. -/
theorem Registers.order_eq (hw : w.Matched) (h : w.Registers element place generated w') :
    w'.order = if place ∈ w.order then w.order else w.order ++ [place] := by
  cases h with
  | known e hfind => rw [if_pos (hw.mem_order.mpr (by rw [hfind]; rfl))]
  | changed e hfind => rw [if_pos (hw.mem_order.mpr (by rw [hfind]; rfl))]; rfl
  | filed hother => exact Matched.order_fileEntry (w := { w with generated }) hw _ _ _

theorem Registers.matched (hw : w.Matched) (h : w.Registers element place generated w') :
    w'.Matched := by
  cases h with
  | known e => exact hw.of_same rfl rfl
  | changed e => exact hw.of_same rfl rfl
  | filed hother =>
      have horder := Matched.order_fileEntry (w := { w with generated }) hw place
        (w.scriptOf element) element
      unfold Matched
      -- the table lists a new name at its end, as the list does, and an old one where it was
      rw [horder, fileEntry_table, names_putField]
      rw [show ({ w with generated } : World).table.map Prod.fst = w.order from hw]

theorem remove_table (w : World) (key : String) :
    (w.remove key).table = eraseField key w.table := by
  unfold remove
  split
  · rename_i hnone
    refine (List.filter_eq_self.mpr fun field hfield => ?_).symm
    exact bne_iff_ne.mpr (bne_iff_ne.mp (List.lookup_eq_none_iff.mp hnone field hfield)).symm
  · rfl

/-- **A removal leaves the other keys in their order.** -/
theorem Matched.order_remove (hw : w.Matched) (hnodup : w.order.Nodup) (key : String) :
    (w.remove key).order = w.order.filter (· != key) := by
  cases hfind : w.lookup? key with
  | none =>
      -- the key is not listed, so nothing is taken out
      have hall : ∀ other ∈ w.order, (other != key) = true := fun other hother =>
        bne_iff_ne.mpr fun heq => hw.not_mem_order.mpr hfind (heq ▸ hother)
      unfold remove
      rw [hfind, List.filter_eq_self.mpr hall]
  | some e =>
      unfold remove
      rw [hfind]
      exact hnodup.erase_eq_filter key

theorem Matched.remove (hw : w.Matched) (hnodup : w.order.Nodup) (key : String) :
    (w.remove key).Matched := by
  unfold Matched at hw ⊢
  rw [remove_table, names_eraseField, hw, Matched.order_remove hw hnodup]

end Matched

/-! ## Bindings without trust -/

/-- Adds the events that an element is bound to, under a key. -/
def bindUnder (w : World) (key : String) (element : NodeId)
    (bindings : List (String × List String)) : List (String × List String) :=
  ((Text.splitAtChar ';' (w.document.attr element "data-event")).map Text.trim).foldl (bindItem key)
    (if w.Clicks element then bind "click" key bindings else bindings)

/-- Adds the events that the entry under a key is bound to; nothing if there is no entry. -/
def bindFiled? (w : World) (bindings : List (String × List String)) (key : String) :
    Option (List (String × List String)) :=
  (w.filed? key).map fun entry => w.bindUnder key entry.element bindings

/-- The keys of the entries that each event runs; nothing if a listed key has no entry. -/
def bindings? (w : World) : Option (List (String × List String)) :=
  w.order.foldlM w.bindFiled? []

section Bindings

variable {w : World}

theorem bindElement_of_lookup {key : String} {e : EntryId} (h : w.lookup? key = some e)
    (bindings : List (String × List String)) :
    w.bindElement bindings key = w.bindUnder key (w.entry e).element bindings := by
  rw [bindElement_eq, h]
  rfl

theorem foldlM_bindFiled (hw : w.Sound) (keys : List String)
    (bindings : List (String × List String)) :
    keys.foldlM w.bindFiled? bindings =
      if keys.all (fun key => (w.filed? key).isSome) then some (keys.foldl w.bindElement bindings)
      else none := by
  induction keys generalizing bindings with
  | nil => rfl
  | cons key keys ih =>
      rw [List.foldlM_cons, List.all_cons, List.foldl_cons]
      unfold bindFiled?
      cases hfind : w.lookup? key with
      | none =>
          rw [filed_of_none hfind]
          rfl
      | some e =>
          rw [filed_of_lookup hw hfind, bindElement_of_lookup hfind]
          exact ih _

/-- **The bindings are the same** without the trust that every listed key has an entry, as long as
that is so. -/
theorem bindings_eq (hw : w.Sound) : w.bindings? =
    if w.order.all (fun key => (w.filed? key).isSome) then some w.bindings else none :=
  foldlM_bindFiled hw w.order []

/-- Only keys of a list come up in the bindings. -/
def Drawn (keys : List String) (bindings : List (String × List String)) : Prop :=
  ∀ pair ∈ bindings, ∀ key ∈ pair.2, key ∈ keys

variable {keys : List String} {bindings : List (String × List String)} {key : String}

theorem Drawn.bind (h : Drawn keys bindings) (hkey : key ∈ keys) (event : String) :
    Drawn keys (World.bind event key bindings) := by
  rintro ⟨name, names⟩ hpair other hother
  rcases mem_putField hpair with rfl | hold
  · rcases List.mem_append.mp hother with hbefore | hlast
    · cases hfind : bindings.lookup event with
      | none =>
          rw [hfind] at hbefore
          exact absurd hbefore List.not_mem_nil
      | some before =>
          rw [hfind] at hbefore
          exact h _ (mem_of_lookup hfind) other hbefore
    · rw [List.mem_singleton.mp hlast]
      exact hkey
  · exact h _ hold other hother

theorem Drawn.items (h : Drawn keys bindings) (hkey : key ∈ keys) (items : List String) :
    Drawn keys (items.foldl (bindItem key) bindings) := by
  induction items generalizing bindings with
  | nil => exact h
  | cons item items ih =>
      refine ih ?_
      unfold bindItem
      dsimp only
      split
      · exact h
      · exact h.bind hkey item

theorem Drawn.bindElement (h : Drawn keys bindings) (hkey : key ∈ keys) :
    Drawn keys (w.bindElement bindings key) := by
  rw [bindElement_eq]
  split
  · exact h
  · refine Drawn.items ?_ hkey _
    split
    · exact h.bind hkey "click"
    · exact h

theorem Drawn.foldl (h : Drawn keys bindings) {part : List String}
    (hkeys : ∀ key ∈ part, key ∈ keys) : Drawn keys (part.foldl w.bindElement bindings) := by
  induction part generalizing bindings with
  | nil => exact h
  | cons key rest ih =>
      rw [List.forall_mem_cons] at hkeys
      exact ih (h.bindElement hkeys.1) hkeys.2

theorem drawn_bindings (w : World) : Drawn w.order w.bindings :=
  Drawn.foldl (fun _ h => absurd h List.not_mem_nil) fun _ h => h

end Bindings

/-- The list of keys and the table of entries agree. -/
structure Agree (w : World) : Prop where
  /-- No key is listed twice. -/
  nodup : w.order.Nodup
  /-- The table has the listed keys and no others, so that none comes twice in it either. -/
  matched : w.Matched
  /-- Under each of them there is an entry, and under no other. -/
  filed : ∀ key, key ∈ w.order ↔ (w.filed? key).isSome = true
  /-- Every entry is filed under its own key. -/
  keyed : ∀ key entry, w.filed? key = some entry → entry.key = key

end World

namespace Machine

/-! ## What happens to the list -/

/-- The list of keys after a happening. -/
def listAfter (m : Machine) : Happening → List String
  | .register naming element =>
    let key := (m.world.registerElement naming element).2
    if key ∈ m.world.order then m.world.order else m.world.order ++ [key]
  | .remove key => m.world.order.filter (· != key)
  | _ => m.world.order

theorem matched_after {m : Machine} (hm : m.Reachable) (hw : m.world.Matched) (h : Happening) :
    (m.after h).world.Matched := by
  rcases filing_cases (sound_reachable hm) h with hsame | ⟨_, _, _, hregisters⟩ | ⟨key, rfl⟩
  · exact hw.of_same hsame.order hsame.table
  · exact hregisters.matched hw
  · -- a removal takes out the first place of the key, which is the only one
    exact hw.remove (ordered_reachable hm).nodup key

theorem matched_reachable {m : Machine} (hm : m.Reachable) : m.world.Matched :=
  hm.induction (P := fun m => m.world.Matched) (fun _ _ _ _ => rfl)
    (fun _ h hm ih => matched_after hm ih h) fun _ _ ih => ih

/-- **What one happening does to the list.** -/
theorem order_after {m : Machine} (hm : m.Reachable) (h : Happening) :
    (m.after h).world.order = m.listAfter h := by
  have hw := matched_reachable hm
  have hcalm : h.Calm → (m.after h).world.order = m.world.order :=
    fun hcalm => (sameFiling_of_calm (sound_reachable hm) hcalm).order
  cases h with
  | register naming element =>
      obtain ⟨key, _, -, hkey, hregisters⟩ := m.world.registers naming element
      have horder := hregisters.order_eq hw
      rw [← hkey] at horder
      exact horder
  | remove key => exact hw.order_remove (ordered_reachable hm).nodup key
  | start | settle | interrupt | control | load | verbs | host => exact hcalm trivial

/-- Keys that are not removed stay in their order, and new ones come after them. -/
theorem filter_order_after {m : Machine} (hm : m.Reachable) (h : Happening) {kept : String → Bool}
    (hkept : ∀ key, h = .remove key → kept key = false) :
    m.world.order.filter kept <+: (m.after h).world.order.filter kept := by
  rw [order_after hm]
  cases h with
  | register naming element =>
      unfold listAfter
      dsimp only
      split
      · exact List.prefix_refl _
      · rw [List.filter_append]
        exact List.prefix_append _ _
  | remove key =>
      -- the key that is taken out is none of those that are kept
      have hsame : ∀ other ∈ m.world.order, (kept other && other != key) = kept other := by
        intro other _
        cases hother : kept other with
        | false => rfl
        | true =>
            have hne : other ≠ key := by
              rintro rfl
              exact Bool.false_ne_true ((hkept other rfl).symm.trans hother)
            rw [Bool.true_and, bne_iff_ne]
            exact hne
      unfold listAfter
      rewrite [List.filter_filter, List.filter_congr hsame]
      exact List.prefix_refl _
  | start | settle | interrupt | control | load | verbs | host => exact List.prefix_refl _

/-- **What a history does to the list.** -/
theorem filter_order_afterAll {m : Machine} (hm : m.Reachable) (history : List Happening)
    {kept : String → Bool} (hkept : ∀ key, Happening.remove key ∈ history → kept key = false) :
    m.world.order.filter kept <+: (m.afterAll history).world.order.filter kept := by
  induction history generalizing m with
  | nil => exact List.prefix_refl _
  | cons h history ih =>
      have hfirst := filter_order_after hm h fun key heq => hkept key (heq ▸ List.mem_cons_self)
      exact hfirst.trans (ih (hm.after h) fun key hmem => hkept key (List.mem_cons_of_mem _ hmem))

/-! ## The list and the table -/

theorem agree_reachable {m : Machine} (hm : m.Reachable) : m.world.Agree := by
  have hfiled := wellFiled_reachable hm
  have hmatched := matched_reachable hm
  refine ⟨(ordered_reachable hm).nodup, hmatched, fun key => ?_, fun key entry hentry => ?_⟩
  · rw [World.isSome_filed hfiled.sound]
    exact hmatched.mem_order
  · cases hfind : m.world.lookup? key with
    | none =>
        rw [World.filed_of_none hfind] at hentry
        cases hentry
    | some e =>
        rw [World.filed_of_lookup hfiled.sound hfind] at hentry
        rw [← Option.some.inj hentry]
        exact hfiled.keyed key e hfind

/-- **The list of keys and the table of entries agree**, whatever has been registered, removed,
loaded, changed and run before: no key comes twice, the listed keys are those that have an entry,
and each entry is filed under its own key. So the bindings find an entry under every key, and only
keys with entries come up in them. A registration lists its key last, unless it is listed already,
and files the element's entry under it; a removal takes one key out of the list and out of the
table; both leave the entries under other keys as they are, and nothing else changes the list. Over
a whole history, the keys that it does not remove keep their order, before those that are new. -/
theorem order_agrees_with_table {m : Machine} (hm : m.Reachable) :
    m.world.Agree ∧
      m.world.bindings? = some m.world.bindings ∧
      (∀ pair ∈ m.world.bindings, ∀ key ∈ pair.2, (m.world.filed? key).isSome = true) ∧
      (∀ h, (m.after h).world.order = m.listAfter h) ∧
      (∀ naming element, m.world.Files (m.world.registerElement naming element).1 element
        (m.world.registerElement naming element).2) ∧
      (∀ key other, (m.world.remove key).filed? other =
        if other = key then none else m.world.filed? other) ∧
      ∀ (history : List Happening) (kept : String → Bool),
        (∀ key, Happening.remove key ∈ history → kept key = false) →
          m.world.order.filter kept <+: (m.afterAll history).world.order.filter kept := by
  have hagree := agree_reachable hm
  have hsound := (sound_reachable hm).world
  refine ⟨hagree, ?_, ?_, order_after hm, ?_, m.world.filed_remove,
    fun history kept => filter_order_afterAll hm history⟩
  · rw [World.bindings_eq hsound, if_pos]
    exact List.all_eq_true.mpr fun key hkey => (hagree.filed key).mp hkey
  · intro pair hpair key hkey
    exact (hagree.filed key).mp (World.drawn_bindings m.world pair hpair key hkey)
  · intro naming element
    obtain ⟨key, _, -, hkey, hregisters⟩ := m.world.registers naming element
    rw [hkey]
    exact hregisters.files (wellFiled_reachable hm)
      (World.keeps_registerElement hsound naming element).sound

/-- A page with three buttons that have scripts. -/
def trio : Machine :=
  (init { nodes := #[⟨.document, [⟨1⟩, ⟨2⟩, ⟨3⟩]⟩,
    ⟨.element "button" "" [⟨"", "id", "a"⟩, ⟨"", "inline", "&x:1"⟩], []⟩,
    ⟨.element "button" "" [⟨"", "id", "b"⟩, ⟨"", "inline", "&x:1"⟩], []⟩,
    ⟨.element "button" "" [⟨"", "id", "c"⟩, ⟨"", "inline", "&x:1"⟩], []⟩] } "inline" []).enrol
      .numbered

/-- An entry is removed, another one is changed and run, and the first comes back. -/
def comeback : List Happening :=
  [.remove "a", .load "b" [], .start "c" 0, .register .numbered ⟨1⟩]

/-- A key that was removed comes back after the others, which keep their order, and all three have
their entries. -/
theorem removed_key_comes_back_last :
    trio.Reachable ∧ trio.world.order = ["a", "b", "c"] ∧
      (∀ key, Happening.remove key ∈ comeback → (key != "a") = false) ∧
      ["b", "c"] <+: (trio.afterAll comeback).world.order.filter (· != "a") ∧
      (trio.afterAll comeback).world.order = ["b", "c", "a"] ∧
      (trio.afterAll comeback).world.bindings? = some [("click", ["b", "c", "a"])] := by
  have hfacts : trio.world.order = ["a", "b", "c"] ∧
      (trio.afterAll comeback).world.order = ["b", "c", "a"] ∧
      (trio.afterAll comeback).world.bindings = [("click", ["b", "c", "a"])] := by
    decide +kernel
  obtain ⟨hbefore, hafter, hbindings⟩ := hfacts
  have hm : trio.Reachable :=
    Reachable.enrol ⟨_, _, [], fun _ _ h => absurd h List.not_mem_nil, .refl _⟩ _
  have hkept : ∀ key, Happening.remove key ∈ comeback → (key != "a") = false := by
    intro key hmem
    rcases List.mem_cons.mp hmem with heq | hmem
    · rw [Happening.remove.inj heq]
      rfl
    · simp at hmem
  have hlater := (order_agrees_with_table (hm.afterAll comeback)).2.1
  have hprefix := (order_agrees_with_table hm).2.2.2.2.2.2 comeback (· != "a") hkept
  rw [hbefore] at hprefix
  exact ⟨hm, hbefore, hkept, hprefix, hafter, hlater.trans (congrArg some hbindings)⟩

end Machine

end PageMacro
