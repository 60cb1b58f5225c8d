import PageMacro.Proofs.OwnScript

/-!
# Registering a page again

A page is registered element by element, and every element should have an entry of its own that
lasts: registering the page again should find the same keys and leave everything as it is. What
decides this is, first, whether two elements have come by the same key, two with the same id, say, or
two without ids and with the same script. The entry under a key belongs to the element that was
registered last, so that the others have none; and at the next registration each of them takes the
key from the one before, with a new entry and an empty store.

Secondly, an element with neither an id nor a script goes by a key that it has already. If it has
several, from ids that it had before, the next registration may pick another one (`Naming.pick`), and
which it picks is not said anywhere.

Registering an element puts its entry in place (`InPlace`), and another element under another key
leaves it there. That carries through the page if no two elements share a key, and through all that
executions do afterwards, since these register nothing.
-/

namespace PageMacro

open Execution

namespace World

/-! ## What is filed -/

/-- Every key that an entry is filed under is listed. -/
def Listed (w : World) : Prop := ∀ key e, w.lookup? key = some e → key ∈ w.order

/-- What registrations rely on: entries that are filed exist, each under its own key, and their keys
are listed. -/
structure WellFiled (w : World) : Prop where
  sound : w.Sound
  keyed : w.Keyed
  listed : w.Listed

theorem Holds.unique {w : World} {element element' : NodeId} {key : String}
    (h : w.Holds element key) (h' : w.Holds element' key) : element = element' := by
  obtain ⟨e, he, rfl⟩ := h
  obtain ⟨e', he', rfl⟩ := h'
  rw [Option.some.inj (he.symm.trans he')]

theorem holds_eq_true_iff {w : World} {element : NodeId} {key : String} :
    w.holds element key = true ↔ w.Holds element key := by
  unfold holds Holds
  cases w.lookup? key with
  | none => simp
  | some e => simp

/-- The keys that an element has are those whose entries belong to it. -/
theorem mem_heldBy_iff {w : World} (hw : w.WellFiled) {element : NodeId} {key : String} :
    key ∈ w.heldBy element ↔ w.Holds element key := by
  unfold heldBy
  rw [List.mem_filter, holds_eq_true_iff]
  constructor
  · exact fun h => h.2
  · intro h
    obtain ⟨e, hfind, -⟩ := id h
    exact ⟨hw.listed key e hfind, h⟩

/-- An element that has a key goes by one that it has. -/
theorem exists_keyOf? (naming : Naming) {w : World} {element : NodeId} {key : String}
    (h : key ∈ w.heldBy element) :
    ∃ known ∈ w.heldBy element, w.keyOf? naming element = some known := by
  have hlt : naming.pick element % (w.heldBy element).length < (w.heldBy element).length :=
    Nat.mod_lt _ (List.length_pos_of_mem h)
  exact ⟨_, List.getElem_mem hlt, List.getElem?_eq_getElem hlt⟩

/-- It goes by the same key whatever is picked if and only if it has no other. -/
theorem forall_keyOf?_iff {w : World} {element : NodeId} {key : String}
    (h : key ∈ w.heldBy element) :
    (∀ naming : Naming, w.keyOf? naming element = some key) ↔
      ∀ other ∈ w.heldBy element, other = key := by
  constructor
  · intro hall other hother
    obtain ⟨i, hlt, rfl⟩ := List.getElem_of_mem hother
    have hpicked := hall { fresh := fun n => toString n, pick := fun _ => i }
    unfold keyOf? at hpicked
    dsimp only at hpicked
    rw [Nat.mod_eq_of_lt hlt, List.getElem?_eq_getElem hlt] at hpicked
    exact Option.some.inj hpicked
  · intro hone naming
    obtain ⟨known, hmem, hknown⟩ := exists_keyOf? naming h
    rw [hknown, hone known hmem]

/-! ## Registering one element -/

section OneElement

variable {w w' : World} {element other : NodeId} {key place : String} {generated : Nat}

theorem fileEntry_order (w : World) (key script : String) (element : NodeId) :
    (w.fileEntry key script element).order =
      if (w.lookup? key).isNone then w.order ++ [key] else w.order := by
  unfold fileEntry
  dsimp only
  split <;> rfl

theorem fileEntry_frame (w : World) (key script : String) (element : NodeId) :
    (w.fileEntry key script element).document = w.document ∧
      (w.fileEntry key script element).scriptAttr = w.scriptAttr := by
  unfold fileEntry
  dsimp only
  split <;> exact ⟨rfl, rfl⟩

namespace Registers

theorem document (h : w.Registers element place generated w') : w'.document = w.document := by
  cases h with
  | known e => rfl
  | changed e => rfl
  | filed hother => exact (fileEntry_frame _ _ _ _).1

theorem scriptAttr (h : w.Registers element place generated w') : w'.scriptAttr = w.scriptAttr := by
  cases h with
  | known e => rfl
  | changed e => rfl
  | filed hother => exact (fileEntry_frame _ _ _ _).2

theorem scriptOf (h : w.Registers element place generated w') (other : NodeId) :
    w'.scriptOf other = w.scriptOf other := by
  unfold World.scriptOf
  rw [h.document, h.scriptAttr]

/-- Keys are listed at the end. -/
theorem order (h : w.Registers element place generated w') :
    w'.order = w.order ∨ w'.order = w.order ++ [place] := by
  cases h with
  | known e => exact .inl rfl
  | changed e => exact .inl rfl
  | filed hother =>
      rw [fileEntry_order]
      split
      · exact .inr rfl
      · exact .inl rfl

/-- Afterwards the entry under the key is the element's, with the script of the element. -/
theorem filed_self (hw : w.Sound) (h : w.Registers element place generated w') :
    ∃ e, w'.lookup? place = some e ∧ (w'.entry e).element = element ∧
      (w'.entry e).script = w'.scriptOf element := by
  rw [h.scriptOf]
  cases h with
  | known e hfind helement hscript => exact ⟨e, hfind, helement, hscript⟩
  | changed e hfind helement =>
      have hlt : e < w.entries.size := hw.table place e (mem_of_lookup hfind)
      refine ⟨e, hfind, ?_⟩
      rw [← helement]
      unfold World.entry
      dsimp only
      rw [Array.getElem?_modify, if_pos rfl, Array.getElem?_eq_getElem hlt]
      exact ⟨rfl, rfl⟩
  | filed hother =>
      refine ⟨w.entries.size, ?_, ?_⟩
      · rw [lookup_fileEntry, if_pos rfl]
      · rw [show w.entries.size = ({ w with generated } : World).entries.size from rfl,
          entry_fileEntry_size]
        exact ⟨rfl, rfl⟩

theorem holds_self (hw : w.Sound) (h : w.Registers element place generated w') :
    w'.Holds element place := by
  obtain ⟨e, hfind, helement, -⟩ := h.filed_self hw
  exact ⟨e, hfind, helement⟩

/-- Under other keys nothing changes. -/
theorem lookup_of_ne (h : w.Registers element place generated w') (hne : key ≠ place) :
    w'.lookup? key = w.lookup? key := by
  cases h with
  | known e => rfl
  | changed e => rfl
  | filed hother =>
      rw [lookup_fileEntry, if_neg hne]
      rfl

theorem entry_of_ne (hw : w.WellFiled) (h : w.Registers element place generated w')
    (hne : key ≠ place) {e : EntryId} (hfind : w.lookup? key = some e) :
    w'.entry e = w.entry e := by
  cases h with
  | known i => rfl
  | changed i hi =>
      -- another key has another entry
      have hie : i ≠ e := by
        rintro rfl
        exact hne ((hw.keyed key i hfind).symm.trans (hw.keyed place i hi))
      unfold World.entry
      dsimp only
      rw [Array.getElem?_modify, if_neg hie]
  | filed hother =>
      exact entry_fileEntry_of_lt { w with generated } _ _ _
        (hw.sound.table key e (mem_of_lookup hfind))

theorem holds_iff_of_ne (hw : w.WellFiled) (h : w.Registers element place generated w')
    (hne : key ≠ place) : w'.Holds other key ↔ w.Holds other key := by
  unfold Holds
  rw [h.lookup_of_ne hne]
  refine exists_congr fun e => and_congr_right fun hfind => ?_
  rw [h.entry_of_ne hw hne hfind]

/-- Where the element had its entry already, all entries stay with their elements. -/
theorem holds_iff_of_holds (hw : w.WellFiled) (h : w.Registers element place generated w')
    (hholds : w.Holds element place) : w'.Holds other key ↔ w.Holds other key := by
  by_cases hkey : key = place
  · subst hkey
    have hself := h.holds_self hw.sound
    constructor
    · intro hother
      rw [hother.unique hself]
      exact hholds
    · intro hother
      rw [hother.unique hholds]
      exact hself
  · exact h.holds_iff_of_ne hw hkey

theorem order_of_holds (h : w.Registers element place generated w')
    (hholds : w.Holds element place) : w'.order = w.order := by
  cases h with
  | known e => rfl
  | changed e => rfl
  | filed hother => exact absurd hholds hother

theorem holds_of_size_eq (h : w.Registers element place generated w')
    (hsize : w'.entries.size = w.entries.size) : w.Holds element place := by
  cases h with
  | known e hfind helement => exact ⟨e, hfind, helement⟩
  | changed e hfind helement => exact ⟨e, hfind, helement⟩
  | filed hother =>
      rw [fileEntry_entries, Array.size_push] at hsize
      exact absurd hsize (Nat.succ_ne_self _)

theorem mem_order (hw : w.WellFiled) (h : w.Registers element place generated w') :
    place ∈ w'.order := by
  cases h with
  | known e hfind => exact hw.listed place e hfind
  | changed e hfind => exact hw.listed place e hfind
  | filed hother =>
      rw [fileEntry_order]
      split
      · simp
      · rename_i hsome
        rw [Option.isNone_iff_eq_none] at hsome
        obtain ⟨e, he⟩ := Option.ne_none_iff_exists'.mp hsome
        exact hw.listed place e he

theorem wellFiled (hw : w.WellFiled) (h : w.Registers element place generated w')
    (hsound : w'.Sound) : w'.WellFiled where
  sound := hsound
  keyed := h.keyed hw.sound hw.keyed
  listed := fun key e hfind => by
    by_cases hkey : key = place
    · rw [hkey]
      exact h.mem_order hw
    · rw [h.lookup_of_ne hkey] at hfind
      have hold := hw.listed key e hfind
      rcases h.order with heq | heq <;> rw [heq]
      · exact hold
      · exact List.mem_append_left _ hold

/-- Where the element had its entry already, everyone keeps the same keys. -/
theorem heldBy_of_holds (hw : w.WellFiled) (h : w.Registers element place generated w')
    (hholds : w.Holds element place) : w'.heldBy other = w.heldBy other := by
  have hsame : w'.holds other = w.holds other := by
    funext key
    rw [Bool.eq_iff_iff, holds_eq_true_iff, holds_eq_true_iff]
    exact h.holds_iff_of_holds hw hholds
  unfold heldBy
  rw [h.order_of_holds hholds, hsame]

end Registers

/-! ## Settled elements -/

/-- The name that the page itself gives to an element: its id, or else its script. -/
def named? (w : World) (element : NodeId) : Option String :=
  if !(w.document.attr element "id").isEmpty then some (w.document.attr element "id")
  else if !(Text.trim (w.scriptOf element)).isEmpty then some (Text.trim (w.scriptOf element))
  else none

/-- **The key of an element** is its name, or else one that it has, or else a new one. -/
theorem chooseKey_eq (naming : Naming) (w : World) (element : NodeId) :
    w.chooseKey naming element (w.scriptOf element) =
      match (w.named? element).or (w.keyOf? naming element) with
      | some key => (key, w.generated)
      | none => (naming.fresh w.generated, w.generated + 1) := by
  unfold chooseKey named?
  dsimp only
  split
  · rfl
  · split
    · rfl
    · rfl

theorem Registers.named?_eq (h : w.Registers element place generated w') (other : NodeId) :
    w'.named? other = w.named? other := by
  unfold named?
  rw [h.scriptOf, h.document]

/-- An element with a name gets it as its key. -/
theorem registerElement_of_named {naming : Naming} {name : String}
    (h : w.named? element = some name) : (w.registerElement naming element).2 = name := by
  obtain ⟨key, generated, hchosen, hkey, -⟩ := w.registers naming element
  rw [chooseKey_eq, h] at hchosen
  exact hkey.trans (Prod.mk.inj hchosen).1.symm

/-- An element has its entry under a key, with its script. -/
def InPlace (w : World) (element : NodeId) (key : String) : Prop :=
  ∃ e, w.lookup? key = some e ∧ (w.entry e).element = element ∧
    (w.entry e).script = w.scriptOf element

theorem InPlace.holds (h : w.InPlace element key) : w.Holds element key := by
  obtain ⟨e, hfind, helement, -⟩ := h
  exact ⟨e, hfind, helement⟩

/-- Registering the element changes nothing. -/
structure Settled (naming : Naming) (w : World) (element : NodeId) (key : String) : Prop where
  /-- The key is the one that will be chosen. -/
  chosen : (w.named? element).or (w.keyOf? naming element) = some key
  filed : w.InPlace element key

theorem registerElement_of_settled {naming : Naming} (h : w.Settled naming element key) :
    w.registerElement naming element = (w, key) := by
  obtain ⟨key', generated, hchosen, hkey, hregisters⟩ := w.registers naming element
  rw [chooseKey_eq, h.chosen] at hchosen
  obtain ⟨rfl, rfl⟩ := Prod.mk.inj hchosen
  obtain ⟨e, hfind, helement, hscript⟩ := h.filed
  refine Prod.ext ?_ hkey
  generalize (w.registerElement naming element).1 = w' at hregisters
  cases hregisters with
  | known => rfl
  | changed i hi _ hchanged =>
      rw [Option.some.inj (hi.symm.trans hfind)] at hchanged
      exact absurd hscript hchanged
  | filed hother => exact absurd ⟨e, hfind, helement⟩ hother

/-- **Registering an element puts its entry in place.** -/
theorem inPlace_registerElement (hw : w.WellFiled) (naming : Naming) (element : NodeId) :
    (w.registerElement naming element).1.InPlace element (w.registerElement naming element).2 := by
  obtain ⟨key, generated, -, hkey, hregisters⟩ := w.registers naming element
  rw [hkey]
  exact hregisters.filed_self hw.sound

/-- **The entry stays in place** while others are registered under other keys. -/
theorem InPlace.registerElement (hw : w.WellFiled) (h : w.InPlace other key) (naming : Naming)
    (element : NodeId) (hapart : (w.registerElement naming element).2 = key → element = other) :
    (w.registerElement naming element).1.InPlace other key := by
  obtain ⟨place, generated, -, hkey, hregisters⟩ := w.registers naming element
  by_cases hplace : place = key
  · obtain rfl := hapart (hkey.trans hplace)
    subst hplace
    exact hregisters.filed_self hw.sound
  · obtain ⟨e, hfind, helement, hscript⟩ := h
    have hne : key ≠ place := fun heq => hplace heq.symm
    refine ⟨e, (hregisters.lookup_of_ne hne).trans hfind, ?_⟩
    rw [hregisters.entry_of_ne hw hne hfind, hregisters.scriptOf]
    exact ⟨helement, hscript⟩

end OneElement

/-! ## Registering a page -/

/-- No two elements have come by one key. -/
def Apart (pairs : List (NodeId × String)) : Prop :=
  ∀ p ∈ pairs, ∀ q ∈ pairs, p.2 = q.2 → p.1 = q.1

/-- The elements that have a script. -/
def scripted (w : World) : List NodeId := w.document.elementsWithAttr w.scriptAttr

/-- Elements with the keys they come by. -/
def enrolled (naming : Naming) (w : World) (elements : List NodeId) :
    List (NodeId × String) :=
  elements.zip (w.registerAll naming elements).2

/-- Elements without names, with the keys they have come by, would come by them again. -/
def Returns (naming : Naming) (w : World) (pairs : List (NodeId × String)) : Prop :=
  ∀ p ∈ pairs, w.named? p.1 = none → w.keyOf? naming p.1 = some p.2

/-- Elements without names have no entry but the one under the key they have come by. -/
def Single (w : World) (pairs : List (NodeId × String)) : Prop :=
  ∀ p ∈ pairs, w.named? p.1 = none → ∀ key, w.Holds p.1 key → key = p.2

section Page

variable {naming : Naming} {w : World}

theorem wellFiled_registerElement (hw : w.WellFiled) (naming : Naming) (element : NodeId) :
    (w.registerElement naming element).1.WellFiled := by
  obtain ⟨_, _, -, -, hregisters⟩ := w.registers naming element
  exact hregisters.wellFiled hw (keeps_registerElement hw.sound naming element).sound

theorem registerAll_cons (element : NodeId) (rest : List NodeId) :
    w.registerAll naming (element :: rest) =
      (((w.registerElement naming element).1.registerAll naming rest).1,
        (w.registerElement naming element).2 ::
          ((w.registerElement naming element).1.registerAll naming rest).2) :=
  rfl

theorem enrolled_cons (element : NodeId) (rest : List NodeId) :
    w.enrolled naming (element :: rest) =
      (element, (w.registerElement naming element).2) ::
        (w.registerElement naming element).1.enrolled naming rest :=
  rfl

theorem length_registerAll (elements : List NodeId) :
    (w.registerAll naming elements).2.length = elements.length := by
  induction elements generalizing w with
  | nil => rfl
  | cons element rest ih => rw [registerAll_cons, List.length_cons, List.length_cons, ih]

/-- The entry under a key stays with its element while the key is not given again. -/
theorem holds_registerAll (hw : w.WellFiled) {element : NodeId} {key : String}
    (h : w.Holds element key) (elements : List NodeId)
    (hkey : key ∉ (w.registerAll naming elements).2) :
    (w.registerAll naming elements).1.Holds element key := by
  induction elements generalizing w with
  | nil => exact h
  | cons other rest ih =>
      rw [registerAll_cons, List.mem_cons, not_or] at hkey
      obtain ⟨place, _, -, hplace, hregisters⟩ := w.registers naming other
      have hne : key ≠ place := fun heq => hkey.1 (heq.trans hplace.symm)
      exact ih (wellFiled_registerElement hw naming other)
        ((hregisters.holds_iff_of_ne hw hne).mpr h) hkey.2

/-- **The last element with a key owns the entry.** -/
theorem holds_of_last (hw : w.WellFiled) {elements : List NodeId}
    {before after : List (NodeId × String)} {element : NodeId} {key : String}
    (h : w.enrolled naming elements = before ++ (element, key) :: after)
    (hlast : key ∉ after.map (·.2)) :
    (w.registerAll naming elements).1.Holds element key := by
  induction elements generalizing w before with
  | nil => simp [enrolled] at h
  | cons other rest ih =>
      have hw' := wellFiled_registerElement hw naming other
      rw [enrolled_cons] at h
      rw [registerAll_cons]
      cases before with
      | nil =>
          obtain ⟨hpair, rfl⟩ := List.cons.inj h
          obtain ⟨rfl, rfl⟩ := Prod.mk.inj hpair
          obtain ⟨place, _, -, hplace, hregisters⟩ := w.registers naming other
          -- the rest of the page has other keys and leaves the entry where it is
          refine holds_registerAll hw' ?_ rest ?_
          · rw [hplace]
            exact hregisters.holds_self hw.sound
          · rw [enrolled, List.map_snd_zip (Nat.le_of_eq (length_registerAll rest))] at hlast
            exact hlast
      | cons first before => exact ih hw' (List.cons.inj h).2

theorem inPlace_registerAll (hw : w.WellFiled) {elements : List NodeId}
    {filed : List (NodeId × String)} (hfiled : ∀ p ∈ filed, w.InPlace p.1 p.2)
    (hapart : Apart (filed ++ w.enrolled naming elements)) :
    ∀ p ∈ filed ++ w.enrolled naming elements,
      (w.registerAll naming elements).1.InPlace p.1 p.2 := by
  induction elements generalizing w filed with
  | nil => exact fun p hp => hfiled p (by simpa [enrolled] using hp)
  | cons element rest ih =>
      rw [enrolled_cons, List.append_cons] at hapart ⊢
      refine ih (wellFiled_registerElement hw naming element) (fun p hp => ?_) hapart
      rcases List.mem_append.mp hp with hold | hnew
      · refine (hfiled p hold).registerElement hw naming element fun heq => ?_
        exact hapart (element, _) (by simp) p (by simp [hold]) heq
      · rw [List.mem_singleton.mp hnew]
        exact inPlace_registerElement hw naming element

/-- Elements with names get these as their keys. -/
theorem key_of_named {elements : List NodeId} :
    ∀ p ∈ w.enrolled naming elements, ∀ name, w.named? p.1 = some name → p.2 = name := by
  induction elements generalizing w with
  | nil => simp [enrolled]
  | cons element rest ih =>
      obtain ⟨_, _, -, -, hregisters⟩ := w.registers naming element
      rw [enrolled_cons, List.forall_mem_cons]
      refine ⟨fun name hname => registerElement_of_named hname, fun p hp name hname => ?_⟩
      rw [← hregisters.named?_eq] at hname
      exact ih p hp name hname

theorem registerAll_of_settled {elements : List NodeId} {keys : List String}
    (hlen : keys.length = elements.length) (h : ∀ p ∈ elements.zip keys, w.Settled naming p.1 p.2) :
    w.registerAll naming elements = (w, keys) := by
  induction elements generalizing keys with
  | nil =>
      rw [List.length_eq_zero_iff.mp hlen]
      rfl
  | cons element rest ih =>
      obtain ⟨key, keys, rfl⟩ := List.exists_cons_of_length_eq_add_one hlen
      rw [List.zip_cons_cons, List.forall_mem_cons] at h
      rw [registerAll_cons, registerElement_of_settled h.1, ih (Nat.succ.inj hlen) h.2]

theorem size_registerAll (hw : w.WellFiled) (naming : Naming) (elements : List NodeId) :
    w.entries.size ≤ (w.registerAll naming elements).1.entries.size := by
  induction elements generalizing w with
  | nil => exact Nat.le_refl _
  | cons element rest ih =>
      exact Nat.le_trans (keeps_registerElement hw.sound naming element).grows.entries
        (ih (wellFiled_registerElement hw naming element))

/-- **A registration that files no entry** finds every element's entry in place. -/
theorem holds_of_size_eq (hw : w.WellFiled) {elements : List NodeId}
    (hsize : (w.registerAll naming elements).1.entries.size = w.entries.size) :
    ∀ p ∈ w.enrolled naming elements, w.Holds p.1 p.2 := by
  induction elements generalizing w with
  | nil => simp [enrolled]
  | cons element rest ih =>
      rw [registerAll_cons] at hsize
      dsimp only at hsize
      have hw' := wellFiled_registerElement hw naming element
      have hfirst := (keeps_registerElement hw.sound naming element).grows.entries
      have hrest := size_registerAll hw' naming rest
      obtain ⟨place, _, -, hplace, hregisters⟩ := w.registers naming element
      have hholds : w.Holds element place := hregisters.holds_of_size_eq (by omega)
      rw [enrolled_cons, List.forall_mem_cons]
      refine ⟨hplace ▸ hholds, fun p hp => ?_⟩
      exact (hregisters.holds_iff_of_holds hw hholds).mp (ih hw' (by omega) p hp)

/-- And every element comes by the key that it would have come by first. -/
theorem chosen_of_size_eq (hw : w.WellFiled) {elements : List NodeId}
    (hsize : (w.registerAll naming elements).1.entries.size = w.entries.size) :
    ∀ p ∈ w.enrolled naming elements,
      (w.named? p.1).or (w.keyOf? naming p.1) = some p.2 := by
  induction elements generalizing w with
  | nil => simp [enrolled]
  | cons element rest ih =>
      have hholds := holds_of_size_eq hw hsize
      rw [registerAll_cons] at hsize
      dsimp only at hsize
      have hw' := wellFiled_registerElement hw naming element
      have hfirst := (keeps_registerElement hw.sound naming element).grows.entries
      have hrest := size_registerAll hw' naming rest
      obtain ⟨place, _, hchosen, hplace, hregisters⟩ := w.registers naming element
      rw [enrolled_cons, List.forall_mem_cons] at hholds ⊢
      have hown : w.Holds element place := hplace ▸ hholds.1
      refine ⟨?_, fun p hp => ?_⟩
      · -- it has a key, so none is made up
        obtain ⟨known, -, hknown⟩ := exists_keyOf? naming ((mem_heldBy_iff hw).mpr hown)
        rw [chooseKey_eq, hknown] at hchosen
        rw [hknown, hplace]
        cases hname : w.named? element with
        | none =>
            rw [hname] at hchosen
            exact congrArg some (Prod.mk.inj hchosen).1
        | some name =>
            rw [hname] at hchosen
            exact congrArg some (Prod.mk.inj hchosen).1
      · have hlast := ih hw' (by omega) p hp
        unfold keyOf? at hlast ⊢
        rw [hregisters.named?_eq, hregisters.heldBy_of_holds hw hown] at hlast
        exact hlast

theorem registerAll_frame (w : World) (naming : Naming) (elements : List NodeId) :
    (w.registerAll naming elements).1.document = w.document ∧
      (w.registerAll naming elements).1.scriptAttr = w.scriptAttr := by
  induction elements generalizing w with
  | nil => exact ⟨rfl, rfl⟩
  | cons element rest ih =>
      obtain ⟨_, _, -, -, hregisters⟩ := w.registers naming element
      rw [registerAll_cons]
      dsimp only
      obtain ⟨hdocument, hattr⟩ := ih (w.registerElement naming element).1
      exact ⟨hdocument.trans hregisters.document, hattr.trans hregisters.scriptAttr⟩

theorem named?_registerAll (w : World) (naming : Naming) (elements : List NodeId)
    (element : NodeId) : (w.registerAll naming elements).1.named? element = w.named? element := by
  obtain ⟨hdocument, hattr⟩ := registerAll_frame w naming elements
  unfold named? scriptOf
  rw [hdocument, hattr]

/-- **If no elements share a key, all entries are in place** once the page is registered. -/
theorem inPlace_enrolled (hw : w.WellFiled) {elements : List NodeId}
    (hapart : Apart (w.enrolled naming elements)) :
    ∀ p ∈ w.enrolled naming elements, (w.registerAll naming elements).1.InPlace p.1 p.2 :=
  @inPlace_registerAll naming w hw elements [] (fun _ hp => absurd hp List.not_mem_nil) hapart

/-- **Every element has the entry under its key** if and only if no two share one. -/
theorem holds_iff_apart (hw : w.WellFiled) (naming : Naming) (elements : List NodeId) :
    (∀ p ∈ w.enrolled naming elements, (w.registerAll naming elements).1.Holds p.1 p.2) ↔
      Apart (w.enrolled naming elements) := by
  constructor
  · intro h p hp q hq heq
    have hholds := h p hp
    rw [heq] at hholds
    exact hholds.unique (h q hq)
  · intro hapart p hp
    exact (inPlace_enrolled hw hapart p hp).holds

end Page

/-! ## All that happens in between -/

namespace SameFiling

variable {w w' : World}

theorem lookup (h : w.SameFiling w') (key : String) : w'.lookup? key = w.lookup? key := by
  unfold lookup?
  rw [h.table]

theorem holds_iff (h : w.SameFiling w') (element : NodeId) (key : String) :
    w'.Holds element key ↔ w.Holds element key := by
  unfold Holds
  rw [h.lookup]
  refine exists_congr fun e => and_congr_right fun _ => ?_
  rw [h.entries e]

theorem heldBy_eq (h : w.SameFiling w') (element : NodeId) :
    w'.heldBy element = w.heldBy element := by
  have hholds : w'.holds element = w.holds element := by
    funext key
    rw [Bool.eq_iff_iff, holds_eq_true_iff, holds_eq_true_iff]
    exact h.holds_iff element key
  unfold heldBy
  rw [h.order, hholds]

theorem keyOf?_eq (h : w.SameFiling w') (naming : Naming) (element : NodeId) :
    w'.keyOf? naming element = w.keyOf? naming element := by
  unfold keyOf?
  rw [h.heldBy_eq]

theorem scriptOf_eq (h : w.SameFiling w') (hdocument : w'.document = w.document)
    (element : NodeId) : w'.scriptOf element = w.scriptOf element := by
  unfold scriptOf
  rw [hdocument, h.scriptAttr]

theorem named?_eq (h : w.SameFiling w') (hdocument : w'.document = w.document)
    (element : NodeId) : w'.named? element = w.named? element := by
  unfold named?
  rw [h.scriptOf_eq hdocument, hdocument]

/-- Entries stay in place while the page is the same. -/
theorem inPlace (h : w.SameFiling w') (hdocument : w'.document = w.document) {element : NodeId}
    {key : String} (hfiled : w.InPlace element key) : w'.InPlace element key := by
  obtain ⟨e, hfind, helement, hsame⟩ := hfiled
  refine ⟨e, (h.lookup key).trans hfind, ?_⟩
  rw [h.entries e, h.scriptOf_eq hdocument]
  exact ⟨helement, hsame⟩

theorem wellFiled (h : w.SameFiling w') (hsound : w'.Sound) (hw : w.WellFiled) : w'.WellFiled where
  sound := hsound
  keyed := fun key e hfind => by
    rw [h.entries e]
    exact hw.keyed key e (h.lookup key ▸ hfind)
  listed := fun key e hfind => by
    rw [h.order]
    exact hw.listed key e (h.lookup key ▸ hfind)

end SameFiling

theorem listed_remove {w : World} (hw : w.Listed) (key : String) : (w.remove key).Listed := by
  intro other e hfind
  rw [lookup_remove] at hfind
  split at hfind
  · contradiction
  · rename_i hne
    have hmem := hw other e hfind
    unfold remove
    split
    · exact hmem
    · exact (List.mem_erase_of_ne hne).mpr hmem

end World

namespace Machine

/-- A happening that registers and removes nothing. -/
def Happening.Calm : Happening → Prop
  | .register .. => False
  | .remove .. => False
  | _ => True

theorem sameFiling_of_calm {m : Machine} (hm : m.Sound) {h : Happening} (hcalm : h.Calm) :
    m.world.SameFiling (m.after h).world := by
  refine sameFiling_after hm ?_ ?_
  · rintro naming element rfl
    exact hcalm
  · rintro key rfl
    exact hcalm

/-- **What a happening does to the entries that are filed**: nothing, a registration or a removal. -/
theorem filing_cases {m : Machine} (hm : m.Sound) (h : Happening) :
    m.world.SameFiling (m.after h).world ∨
      (∃ element key generated, m.world.Registers element key generated (m.after h).world) ∨
      ∃ key, h = .remove key := by
  by_cases hcalm : h.Calm
  · exact .inl (sameFiling_of_calm hm hcalm)
  · cases h with
    | register naming element =>
        obtain ⟨key, generated, -, -, hregisters⟩ := m.world.registers naming element
        exact .inr (.inl ⟨element, key, generated, hregisters⟩)
    | remove key => exact .inr (.inr ⟨key, rfl⟩)
    | start | settle | interrupt | control | load | verbs | host => exact absurd trivial hcalm

theorem sameFiling_afterAll {m : Machine} (hm : m.Sound) {history : List Happening}
    (hcalm : ∀ h ∈ history, h.Calm) : m.world.SameFiling (m.afterAll history).world := by
  induction history generalizing m with
  | nil => exact .refl _
  | cons h history ih =>
      rw [List.forall_mem_cons] at hcalm
      exact (sameFiling_of_calm hm hcalm.1).trans (ih (sound_step hm (step_after m h)).1 hcalm.2)

theorem wellFiled_after {m : Machine} (hm : m.Sound) (hw : m.world.WellFiled) (h : Happening) :
    (m.after h).world.WellFiled := by
  have hsound : (m.after h).Sound := (sound_step hm (step_after m h)).1
  rcases filing_cases hm h with hsame | ⟨_, _, _, hregisters⟩ | ⟨key, rfl⟩
  · exact hsame.wellFiled hsound.world hw
  · exact hregisters.wellFiled hw hsound.world
  · exact ⟨hsound.world, keyed_after hm hw.keyed (.remove key), World.listed_remove hw.listed key⟩

theorem wellFiled_reachable {m : Machine} (hm : m.Reachable) : m.world.WellFiled := by
  refine hm.induction (P := fun m => m.world.WellFiled) ?_
    (fun m h hm ih => wellFiled_after (sound_reachable hm) ih h) fun _ _ ih => ih
  intro document scriptAttr verbs hv
  refine ⟨(sound_init document scriptAttr hv).world, ?_, ?_⟩ <;> intro key e he <;>
    simp [init, World.lookup?] at he

/-- The machine after the page has been registered. -/
def enrol (m : Machine) (naming : Naming) : Machine :=
  { m with world := (m.world.register naming).1 }

theorem Reachable.enrol {m : Machine} (hm : m.Reachable) (naming : Naming) :
    (m.enrol naming).Reachable :=
  hm.leads (leads_register naming _ m)

/-- **The next registration** gives the same keys and changes nothing if and only if the keys are
apart and the elements without names would come by theirs again. -/
theorem register_eq_iff {m : Machine} (hm : m.Reachable) (naming : Naming)
    {history : List Happening} (hcalm : ∀ h ∈ history, h.Calm)
    (hdocument : ((m.enrol naming).afterAll history).world.document = m.world.document)
    (naming' : Naming) :
    ((m.enrol naming).afterAll history).world.register naming' =
        (((m.enrol naming).afterAll history).world, (m.world.register naming).2) ↔
      World.Apart (m.world.enrolled naming m.world.scripted) ∧
        (m.enrol naming).world.Returns naming' (m.world.enrolled naming m.world.scripted) := by
  have hw := wellFiled_reachable hm
  have hall := World.holds_iff_apart hw naming m.world.scripted
  have hfiling := sameFiling_afterAll (sound_reachable (hm.enrol naming)) hcalm
  have hw' := wellFiled_reachable ((hm.enrol naming).afterAll history)
  obtain ⟨hpage, hattr⟩ := World.registerAll_frame m.world naming m.world.scripted
  generalize ((m.enrol naming).afterAll history).world = later at *
  have hsame : later.document = (m.enrol naming).world.document := hdocument.trans hpage.symm
  have hscripted : later.scripted = m.world.scripted := by
    unfold World.scripted
    rw [hdocument, hfiling.scriptAttr]
    exact congrArg _ hattr
  have hregister : later.register naming' = later.registerAll naming' m.world.scripted :=
    congrArg _ hscripted
  rw [hregister]
  constructor
  · -- nothing is filed, so every entry is in place, and none can be in two elements' place
    intro hstays
    have hsize : (later.registerAll naming' m.world.scripted).1.entries.size =
        later.entries.size := by rw [hstays]
    have hpairs : later.enrolled naming' m.world.scripted =
        m.world.enrolled naming m.world.scripted := by
      unfold World.enrolled
      rw [hstays]
      rfl
    have hholds := World.holds_of_size_eq hw' hsize
    have hchosen := World.chosen_of_size_eq hw' hsize
    rw [hpairs] at hholds hchosen
    refine ⟨hall.mp fun p hp => (hfiling.holds_iff _ _).mp (hholds p hp), fun p hp hname => ?_⟩
    have hp' := hchosen p hp
    rw [hfiling.named?_eq hsame, hname, Option.none_or, hfiling.keyOf?_eq] at hp'
    exact hp'
  · rintro ⟨hapart, hreturns⟩
    refine World.registerAll_of_settled (World.length_registerAll _) fun p hp => ⟨?_, ?_⟩
    · rw [hfiling.named?_eq hsame, hfiling.keyOf?_eq]
      cases hname : (m.enrol naming).world.named? p.1 with
      | none => exact hreturns p hp hname
      | some name =>
          have hfirst : m.world.named? p.1 = some name := by
            rw [← hname]
            exact (World.named?_registerAll m.world naming m.world.scripted p.1).symm
          exact congrArg some (World.key_of_named p hp name hfirst).symm
    · exact hfiling.inPlace hsame (World.inPlace_enrolled hw hapart p hp)

/-- **Entries last if and only if no two elements share a key**, and none without a name has two.
When a page is registered, every element with a script gets a key, and of those with one key the last
has the entry. So every one of them has the entry under its key if and only if the keys are apart.
Whether the next registration gives the same keys and changes nothing at all, whatever has happened
in between that left the page as it was, takes more: the keys must be apart, and it must pick the
keys of the elements without names as before. It does so whatever it picks if and only if each of
these elements has one entry only. -/
theorem entries_last_iff_apart {m : Machine} (hm : m.Reachable) (naming : Naming) :
    let pairs := m.world.enrolled naming m.world.scripted
    let keys := (m.world.register naming).2
    keys.length = m.world.scripted.length ∧
      (∀ before element key after, pairs = before ++ (element, key) :: after →
        key ∉ after.map (·.2) → (m.enrol naming).world.Holds element key) ∧
      ((∀ p ∈ pairs, (m.enrol naming).world.Holds p.1 p.2) ↔ World.Apart pairs) ∧
      ∀ history : List Happening, (∀ h ∈ history, h.Calm) →
        ((m.enrol naming).afterAll history).world.document = m.world.document →
        (∀ naming' : Naming, ((m.enrol naming).afterAll history).world.register naming' =
            (((m.enrol naming).afterAll history).world, keys) ↔
          World.Apart pairs ∧ (m.enrol naming).world.Returns naming' pairs) ∧
        ((∀ naming' : Naming, ((m.enrol naming).afterAll history).world.register naming' =
            (((m.enrol naming).afterAll history).world, keys)) ↔
          World.Apart pairs ∧ (m.enrol naming).world.Single pairs) := by
  intro pairs keys
  have hw := wellFiled_reachable hm
  have hall := World.holds_iff_apart hw naming m.world.scripted
  refine ⟨World.length_registerAll _, fun _ _ _ _ => World.holds_of_last hw, hall, ?_⟩
  intro history hcalm hdocument
  have hone := register_eq_iff hm naming hcalm hdocument
  refine ⟨hone, ?_⟩
  have hw' := wellFiled_reachable (hm.enrol naming)
  have hheld : ∀ {p}, p ∈ pairs → World.Apart pairs → p.2 ∈ (m.enrol naming).world.heldBy p.1 :=
    fun hp hapart => (World.mem_heldBy_iff hw').mpr (hall.mpr hapart _ hp)
  constructor
  · intro hstays
    have hapart : World.Apart pairs := ((hone .numbered).mp (hstays .numbered)).1
    refine ⟨hapart, fun p hp hname key hkey => ?_⟩
    refine (World.forall_keyOf?_iff (hheld hp hapart)).mp (fun naming' => ?_) key
      ((World.mem_heldBy_iff hw').mpr hkey)
    exact ((hone naming').mp (hstays naming')).2 p hp hname
  · rintro ⟨hapart, hsingle⟩ naming'
    refine (hone naming').mpr ⟨hapart, fun p hp hname => ?_⟩
    refine (World.forall_keyOf?_iff (hheld hp hapart)).mpr (fun other hother => ?_) naming'
    exact hsingle p hp hname other ((World.mem_heldBy_iff hw').mp hother)

/-- On a page with one script nothing is lost when the page is registered again after a run. -/
theorem single_entry_lasts :
    (((page "&x:1" []).enrol .numbered).afterAll [.start "p" 0]).world.register .numbered =
      ((((page "&x:1" []).enrol .numbered).afterAll [.start "p" 0]).world, ["p"]) := by
  have hm : (page "&x:1" []).Reachable :=
    ⟨_, _, [], fun _ _ h => absurd h List.not_mem_nil, .refl _⟩
  have hfacts : ((page "&x:1" []).world.register .numbered).2 = ["p"] ∧
      (page "&x:1" []).world.enrolled .numbered (page "&x:1" []).world.scripted = [(⟨1⟩, "p")] ∧
      ((page "&x:1" []).enrol .numbered).world.named? ⟨1⟩ = some "p" ∧
      (((page "&x:1" []).enrol .numbered).afterAll [.start "p" 0]).world.document.nodes =
        (page "&x:1" []).world.document.nodes := by
    decide +kernel
  obtain ⟨hkeys, hpairs, hname, hnodes⟩ := hfacts
  rw [← hkeys]
  refine ((((entries_last_iff_apart hm .numbered).2.2.2 [.start "p" 0] ?_ ?_).1 _).mpr ⟨?_, ?_⟩)
  · exact List.forall_mem_singleton.mpr trivial
  · exact congrArg (Document.mk · _) hnodes
  · rw [hpairs]
    intro p hp q hq _
    rw [List.mem_singleton.mp hp, List.mem_singleton.mp hq]
  · rw [hpairs]
    refine List.forall_mem_singleton.mpr fun hnone => ?_
    rw [hname] at hnone
    cases hnone

/-- A page with two elements that have no id and the same script. -/
def twins : Machine :=
  init { nodes := #[⟨.document, [⟨1⟩, ⟨2⟩]⟩, ⟨.element "p" "" [⟨"", "inline", "&x:1"⟩], []⟩,
    ⟨.element "p" "" [⟨"", "inline", "&x:1"⟩], []⟩] } "inline" []

/-- Whether the entry under a key has a variable. -/
def remembers (m : Machine) (key name : String) : Bool :=
  match m.world.lookup? key with
  | some e => (m.world.entry e).vars.has name
  | none => false

/-- The first of the two has no entry; and what a run has stored is lost when the page is registered
again, although the page is the same. -/
theorem shared_key_loses_entry_and_store :
    ⟨1⟩ ∈ twins.world.scripted ∧
      (∀ key, ¬ (twins.enrol .numbered).world.Holds ⟨1⟩ key) ∧
      ((twins.enrol .numbered).after (.start "&x:1" 0)).world.document = twins.world.document ∧
      ((twins.enrol .numbered).after (.start "&x:1" 0)).remembers "&x:1" "x" = true ∧
      (((twins.enrol .numbered).after (.start "&x:1" 0)).enrol .numbered).remembers "&x:1" "x" =
        false := by
  have hfacts : ⟨1⟩ ∈ twins.world.scripted ∧
      (∀ p ∈ (twins.enrol .numbered).world.table,
        ((twins.enrol .numbered).world.entry p.2).element ≠ ⟨1⟩) ∧
      ((twins.enrol .numbered).after (.start "&x:1" 0)).world.document.nodes =
        twins.world.document.nodes ∧
      ((twins.enrol .numbered).after (.start "&x:1" 0)).remembers "&x:1" "x" = true ∧
      (((twins.enrol .numbered).after (.start "&x:1" 0)).enrol .numbered).remembers "&x:1" "x" =
        false := by
    decide +kernel
  obtain ⟨hscripted, htable, hnodes, hbefore, hafter⟩ := hfacts
  refine ⟨hscripted, ?_, congrArg (Document.mk · _) hnodes, hbefore, hafter⟩
  rintro key ⟨e, hfind, helement⟩
  exact htable (key, e) (mem_of_lookup hfind) helement

/-- A page with one element, whose script is blank. -/
def blankPage (attrs : List Html.Attr) : Document :=
  { nodes := #[⟨.document, [⟨1⟩]⟩, ⟨.element "p" "" (⟨"", "inline", ""⟩ :: attrs), []⟩] }

/-- The element has been registered under two ids, one after the other, and has none now. -/
def renamed : Machine :=
  (init (blankPage [⟨"", "id", "a"⟩]) "inline" []).afterAll
    [.register .numbered ⟨1⟩, .host (blankPage [⟨"", "id", "b"⟩]) none 0 [],
      .register .numbered ⟨1⟩, .host (blankPage []) none 0 []]

/-- It shares no key, and yet the next registration may give it the other one. -/
theorem nameless_element_changes_keys :
    World.Apart (renamed.world.enrolled .numbered renamed.world.scripted) ∧
      (renamed.world.register .numbered).2 = ["a"] ∧
      ((renamed.enrol .numbered).world.register { Naming.numbered with pick := fun _ => 1 }).2 =
        ["b"] := by
  unfold World.Apart
  decide +kernel

end Machine

end PageMacro
