import PageMacro.Proofs.JsonRoundTrip
import PageMacro.Proofs.Registration
import PageMacro.Session.Open

/-!
# Saved variables

At the end of a run the variables of all entries are written as one JSON text, and the next session
on the page starts with what it reads there. Two things can go wrong.

A value that JSON cannot carry should be written as its text, but `Session.exported` looks only at
objects. A number that is not finite is passed on as it is, and then the whole state cannot be
written: `isSome_vars` says that this is the only case.

And the text that is written goes two levels deeper than the values in it, so that a value as deep
as the reader allows is written but not read. Within that depth every variable comes back with its
kind and its text. On the way there, `Carried.exists_trip` says what is read for the text, and
`restore_vars` what becomes of it.
-/

namespace PageMacro

/-! ## What can be written -/

namespace Json

theorem isSome_one {α β : Type} (o : Option α) (f : α → β) :
    (do let a ← o; return f a : Option β).isSome = o.isSome := by
  cases o <;> rfl

theorem isSome_two {α β γ : Type} (o : Option α) (p : Option β) (f : α → β → γ) :
    (do let a ← o; let b ← p; return f a b : Option γ).isSome = (o.isSome && p.isSome) := by
  cases o <;> cases p <;> rfl

mutual

/-- Whether a tree can be written does not depend on the layout. -/
theorem isSome_write? (a b : Spacing) : ∀ t : Tree, (write? a t).isSome = (write? b t).isSome
  | .null | .bool _ | .num _ | .int _ | .str _ | .record _ | .element _ => by rw [write?, write?]
  | .intMap _ => by
      rw [write?, write?]
      rfl
  | .list items => by
      rw [write?, write?, isSome_one, isSome_one]
      exact isSome_writeItems? a.inner b.inner items
  | .map fields => by
      rw [write?, write?, isSome_one, isSome_one]
      exact isSome_writeFields? a.inner b.inner fields

theorem isSome_writeItems? (a b : Spacing) :
    ∀ items : List Tree, (writeItems? a items).isSome = (writeItems? b items).isSome
  | [] => rfl
  | item :: rest => by
      rw [writeItems?, writeItems?, isSome_two, isSome_two, isSome_write? a b item,
        isSome_writeItems? a b rest]

theorem isSome_writeFields? (a b : Spacing) :
    ∀ fields : List (String × Tree), (writeFields? a fields).isSome = (writeFields? b fields).isSome
  | [] => rfl
  | (name, value) :: rest => by
      rw [writeFields?, writeFields?, isSome_two, isSome_two, isSome_write? a b value,
        isSome_writeFields? a b rest]

end

/-- A map can be written if what is in its fields can. -/
theorem isSome_write?_map (spacing : Spacing) (fields : List (String × Tree)) :
    (write? spacing (.map fields)).isSome = true ↔
      ∀ f ∈ fields, (compact? f.2).isSome = true := by
  rw [isSome_write? spacing .line, write?, isSome_one]
  show (writeFields? .line fields).isSome = true ↔ _
  induction fields with
  | nil => exact ⟨fun _ _ h => absurd h List.not_mem_nil, fun _ => rfl⟩
  | cons field rest ih =>
      rw [writeFields?, isSome_two, Bool.and_eq_true, ih, List.forall_mem_cons]
      rfl

end Json

/-- A number that is finite, or no number. -/
def Value.Finite : Value → Prop
  | .number x => x.isFinite = true
  | _ => True

namespace Session

/-- **Of all values only numbers that are not finite** are passed on although they cannot be
written. -/
theorem isSome_exported (label : NodeId → String) (v : Value) :
    (Json.compact? (exported label v)).isSome = true ↔ v.Finite := by
  cases v with
  | undefined | boolean | string => exact ⟨fun _ => trivial, fun _ => rfl⟩
  | number x =>
      show (Json.numberText? x).isSome = true ↔ x.isFinite = true
      unfold Json.numberText?
      cases x.isFinite <;> simp
  | object t =>
      refine ⟨fun _ => trivial, fun _ => ?_⟩
      dsimp only [exported]
      split
      · rename_i hsome
        exact hsome
      · rfl

/-- The fields that an entry is saved as. -/
def savedFields (s : Session) (e : EntryId) : List (String × Tree) :=
  (s.world.entry e).vars.vars.map fun (name, v) => (name, exported s.world.document.label v)

/-- The entries as they are saved. -/
def savedEntries (s : Session) : List (String × Tree) :=
  s.world.order.filterMap fun key =>
    (s.world.lookup? key).map fun e => (key, .map (s.savedFields e))

theorem vars_eq (s : Session) : s.vars = .map s.savedEntries := rfl

theorem mem_savedEntries {s : Session} (hw : s.world.Listed) {key : String} {t : Tree} :
    (key, t) ∈ s.savedEntries ↔
      ∃ e, s.world.lookup? key = some e ∧ t = .map (s.savedFields e) := by
  unfold savedEntries
  rw [List.mem_filterMap]
  constructor
  · rintro ⟨other, -, hmap⟩
    obtain ⟨e, hfind, heq⟩ := Option.map_eq_some_iff.mp hmap
    obtain ⟨rfl, rfl⟩ := Prod.mk.inj heq
    exact ⟨e, hfind, rfl⟩
  · rintro ⟨e, hfind, rfl⟩
    exact ⟨key, hw key e hfind, by rw [hfind]; rfl⟩

/-- No variable of an entry is a number that is not finite. -/
def Finite (s : Session) : Prop :=
  ∀ key e, s.world.lookup? key = some e → ∀ f ∈ (s.world.entry e).vars.vars, f.2.Finite

/-- **The variables can be written if and only if all numbers are finite**, in either layout. -/
theorem isSome_vars {s : Session} (hw : s.world.Listed) (spacing : Json.Spacing) :
    (Json.write? spacing s.vars).isSome = true ↔ s.Finite := by
  rw [vars_eq, Json.isSome_write?_map]
  constructor
  · intro h key e hfind f hf
    have hmap := h (key, .map (s.savedFields e)) ((mem_savedEntries hw).mpr ⟨e, hfind, rfl⟩)
    rw [Json.compact?, Json.isSome_write?_map] at hmap
    exact (isSome_exported _ f.2).mp (hmap _ (List.mem_map_of_mem hf))
  · rintro h ⟨key, t⟩ hmem
    obtain ⟨e, hfind, rfl⟩ := (mem_savedEntries hw).mp hmem
    rw [Json.compact?, Json.isSome_write?_map]
    intro field hfield
    obtain ⟨f, hf, rfl⟩ := List.mem_map.mp hfield
    exact (isSome_exported _ f.2).mpr (h key e hfind f hf)

theorem output_vars {s : Session} (hw : s.world.Listed) : (s.output true).2 = none ↔ s.Finite := by
  rw [← isSome_vars hw (.block 0)]
  show (if true = true then _ else _ : String × Option Error).2 = none ↔
    (Json.indented? s.vars).isSome = true
  rw [if_pos rfl]
  cases Json.indented? s.vars <;> simp

theorem save_iff {s : Session} (hw : s.world.Listed) {cache : Cache.Manager}
    (hcache : s.cache = some cache) : (∃ saved, s.save = .ok saved) ↔ s.Finite := by
  rw [← isSome_vars hw .line]
  unfold save Cache.Manager.saveState
  rw [hcache]
  show _ ↔ (Json.compact? s.vars).isSome = true
  cases Json.compact? s.vars <;> simp

end Session

/-! ## The list of keys -/

namespace World

/-- Every key is listed once, and has an entry. -/
structure Ordered (w : World) : Prop where
  nodup : w.order.Nodup
  filed : ∀ key ∈ w.order, (w.lookup? key).isSome = true

theorem Ordered.of_same {w w' : World} (h : w.Ordered) (horder : w'.order = w.order)
    (htable : w'.table = w.table) : w'.Ordered := by
  refine ⟨horder ▸ h.nodup, fun key hkey => ?_⟩
  rw [horder] at hkey
  unfold lookup?
  rw [htable]
  exact h.filed key hkey

theorem Registers.ordered {w w' : World} {element : NodeId} {place : String} {generated : Nat}
    (hw : w.Ordered) (h : w.Registers element place generated w') : w'.Ordered := by
  cases h with
  | known e => exact hw.of_same rfl rfl
  | changed e => exact hw.of_same rfl rfl
  | filed hother =>
      have hlookup := lookup_fileEntry { w with generated } place (w.scriptOf element) element
      have hwas : ∀ other, ({ w with generated } : World).lookup? other = w.lookup? other :=
        fun _ => rfl
      constructor
      · rw [fileEntry_order]
        split
        · rename_i hnone
          refine List.nodup_append.mpr ⟨hw.nodup, by simp, fun a ha b hb => ?_⟩
          rintro rfl
          rw [List.mem_singleton.mp hb] at ha
          have hsome := hw.filed place ha
          rw [hwas, Option.isNone_iff_eq_none] at hnone
          rw [hnone] at hsome
          cases hsome
        · exact hw.nodup
      · intro other hother
        rw [hlookup]
        split
        · rfl
        · rename_i hne
          rw [fileEntry_order] at hother
          refine hw.filed other ?_
          split at hother
          · exact (List.mem_append.mp hother).resolve_right fun hmem =>
              hne (List.mem_singleton.mp hmem)
          · exact hother

theorem Ordered.remove {w : World} (hw : w.Ordered) (key : String) : (w.remove key).Ordered := by
  have hlookup := lookup_remove w key
  unfold World.remove at hlookup ⊢
  cases hfind : w.lookup? key with
  | none => exact hw
  | some e =>
      rw [hfind] at hlookup
      refine ⟨hw.nodup.erase key, fun other hother => ?_⟩
      obtain ⟨hne, hmem⟩ := (hw.nodup.mem_erase_iff).mp hother
      rw [hlookup, if_neg hne]
      exact hw.filed other hmem

end World

namespace Machine

theorem ordered_after {m : Machine} (hm : m.Sound) (hw : m.world.Ordered) (h : Happening) :
    (m.after h).world.Ordered := by
  rcases filing_cases hm h with hsame | ⟨_, _, _, hregisters⟩ | ⟨key, rfl⟩
  · exact hw.of_same hsame.order hsame.table
  · exact hregisters.ordered hw
  · exact hw.remove key

theorem ordered_reachable {m : Machine} (hm : m.Reachable) : m.world.Ordered := by
  refine hm.induction (P := fun m => m.world.Ordered) ?_
    (fun m h hm ih => ordered_after (sound_reachable hm) ih h) fun _ _ ih => ih
  exact fun _ _ _ _ => ⟨List.nodup_nil, fun _ h => absurd h List.not_mem_nil⟩

end Machine

/-! ## What is read -/

namespace Json

/-- What is read for the fields of a map: as many under the same names, and what is read for a field
is related to it. -/
structure Reads (Q : Tree → Tree → Prop) (fields read : List (String × Tree)) : Prop where
  names : (read.map Prod.fst).Perm (fields.map Prod.fst)
  values : ∀ name t, (name, t) ∈ fields → ∃ t', (name, t') ∈ read ∧ Q t t'
  sources : ∀ name t', (name, t') ∈ read → ∃ t, (name, t) ∈ fields ∧ Q t t'

variable {Q : Tree → Tree → Prop}

theorem reads_of_spelt {spelt : List Field} {fields : List (String × Tree)}
    (h : List.Forall₂ (fun f field => f.name = field.1 ∧ Q field.2 f.tree) spelt fields) :
    Reads Q fields (spelt.map Field.read) := by
  induction h with
  | nil => exact ⟨.refl _, nofun, nofun⟩
  | @cons f field spelt fields hfirst _ ih =>
      obtain ⟨hname, hq⟩ := hfirst
      refine ⟨?_, fun name t hmem => ?_, fun name t' hmem => ?_⟩
      · rw [List.map_cons, List.map_cons, List.map_cons, Field.read, hname]
        exact ih.names.cons _
      · rcases List.mem_cons.mp hmem with rfl | hmem
        · exact ⟨f.tree, List.mem_cons.mpr (.inl (Prod.ext hname.symm rfl)), hq⟩
        · obtain ⟨t', ht', hq'⟩ := ih.values name t hmem
          exact ⟨t', List.mem_cons_of_mem _ ht', hq'⟩
      · rcases List.mem_cons.mp hmem with heq | hmem
        · obtain ⟨rfl, rfl⟩ := Prod.mk.inj heq
          exact ⟨field.2, hname ▸ List.mem_cons_self, hq⟩
        · obtain ⟨t, ht, hq'⟩ := ih.sources name t' hmem
          exact ⟨t, List.mem_cons_of_mem _ ht, hq'⟩

theorem Reads.perm {fields read read' : List (String × Tree)} (h : Reads Q fields read)
    (hperm : read'.Perm read) : Reads Q fields read' := by
  refine ⟨(hperm.map Prod.fst).trans h.names, fun name t hmem => ?_, fun name t' hmem => ?_⟩
  · obtain ⟨t', ht', hq⟩ := h.values name t hmem
    exact ⟨t', hperm.mem_iff.mpr ht', hq⟩
  · exact h.sources name t' (hperm.mem_iff.mp hmem)

/-- **What is read for a map.** -/
theorem exists_reads {fields : List (String × Tree)} (hnames : (fields.map Prod.fst).Nodup)
    (hwhole : ∀ f ∈ fields, Text.isWhole f.1 = true)
    (h : ∀ f ∈ fields, ∃ t' text, Trip f.2 t' text ∧ Q f.2 t') :
    ∃ read text, Trip (.map fields) (.map read) text ∧ Reads Q fields read := by
  obtain ⟨spelt, text, htrip, hsame⟩ := trip_map hnames hwhole h
  have hperm : (Field.sorted spelt).Perm spelt := List.mergeSort_perm _ _
  exact ⟨_, text, htrip, (reads_of_spelt hsame).perm (hperm.map Field.read)⟩

end Json

namespace Value

/-- The kind and the text of a value are those of another. -/
structure Matches (v w : Value) : Prop where
  kind : v.kind = w.kind
  text : ∀ label, v.text label = w.text label

theorem ofTree_of_kind {t : Tree} (h : (ofTree t).kind = .object) : ofTree t = .object t := by
  cases t <;> first | rfl | cases h

/-- The value that is read has the kind and the text of the one that was written. -/
theorem matches_of_returns {t t' : Tree} (h : Json.Returns t t') :
    (ofTree t').Matches (ofTree t) := by
  refine ⟨h.kind, fun label => ?_⟩
  by_cases hkind : (ofTree t).kind = .object
  · rw [ofTree_of_kind hkind, ofTree_of_kind (h.kind.trans hkind)]
    exact h.text label
  · rw [h.scalar hkind]

/-- An object is a list or a map as JSON is read; other values are free. -/
def Decoded : Value → Prop
  | .object t => Json.Plain t ∧ (ofTree t).kind = .object
  | _ => True

theorem exported_object (label : NodeId → String) (t : Tree) :
    Session.exported label (.object t) =
      if (Json.compact? t).isSome then t else .str (t.text label) :=
  rfl

/-- Such a value is saved as what it is. -/
theorem Decoded.exported {v : Value} (h : v.Decoded) {label : NodeId → String}
    (hlegible : Json.Legible (Session.exported label v)) :
    Json.Plain (Session.exported label v) ∧ ofTree (Session.exported label v) = v := by
  cases v with
  | undefined => exact ⟨.null, rfl⟩
  | boolean b => exact ⟨.bool b, rfl⟩
  | number x =>
      cases hlegible with
      | num hback => exact ⟨.num hback, rfl⟩
  | string s =>
      cases hlegible with
      | str hwhole => exact ⟨.str hwhole, rfl⟩
  | object t =>
      obtain ⟨_, _, htrip⟩ := Json.exists_roundTrip h.1
      rw [exported_object, Json.compact?, htrip.written]
      exact ⟨h.1, ofTree_of_kind h.2⟩

end Value

/-- An enabled cache gives back what it was given. -/
theorem Cache.Manager.get_set {m : Manager} (henabled : m.disabled = false) (key content : String) :
    ((m.set key content).get key).1 = some content := by
  have hput : (m.database.put key content).get? key = some content := by
    unfold Database.put Database.get?
    rw [lookup_putField, if_pos rfl]
  have hset : m.set key content = { m with database := m.database.put key content } := by
    unfold set
    rw [henabled, if_neg Bool.false_ne_true]
  rw [hset]
  unfold get
  dsimp only
  rw [henabled, if_neg Bool.false_ne_true, hput]

namespace Session

/-! ## Reading the state -/

/-- The variables that are loaded under a key. -/
def loaded (stores : List (String × List (String × Tree))) (key : String) :
    List (String × Value) :=
  ((stores.lookup key).getD []).map fun f => (f.1, .ofTree f.2)

theorem loadVars_vars {w : World} (hw : w.WellFiled) {key : String} {e : EntryId}
    (hfind : w.lookup? key = some e) (other : String) (values : List (String × Value)) :
    ((w.loadVars other values).1.entry e).vars =
      if key = other then (w.entry e).vars.setAll values else (w.entry e).vars := by
  unfold World.loadVars
  cases hother : w.lookup? other with
  | none =>
      rw [if_neg]
      rintro rfl
      cases hfind.symm.trans hother
  | some i =>
      dsimp only
      rw [World.entry_modifyEntryVars w i e _ (hw.sound.table other i (mem_of_lookup hother))]
      by_cases hkey : key = other
      · subst hkey
        obtain rfl : e = i := Option.some.inj (hfind.symm.trans hother)
        rw [if_pos rfl, if_pos rfl]
      · -- another key has another entry
        have hne : e ≠ i := by
          rintro rfl
          exact hkey ((hw.keyed key e hfind).symm.trans (hw.keyed other e hother))
        rw [if_neg hne, if_neg hkey]

/-- Loads variables for one key after the other. -/
def loadEach (w : World) (loads : List (String × List (String × Value))) : World :=
  loads.foldl (fun w load => (w.loadVars load.1 load.2).1) w

/-- All that is loaded under a key, in order. -/
def under (loads : List (String × List (String × Value))) (key : String) : List (String × Value) :=
  (loads.filter fun load => load.1 == key).flatMap Prod.snd

/-- Saved fields as values. -/
def decoded (stores : List (String × List (String × Tree))) :
    List (String × List (String × Value)) :=
  stores.map fun store => (store.1, store.2.map fun f => (f.1, Value.ofTree f.2))

/-- Loading variables leaves all entries filed as they are. -/
theorem sameFiling_loadEach (loads : List (String × List (String × Value))) :
    ∀ w : World, w.SameFiling (loadEach w loads) := by
  induction loads with
  | nil => exact .refl
  | cons load rest ih =>
      exact fun w => (World.Beside.loadVars w load.1 load.2).toSameFiling.trans (ih _)

theorem wellFiled_loadVars {w : World} (hw : w.WellFiled) (key : String)
    (values : List (String × Value)) : (w.loadVars key values).1.WellFiled :=
  (World.Beside.loadVars w key values).toSameFiling.wellFiled
    (World.keeps_loadVars hw.sound key values).sound hw

theorem wellFiled_loadEach (loads : List (String × List (String × Value))) :
    ∀ w : World, w.WellFiled → (loadEach w loads).WellFiled := by
  induction loads with
  | nil => exact fun _ hw => hw
  | cons load rest ih => exact fun w hw => ih _ (wellFiled_loadVars hw load.1 load.2)

theorem under_cons (load : String × List (String × Value))
    (rest : List (String × List (String × Value))) (key : String) :
    under (load :: rest) key = if key = load.1 then load.2 ++ under rest key else under rest key := by
  unfold under
  rw [List.filter_cons]
  by_cases hkey : key = load.1
  · rw [if_pos hkey, if_pos (beq_iff_eq.mpr hkey.symm), List.flatMap_cons]
  · have hne : ¬ (load.1 == key) = true := fun heq => hkey (beq_iff_eq.mp heq).symm
    rw [if_neg hkey, if_neg hne]

/-- **An entry gets what is loaded under its key**, and nothing else. -/
theorem vars_loadEach (loads : List (String × List (String × Value))) {key : String} {e : EntryId} :
    ∀ w : World, w.WellFiled → w.lookup? key = some e →
      ((loadEach w loads).entry e).vars = (w.entry e).vars.setAll (under loads key) := by
  induction loads with
  | nil => exact fun _ _ _ => rfl
  | cons load rest ih =>
      intro w hw hfind
      have hsame := (World.Beside.loadVars w load.1 load.2).toSameFiling
      have hrest := ih _ (wellFiled_loadVars hw load.1 load.2) ((hsame.lookup key).trans hfind)
      show ((loadEach (w.loadVars load.1 load.2).1 rest).entry e).vars = _
      rw [hrest, loadVars_vars hw hfind, under_cons]
      by_cases hkey : key = load.1
      · rw [if_pos hkey, if_pos hkey]
        exact (List.foldl_append ..).symm
      · rw [if_neg hkey, if_neg hkey]

theorem restore_eq (w : World) (stores : List (String × List (String × Tree))) :
    restore w stores = loadEach w (decoded stores) := by
  unfold restore loadEach decoded
  rw [List.foldl_map]

theorem lookup_restore (w : World) (stores : List (String × List (String × Tree))) (key : String) :
    (restore w stores).lookup? key = w.lookup? key := by
  rw [restore_eq]
  exact (sameFiling_loadEach _ w).lookup key

theorem under_decoded {stores : List (String × List (String × Tree))}
    (hnodup : (stores.map Prod.fst).Nodup) (key : String) :
    under (decoded stores) key = loaded stores key := by
  induction stores with
  | nil => rfl
  | cons store rest ih =>
      obtain ⟨other, fields⟩ := store
      rw [List.map_cons, List.nodup_cons] at hnodup
      show under ((other, _) :: decoded rest) key = _
      rw [under_cons, ih hnodup.2]
      unfold loaded
      rw [lookup_cons_ite]
      by_cases hkey : key = other
      · rw [if_pos hkey, if_pos hkey, lookup_of_not_mem (hkey ▸ hnodup.1)]
        exact List.append_nil _
      · rw [if_neg hkey, if_neg hkey]

/-- **What is restored**: every entry gets the variables that are saved under its key. -/
theorem restore_vars {w : World} (hw : w.WellFiled)
    {stores : List (String × List (String × Tree))} (hnodup : (stores.map Prod.fst).Nodup)
    {key : String} {e : EntryId} (hfind : w.lookup? key = some e) :
    ((restore w stores).entry e).vars = (w.entry e).vars.setAll (loaded stores key) := by
  rw [restore_eq, vars_loadEach _ w hw hfind, under_decoded hnodup]

theorem mapM_fields (stores : List (String × List (String × Tree))) :
    ((stores.map fun p => (p.1, Tree.map p.2)).mapM fun p =>
      (Cache.Manager.fieldsOf? p.2).map fun vars => (p.1, vars)) = some stores := by
  induction stores with
  | nil => rfl
  | cons store rest ih =>
      rw [List.map_cons, List.mapM_cons, ih]
      rfl

theorem loadStores_of_text {m : Cache.Manager} {page text : String}
    (hget : (m.get (Cache.stateKey page)).1 = some text)
    {stores : List (String × List (String × Tree))}
    (hparse : Json.parse? text = some (.map (stores.map fun p => (p.1, .map p.2)))) :
    m.loadStores page = (.ok (some stores), (m.get (Cache.stateKey page)).2) := by
  unfold Cache.Manager.loadStores Cache.Manager.loadState
  generalize m.get (Cache.stateKey page) = found at hget ⊢
  obtain ⟨content, m'⟩ := found
  dsimp only at hget
  rw [hget]
  dsimp only
  rw [hparse]
  have hfields := mapM_fields stores
  dsimp only at hfields ⊢
  have hmap : Cache.Manager.fieldsOf? (.map (stores.map fun p => (p.1, Tree.map p.2))) =
      some (stores.map fun p => (p.1, Tree.map p.2)) := rfl
  rw [hmap, Option.bind_some, hfields]

theorem loadStores_of_unreadable {m : Cache.Manager} {page text : String}
    (hget : (m.get (Cache.stateKey page)).1 = some text) (hparse : Json.parse? text = none) :
    m.loadStores page = (.error .undecodable, (m.get (Cache.stateKey page)).2) := by
  unfold Cache.Manager.loadStores Cache.Manager.loadState
  generalize m.get (Cache.stateKey page) = found at hget ⊢
  obtain ⟨content, m'⟩ := found
  dsimp only at hget
  rw [hget]
  dsimp only
  rw [hparse]

/-! ## Saving and going on -/

/-- What is saved can be read as JSON: the names are whole and different, and so on inside. -/
structure Carried (s : Session) : Prop where
  keys : ∀ key e, s.world.lookup? key = some e → Text.isWhole key = true
  entries : ∀ key e, s.world.lookup? key = some e → Json.Legible (.map (s.savedFields e))

/-- What is read for a value that is saved: the value itself, if it is JSON data. -/
abbrev Comes (t t' : Tree) : Prop := Json.Plain t → Json.Returns t t'

theorem names_savedEntries {s : Session} (hw : s.world.Ordered) :
    (s.savedEntries.map Prod.fst).Nodup := by
  have hnames : s.savedEntries.map Prod.fst =
      s.world.order.filter fun key => (s.world.lookup? key).isSome := by
    unfold savedEntries
    induction s.world.order with
    | nil => rfl
    | cons key order ih =>
        rw [List.filterMap_cons, List.filter_cons]
        cases s.world.lookup? key with
        | none => exact ih
        | some e => exact congrArg (key :: ·) ih
  rw [hnames]
  exact hw.nodup.filter _

theorem exists_stores {read : List (String × Tree)}
    (h : ∀ name t, (name, t) ∈ read → ∃ fields, t = .map fields) :
    ∃ stores : List (String × List (String × Tree)),
      read = stores.map fun p => (p.1, .map p.2) := by
  induction read with
  | nil => exact ⟨[], rfl⟩
  | cons field read ih =>
      obtain ⟨fields, hfields⟩ := h field.1 field.2 List.mem_cons_self
      obtain ⟨stores, rfl⟩ := ih fun name t hmem => h name t (List.mem_cons_of_mem _ hmem)
      exact ⟨(field.1, fields) :: stores, by rw [List.map_cons, ← hfields]⟩

/-- **The saved variables are read entry by entry.** -/
theorem Carried.exists_trip {s : Session} (hlisted : s.world.Listed) (hordered : s.world.Ordered)
    (h : s.Carried) :
    ∃ (stores : List (String × List (String × Tree))) (text : String),
      Json.Trip s.vars (.map (stores.map fun p => (p.1, .map p.2))) text ∧
      (stores.map Prod.fst).Nodup ∧
      ∀ key e, s.world.lookup? key = some e →
        ∃ read, (key, read) ∈ stores ∧ Json.Reads Comes (s.savedFields e) read := by
  have hentry : ∀ f ∈ s.savedEntries, ∃ t' text, Json.Trip f.2 t' text ∧
      ∀ fields, f.2 = .map fields → ∃ read, t' = .map read ∧ Json.Reads Comes fields read := by
    rintro ⟨key, t⟩ hmem
    obtain ⟨e, hfind, rfl⟩ := (mem_savedEntries hlisted).mp hmem
    cases h.entries key e hfind with
    | map hnames hwhole hvalues =>
        obtain ⟨read, text, htrip, hreads⟩ := Json.exists_reads (Q := Comes) hnames hwhole
          fun f hf => Json.exists_trip (hvalues f hf)
        refine ⟨.map read, text, htrip, fun fields hfields => ⟨read, rfl, ?_⟩⟩
        rwa [← Tree.map.inj hfields]
  have hkeys : ∀ f ∈ s.savedEntries, Text.isWhole f.1 = true := by
    rintro ⟨key, t⟩ hmem
    obtain ⟨e, hfind, -⟩ := (mem_savedEntries hlisted).mp hmem
    exact h.keys key e hfind
  obtain ⟨read, text, htrip, hreads⟩ := Json.exists_reads
    (Q := fun t t' => ∀ fields, t = .map fields →
      ∃ read, t' = .map read ∧ Json.Reads Comes fields read)
    (names_savedEntries hordered) hkeys hentry
  -- every entry is saved as a map, and so it is read as one
  obtain ⟨stores, rfl⟩ := exists_stores fun key t' hmem => by
    obtain ⟨t, ht, hq⟩ := hreads.sources key t' hmem
    obtain ⟨e, -, rfl⟩ := (mem_savedEntries hlisted).mp ht
    obtain ⟨fields, hfields, -⟩ := hq _ rfl
    exact ⟨fields, hfields⟩
  refine ⟨stores, text, htrip, ?_, fun key e hfind => ?_⟩
  · have hnames := hreads.names.nodup_iff.mpr (names_savedEntries hordered)
    rwa [List.map_map] at hnames
  · obtain ⟨t', ht', hq⟩ := hreads.values key _ ((mem_savedEntries hlisted).mpr ⟨e, hfind, rfl⟩)
    obtain ⟨fields, rfl, hfields⟩ := hq _ rfl
    obtain ⟨⟨key', fields'⟩, hmem, heq⟩ := List.mem_map.mp ht'
    obtain ⟨rfl, hsame⟩ := Prod.mk.inj heq
    obtain rfl := Tree.map.inj hsame
    exact ⟨_, hmem, hfields⟩

/-- A variable that is read matches the one that was saved. -/
theorem get_setAll_matches {s : Session} {e : EntryId} {read : List (String × Tree)}
    (hlegible : Json.Legible (.map (s.savedFields e)))
    (hreads : Json.Reads Comes (s.savedFields e) read) (name : String)
    (hdecoded : ((s.world.entry e).vars.get name).Decoded) :
    ((({} : Store).setAll (read.map fun f => (f.1, Value.ofTree f.2))).get name).Matches
      ((s.world.entry e).vars.get name) := by
  cases hlegible with
  | map hnames _ hvalues =>
      have hread : (read.map Prod.fst).Nodup := hreads.names.nodup_iff.mpr hnames
      have hloaded : ((read.map fun f => (f.1, Value.ofTree f.2)).map Prod.fst).Nodup := by
        rwa [List.map_map]
      have hheld := Store.held_setAll hloaded {} name
      unfold Store.held at hheld
      have hfields : (s.savedFields e).map Prod.fst = (s.world.entry e).vars.vars.map Prod.fst := by
        unfold savedFields
        rw [List.map_map]
        rfl
      unfold Store.get at hdecoded ⊢
      rw [hheld]
      cases hfind : (s.world.entry e).vars.vars.lookup name with
      | none =>
          -- a name that is not set is not read either
          have hnot : name ∉ read.map Prod.fst := by
            intro hmem
            rw [hreads.names.mem_iff, hfields] at hmem
            obtain ⟨f, hf, rfl⟩ := List.mem_map.mp hmem
            rw [hfields] at hnames
            cases (lookup_of_mem hnames hf).symm.trans hfind
          rw [lookup_of_not_mem (by rwa [List.map_map])]
          exact ⟨rfl, fun _ => rfl⟩
      | some v =>
          rw [hfind, Option.getD_some] at hdecoded
          have hmem : (name, exported s.world.document.label v) ∈ s.savedFields e :=
            List.mem_map.mpr ⟨_, mem_of_lookup hfind, rfl⟩
          obtain ⟨t', ht', hcomes⟩ := hreads.values name _ hmem
          obtain ⟨hplain, hback⟩ := hdecoded.exported (hvalues _ hmem)
          have hmatches := Value.matches_of_returns (hcomes hplain)
          rw [hback] at hmatches
          rw [lookup_of_mem hloaded (List.mem_map.mpr ⟨_, ht', rfl⟩)]
          exact hmatches

/-- A session that is newly opened on the page of another, with what the other has cached. -/
structure Follows (fresh saved : Session) : Prop where
  opened : ∃ m : Machine, m.Reachable ∧ fresh.world = m.world
  empty : ∀ e, (fresh.world.entry e).vars = {}
  source : fresh.source = saved.source
  cached : ∃ kept again, saved.cache = some kept ∧ fresh.cache = some again ∧
    ∀ key, (again.get key).1 = (kept.get key).1

/-- The entries of one session have the variables that they have in the other. -/
def Restores (restored s : Session) : Prop :=
  ∀ key e e', s.world.lookup? key = some e → restored.world.lookup? key = some e' →
    ∀ name, ((s.world.entry e).vars.get name).Decoded →
      ((restored.world.entry e').vars.get name).Matches ((s.world.entry e).vars.get name)

theorem Carried.restores {s fresh : Session} (h : s.Carried) (hfiled : fresh.world.WellFiled)
    (hempty : ∀ e, (fresh.world.entry e).vars = {})
    {stores : List (String × List (String × Tree))} (hnodup : (stores.map Prod.fst).Nodup)
    (hstores : ∀ key e, s.world.lookup? key = some e →
      ∃ read, (key, read) ∈ stores ∧ Json.Reads Comes (s.savedFields e) read)
    (cache : Option Cache.Manager) :
    Restores { fresh with cache, world := restore fresh.world stores } s := by
  intro key e e' hfind hfind' name hdecoded
  dsimp only at hfind' ⊢
  rw [lookup_restore] at hfind'
  obtain ⟨read, hmem, hreads⟩ := hstores key e hfind
  rw [restore_vars hfiled hnodup hfind', hempty e']
  unfold loaded
  rw [lookup_of_mem hnodup hmem]
  exact get_setAll_matches (h.entries key e hfind) hreads name hdecoded

theorem save_eq {s saved : Session} {cache : Cache.Manager} (hcache : s.cache = some cache)
    (hsave : s.save = .ok saved) :
    ∃ text, Json.compact? s.vars = some text ∧
      saved = { s with cache := some (cache.set (Cache.stateKey s.source) text) } := by
  unfold save Cache.Manager.saveState at hsave
  rw [hcache] at hsave
  dsimp only at hsave
  cases htext : Json.compact? s.vars with
  | none =>
      rw [htext] at hsave
      cases hsave
  | some text =>
      rw [htext] at hsave
      exact ⟨text, rfl, (Except.ok.inj hsave).symm⟩

section Following

variable (config : Config) {options : RunOptions} {fresh : Session} {again : Cache.Manager}

theorem withState_loaded (hcache : fresh.cache = some again) (hreset : options.resetState = false)
    (hkeep : options.keepState = true) {stores : List (String × List (String × Tree))}
    {m : Cache.Manager} (hload : again.loadStores fresh.source = (.ok (some stores), m))
    (console : Console) :
    (withState config options fresh).run.run console =
      (.ok { fresh with cache := some m, world := restore fresh.world stores }, console) := by
  unfold withState
  simp only [hcache, hreset, hkeep, hload]
  rfl

theorem withState_unreadable (hcache : fresh.cache = some again)
    (hreset : options.resetState = false) (hkeep : options.keepState = true)
    {m : Cache.Manager} (hload : again.loadStores fresh.source = (.error .undecodable, m))
    (console : Console) :
    ((withState config options fresh).run.run console).1 =
      .ok { fresh with cache := some m } := by
  unfold withState
  simp only [hcache, hreset, hkeep, hload]
  rfl

end Following

/-- **A session goes on where the last one stopped.** The variables can be written, and so saved, if
and only if all numbers among them are finite; and if what is written can be read as JSON, the next
session starts with variables of the same kinds and texts, unless the state is deeper than the
reader goes, when it starts with none. -/
theorem state_saved_and_restored {m : Machine} (hm : m.Reachable) {s : Session}
    (hs : s.world = m.world) {cache : Cache.Manager} (hcache : s.cache = some cache) :
    ((s.output true).2 = none ↔ s.Finite) ∧ ((∃ saved, s.save = .ok saved) ↔ s.Finite) ∧
    (s.Carried → cache.disabled = false →
      ∃ saved, s.save = .ok saved ∧
        ∀ fresh, Follows fresh saved → ∀ (config : Config) (options : RunOptions),
          options.resetState = false → options.keepState = true → ∀ console : Console,
          ∃ restored, ((withState config options fresh).run.run console).1 = .ok restored ∧
            (∀ key, restored.world.lookup? key = fresh.world.lookup? key) ∧
            (Json.height s.vars ≤ Json.depthLimit → Restores restored s) ∧
            (Json.depthLimit < Json.height s.vars → restored.world = fresh.world)) := by
  have hlisted : s.world.Listed := hs ▸ (Machine.wellFiled_reachable hm).listed
  have hordered : s.world.Ordered := hs ▸ Machine.ordered_reachable hm
  refine ⟨output_vars hlisted, save_iff hlisted hcache, fun hcarried henabled => ?_⟩
  obtain ⟨stores, text, htrip, hnodup, hstores⟩ := hcarried.exists_trip hlisted hordered
  have hfinite : s.Finite := by
    rw [← isSome_vars hlisted .line, htrip.written]
    rfl
  obtain ⟨saved, hsave⟩ := (save_iff hlisted hcache).mpr hfinite
  obtain ⟨text', htext', rfl⟩ := save_eq hcache hsave
  obtain rfl : text = text' := Option.some.inj (htrip.written.symm.trans htext')
  refine ⟨_, hsave, fun fresh hfollows config options hreset hkeep console => ?_⟩
  obtain ⟨kept, again, hkept, hagain, hsame⟩ := hfollows.cached
  have hfound : (again.get (Cache.stateKey fresh.source)).1 = some text := by
    rw [hsame, hfollows.source, ← Option.some.inj hkept, Cache.Manager.get_set henabled]
  by_cases hdeep : Json.height s.vars ≤ Json.depthLimit
  · have hload := loadStores_of_text hfound (htrip.parse? hdeep)
    have hrun := withState_loaded config hagain hreset hkeep hload console
    refine ⟨_, by rw [hrun], lookup_restore _ _, fun _ => ?_,
      fun h => absurd h (Nat.not_lt.mpr hdeep)⟩
    have hfiled : fresh.world.WellFiled := by
      obtain ⟨m', hm', hworld⟩ := hfollows.opened
      exact hworld ▸ Machine.wellFiled_reachable hm'
    exact hcarried.restores hfiled hfollows.empty hnodup hstores _
  · -- the text is there, but the reader gives up
    have hload := loadStores_of_unreadable hfound (htrip.parse?_eq_none (Nat.lt_of_not_le hdeep))
    have hrun := withState_unreadable config hagain hreset hkeep hload console
    exact ⟨_, hrun, fun _ => rfl, fun h => absurd h hdeep, fun _ => rfl⟩

/-! ## Two pages -/

/-- The page whose element `p` has a script, with the standard verbs. -/
def pageOf (script : String) : Machine :=
  Machine.registered
    (Machine.page script (Verb.standard { evaluate := fun _ _ _ => .ok .undefined }))

theorem reachable_pageOf (script : String) : (pageOf script).Reachable :=
  Machine.reachable_registered script (Verb.standard_lawful _)

/-- A session on the page of a machine. -/
def on (m : Machine) (cache : Cache.Manager) : Session :=
  { page := ⟨"page.html", "", ".", false⟩, source := "/page.html", world := m.world, client := {},
    cache := some cache }

/-- The page after a run, with a value from outside. -/
def ranPage : Machine :=
  let m := (pageOf "&n:2 |&t:hello |&b:true").start "p" 0
  { m with world := (m.world.loadVars "p" [("o", .object (.list [.str "x"]))]).1 }

theorem reachable_ranPage : ranPage.Reachable := by
  have hlive : ((pageOf "&n:2 |&t:hello |&b:true").start "p" 0).crashed = false := by
    decide +kernel
  have h := (reachable_pageOf "&n:2 |&t:hello |&b:true").leads
    (((Machine.Leads.refl _).step (Machine.step_start hlive)).step
      (.load _ "p" [("o", .object (.list [.str "x"]))]))
  exact h

theorem plain_items : ∀ t ∈ [Tree.str "x"], Json.Plain t := by
  intro t ht
  rw [List.mem_singleton.mp ht]
  exact .str (by decide)

theorem carried_ran {m : Machine} (htable : m.world.table = [("p", 0)])
    (hvars : (m.world.entry 0).vars.vars = [("n", .number 2), ("t", .string "hello"),
      ("b", .boolean true), ("o", .object (.list [.str "x"]))]) (cache : Cache.Manager) :
    (on m cache).Carried := by
  have hfind : ∀ key e, m.world.lookup? key = some e → key = "p" ∧ e = 0 := by
    intro key e hlookup
    have hmem := mem_of_lookup hlookup
    rw [htable] at hmem
    exact Prod.mk.inj (List.mem_singleton.mp hmem)
  have hfields : (on m cache).savedFields 0 =
      [("n", .num 2), ("t", .str "hello"), ("b", .bool true), ("o", .list [.str "x"])] := by
    show (m.world.entry 0).vars.vars.map _ = _
    rw [hvars]
    rfl
  constructor
  · intro key e hlookup
    rw [(hfind key e hlookup).1]
    decide
  · intro key e hlookup
    rw [(hfind key e hlookup).2, hfields]
    refine .map (by decide) (by decide) ?_
    simp only [List.forall_mem_cons]
    have htwo : Json.ReadsBack 2 := ⟨"2", by decide +kernel, by decide +kernel⟩
    exact ⟨.num htwo, .str (by decide), .bool true, .list fun t ht => (plain_items t ht).legible,
      fun _ h => absurd h List.not_mem_nil⟩

/-- Values of all kinds come back. -/
theorem next_session_goes_on :
    ∃ kept restored, (on ranPage {}).save = .ok (on ranPage kept) ∧
      ((withState {} { keepState := true } (on (pageOf "&n:2 |&t:hello |&b:true") kept)).run.run
        { site := {} }).1 = .ok restored ∧
      ∀ v ∈ [("n", Value.number 2), ("t", .string "hello"), ("b", .boolean true),
          ("o", .object (.list [.str "x"])), ("u", .undefined)],
        ((restored.world.entry 0).vars.get v.1).Matches v.2 := by
  have hempty : ∀ e, ((pageOf "&n:2 |&t:hello |&b:true").world.entry e).vars = {} := by
    intro e
    cases e <;> rfl
  have hfresh := reachable_pageOf "&n:2 |&t:hello |&b:true"
  have hopened : (pageOf "&n:2 |&t:hello |&b:true").world.lookup? "p" = some 0 := by rfl
  have hreachable := reachable_ranPage
  have htable : ranPage.world.table = [("p", 0)] := by rfl
  have hvars : (ranPage.world.entry 0).vars.vars = [("n", .number 2), ("t", .string "hello"),
      ("b", .boolean true), ("o", .object (.list [.str "x"]))] := by rfl
  have hheight : Json.height (on ranPage {}).vars ≤ Json.depthLimit := by decide +kernel
  -- from here on nothing depends on how the two pages were made
  generalize ranPage = m at *
  generalize pageOf "&n:2 |&t:hello |&b:true" = fresh at *
  obtain ⟨saved, hsave, hnext⟩ := (state_saved_and_restored hreachable (s := on m {}) rfl
    rfl).2.2 (carried_ran htable hvars {}) rfl
  obtain ⟨text, -, rfl⟩ := save_eq rfl hsave
  obtain ⟨restored, hrestored, hkeys, hrestores, -⟩ := hnext
    (on fresh (({} : Cache.Manager).set _ text))
    ⟨⟨_, hfresh, rfl⟩, hempty, rfl, _, _, rfl, rfl, fun _ => rfl⟩ {} { keepState := true } rfl rfl
    { site := {} }
  refine ⟨_, restored, hsave, hrestored, ?_⟩
  have hgets : ∀ v ∈ [("n", Value.number 2), ("t", .string "hello"), ("b", .boolean true),
      ("o", .object (.list [.str "x"])), ("u", .undefined)],
      (m.world.entry 0).vars.get v.1 = v.2 ∧ v.2.Decoded := by
    unfold Store.get
    rw [hvars]
    simp only [List.forall_mem_cons]
    exact ⟨⟨rfl, trivial⟩, ⟨rfl, trivial⟩, ⟨rfl, trivial⟩, ⟨rfl, .list plain_items, rfl⟩,
      ⟨rfl, trivial⟩, fun _ h => absurd h List.not_mem_nil⟩
  intro v hv
  obtain ⟨hget, hdecoded⟩ := hgets v hv
  have hfind : m.world.lookup? "p" = some 0 := by
    unfold World.lookup?
    rw [htable]
    rfl
  have hmatches : ((restored.world.entry 0).vars.get v.1).Matches ((m.world.entry 0).vars.get v.1) :=
    hrestores hheight "p" 0 0 hfind ((hkeys "p").trans hopened) v.1 (hget ▸ hdecoded)
  rwa [hget] at hmatches

/-- A number outgrows its range, and then nothing can be written or saved. -/
theorem infinite_number_is_not_saved :
    ¬ ∀ (script : String) (s : Session), s.world = ((pageOf script).start "p" 0).world →
      s.cache = some {} → (s.output true).2 = none ∨ ∃ saved, s.save = .ok saved := by
  intro h
  have hlive : ((pageOf "&n:1e308 |inc:n:1e308").start "p" 0).crashed = false := by
    decide +kernel
  have hreachable := (reachable_pageOf "&n:1e308 |inc:n:1e308").leads
    ((Machine.Leads.refl _).step (Machine.step_start hlive))
  have hfault : ((on ((pageOf "&n:1e308 |inc:n:1e308").start "p" 0) {}).output true).2.isSome =
      true := by decide +kernel
  have hthis := h "&n:1e308 |inc:n:1e308"
  generalize (pageOf "&n:1e308 |inc:n:1e308").start "p" 0 = m at *
  have hlisted : (on m {}).world.Listed := (Machine.wellFiled_reachable hreachable).listed
  have hwritten : ((on m {}).output true).2 = none := by
    rcases hthis (on m {}) rfl rfl with hnone | hsaved
    · exact hnone
    · exact (output_vars hlisted).mpr ((save_iff hlisted rfl).mp hsaved)
  rw [hwritten] at hfault
  cases hfault

end Session

end PageMacro
