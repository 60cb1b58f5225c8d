import Mathlib.Data.List.Nodup
import PageMacro.Proofs.Pieces
import PageMacro.Proofs.Store

/-!
# The history of a store

A store keeps one number for each name, the revision of its last write, and a merge decides by those
numbers alone. This file is about what the numbers stand for: a history of a store is the list of
what was done to it, and `History.late_iff` says that a name's last write is later than a mark if and
only if the name was written by something that was done after the mark was read.

The names of the other store may be visited in any order (`Reordered`). The last writes of the names
of one merge depend on that order, but no mark is read in the middle of a merge, so that nothing
else does: `Alike` is what two stores have in common that went through the same writes, and it is
all that a later merge looks at.
-/

namespace PageMacro

namespace Store

/-- No name is held twice. -/
def Distinct (s : Store) : Prop := (s.vars.map Prod.fst).Nodup

/-- The other store has the same variables, in any order. -/
def Reordered (s o : Store) : Prop := o.vars.Perm s.vars

/-- The store that is merged. -/
inductive Source where
  /-- The store itself. -/
  | itself
  | other (o : Store)

/-- The store that is merged into `s`. -/
def Source.store (s : Store) : Source → Store
  | itself => s
  | other o => o

/-- A store that is merged holds no name twice. -/
def Source.Proper : Source → Prop
  | itself => True
  | other o => o.Distinct

/-- What can be done to a store. -/
inductive Write where
  | set (name : String) (v : Value)
  | delete (name : String)
  | merge (source : Source)
  /-- Merges the names not written since the mark that was read at a moment. -/
  | mergeSince (source : Source) (moment : Nat)

/-- Something that was done to a store. -/
structure Event where
  write : Write
  before : Store
  after : Store
  /-- The names that were skipped. -/
  skipped : List String

/-- What a write does to a store, when the other store is visited in some order. -/
inductive Happens (marks : List Nat) : Event → Prop where
  | set (s : Store) (name : String) (v : Value) :
      Happens marks ⟨.set name v, s, s.set name v, []⟩
  | delete (s : Store) (name : String) : Happens marks ⟨.delete name, s, s.delete name, []⟩
  | merge (s : Store) {source : Source} {o : Store} : source.Proper →
      (source.store s).Reordered o → Happens marks ⟨.merge source, s, s.merge o, []⟩
  | mergeSince (s : Store) {source : Source} {o : Store} {moment mark : Nat} : source.Proper →
      (source.store s).Reordered o → marks[moment]? = some mark →
      Happens marks
        ⟨.mergeSince source moment, s, (s.mergeSince o mark).1, (s.mergeSince o mark).2⟩

/-- The names that an event set, deleted or merged. -/
def Event.names (e : Event) : List String :=
  match e.write with
  | .set name _ => [name]
  | .delete name => [name]
  | .merge source => (source.store e.before).vars.map Prod.fst
  | .mergeSince source _ =>
    ((source.store e.before).vars.map Prod.fst).filter fun name => !e.skipped.contains name

/-- The marks that could be read so far: before each event, and now. -/
def marks (past : List Event) (s : Store) : List Nat :=
  past.map (fun e => e.before.revision) ++ [s.revision]

/-- What was done to a store since it was new, and what it is now. -/
inductive History : List Event → Store → Prop where
  | new : History [] {}
  | act {past : List Event} {e : Event} : History past e.before →
      Happens (marks past e.before) e → History (past ++ [e]) e.after

/-! ## Several names at once -/

theorem isSome_held_iff {s : Store} {name : String} :
    (s.held name).isSome = true ↔ name ∈ s.vars.map Prod.fst := by
  constructor
  · intro h
    by_cases hmem : name ∈ s.vars.map Prod.fst
    · exact hmem
    · rw [held, lookup_of_not_mem hmem] at h
      cases h
  · intro h
    obtain ⟨field, hfield, rfl⟩ := List.mem_map.mp h
    rw [Option.isSome_iff_ne_none]
    intro hnone
    have hne := List.lookup_eq_none_iff.mp hnone field hfield
    simp at hne

theorem Distinct.reordered {s o : Store} (h : s.Distinct) (ho : s.Reordered o) : o.Distinct :=
  (ho.map Prod.fst).nodup_iff.mpr h

theorem Source.Proper.distinct {source : Source} (h : source.Proper) {s : Store}
    (hs : s.Distinct) : (source.store s).Distinct := by
  cases source with
  | itself => exact hs
  | other o => exact h

theorem distinct_set {s : Store} (h : s.Distinct) (name : String) (v : Value) :
    (s.set name v).Distinct :=
  nodup_names_putField v h

theorem distinct_delete {s : Store} (h : s.Distinct) (name : String) : (s.delete name).Distinct := by
  show ((eraseField name s.vars).map Prod.fst).Nodup
  rw [names_eraseField]
  exact h.filter _

theorem distinct_setAll (values : List (String × Value)) :
    ∀ s : Store, s.Distinct → (s.setAll values).Distinct := by
  induction values with
  | nil => exact fun _ h => h
  | cons field rest ih => exact fun s h => ih _ (distinct_set h field.1 field.2)

/-! ## Merges in any order

In a store that holds no name twice, a merge can judge all names by the store it starts with. -/

/-- The last write of a name is later than a mark. -/
def late (s : Store) (mark : Nat) (name : String) : Bool := decide (mark < s.lastWrite name)

theorem mergeVars_eq (mark : Nat) (pairs : List (String × Value)) :
    ∀ (s : Store) (skipped : List String), (pairs.map Prod.fst).Nodup →
      pairs.foldl (mergeOne mark) (s, skipped) =
        (s.setAll (pairs.filter fun p => !s.late mark p.1),
          ((pairs.filter fun p => s.late mark p.1).map Prod.fst).reverse ++ skipped) := by
  induction pairs with
  | nil => exact fun _ _ _ => rfl
  | cons pair rest ih =>
      intro s skipped hnodup
      rw [List.map_cons, List.nodup_cons] at hnodup
      rw [List.foldl_cons]
      by_cases hlate : mark < s.lastWrite pair.1
      · have hone : mergeOne mark (s, skipped) pair = (s, pair.1 :: skipped) := by
          unfold mergeOne
          rw [if_pos hlate]
        rw [hone, ih s _ hnodup.2, List.filter_cons_of_neg (by simp [late, hlate]),
          List.filter_cons_of_pos (by simp [late, hlate])]
        simp
      · have hone : mergeOne mark (s, skipped) pair = (s.set pair.1 pair.2, skipped) := by
          unfold mergeOne
          rw [if_neg hlate]
        -- the names further on are others, so that setting this one does not make them late
        have hrest : ∀ p ∈ rest, (s.set pair.1 pair.2).late mark p.1 = s.late mark p.1 := by
          intro p hp
          have hne : p.1 ≠ pair.1 := by
            intro heq
            exact hnodup.1 (heq ▸ List.mem_map_of_mem hp)
          unfold late
          rw [lastWrite_set, if_neg hne]
        have hkept : (rest.filter fun p => !(s.set pair.1 pair.2).late mark p.1) =
            rest.filter fun p => !s.late mark p.1 :=
          List.filter_congr fun p hp => by rw [hrest p hp]
        have hlost : (rest.filter fun p => (s.set pair.1 pair.2).late mark p.1) =
            rest.filter fun p => s.late mark p.1 :=
          List.filter_congr hrest
        rw [hone, ih _ _ hnodup.2, hkept, hlost, List.filter_cons_of_pos (by simp [late, hlate]),
          List.filter_cons_of_neg (by simp [late, hlate])]
        rfl

variable {s o o' : Store} {mark : Nat}

/-- **A merge sets the names that are not late, and skips those that are.** -/
theorem mergeSince_of_distinct (h : o.Distinct) :
    s.mergeSince o mark =
      (s.setAll (o.vars.filter fun p => !s.late mark p.1),
        Text.sortNames ((o.vars.filter fun p => s.late mark p.1).map Prod.fst).reverse) := by
  have hfold := mergeVars_eq mark o.vars s [] h
  rw [List.append_nil] at hfold
  show ((o.vars.foldl (mergeOne mark) (s, [])).1,
    Text.sortNames (o.vars.foldl (mergeOne mark) (s, [])).2) = _
  rw [hfold]

section Reordered

variable (h : o.Distinct) (ho : o.Reordered o')

include h ho

theorem held_reordered (name : String) : o'.held name = o.held name := by
  unfold held
  cases hfind : o.vars.lookup name with
  | none =>
      refine lookup_of_not_mem fun hmem => ?_
      have hsome := isSome_held_iff.mpr ((ho.map Prod.fst).mem_iff.mp hmem)
      rw [held, hfind] at hsome
      cases hsome
  | some v =>
      exact lookup_of_mem (h.reordered ho) (ho.mem_iff.mpr (mem_of_lookup hfind))

theorem mem_skipped (name : String) :
    name ∈ (s.mergeSince o' mark).2 ↔ (o.held name).isSome = true ∧ mark < s.lastWrite name := by
  rw [mergeSince_of_distinct (h.reordered ho), Text.sortNames_mem, List.mem_reverse,
    isSome_held_iff, ← (ho.map Prod.fst).mem_iff, List.mem_map]
  constructor
  · rintro ⟨p, hp, rfl⟩
    obtain ⟨hmem, hlate⟩ := List.mem_filter.mp hp
    exact ⟨List.mem_map_of_mem hmem, of_decide_eq_true hlate⟩
  · rintro ⟨hmem, hlate⟩
    obtain ⟨p, hp, rfl⟩ := List.mem_map.mp hmem
    exact ⟨p, List.mem_filter.mpr ⟨hp, decide_eq_true hlate⟩, rfl⟩

theorem skipped_sorted : (s.mergeSince o' mark).2.Pairwise (· < ·) := by
  rw [mergeSince_of_distinct (h.reordered ho)]
  refine Text.sortNames_strict (List.nodup_reverse.mpr ?_)
  exact (h.reordered ho).sublist (List.filter_sublist.map Prod.fst)

theorem held_mergeSince (name : String) :
    (s.mergeSince o' mark).1.held name =
      if s.late mark name = true then s.held name else (o.held name).or (s.held name) := by
  have hmerged : ((o'.vars.filter fun p => !s.late mark p.1).map Prod.fst).Nodup :=
    (h.reordered ho).sublist (List.filter_sublist.map Prod.fst)
  have hsame : o'.vars.lookup name = o.held name := held_reordered h ho name
  rw [mergeSince_of_distinct (h.reordered ho)]
  dsimp only
  rw [held_setAll hmerged, lookup_filter (fun name => !s.late mark name), hsame]
  cases s.late mark name <;> rfl

theorem held_merge (name : String) :
    (s.merge o').held name = (o.held name).or (s.held name) := by
  have hsame : o'.vars.lookup name = o.held name := held_reordered h ho name
  show (s.setAll o'.vars).held name = _
  rw [held_setAll (h.reordered ho), hsame]

/-- The names that are merged are those that are not skipped. -/
theorem names_merged :
    (o.vars.map Prod.fst).filter (fun name => !(s.mergeSince o' mark).2.contains name) =
      (o.vars.filter fun p => !s.late mark p.1).map Prod.fst := by
  have hskipped : ∀ p ∈ o.vars,
      (s.mergeSince o' mark).2.contains p.1 = s.late mark p.1 := by
    intro p hp
    have hheld : (o.held p.1).isSome = true := isSome_held_iff.mpr (List.mem_map_of_mem hp)
    rw [Bool.eq_iff_iff, List.contains_iff_mem, mem_skipped h ho]
    simp [hheld, late]
  rw [List.filter_map]
  congr 1
  exact List.filter_congr fun p hp => by
    rw [Function.comp_apply, hskipped p hp]

end Reordered

/-! ## What an event records -/

/-- An event counts a write for each of its names, and touches no other name. -/
structure Event.Recorded (e : Event) : Prop where
  becomes : e.before.Becomes e.after
  distinct : e.after.Distinct
  nodup : e.names.Nodup
  revision : e.after.revision = e.before.revision + e.names.length
  written : ∀ name ∈ e.names, e.before.revision < e.after.lastWrite name
  kept : ∀ name, name ∉ e.names → e.after.lastWrite name = e.before.lastWrite name

/-- An event that sets values records their names. -/
theorem recorded_of_setAll {e : Event} (hd : e.before.Distinct) {values : List (String × Value)}
    (hafter : e.after = e.before.setAll values) (hnodup : e.names.Nodup)
    (hnames : (values.map Prod.fst).Perm e.names) : e.Recorded where
  becomes := by
    rw [hafter]
    exact becomes_setAll values e.before
  distinct := by
    rw [hafter]
    exact distinct_setAll values e.before hd
  nodup := hnodup
  revision := by
    have hlen := hnames.length_eq
    rw [List.length_map] at hlen
    rw [hafter, revision_setAll, hlen]
  written := by
    intro name hname
    rw [hafter]
    exact lastWrite_setAll_of_mem values e.before (hnames.mem_iff.mpr hname)
  kept := by
    intro name hname
    rw [hafter]
    exact lastWrite_setAll_of_not_mem values e.before (mt hnames.mem_iff.mp hname)

/-- **Whatever happens to a store is recorded.** -/
theorem recorded_of_happens {marks : List Nat} {e : Event} (hd : e.before.Distinct)
    (h : Happens marks e) : e.Recorded := by
  cases h with
  | set s name v =>
      have hafter : s.set name v = s.setAll [(name, v)] := rfl
      exact recorded_of_setAll hd hafter (List.nodup_singleton name) (List.Perm.refl _)
  | delete s name =>
      refine ⟨becomes_delete s name, distinct_delete hd name, List.nodup_singleton name, rfl, ?_, ?_⟩
      · intro other hother
        obtain rfl : other = name := List.mem_singleton.mp hother
        show s.revision < (s.delete other).lastWrite other
        rw [lastWrite_delete, if_pos rfl]
        omega
      · intro other hother
        have hne : other ≠ name := fun heq => hother (List.mem_singleton.mpr heq)
        show (s.delete name).lastWrite other = s.lastWrite other
        rw [lastWrite_delete, if_neg hne]
  | @merge s source o hproper ho =>
      have hdistinct : (source.store s).Distinct := hproper.distinct hd
      exact recorded_of_setAll hd rfl hdistinct (ho.map Prod.fst)
  | @mergeSince s source o moment mark hproper ho hmark =>
      have hdistinct : (source.store s).Distinct := hproper.distinct hd
      have hnames : Event.names
          ⟨.mergeSince source moment, s, (s.mergeSince o mark).1, (s.mergeSince o mark).2⟩ =
            ((source.store s).vars.filter fun p => !s.late mark p.1).map Prod.fst :=
        names_merged hdistinct ho
      have hafter : (s.mergeSince o mark).1 =
          s.setAll (o.vars.filter fun p => !s.late mark p.1) := by
        rw [mergeSince_of_distinct (hdistinct.reordered ho)]
      refine recorded_of_setAll hd hafter ?_ ?_
      · rw [hnames]
        exact hdistinct.sublist (List.filter_sublist.map Prod.fst)
      · rw [hnames]
        exact (ho.filter _).map Prod.fst

/-- A mark that could be read before an event is passed by the names of the event, and by those that
had passed it before. -/
theorem Event.Recorded.late_iff {e : Event} (h : e.Recorded) {mark : Nat}
    (hmark : mark ≤ e.before.revision) (name : String) :
    mark < e.after.lastWrite name ↔ mark < e.before.lastWrite name ∨ name ∈ e.names := by
  by_cases hname : name ∈ e.names
  · have hlate := h.written name hname
    simp only [hname, or_true, iff_true]
    omega
  · rw [h.kept name hname]
    simp [hname]

/-! ## Histories -/

theorem marks_act (past : List Event) (e : Event) (s : Store) :
    marks (past ++ [e]) s = marks past e.before ++ [s.revision] := by
  simp [marks]

/-- What the numbers of a store say about its history. -/
structure Faithful (past : List Event) (s : Store) : Prop where
  sound : s.Sound
  distinct : s.Distinct
  bound : ∀ mark ∈ marks past s, mark ≤ s.revision
  /-- A name's last write is later than a mark if it was written after the mark was read. -/
  late_iff : ∀ moment mark, (marks past s)[moment]? = some mark → ∀ name,
    mark < s.lastWrite name ↔ ∃ e ∈ past.drop moment, name ∈ e.names

/-- **Every history is faithful.** -/
theorem History.faithful {past : List Event} {s : Store} (h : History past s) :
    Faithful past s := by
  induction h with
  | new =>
      refine ⟨sound_empty, List.nodup_nil, ?_, ?_⟩
      · intro mark hmark
        exact Nat.le_of_eq (List.mem_singleton.mp hmark)
      · intro moment mark _ name
        simp [lastWrite]
  | @act past e _ he ih =>
      have hrecorded := recorded_of_happens ih.distinct he
      have hle : e.before.revision ≤ e.after.revision := hrecorded.becomes.1
      have hsound : e.after.Sound := hrecorded.becomes.sound ih.sound
      refine ⟨hsound, hrecorded.distinct, ?_, ?_⟩
      · intro mark hmark
        rw [marks_act] at hmark
        rcases List.mem_append.mp hmark with hold | hnew
        · exact Nat.le_trans (ih.bound mark hold) hle
        · exact Nat.le_of_eq (List.mem_singleton.mp hnew)
      · intro moment mark hmark name
        rw [marks_act] at hmark
        by_cases hold : moment < (marks past e.before).length
        · -- a mark that was read before: the event is one more after it
          rw [List.getElem?_append_left hold] at hmark
          have hbefore : moment ≤ past.length := by
            simp [marks] at hold
            omega
          rw [hrecorded.late_iff (ih.bound mark (List.mem_of_getElem? hmark)) name,
            ih.late_iff moment mark hmark name, List.drop_append_of_le_length hbefore]
          simp only [List.mem_append, List.mem_singleton, or_and_right, exists_or,
            exists_eq_left]
        · -- the mark that is read now: nothing is later
          have hnow : mark = e.after.revision := by
            rw [List.getElem?_append_right (Nat.le_of_not_lt hold)] at hmark
            have hmem := List.mem_of_getElem? hmark
            exact List.mem_singleton.mp hmem
          have hdrop : (past ++ [e]).drop moment = [] := by
            refine List.drop_eq_nil_of_le ?_
            simp [marks] at hold ⊢
            omega
          have hlast := hsound name
          rw [hdrop, hnow]
          simp
          omega

/-- What two stores have in common that went through the same writes. -/
structure Alike (marks : List Nat) (s t : Store) : Prop where
  held : ∀ name, s.held name = t.held name
  revision : s.revision = t.revision
  late : ∀ mark ∈ marks, ∀ name, s.late mark name = t.late mark name

theorem Alike.source {marks : List Nat} {s t : Store} (h : Alike marks s t) (source : Source)
    (name : String) : (source.store s).held name = (source.store t).held name := by
  cases source with
  | itself => exact h.held name
  | other o => rfl

/-- The names of two stores that hold the same. -/
theorem mem_names_congr {s t : Store} (h : ∀ name, s.held name = t.held name) (name : String) :
    name ∈ s.vars.map Prod.fst ↔ name ∈ t.vars.map Prod.fst := by
  rw [← isSome_held_iff, ← isSome_held_iff, h]

/-- **The same write makes the same of stores that are alike**, whatever the order of its names. -/
theorem Alike.happens {marks : List Nat} {e e' : Event} (h : Alike marks e.before e'.before)
    (hd : e.before.Distinct) (hd' : e'.before.Distinct) (hwrite : e.write = e'.write)
    (he : Happens marks e) (he' : Happens marks e') :
    (∀ name, e.after.held name = e'.after.held name) ∧ e.skipped = e'.skipped ∧
      ∀ name, name ∈ e.names ↔ name ∈ e'.names := by
  cases he with
  | set s name v =>
      cases he' with
      | set s' name' v' =>
          obtain ⟨rfl, rfl⟩ := Write.set.inj hwrite
          refine ⟨fun other => ?_, rfl, fun other => Iff.rfl⟩
          show (s.set name v).held other = (s'.set name v).held other
          rw [held_set, held_set, h.held]
      | _ => cases hwrite
  | delete s name =>
      cases he' with
      | delete s' name' =>
          obtain rfl := Write.delete.inj hwrite
          refine ⟨fun other => ?_, rfl, fun other => Iff.rfl⟩
          show (s.delete name).held other = (s'.delete name).held other
          rw [held_delete, held_delete, h.held]
      | _ => cases hwrite
  | @merge s source o hproper ho =>
      cases he' with
      | @merge s' source' o' hproper' ho' =>
          obtain rfl := Write.merge.inj hwrite
          refine ⟨fun name => ?_, rfl, mem_names_congr (h.source source)⟩
          show (s.merge o).held name = (s'.merge o').held name
          rw [held_merge (hproper.distinct hd) ho, held_merge (hproper.distinct hd') ho',
            h.source source name, h.held name]
      | _ => cases hwrite
  | @mergeSince s source o moment mark hproper ho hmark =>
      -- both skip the names that are late, and the same names are late in both
      cases he' with
      | @mergeSince s' source' o' moment' mark' hproper' ho' hmark' =>
          obtain ⟨rfl, rfl⟩ := Write.mergeSince.inj hwrite
          obtain rfl : mark = mark' := Option.some.inj (hmark.symm.trans hmark')
          have hlate : ∀ name, s.late mark name = s'.late mark name :=
            h.late mark (List.mem_of_getElem? hmark)
          have hskipped : (s.mergeSince o mark).2 = (s'.mergeSince o' mark).2 := by
            refine Text.eq_of_strict (skipped_sorted (hproper.distinct hd) ho)
              (skipped_sorted (hproper.distinct hd') ho') fun name => ?_
            rw [mem_skipped (hproper.distinct hd) ho, mem_skipped (hproper.distinct hd') ho',
              h.source source name]
            exact and_congr_right fun _ => decide_eq_decide.mp (hlate name)
          refine ⟨fun name => ?_, hskipped, fun name => ?_⟩
          · show (s.mergeSince o mark).1.held name = (s'.mergeSince o' mark).1.held name
            rw [held_mergeSince (hproper.distinct hd) ho, held_mergeSince (hproper.distinct hd') ho',
              h.source source name, h.held name, hlate name]
          · show name ∈ ((source.store s).vars.map Prod.fst).filter _ ↔
              name ∈ ((source.store s').vars.map Prod.fst).filter _
            rw [List.mem_filter, List.mem_filter, mem_names_congr (h.source source) name, hskipped]
      | _ => cases hwrite

/-- Two events that write the same names write as many. -/
theorem Event.Recorded.length_names {e e' : Event} (h : e.Recorded) (h' : e'.Recorded)
    (hnames : ∀ name, name ∈ e.names ↔ name ∈ e'.names) : e.names.length = e'.names.length :=
  ((List.perm_ext_iff_of_nodup h.nodup h'.nodup).mpr hnames).length_eq

/-- **The order in which names are visited does not matter**: the same writes give the same marks,
the same answers and stores that are alike. -/
theorem History.alike {past : List Event} {s : Store} (h : History past s) :
    ∀ {past' : List Event} {s' : Store}, History past' s' →
      past.map Event.write = past'.map Event.write →
      marks past s = marks past' s' ∧ Alike (marks past s) s s' ∧
        past.map Event.skipped = past'.map Event.skipped := by
  induction h with
  | new =>
      intro past' s' h' hwrites
      cases h' with
      | new => exact ⟨rfl, ⟨fun _ => rfl, rfl, fun _ _ _ => rfl⟩, rfl⟩
      | act h' he' =>
          rw [List.map_append] at hwrites
          simp at hwrites
  | @act past e h he ih =>
      intro past' s' h' hwrites
      cases h' with
      | new =>
          rw [List.map_append] at hwrites
          simp at hwrites
      | @act past' e' h' he' =>
          rw [List.map_append, List.map_append] at hwrites
          obtain ⟨hpast, hlast⟩ := List.append_inj' hwrites rfl
          have hwrite : e.write = e'.write := List.singleton_inj.mp hlast
          obtain ⟨hmarks, halike, hskipped⟩ := ih h' hpast
          rw [← hmarks] at he'
          have hf := h.faithful
          have hf' := h'.faithful
          have hr := recorded_of_happens hf.distinct he
          have hr' := recorded_of_happens hf'.distinct he'
          obtain ⟨hheld, hanswer, hnames⟩ := halike.happens hf.distinct hf'.distinct hwrite he he'
          have hrevision : e.after.revision = e'.after.revision := by
            rw [hr.revision, hr'.revision, halike.revision, hr.length_names hr' hnames]
          refine ⟨?_, ⟨hheld, hrevision, ?_⟩, ?_⟩
          · rw [marks_act, marks_act, hmarks, hrevision]
          · intro mark hmark name
            rw [marks_act] at hmark
            unfold late
            rw [decide_eq_decide]
            rcases List.mem_append.mp hmark with hold | hnew
            · have hbefore : mark ≤ e.before.revision := hf.bound mark hold
              have hbefore' : mark ≤ e'.before.revision := hf'.bound mark (hmarks ▸ hold)
              have hsame : mark < e.before.lastWrite name ↔ mark < e'.before.lastWrite name :=
                decide_eq_decide.mp (halike.late mark hold name)
              rw [hr.late_iff hbefore, hr'.late_iff hbefore', hsame, hnames name]
            · -- no last write is later than the mark that is read now
              have hnow : mark = e.after.revision := List.mem_singleton.mp hnew
              have hlast := hr.becomes.sound hf.sound name
              have hlast' := hr'.becomes.sound hf'.sound name
              omega
          · rw [List.map_append, List.map_append, hskipped, List.map_singleton, List.map_singleton,
              hanswer]

/-- **The revisions of a store record its history exactly.** After any history, a merge since a mark
that was read at some moment skips the names written since then, and lists them in order; it gives
every other name of the other store the value it has there, leaves all other names alone, and counts
one write for each name it sets. The same writes make the same variables, the same revision and the
same answers, in whatever order the names were visited. -/
theorem revisions_record_writes {past : List Event} {s : Store} (h : History past s) :
    s.Distinct ∧
    (∀ (moment mark : Nat) (o o' : Store), (marks past s)[moment]? = some mark → o.Distinct →
      o.Reordered o' →
      (∀ name, name ∈ (s.mergeSince o' mark).2 ↔
        (o.held name).isSome = true ∧ ∃ e ∈ past.drop moment, name ∈ e.names) ∧
      (s.mergeSince o' mark).2.Pairwise (· < ·) ∧
      (∀ name v, o.held name = some v → name ∉ (s.mergeSince o' mark).2 →
        (s.mergeSince o' mark).1.held name = some v) ∧
      (∀ name, o.held name = none ∨ name ∈ (s.mergeSince o' mark).2 →
        (s.mergeSince o' mark).1.held name = s.held name) ∧
      (s.mergeSince o' mark).1.revision = s.revision +
        ((o.vars.map Prod.fst).filter fun name => !(s.mergeSince o' mark).2.contains name).length) ∧
    ∀ (past' : List Event) (s' : Store), History past' s' →
      past.map Event.write = past'.map Event.write →
      (∀ name, s.held name = s'.held name) ∧ s.revision = s'.revision ∧
        past.map Event.skipped = past'.map Event.skipped := by
  have hf := h.faithful
  refine ⟨hf.distinct, ?_, ?_⟩
  · intro moment mark o o' hmark ho hsame
    have hskipped : ∀ name, name ∈ (s.mergeSince o' mark).2 ↔
        (o.held name).isSome = true ∧ mark < s.lastWrite name := mem_skipped ho hsame
    have hheld : ∀ name, (s.mergeSince o' mark).1.held name =
        if s.late mark name = true then s.held name else (o.held name).or (s.held name) :=
      held_mergeSince ho hsame
    refine ⟨fun name => ?_, skipped_sorted ho hsame, ?_, ?_, ?_⟩
    · rw [hskipped name, hf.late_iff moment mark hmark name]
    · intro name v hv hnot
      have hearly : ¬ mark < s.lastWrite name := fun hlate =>
        hnot ((hskipped name).mpr ⟨by rw [hv]; rfl, hlate⟩)
      rw [hheld name, if_neg (by simpa [late] using hearly), hv]
      rfl
    · intro name hor
      rw [hheld name]
      by_cases hlate : s.late mark name = true
      · rw [if_pos hlate]
      · have hnone : o.held name = none := hor.resolve_right fun hmem =>
          hlate (decide_eq_true ((hskipped name).mp hmem).2)
        rw [if_neg hlate, hnone]
        rfl
    · have hevent : Happens (marks past s) ⟨.mergeSince (.other o) moment, s,
          (s.mergeSince o' mark).1, (s.mergeSince o' mark).2⟩ :=
        .mergeSince s ho hsame hmark
      exact (recorded_of_happens hf.distinct hevent).revision
  · intro past' s' h' hwrites
    obtain ⟨_, halike, hanswers⟩ := h.alike h' hwrites
    exact ⟨halike.held, halike.revision, hanswers⟩

/-- A store in which one name was set and another one deleted. -/
def halfCleared : Store := (({} : Store).set "a" (.boolean true)).delete "b"

/-- How it came about. -/
def clearing : List Event :=
  [⟨.set "a" (.boolean true), {}, ({} : Store).set "a" (.boolean true), []⟩,
    ⟨.delete "b", ({} : Store).set "a" (.boolean true), halfCleared, []⟩]

/-- A store with both names. -/
def offered : Store := { vars := [("b", .boolean true), ("a", .boolean false)] }

/-- A name that was deleted after the mark is skipped; one that was set before it is merged. -/
theorem deleted_name_is_skipped :
    History clearing halfCleared ∧ (marks clearing halfCleared)[1]? = some 1 ∧
      "b" ∈ (halfCleared.mergeSince offered 1).2 ∧
      (halfCleared.mergeSince offered 1).1.held "b" = none ∧
      (halfCleared.mergeSince offered 1).1.held "a" = some (.boolean false) := by
  have hset : History [⟨.set "a" (.boolean true), {}, ({} : Store).set "a" (.boolean true), []⟩]
      (({} : Store).set "a" (.boolean true)) :=
    @History.act [] ⟨.set "a" (.boolean true), {}, ({} : Store).set "a" (.boolean true), []⟩
      History.new (Happens.set {} "a" (.boolean true))
  have hpast : History clearing halfCleared :=
    @History.act _ ⟨.delete "b", ({} : Store).set "a" (.boolean true), halfCleared, []⟩
      hset (Happens.delete (({} : Store).set "a" (.boolean true)) "b")
  have hdistinct : offered.Distinct := by
    unfold Distinct
    decide
  obtain ⟨_, hmerge, _⟩ := revisions_record_writes hpast
  obtain ⟨hskipped, _, hset, hkept, _⟩ := hmerge 1 1 offered offered rfl hdistinct (List.Perm.refl _)
  have hb : "b" ∈ (halfCleared.mergeSince offered 1).2 :=
    (hskipped "b").mpr ⟨rfl, _, List.mem_singleton.mpr rfl, List.mem_singleton.mpr rfl⟩
  have ha : "a" ∉ (halfCleared.mergeSince offered 1).2 := by
    intro hmem
    obtain ⟨_, e, he, hname⟩ := (hskipped "a").mp hmem
    rw [List.mem_singleton.mp he] at hname
    exact absurd (List.mem_singleton.mp hname) (by decide)
  exact ⟨hpast, rfl, hb, hkept "b" (.inr hb), hset "a" _ rfl ha⟩

end Store

end PageMacro
