import PageMacro.Store

/-!
# What a store remembers of its writes

A store counts its writes, and a merge decides by those counts alone. Two facts
carry everything that is said about merges later:

* `Store.Sound`: no name's last write is later than the revision;
* `Store.Becomes`: how a store relates to what it was before some writes. A name
  is either untouched, with its value and its last write as they were, or its
  last write is later than the old revision.

Setting, deleting and merging are all cases of `Becomes`, and `Becomes` composes,
so nothing else about the sequence of writes is ever needed.
-/

namespace PageMacro

/-! ## Named fields -/

theorem lookup_cons_ite {κ α : Type} [BEq κ] [LawfulBEq κ] [DecidableEq κ] (name key : κ)
    (value : α) (rest : List (κ × α)) :
    ((key, value) :: rest).lookup name = if name = key then some value else rest.lookup name := by
  rw [List.lookup_cons]
  by_cases h : name = key
  · simp [h]
  · have hne : (name == key) = false := by simpa using h
    simp only [hne, if_neg h]

theorem lookup_filter {κ α : Type} [BEq κ] [LawfulBEq κ] [DecidableEq κ] (p : κ → Bool) (k : κ)
    (l : List (κ × α)) :
    (l.filter fun pair => p pair.1).lookup k = if p k then l.lookup k else none := by
  induction l with
  | nil => simp
  | cons pair rest ih =>
      obtain ⟨q, a⟩ := pair
      rw [List.filter_cons, lookup_cons_ite]
      by_cases hk : k = q
      · subst hk
        by_cases hp : p k
        · rw [if_pos hp, if_pos hp, if_pos rfl, lookup_cons_ite, if_pos rfl]
        · rw [if_neg hp, if_neg hp, ih, if_neg hp]
      · rw [if_neg hk]
        split
        · rw [lookup_cons_ite, if_neg hk, ih]
        · exact ih

theorem lookup_putField {α : Type} (name other : String) (value : α) :
    ∀ fields : List (String × α),
      (putField name value fields).lookup other =
        if other = name then some value else fields.lookup other
  | [] => by rw [putField, lookup_cons_ite]
  | (key, old) :: rest => by
      have ih := lookup_putField name other value rest
      rw [putField, lookup_cons_ite other key old rest]
      by_cases hk : key = name
      · subst hk
        rw [if_pos (by simp), lookup_cons_ite]
        split <;> rfl
      · rw [if_neg (by simpa using hk), lookup_cons_ite, ih]
        by_cases h : other = key
        · subst h; simp [hk]
        · simp [h]

/-- Putting what is there already changes nothing. -/
theorem putField_of_lookup {α : Type} {name : String} {value : α} {fields : List (String × α)}
    (h : fields.lookup name = some value) : putField name value fields = fields := by
  induction fields with
  | nil => cases h
  | cons field rest ih =>
      obtain ⟨key, old⟩ := field
      rw [lookup_cons_ite] at h
      rw [putField]
      split at h
      · rename_i hname
        rw [if_pos (by simpa using hname.symm), Option.some.inj h, hname]
      · rename_i hname
        rw [if_neg (by simpa using Ne.symm hname), ih h]

theorem lookup_eraseField {α : Type} (name other : String) :
    ∀ fields : List (String × α),
      (eraseField name fields).lookup other =
        if other = name then none else fields.lookup other
  | [] => by simp [eraseField]
  | (key, old) :: rest => by
      have ih := lookup_eraseField name other rest
      rw [eraseField] at ih ⊢
      rw [lookup_cons_ite other key old rest]
      by_cases hk : key = name
      · subst hk
        rw [List.filter_cons_of_neg (by simp), ih]
        split <;> rfl
      · rw [List.filter_cons_of_pos (by simpa using hk), lookup_cons_ite, ih]
        by_cases h : other = key
        · subst h; simp [hk]
        · simp [h]

theorem mem_of_lookup {κ α : Type} [BEq κ] [LawfulBEq κ] [DecidableEq κ] {k : κ} {a : α}
    {pairs : List (κ × α)} (h : pairs.lookup k = some a) : (k, a) ∈ pairs := by
  induction pairs with
  | nil => simp at h
  | cons pair rest ih =>
      obtain ⟨key, b⟩ := pair
      rw [lookup_cons_ite] at h
      split at h
      · rename_i hk
        rw [hk, Option.some.inj h]
        exact List.mem_cons_self
      · exact List.mem_cons_of_mem _ (ih h)

theorem lookup_of_mem {κ α : Type} [BEq κ] [LawfulBEq κ] [DecidableEq κ] {k : κ} {a : α}
    {pairs : List (κ × α)} (hnd : (pairs.map (·.1)).Nodup) (h : (k, a) ∈ pairs) :
    pairs.lookup k = some a := by
  induction pairs with
  | nil => simp at h
  | cons pair rest ih =>
      obtain ⟨key, b⟩ := pair
      simp only [List.map_cons, List.nodup_cons] at hnd
      rw [lookup_cons_ite]
      rcases List.mem_cons.mp h with heq | hrest
      · obtain ⟨rfl, rfl⟩ := Prod.mk.inj heq
        rw [if_pos rfl]
      · -- the pair is further down, and a key does not come twice
        have hne : k ≠ key := by
          rintro rfl
          exact hnd.1 (List.mem_map_of_mem hrest)
        rw [if_neg hne, ih hnd.2 hrest]

theorem lookup_of_not_mem {α : Type} {name : String} {fields : List (String × α)}
    (h : name ∉ fields.map Prod.fst) : fields.lookup name = none := by
  rw [List.lookup_eq_none_iff]
  intro field hfield
  rw [bne_iff_ne]
  rintro rfl
  exact h (List.mem_map_of_mem hfield)

/-- A name is found if and only if it is there. -/
theorem isSome_lookup_iff {α : Type} {name : String} {fields : List (String × α)} :
    (fields.lookup name).isSome = true ↔ name ∈ fields.map Prod.fst := by
  constructor
  · intro hsome
    obtain ⟨value, hvalue⟩ := Option.isSome_iff_exists.mp hsome
    exact List.mem_map_of_mem (mem_of_lookup hvalue)
  · intro hmem
    rw [Option.isSome_iff_ne_none]
    intro hnone
    obtain ⟨field, hfield, rfl⟩ := List.mem_map.mp hmem
    exact bne_iff_ne.mp (List.lookup_eq_none_iff.mp hnone field hfield) rfl

/-- The names stay where they are, and a new one comes last. -/
theorem names_putField {α : Type} (name : String) (value : α) (fields : List (String × α)) :
    (putField name value fields).map Prod.fst =
      if name ∈ fields.map Prod.fst then fields.map Prod.fst
      else fields.map Prod.fst ++ [name] := by
  induction fields with
  | nil => rfl
  | cons field fields ih =>
      obtain ⟨first, old⟩ := field
      rw [putField]
      by_cases hsame : name = first
      · rw [if_pos (beq_iff_eq.mpr hsame.symm), if_pos (hsame ▸ List.mem_cons_self), hsame]
        rfl
      · have hmem : name ∈ ((first, old) :: fields).map Prod.fst ↔ name ∈ fields.map Prod.fst := by
          rw [List.map_cons, List.mem_cons]
          exact or_iff_right hsame
        rw [if_neg fun h => hsame (beq_iff_eq.mp h).symm, List.map_cons, ih]
        simp only [hmem]
        split <;> rfl

theorem mem_names_putField {α : Type} (name other : String) (value : α)
    (fields : List (String × α)) :
    other ∈ (putField name value fields).map Prod.fst ↔
      other ∈ fields.map Prod.fst ∨ other = name := by
  rw [names_putField]
  split
  · rename_i hmem
    exact ⟨.inl, fun h => h.elim id fun heq => heq ▸ hmem⟩
  · rw [List.mem_append, List.mem_singleton]

theorem nodup_names_putField {α : Type} {name : String} (value : α) {fields : List (String × α)}
    (h : (fields.map Prod.fst).Nodup) : ((putField name value fields).map Prod.fst).Nodup := by
  rw [names_putField]
  split
  · exact h
  · rename_i hnot
    refine List.nodup_append.mpr ⟨h, by simp, fun other hother last hlast heq => hnot ?_⟩
    rw [← List.mem_singleton.mp hlast, ← heq]
    exact hother

theorem names_eraseField {α : Type} (name : String) (fields : List (String × α)) :
    (eraseField name fields).map Prod.fst = (fields.map Prod.fst).filter (· != name) := by
  rw [eraseField, List.filter_map]
  rfl

/-- The last value that a list has for a name. -/
def lastMention {α : Type} (fields : List (String × α)) (name : String) : Option α :=
  fields.reverse.lookup name

theorem lastMention_cons {α : Type} (key : String) (value : α) (rest : List (String × α))
    (name : String) :
    lastMention ((key, value) :: rest) name =
      (lastMention rest name).or (if name = key then some value else none) := by
  unfold lastMention
  rw [List.reverse_cons, List.lookup_append, lookup_cons_ite]
  rfl

theorem lastMention_map {α β : Type} (f : α → β) (fields : List (String × α)) (name : String) :
    lastMention (fields.map fun p => (p.1, f p.2)) name = (lastMention fields name).map f := by
  induction fields with
  | nil => rfl
  | cons field rest ih =>
      rw [List.map_cons, lastMention_cons, lastMention_cons, ih]
      cases lastMention rest name with
      | some v => rfl
      | none => by_cases h : name = field.1 <;> simp [h]

/-- Where no name comes twice, the last value is the only one. -/
theorem lastMention_of_nodup {α : Type} {fields : List (String × α)}
    (h : (fields.map Prod.fst).Nodup) (name : String) :
    lastMention fields name = fields.lookup name := by
  cases hfind : fields.lookup name with
  | none =>
      have hnot : name ∉ fields.reverse.map Prod.fst := by
        intro hmem
        rw [List.map_reverse, List.mem_reverse] at hmem
        obtain ⟨field, hfield, rfl⟩ := List.mem_map.mp hmem
        cases (lookup_of_mem h hfield).symm.trans hfind
      exact lookup_of_not_mem hnot
  | some v =>
      have hreverse : (fields.reverse.map Prod.fst).Nodup :=
        ((List.reverse_perm fields).map Prod.fst).nodup_iff.mpr h
      exact lookup_of_mem hreverse (List.mem_reverse.mpr (mem_of_lookup hfind))

namespace Store

/-- What a store holds under a name. Undefined counts as held. -/
def held (s : Store) (name : String) : Option Value := s.vars.lookup name

/-- No last write is later than the revision. -/
def Sound (s : Store) : Prop := ∀ name, s.lastWrite name ≤ s.revision

/-- Nothing happened to a name on the way from `s` to `t`. -/
def Untouched (s t : Store) (name : String) : Prop :=
  t.lastWrite name = s.lastWrite name ∧ t.held name = s.held name

/-- `t` is `s` after some writes. -/
def Becomes (s t : Store) : Prop :=
  s.revision ≤ t.revision ∧
    ∀ name, Untouched s t name ∨ s.revision < t.lastWrite name ∧ t.lastWrite name ≤ t.revision

theorem sound_empty : Sound {} := by
  intro name
  simp [lastWrite]

/-! ## Single writes -/

@[simp] theorem revision_set (s : Store) (name : String) (v : Value) :
    (s.set name v).revision = s.revision + 1 := rfl

@[simp] theorem held_set (s : Store) (name other : String) (v : Value) :
    (s.set name v).held other = if other = name then some v else s.held other :=
  lookup_putField name other v s.vars

@[simp] theorem lastWrite_set (s : Store) (name other : String) (v : Value) :
    (s.set name v).lastWrite other =
      if other = name then s.revision + 1 else s.lastWrite other := by
  show ((putField name (s.revision + 1) s.written).lookup other).getD 0 = _
  rw [lookup_putField]
  split <;> rfl

@[simp] theorem revision_delete (s : Store) (name : String) :
    (s.delete name).revision = s.revision + 1 := rfl

@[simp] theorem held_delete (s : Store) (name other : String) :
    (s.delete name).held other = if other = name then none else s.held other :=
  lookup_eraseField name other s.vars

@[simp] theorem lastWrite_delete (s : Store) (name other : String) :
    (s.delete name).lastWrite other =
      if other = name then s.revision + 1 else s.lastWrite other := by
  show ((putField name (s.revision + 1) s.written).lookup other).getD 0 = _
  rw [lookup_putField]
  split <;> rfl

/-! ## Writes in sequence -/

theorem Becomes.refl (s : Store) : Becomes s s :=
  ⟨Nat.le_refl _, fun _ => Or.inl ⟨rfl, rfl⟩⟩

theorem Becomes.trans {s t u : Store} (h₁ : Becomes s t) (h₂ : Becomes t u) : Becomes s u := by
  obtain ⟨hst, h₁⟩ := h₁
  obtain ⟨htu, h₂⟩ := h₂
  refine ⟨by omega, fun name => ?_⟩
  -- a late write stays late: the second part only adds to the revision
  rcases h₁ name with ⟨hw₁, hv₁⟩ | hlate₁
  · rcases h₂ name with ⟨hw₂, hv₂⟩ | hlate₂
    · exact Or.inl ⟨hw₂.trans hw₁, hv₂.trans hv₁⟩
    · exact Or.inr (by omega)
  · rcases h₂ name with ⟨hw₂, _⟩ | hlate₂
    · exact Or.inr (by omega)
    · exact Or.inr (by omega)

theorem Becomes.sound {s t : Store} (h : Becomes s t) (hs : s.Sound) : t.Sound := by
  intro name
  rcases h.2 name with ⟨hw, _⟩ | ⟨_, hle⟩
  · have := hs name
    have := h.1
    omega
  · exact hle

theorem becomes_set (s : Store) (name : String) (v : Value) : Becomes s (s.set name v) := by
  refine ⟨by simp, fun other => ?_⟩
  by_cases h : other = name
  · exact Or.inr (by simp [h])
  · exact Or.inl ⟨by simp [h], by simp [h]⟩

theorem becomes_delete (s : Store) (name : String) : Becomes s (s.delete name) := by
  refine ⟨by simp, fun other => ?_⟩
  by_cases h : other = name
  · exact Or.inr (by simp [h])
  · exact Or.inl ⟨by simp [h], by simp [h]⟩

theorem becomes_setAll (values : List (String × Value)) :
    ∀ s : Store, Becomes s (s.setAll values) := by
  induction values with
  | nil => exact Becomes.refl
  | cons pair rest ih => exact fun s => (becomes_set s pair.1 pair.2).trans (ih _)

/-- Setting several names: the last value given to a name stays. -/
theorem held_setAll_last (values : List (String × Value)) (name : String) :
    ∀ s : Store, (s.setAll values).held name = (lastMention values name).or (s.held name) := by
  induction values with
  | nil => exact fun _ => rfl
  | cons field rest ih =>
      intro s
      obtain ⟨key, v⟩ := field
      show ((s.set key v).setAll rest).held name = _
      rw [ih, held_set, lastMention_cons, Option.or_assoc]
      by_cases hname : name = key
      · rw [if_pos hname, if_pos hname]
        rfl
      · rw [if_neg hname, if_neg hname]
        rfl

/-- Setting several names that are all different. -/
theorem held_setAll {values : List (String × Value)} (hnodup : (values.map Prod.fst).Nodup)
    (s : Store) (name : String) :
    (s.setAll values).held name = (values.lookup name).or (s.held name) := by
  rw [held_setAll_last, lastMention_of_nodup hnodup]

theorem revision_setAll (values : List (String × Value)) :
    ∀ s : Store, (s.setAll values).revision = s.revision + values.length := by
  induction values with
  | nil => exact fun _ => rfl
  | cons field rest ih =>
      intro s
      have hrest := ih (s.set field.1 field.2)
      rw [revision_set] at hrest
      rw [List.length_cons]
      show ((s.set field.1 field.2).setAll rest).revision = _
      omega

theorem lastWrite_setAll_of_not_mem {name : String} (values : List (String × Value)) :
    ∀ s : Store, name ∉ values.map Prod.fst →
      (s.setAll values).lastWrite name = s.lastWrite name := by
  induction values with
  | nil => exact fun _ _ => rfl
  | cons field rest ih =>
      intro s h
      obtain ⟨hfirst, hrest⟩ := not_or.mp (mt List.mem_cons.mpr h)
      show ((s.set field.1 field.2).setAll rest).lastWrite name = _
      rw [ih _ hrest, lastWrite_set, if_neg hfirst]

theorem lastWrite_setAll_of_mem {name : String} (values : List (String × Value)) :
    ∀ s : Store, name ∈ values.map Prod.fst → s.revision < (s.setAll values).lastWrite name := by
  induction values with
  | nil => exact fun _ h => absurd h List.not_mem_nil
  | cons field rest ih =>
      intro s h
      show _ < ((s.set field.1 field.2).setAll rest).lastWrite name
      by_cases hrest : name ∈ rest.map Prod.fst
      · have hlate := ih (s.set field.1 field.2) hrest
        rw [revision_set] at hlate
        omega
      · have hfirst : name = field.1 := (List.mem_cons.mp h).resolve_right hrest
        rw [lastWrite_setAll_of_not_mem rest _ hrest, lastWrite_set, if_pos hfirst]
        omega

/-! ## Merges

A merge looks at one name at a time, and once it has set a name that name counts
as written after every mark there is. So what a merge does to a name can be said
without its order. -/

/-- One variable of a merge. -/
def mergeOne (mark : Nat) (acc : Store × List String) (pair : String × Value) :
    Store × List String :=
  if mark < acc.1.lastWrite pair.1 then (acc.1, pair.1 :: acc.2)
  else (acc.1.set pair.1 pair.2, acc.2)

/-- A merge goes through the variables one by one. -/
theorem mergeSince_eq (s other : Store) (mark : Nat) :
    (s.mergeSince other mark).1 = (other.vars.foldl (mergeOne mark) (s, [])).1 := rfl

theorem becomes_mergeOne (mark : Nat) (acc : Store × List String) (pair : String × Value) :
    Becomes acc.1 (mergeOne mark acc pair).1 := by
  unfold mergeOne
  split
  · exact Becomes.refl _
  · exact becomes_set _ _ _

theorem becomes_mergeVars (mark : Nat) (pairs : List (String × Value)) :
    ∀ acc : Store × List String, Becomes acc.1 (pairs.foldl (mergeOne mark) acc).1 := by
  induction pairs with
  | nil => exact fun acc => Becomes.refl acc.1
  | cons pair rest ih => exact fun acc => (becomes_mergeOne mark acc pair).trans (ih _)

theorem becomes_mergeSince (s other : Store) (mark : Nat) :
    Becomes s (s.mergeSince other mark).1 := by
  rw [mergeSince_eq]
  exact becomes_mergeVars mark other.vars (s, [])

/-- A name written after the mark is left alone, and so is one that is not there. -/
theorem mergeVars_untouched {mark : Nat} {name : String} (pairs : List (String × Value)) :
    ∀ acc : Store × List String, (mark < acc.1.lastWrite name ∨ pairs.lookup name = none) →
      Untouched acc.1 (pairs.foldl (mergeOne mark) acc).1 name := by
  induction pairs with
  | nil => exact fun acc _ => ⟨rfl, rfl⟩
  | cons pair rest ih =>
      intro acc h
      -- the head is another name, or this name comes too late
      have hone : Untouched acc.1 (mergeOne mark acc pair).1 name := by
        unfold mergeOne
        split
        · exact ⟨rfl, rfl⟩
        · rename_i hle
          have hne : name ≠ pair.1 := by
            rintro rfl
            rcases h with h | h
            · exact hle h
            · rw [lookup_cons_ite, if_pos rfl] at h; simp at h
          exact ⟨by simp [hne], by simp [hne]⟩
      have hrest : mark < (mergeOne mark acc pair).1.lastWrite name ∨ rest.lookup name = none := by
        rcases h with h | h
        · exact Or.inl (by rw [hone.1]; exact h)
        · refine Or.inr ?_
          rw [lookup_cons_ite] at h
          split at h
          · simp at h
          · exact h
      obtain ⟨hw, hv⟩ := ih (mergeOne mark acc pair) hrest
      exact ⟨hw.trans hone.1, hv.trans hone.2⟩

/-- A name not written after the mark gets the value it is merged with. -/
theorem mergeVars_set {mark : Nat} {name : String} {v : Value} (pairs : List (String × Value)) :
    ∀ acc : Store × List String, mark ≤ acc.1.revision → acc.1.lastWrite name ≤ mark →
      pairs.lookup name = some v →
      (pairs.foldl (mergeOne mark) acc).1.held name = some v ∧
        acc.1.revision < (pairs.foldl (mergeOne mark) acc).1.lastWrite name := by
  induction pairs with
  | nil => intro acc _ _ h; simp at h
  | cons pair rest ih =>
      intro acc hmark hlast hv
      by_cases hk : name = pair.1
      · -- set here: from now on the name counts as written after the mark
        subst hk
        have hval : pair.2 = v := by
          rw [lookup_cons_ite, if_pos rfl] at hv
          exact Option.some.inj hv
        have hone : mergeOne mark acc pair = (acc.1.set pair.1 pair.2, acc.2) := by
          unfold mergeOne
          rw [if_neg (by omega)]
        obtain ⟨hw, hh⟩ := @mergeVars_untouched mark pair.1 rest
          (mergeOne mark acc pair) (Or.inl (by rw [hone]; simp; omega))
        rw [List.foldl_cons]
        exact ⟨by rw [hh, hone]; simp [hval], by rw [hw, hone]; simp⟩
      · have hrest : rest.lookup name = some v := by
          rwa [lookup_cons_ite, if_neg hk] at hv
        have hrev : acc.1.revision ≤ (mergeOne mark acc pair).1.revision :=
          (becomes_mergeOne mark acc pair).1
        have hw : (mergeOne mark acc pair).1.lastWrite name = acc.1.lastWrite name := by
          unfold mergeOne
          split
          · rfl
          · simp [hk]
        obtain ⟨h1, h2⟩ := ih (mergeOne mark acc pair) (by omega) (by omega) hrest
        exact ⟨h1, by rw [List.foldl_cons]; omega⟩

/-- **What a merge leaves alone**: names that are not merged, and names written after the mark. -/
theorem mergeSince_untouched {s other : Store} {mark : Nat} {name : String}
    (h : mark < s.lastWrite name ∨ other.held name = none) :
    Untouched s (s.mergeSince other mark).1 name := by
  rw [mergeSince_eq]
  exact mergeVars_untouched other.vars (s, []) h

/-- **What a merge sets**: names that were not written after the mark. -/
theorem mergeSince_set {s other : Store} {mark : Nat} {name : String} {v : Value}
    (hmark : mark ≤ s.revision) (hlast : s.lastWrite name ≤ mark) (hv : other.held name = some v) :
    (s.mergeSince other mark).1.held name = some v ∧
      s.revision < (s.mergeSince other mark).1.lastWrite name := by
  rw [mergeSince_eq]
  exact mergeVars_set other.vars (s, []) hmark hlast hv

end Store

end PageMacro
