import PageMacro.Proofs.Interpolation

/-!
# The grammar of segments

`Kind.shapes` is the grammar, as a table: for each kind the slots of its form, from left to right.
A decomposition of a text gives every slot a piece that it takes, and the pieces, put together, are
the text. `read?_eq_some_iff_chosen` says that the readers follow the table: they give the first
kind of which there is a decomposition, with the pieces of the slots that are groups.

Most readers take the longest piece in every slot. That loses nothing where no slot can go on with
what the next one begins with (`Delimited`): there is one decomposition at most then, and the
greedy one is it. Two kinds are not so. An index may run over `].name:`, and the reader takes the
shortest; what follows a verb may go on as the verb does, and the reader takes the longest.
-/

namespace PageMacro.Segment

/-! ## The table -/

/-- The texts that a group holds. -/
inductive Group where
  /-- A non-empty run of characters of a class. -/
  | run (p : Char → Bool)
  /-- A selector: a name, with or without a sign. -/
  | target
  /-- Any text without a line feed. -/
  | line
  /-- The same, but not empty. -/
  | rhs
  /-- Nothing. -/
  | absent

/-- A place in the form of a segment. -/
inductive Slot where
  /-- A fixed character. -/
  | mark (c : Char)
  /-- Spaces, which are skipped. -/
  | spaces
  /-- A text that is kept. -/
  | group (g : Group)

namespace Slot

abbrev name : Slot := .group (.run isNameChar)

abbrev word : Slot := .group (.run isWordChar)

abbrev property : Slot := .group (.run isPropertyChar)

abbrev verb : Slot := .group (.run isVerbChar)

abbrev target : Slot := .group .target

abbrev line : Slot := .group .line

abbrev rhs : Slot := .group .rhs

abbrev absent : Slot := .group .absent

end Slot

/-- The kinds of segments, in the order in which they are tried. -/
def Kind.order : List Kind :=
  [.attrWrite, .indexedWrite, .shellOpen, .shellClose, .propRead, .literalAssign, .propWrite,
    .nopStore, .contentSet, .verbCall]

/-- The forms of each kind. -/
def Kind.shapes : Kind → List (List Slot)
  | .malformed => []
  | .attrWrite =>
    [[.target, .mark '[', .spaces, .name, .spaces, .mark ']', .spaces, .mark ':', .rhs]]
  | .indexedWrite =>
    [[.target, .mark '[', .line, .mark ']', .mark '.', .property, .mark ':', .rhs]]
  | .shellOpen => [[.mark '+', .spaces, .name, .mark ':', .word, .spaces]]
  | .shellClose => [[.mark '-', .spaces, .word]]
  | .propRead => [[.mark '#', .word, .mark ':', .name, .mark '.', .word]]
  | .literalAssign => [[.mark '&', .word, .mark ':', .rhs]]
  | .propWrite => [[.target, .mark '.', .property, .mark ':', .rhs]]
  | .nopStore => [[.mark 'n', .mark 'o', .mark 'p', .mark ':', .word]]
  | .contentSet => [[.mark '$', .name, .absent], [.mark '$', .name, .mark ':', .rhs]]
  | .verbCall => [[.verb, .line], [.verb, .mark ':', .line]]

/-- The piece is not empty, and all its characters are of the class. -/
def IsRun (p : Char → Bool) (piece : List Char) : Prop := piece ≠ [] ∧ ∀ c ∈ piece, p c = true

/-- The piece is a name, or a name behind a sign. -/
def IsTarget (piece : List Char) : Prop :=
  IsRun isNameChar piece ∨
    ∃ sign name, (sign = '#' ∨ sign = '.' ∨ sign = '$') ∧ piece = sign :: name ∧
      IsRun isNameChar name

/-- A group takes a piece. -/
def Group.Takes : Group → List Char → Prop
  | run p, piece => IsRun p piece
  | target, piece => IsTarget piece
  | line, piece => '\n' ∉ piece
  | rhs, piece => piece ≠ [] ∧ '\n' ∉ piece
  | absent, piece => piece = []

/-- A slot takes a piece. -/
def Slot.Takes : Slot → List Char → Prop
  | mark c, piece => piece = [c]
  | spaces, piece => ∀ c ∈ piece, isSpace c = true
  | group g, piece => g.Takes piece

/-- Every slot takes its piece, and the pieces make up the text. -/
structure Decomposes (shape : List Slot) (cs : List Char) (pieces : List (List Char)) : Prop where
  takes : List.Forall₂ Slot.Takes shape pieces
  rebuilds : pieces.flatten = cs

/-- The pieces of the slots that are groups. -/
def groups : List Slot → List (List Char) → List String
  | .group _ :: shape, piece :: pieces => String.ofList piece :: groups shape pieces
  | _ :: shape, _ :: pieces => groups shape pieces
  | _, _ => []

/-- The text has a form of the kind. -/
def Kind.Fits (k : Kind) (cs : List Char) : Prop :=
  ∃ shape ∈ k.shapes, ∃ pieces, Decomposes shape cs pieces

/-! ## The greedy reader -/

/-- The text does not begin with a character of the class. -/
def EndsRun (p : Char → Bool) (rest : List Char) : Prop := ∀ c ∈ rest.head?, p c = false

/-- What may follow a slot so that the longest piece is the only one. -/
def Slot.EndsBefore : Slot → List Char → Prop
  | mark _, _ => True
  | spaces, rest => EndsRun isSpace rest
  | group (.run p), rest => EndsRun p rest
  | group .target, rest => EndsRun isNameChar rest
  | group .line, rest => rest = []
  | group .rhs, rest => rest = []
  | group .absent, _ => True

/-- The longest piece that a slot can take off a text. -/
def Slot.take? : Slot → List Char → Option (List Char × List Char)
  | mark c, cs => (char? c cs).map fun rest => ([c], rest)
  | spaces, cs => some (cs.takeWhile isSpace, cs.dropWhile isSpace)
  | group (.run p), cs => (run? p cs).map fun (run, rest) => (run.toList, rest)
  | group .target, cs => (target? cs).map fun (name, rest) => (name.toList, rest)
  | group .line, cs => if cs.contains '\n' then none else some (cs, [])
  | group .rhs, cs => (rhs? cs).map fun text => (text.toList, [])
  | group .absent, cs => some ([], cs)

/-- Takes the longest piece for each slot; nothing may be left. -/
def greedy : List Slot → List Char → Option (List (List Char))
  | [], cs => (done? cs).map fun _ => []
  | slot :: shape, cs => do
    let (piece, cs) ← slot.take? cs
    let pieces ← greedy shape cs
    return piece :: pieces

section Pieces

variable {p : Char → Bool} {cs rest : List Char}

theorem takeWhile_append_of_endsRun {run : List Char} (hrun : ∀ c ∈ run, p c = true)
    (hend : EndsRun p rest) :
    (run ++ rest).takeWhile p = run ∧ (run ++ rest).dropWhile p = rest := by
  have hnone : rest.takeWhile p = [] ∧ rest.dropWhile p = rest := by
    cases rest with
    | nil => exact ⟨rfl, rfl⟩
    | cons c rest =>
        have hc : p c = false := hend c rfl
        simp [hc]
  rw [List.takeWhile_append_of_pos hrun, List.dropWhile_append_of_pos hrun, hnone.1, hnone.2]
  exact ⟨List.append_nil run, rfl⟩

theorem char?_eq_some_iff {c : Char} : char? c cs = some rest ↔ cs = c :: rest := by
  refine ⟨char?_eq_some, ?_⟩
  rintro rfl
  simp [char?]

theorem run?_eq_some_iff {run : String} :
    run? p cs = some (run, rest) ↔
      IsRun p run.toList ∧ EndsRun p rest ∧ cs = run.toList ++ rest := by
  constructor
  · intro h
    unfold run? at h
    split at h
    · contradiction
    · rename_i hne
      cases h
      rw [String.toList_ofList]
      refine ⟨⟨hne, fun c hc => List.mem_takeWhile_imp hc⟩, ?_,
        List.takeWhile_append_dropWhile.symm⟩
      intro c hc
      have := List.head?_dropWhile_not p cs
      rw [Option.mem_def.mp hc] at this
      simpa using this
  · rintro ⟨⟨hne, hrun⟩, hend, rfl⟩
    obtain ⟨htake, hdrop⟩ := takeWhile_append_of_endsRun hrun hend
    unfold run?
    rw [htake, hdrop]
    split
    · contradiction
    · rw [String.ofList_toList]

theorem target?_eq_some_iff {name : String} :
    target? cs = some (name, rest) ↔
      IsTarget name.toList ∧ EndsRun isNameChar rest ∧ cs = name.toList ++ rest := by
  cases cs with
  | nil =>
      refine ⟨fun h => by contradiction, ?_⟩
      rintro ⟨htarget, -, hcs⟩
      have hnil : name.toList = [] := (List.append_eq_nil_iff.mp hcs.symm).1
      rcases htarget with ⟨hne, -⟩ | ⟨sign, run, -, heq, -⟩
      · exact absurd hnil hne
      · rw [hnil] at heq
        contradiction
  | cons c ds =>
      simp only [target?]
      split
      · -- a sign: a name does not begin with one
        rename_i hsign
        have hsign' : c = '#' ∨ c = '.' ∨ c = '$' := by simpa [or_assoc] using hsign
        have hc : isNameChar c = false := by rcases hsign' with rfl | rfl | rfl <;> decide
        rw [Option.map_eq_some_iff]
        constructor
        · rintro ⟨⟨run, ds'⟩, hrun, heq⟩
          obtain ⟨rfl, rfl⟩ := Prod.mk.inj heq
          obtain ⟨hname, hend, rfl⟩ := run?_eq_some_iff.mp hrun
          have hlist : (String.singleton c ++ run).toList = c :: run.toList := by simp
          rw [hlist]
          exact ⟨.inr ⟨c, run.toList, hsign', rfl, hname⟩, hend, rfl⟩
        · rintro ⟨htarget, hend, heq⟩
          rcases htarget with ⟨hne, hrun⟩ | ⟨sign, run, -, hname, hrun⟩
          · obtain ⟨d, tail, hname⟩ := List.exists_cons_of_ne_nil hne
            rw [hname] at heq hrun
            obtain ⟨rfl, -⟩ := List.cons.inj heq
            rw [hrun c List.mem_cons_self] at hc
            contradiction
          · rw [hname] at heq
            obtain ⟨rfl, rfl⟩ := List.cons.inj heq
            refine ⟨(String.ofList run, rest), run?_eq_some_iff.mpr ?_, ?_⟩
            · rw [String.toList_ofList]
              exact ⟨hrun, hend, rfl⟩
            · dsimp only
              rw [Prod.mk.injEq, ← String.toList_inj, hname]
              simp
      · rename_i hsign
        rw [run?_eq_some_iff]
        refine and_congr_left fun hrest => ⟨.inl, ?_⟩
        obtain ⟨-, heq⟩ := hrest
        rintro (hrun | ⟨sign, run, hs, hname, -⟩)
        · exact hrun
        · rw [hname] at heq
          obtain ⟨rfl, -⟩ := List.cons.inj heq
          exact absurd (by simpa [or_assoc] using hs) hsign

theorem rhs?_eq_some_iff {text : String} :
    rhs? cs = some text ↔ (cs ≠ [] ∧ '\n' ∉ cs) ∧ text = String.ofList cs := by
  unfold rhs?
  split
  · rename_i h
    simp only [Bool.or_eq_true, List.isEmpty_iff, List.contains_iff_mem] at h
    simp only [reduceCtorEq, false_iff, not_and, and_imp]
    intro hne hnl
    exact absurd h (by simp [hne, hnl])
  · rename_i h
    simp only [Bool.or_eq_true, List.isEmpty_iff, List.contains_iff_mem, not_or] at h
    simp only [Option.some.injEq]
    exact ⟨fun ht => ⟨h, ht.symm⟩, fun ht => ht.2.symm⟩

theorem done?_eq_some {u : Unit} : done? cs = some u ↔ cs = [] := by
  unfold done?
  cases cs <;> simp

/-- **A slot takes off a piece it can take**, and leaves what follows. -/
theorem Slot.take?_sound {slot : Slot} {piece : List Char}
    (h : slot.take? cs = some (piece, rest)) : slot.Takes piece ∧ cs = piece ++ rest := by
  cases slot with
  | mark c =>
      obtain ⟨_, hchar, heq⟩ := Option.map_eq_some_iff.mp h
      obtain ⟨rfl, rfl⟩ := Prod.mk.inj heq
      exact ⟨rfl, char?_eq_some hchar⟩
  | spaces =>
      obtain ⟨rfl, rfl⟩ := Prod.mk.inj (Option.some.inj h)
      exact ⟨fun c hc => List.mem_takeWhile_imp hc, List.takeWhile_append_dropWhile.symm⟩
  | group g =>
      cases g with
      | run p =>
          obtain ⟨⟨run, _⟩, hrun, heq⟩ := Option.map_eq_some_iff.mp h
          obtain ⟨rfl, rfl⟩ := Prod.mk.inj heq
          obtain ⟨hrun, -, hcs⟩ := run?_eq_some_iff.mp hrun
          exact ⟨hrun, hcs⟩
      | target =>
          obtain ⟨⟨name, _⟩, htarget, heq⟩ := Option.map_eq_some_iff.mp h
          obtain ⟨rfl, rfl⟩ := Prod.mk.inj heq
          obtain ⟨htarget, -, hcs⟩ := target?_eq_some_iff.mp htarget
          exact ⟨htarget, hcs⟩
      | line =>
          simp only [take?] at h
          split at h
          · contradiction
          · rename_i hnl
            obtain ⟨rfl, rfl⟩ := Prod.mk.inj (Option.some.inj h)
            rw [List.contains_iff_mem] at hnl
            exact ⟨hnl, (List.append_nil _).symm⟩
      | rhs =>
          obtain ⟨text, hrhs, heq⟩ := Option.map_eq_some_iff.mp h
          obtain ⟨rfl, rfl⟩ := Prod.mk.inj heq
          obtain ⟨htakes, rfl⟩ := rhs?_eq_some_iff.mp hrhs
          rw [String.toList_ofList]
          exact ⟨htakes, (List.append_nil _).symm⟩
      | absent =>
          obtain ⟨rfl, rfl⟩ := Prod.mk.inj (Option.some.inj h)
          exact ⟨rfl, rfl⟩

/-- **Before what ends it, a slot takes off any piece it can take.** -/
theorem Slot.take?_complete {slot : Slot} {piece : List Char} (h : slot.Takes piece)
    (hend : slot.EndsBefore rest) : slot.take? (piece ++ rest) = some (piece, rest) := by
  cases slot with
  | mark c =>
      obtain rfl : piece = [c] := h
      simp [take?, char?]
  | spaces =>
      obtain ⟨htake, hdrop⟩ := takeWhile_append_of_endsRun h hend
      simp only [take?, htake, hdrop]
  | group g =>
      cases g with
      | run p =>
          have hrun : run? p (piece ++ rest) = some (String.ofList piece, rest) :=
            run?_eq_some_iff.mpr (by rw [String.toList_ofList]; exact ⟨h, hend, rfl⟩)
          simp only [take?, hrun, Option.map_some, String.toList_ofList]
      | target =>
          have htarget : target? (piece ++ rest) = some (String.ofList piece, rest) :=
            target?_eq_some_iff.mpr (by rw [String.toList_ofList]; exact ⟨h, hend, rfl⟩)
          simp only [take?, htarget, Option.map_some, String.toList_ofList]
      | line =>
          obtain rfl : rest = [] := hend
          have hnl : '\n' ∉ piece := h
          simp [take?, hnl]
      | rhs =>
          obtain rfl : rest = [] := hend
          have hrhs : rhs? piece = some (String.ofList piece) := rhs?_eq_some_iff.mpr ⟨h, rfl⟩
          simp only [take?, List.append_nil, hrhs, Option.map_some, String.toList_ofList]
      | absent =>
          obtain rfl : piece = [] := h
          rfl

end Pieces

/-! ## Delimited shapes -/

/-- What follows a slot always ends it. -/
def Delimited : List Slot → Prop
  | [] => True
  | slot :: shape =>
    (∀ cs pieces, Decomposes shape cs pieces → slot.EndsBefore cs) ∧ Delimited shape

section Greedy

variable {shape : List Slot} {slot : Slot} {cs : List Char} {pieces : List (List Char)}

theorem decomposes_nil : Decomposes [] cs pieces ↔ cs = [] ∧ pieces = [] := by
  constructor
  · rintro ⟨htakes, hcs⟩
    cases htakes
    exact ⟨hcs.symm, rfl⟩
  · rintro ⟨rfl, rfl⟩
    exact ⟨.nil, rfl⟩

/-- A decomposition is a piece for the first slot and a decomposition of the rest. -/
theorem decomposes_cons :
    Decomposes (slot :: shape) cs pieces ↔
      ∃ piece rest pieces', slot.Takes piece ∧ Decomposes shape rest pieces' ∧
        cs = piece ++ rest ∧ pieces = piece :: pieces' := by
  constructor
  · rintro ⟨htakes, hcs⟩
    cases htakes with
    | cons hpiece hrest => exact ⟨_, _, _, hpiece, ⟨hrest, rfl⟩, hcs.symm, rfl⟩
  · rintro ⟨piece, rest, pieces', hpiece, ⟨hrest, hflat⟩, rfl, rfl⟩
    exact ⟨.cons hpiece hrest, by rw [List.flatten_cons, hflat]⟩

/-- What the greedy reader finds is a decomposition. -/
theorem greedy_sound : ∀ {shape : List Slot} {cs : List Char} {pieces : List (List Char)},
    greedy shape cs = some pieces → Decomposes shape cs pieces
  | [], cs, pieces, h => by
      obtain ⟨_, hdone, rfl⟩ := Option.map_eq_some_iff.mp h
      exact decomposes_nil.mpr ⟨done?_eq_some.mp hdone, rfl⟩
  | slot :: shape, cs, pieces, h => by
      simp only [greedy, Option.bind_eq_bind, Option.bind_eq_some_iff, Prod.exists,
        Option.pure_def, Option.some.injEq] at h
      obtain ⟨piece, rest, htake, pieces', hrest, rfl⟩ := h
      obtain ⟨hpiece, hcs⟩ := Slot.take?_sound htake
      exact decomposes_cons.mpr ⟨piece, rest, pieces', hpiece, greedy_sound hrest, hcs, rfl⟩

/-- Of a delimited shape it finds any decomposition there is. -/
theorem greedy_complete : ∀ {shape : List Slot} {cs : List Char} {pieces : List (List Char)},
    Delimited shape → Decomposes shape cs pieces → greedy shape cs = some pieces
  | [], cs, pieces, _, h => by
      obtain ⟨rfl, rfl⟩ := decomposes_nil.mp h
      rfl
  | slot :: shape, cs, pieces, hdel, h => by
      obtain ⟨piece, rest, pieces', hpiece, hrest, rfl, rfl⟩ := decomposes_cons.mp h
      -- the rest begins with nothing that the slot could take, so the longest piece is this one
      have htake := Slot.take?_complete hpiece (hdel.1 _ _ hrest)
      simp only [greedy, htake, greedy_complete hdel.2 hrest, Option.bind_eq_bind,
        Option.bind_some, Option.pure_def]

/-- **Greedy reading finds the decomposition of a delimited shape**, and there is one at most. -/
theorem greedy_eq_some_iff (hdel : Delimited shape) :
    greedy shape cs = some pieces ↔ Decomposes shape cs pieces :=
  ⟨greedy_sound, greedy_complete hdel⟩

theorem Delimited.unique (hdel : Delimited shape) {pieces' : List (List Char)}
    (h : Decomposes shape cs pieces) (h' : Decomposes shape cs pieces') : pieces = pieces' :=
  Option.some.inj ((greedy_complete hdel h).symm.trans (greedy_complete hdel h'))

end Greedy

/-! ## The shapes of the table -/

/-- A text of the shape does not begin with a character of the class. -/
def Follows (p : Char → Bool) (shape : List Slot) : Prop :=
  ∀ cs pieces, Decomposes shape cs pieces → EndsRun p cs

section Follows

variable {p q : Char → Bool} {shape : List Slot}

theorem follows_nil : Follows p [] := by
  intro cs pieces h
  rw [(decomposes_nil.mp h).1]
  simp [EndsRun]

theorem follows_mark {c : Char} (hc : p c = false) : Follows p (.mark c :: shape) := by
  intro cs pieces h
  obtain ⟨piece, rest, _, rfl, -, rfl, -⟩ := decomposes_cons.mp h
  simpa [EndsRun] using hc

theorem follows_run (hpq : ∀ c, q c = true → p c = false) :
    Follows p (.group (.run q) :: shape) := by
  intro cs pieces h
  obtain ⟨piece, rest, _, ⟨hne, hrun⟩, -, rfl, -⟩ := decomposes_cons.mp h
  obtain ⟨c, tail, rfl⟩ := List.exists_cons_of_ne_nil hne
  simpa [EndsRun] using hpq c (hrun c List.mem_cons_self)

/-- Spaces may be missing, so what follows them counts too. -/
theorem follows_spaces (hp : ∀ c, isSpace c = true → p c = false) (h : Follows p shape) :
    Follows p (.spaces :: shape) := by
  intro cs pieces hcs
  obtain ⟨piece, rest, pieces', hgap, hrest, rfl, -⟩ := decomposes_cons.mp hcs
  cases piece with
  | nil => exact h rest pieces' hrest
  | cons c tail => simpa [EndsRun] using hp c (hgap c List.mem_cons_self)

theorem isNameChar_of_isSpace (c : Char) (h : isSpace c = true) : isNameChar c = false := by
  simp only [isSpace, Bool.or_eq_true, beq_iff_eq] at h
  rcases h with (((rfl | rfl) | rfl) | rfl) | rfl <;> decide

theorem isWordChar_of_isSpace (c : Char) (h : isSpace c = true) : isWordChar c = false := by
  have := isNameChar_of_isSpace c h
  unfold isNameChar at this
  exact (Bool.or_eq_false_iff.mp this).1

theorem isSpace_of_isNameChar (c : Char) (h : isNameChar c = true) : isSpace c = false := by
  cases hs : isSpace c with
  | false => rfl
  | true => rw [isNameChar_of_isSpace c hs] at h; contradiction

theorem isSpace_of_isWordChar (c : Char) (h : isWordChar c = true) : isSpace c = false :=
  isSpace_of_isNameChar c (by unfold isNameChar; rw [h]; rfl)

theorem delimited_mark {c : Char} (h : Delimited shape) : Delimited (.mark c :: shape) :=
  ⟨fun _ _ _ => trivial, h⟩

theorem delimited_run (hp : Follows p shape) (h : Delimited shape) :
    Delimited (.group (.run p) :: shape) :=
  ⟨hp, h⟩

theorem delimited_spaces (hp : Follows isSpace shape) (h : Delimited shape) :
    Delimited (.spaces :: shape) :=
  ⟨hp, h⟩

theorem delimited_target (hp : Follows isNameChar shape) (h : Delimited shape) :
    Delimited (.target :: shape) :=
  ⟨hp, h⟩

theorem delimited_rhs : Delimited [.rhs] :=
  ⟨fun _ _ h => (decomposes_nil.mp h).1, trivial⟩

theorem delimited_colon_rhs : Delimited [.mark ':', .rhs] := delimited_mark delimited_rhs

theorem delimited_last_word : Delimited [.word] := delimited_run follows_nil trivial

end Follows

/-- `.property:rhs` -/
theorem delimited_tail : Delimited [.mark '.', .property, .mark ':', .rhs] :=
  delimited_mark (delimited_run (follows_mark rfl) delimited_colon_rhs)

/-- The kinds with more than one decomposition of a text. -/
def Kind.Ambiguous (k : Kind) : Prop := k = .indexedWrite ∨ k = .verbCall

/-- **The shapes of all other kinds are delimited.** -/
theorem delimited_shapes {k : Kind} (hk : ¬ k.Ambiguous) {shape : List Slot}
    (h : shape ∈ k.shapes) : Delimited shape := by
  cases k with
  | malformed => simp [Kind.shapes] at h
  | indexedWrite => exact absurd (.inl rfl) hk
  | verbCall => exact absurd (.inr rfl) hk
  | attrWrite =>
      obtain rfl := List.mem_singleton.mp h
      refine delimited_target (follows_mark rfl) (delimited_mark ?_)
      refine delimited_spaces (follows_run isSpace_of_isNameChar) ?_
      refine delimited_run (follows_spaces isNameChar_of_isSpace (follows_mark rfl)) ?_
      refine delimited_spaces (follows_mark rfl) (delimited_mark ?_)
      exact delimited_spaces (follows_mark rfl) delimited_colon_rhs
  | shellOpen =>
      obtain rfl := List.mem_singleton.mp h
      refine delimited_mark (delimited_spaces (follows_run isSpace_of_isNameChar) ?_)
      refine delimited_run (follows_mark rfl) (delimited_mark ?_)
      exact delimited_run (follows_spaces isWordChar_of_isSpace follows_nil)
        (delimited_spaces follows_nil trivial)
  | shellClose =>
      obtain rfl := List.mem_singleton.mp h
      exact delimited_mark
        (delimited_spaces (follows_run isSpace_of_isWordChar) delimited_last_word)
  | propRead =>
      obtain rfl := List.mem_singleton.mp h
      refine delimited_mark (delimited_run (follows_mark rfl) (delimited_mark ?_))
      exact delimited_run (follows_mark rfl) (delimited_mark delimited_last_word)
  | literalAssign =>
      obtain rfl := List.mem_singleton.mp h
      exact delimited_mark (delimited_run (follows_mark rfl) delimited_colon_rhs)
  | propWrite =>
      obtain rfl := List.mem_singleton.mp h
      exact delimited_target (follows_mark rfl) delimited_tail
  | nopStore =>
      obtain rfl := List.mem_singleton.mp h
      exact delimited_mark (delimited_mark (delimited_mark (delimited_mark delimited_last_word)))
  | contentSet =>
      rcases List.mem_pair.mp h with rfl | rfl
      · refine delimited_mark (delimited_run ?_ ⟨fun _ _ _ => trivial, trivial⟩)
        intro cs pieces hcs
        obtain ⟨piece, rest, _, rfl, hrest, rfl, -⟩ := decomposes_cons.mp hcs
        exact follows_nil _ _ hrest
      · exact delimited_mark (delimited_run (follows_mark rfl) delimited_colon_rhs)

/-- The segment of a kind with the given groups. -/
def ofGroups? : Kind → List String → Option Segment
  | .attrWrite, [target, attr, rhs] => some (attrWrite target attr rhs)
  | .indexedWrite, [target, index, property, rhs] => some (indexedWrite target index property rhs)
  | .shellOpen, [target, name] => some (shellOpen target name)
  | .shellClose, [name] => some (shellClose name)
  | .propRead, [name, element, property] => some (propRead name element property)
  | .literalAssign, [name, rhs] => some (literalAssign name rhs)
  | .propWrite, [target, property, rhs] => some (propWrite target property rhs)
  | .nopStore, [name] => some (nopStore name)
  | .contentSet, [element, rhs] => some (contentSet element rhs)
  | .verbCall, [verb, parameters] => some (verbCall verb parameters)
  | _, _ => none

theorem ofGroups?_eq_some_iff {k : Kind} {gs : List String} {s : Segment} :
    ofGroups? k gs = some s ↔ s.kind = k ∧ s.parts = gs := by
  constructor
  · intro h
    unfold ofGroups? at h
    split at h
    case h_11 => contradiction
    all_goals
      obtain rfl := Option.some.inj h
      exact ⟨rfl, rfl⟩
  · rintro ⟨rfl, rfl⟩
    cases s <;> rfl

/-- The number of groups of a shape. -/
def groupCount (shape : List Slot) : Nat :=
  (shape.filter fun slot => match slot with | .group _ => true | _ => false).length

theorem length_groups {shape : List Slot} {pieces : List (List Char)}
    (h : List.Forall₂ Slot.Takes shape pieces) :
    (groups shape pieces).length = groupCount shape := by
  induction h with
  | nil => rfl
  | @cons slot piece shape pieces _ _ ih =>
      cases slot <;> simp_all [groups, groupCount]

/-- Every shape has the groups that its kind asks for. -/
theorem ofGroups?_groups {k : Kind} {shape : List Slot} (hshape : shape ∈ k.shapes)
    {pieces : List (List Char)} (h : List.Forall₂ Slot.Takes shape pieces) :
    ∃ s, ofGroups? k (groups shape pieces) = some s := by
  have hlen := length_groups h
  generalize groups shape pieces = gs at hlen ⊢
  have hcount : (ofGroups? k gs).isSome := by
    cases k <;> simp only [Kind.shapes, List.mem_cons, List.not_mem_nil, or_false] at hshape
    case contentSet | verbCall =>
      rcases hshape with rfl | rfl
      all_goals
        obtain ⟨a, b, rfl⟩ := List.length_eq_two.mp hlen
        rfl
    all_goals subst hshape
    case attrWrite | propRead | propWrite =>
      obtain ⟨a, b, c, rfl⟩ := List.length_eq_three.mp hlen
      rfl
    case shellOpen | literalAssign =>
      obtain ⟨a, b, rfl⟩ := List.length_eq_two.mp hlen
      rfl
    case shellClose | nopStore =>
      obtain ⟨a, rfl⟩ := List.length_eq_one_iff.mp hlen
      rfl
    case indexedWrite =>
      match gs, hlen with
      | [a, b, c, d], _ => rfl
  exact Option.isSome_iff_exists.mp hcount

/-- Reads a shape greedily and makes the segment out of the groups. -/
def readShape (k : Kind) (cs : List Char) (shape : List Slot) : Option Segment :=
  (greedy shape cs).bind fun pieces => ofGroups? k (groups shape pieces)

section Readers

variable (cs : List Char)

theorem attrWrite?_eq :
    attrWrite? cs = Kind.attrWrite.shapes.findSome? (readShape .attrWrite cs) := by
  simp [attrWrite?, Kind.shapes, readShape, greedy, Slot.take?, Option.bind_assoc, Option.bind_map,
    groups, ofGroups?, done?]

theorem shellOpen?_eq :
    shellOpen? cs = Kind.shellOpen.shapes.findSome? (readShape .shellOpen cs) := by
  simp [shellOpen?, Kind.shapes, readShape, greedy, Slot.take?, Option.bind_assoc, Option.bind_map,
    groups, ofGroups?]

theorem shellClose?_eq :
    shellClose? cs = Kind.shellClose.shapes.findSome? (readShape .shellClose cs) := by
  simp [shellClose?, Kind.shapes, readShape, greedy, Slot.take?, Option.bind_assoc, Option.bind_map,
    groups, ofGroups?]

theorem propRead?_eq : propRead? cs = Kind.propRead.shapes.findSome? (readShape .propRead cs) := by
  simp [propRead?, Kind.shapes, readShape, greedy, Slot.take?, Option.bind_assoc, Option.bind_map,
    groups, ofGroups?]

theorem literalAssign?_eq :
    literalAssign? cs = Kind.literalAssign.shapes.findSome? (readShape .literalAssign cs) := by
  simp [literalAssign?, Kind.shapes, readShape, greedy, Slot.take?, Option.bind_assoc,
    Option.bind_map, groups, ofGroups?, done?]

theorem propWrite?_eq :
    propWrite? cs = Kind.propWrite.shapes.findSome? (readShape .propWrite cs) := by
  simp [propWrite?, propertyTail?, Kind.shapes, readShape, greedy, Slot.take?, Option.bind_assoc,
    Option.bind_map, groups, ofGroups?, done?]

theorem nopStore?_eq : nopStore? cs = Kind.nopStore.shapes.findSome? (readShape .nopStore cs) := by
  unfold nopStore?
  split
  · simp [Kind.shapes, readShape, greedy, Slot.take?, char?, Option.bind_assoc, Option.bind_map,
      groups, ofGroups?]
  · rename_i hnop
    suffices greedy [.mark 'n', .mark 'o', .mark 'p', .mark ':', .word] cs = none by
      simp [Kind.shapes, readShape, this]
    by_contra hsome
    obtain ⟨pieces, hpieces⟩ := Option.ne_none_iff_exists'.mp hsome
    obtain ⟨_, _, _, rfl, ho, rfl, -⟩ := decomposes_cons.mp (greedy_sound hpieces)
    obtain ⟨_, _, _, rfl, hp, rfl, -⟩ := decomposes_cons.mp ho
    obtain ⟨_, _, _, rfl, hcolon, rfl, -⟩ := decomposes_cons.mp hp
    obtain ⟨_, rest, _, rfl, -, rfl, -⟩ := decomposes_cons.mp hcolon
    exact hnop rest rfl

theorem contentSet?_eq :
    contentSet? cs = Kind.contentSet.shapes.findSome? (readShape .contentSet cs) := by
  unfold contentSet?
  cases hmark : char? '$' cs with
  | none => simp [Kind.shapes, readShape, greedy, Slot.take?, hmark]
  | some cs' =>
      cases hrun : run? isNameChar cs' with
      | none => simp [Kind.shapes, readShape, greedy, Slot.take?, hmark, hrun]
      | some found =>
          obtain ⟨element, rest⟩ := found
          cases rest with
          | nil =>
              simp [Kind.shapes, readShape, greedy, Slot.take?, hmark, hrun, groups, ofGroups?,
                done?]
          | cons c rest =>
              simp [Kind.shapes, readShape, greedy, Slot.take?, hmark, hrun, groups, ofGroups?,
                done?, Option.bind_assoc, Option.bind_map]

end Readers

/-! ## The segment that is chosen -/

/-- The segment is a reading of the text: its parts are the groups of a decomposition of the whole
text in a form of its kind. -/
def Parses (s : Segment) (cs : List Char) : Prop :=
  ∃ shape ∈ s.kind.shapes, ∃ pieces, Decomposes shape cs pieces ∧ groups shape pieces = s.parts

/-- Which reading is taken where a text has several: the shortest index; the longest verb, and a
colon after it is not part of the parameters. -/
def Preferred (cs : List Char) : Segment → Prop
  | indexedWrite _ index _ _ =>
    ∀ target index' property rhs, Parses (indexedWrite target index' property rhs) cs →
      index.length ≤ index'.length
  | verbCall verb parameters =>
    verb.toList = cs.takeWhile isVerbChar ∧
      (cs.dropWhile isVerbChar = ':' :: parameters.toList ∨
        cs.dropWhile isVerbChar = parameters.toList ∧ parameters.toList.head? ≠ some ':')
  | _ => True

/-- The segment is the reading of the text under its kind. -/
structure Chosen (s : Segment) (cs : List Char) : Prop where
  parses : Parses s cs
  preferred : Preferred cs s

theorem fits_iff_parses {k : Kind} {cs : List Char} :
    k.Fits cs ↔ ∃ s, s.kind = k ∧ Parses s cs := by
  constructor
  · rintro ⟨shape, hshape, pieces, h⟩
    obtain ⟨s, hs⟩ := ofGroups?_groups hshape h.takes
    obtain ⟨rfl, hparts⟩ := ofGroups?_eq_some_iff.mp hs
    exact ⟨s, rfl, shape, hshape, pieces, h, hparts.symm⟩
  · rintro ⟨s, rfl, shape, hshape, pieces, h, -⟩
    exact ⟨shape, hshape, pieces, h⟩

theorem colon_not_mem_of_decomposes {cs : List Char} {pieces : List (List Char)}
    (h : Decomposes [.mark '$', .name, .absent] cs pieces) : ':' ∉ cs := by
  obtain ⟨_, _, _, rfl, hname, rfl, -⟩ := decomposes_cons.mp h
  obtain ⟨name, _, _, hrun, hnone, rfl, -⟩ := decomposes_cons.mp hname
  obtain ⟨_, _, _, rfl, hnil, rfl, -⟩ := decomposes_cons.mp hnone
  obtain ⟨rfl, -⟩ := decomposes_nil.mp hnil
  have hcolon : ':' ∉ name := fun hmem => absurd (hrun.2 ':' hmem) (by decide)
  simpa using hcolon

theorem colon_mem_of_decomposes {cs : List Char} {pieces : List (List Char)}
    (h : Decomposes [.mark '$', .name, .mark ':', .rhs] cs pieces) : ':' ∈ cs := by
  obtain ⟨_, _, _, rfl, hname, rfl, -⟩ := decomposes_cons.mp h
  obtain ⟨name, _, _, -, hcolon, rfl, -⟩ := decomposes_cons.mp hname
  obtain ⟨_, _, _, rfl, -, rfl, -⟩ := decomposes_cons.mp hcolon
  simp

/-- The forms of an unambiguous kind exclude one another, and each has one decomposition at most. -/
theorem decomposition_unique {k : Kind} (hk : ¬ k.Ambiguous) {cs : List Char}
    {shape shape' : List Slot} (hshape : shape ∈ k.shapes) (hshape' : shape' ∈ k.shapes)
    {pieces pieces' : List (List Char)} (h : Decomposes shape cs pieces)
    (h' : Decomposes shape' cs pieces') : shape = shape' ∧ pieces = pieces' := by
  suffices hsame : shape = shape' by
    subst hsame
    exact ⟨rfl, (delimited_shapes hk hshape).unique h h'⟩
  cases k with
  | malformed => simp [Kind.shapes] at hshape
  | indexedWrite => exact absurd (.inl rfl) hk
  | verbCall => exact absurd (.inr rfl) hk
  | contentSet =>
      -- only one of the two forms has a colon in it
      have hclash : ∀ {pieces pieces'}, Decomposes [.mark '$', .name, .absent] cs pieces →
          ¬ Decomposes [.mark '$', .name, .mark ':', .rhs] cs pieces' :=
        fun hshort hlong => colon_not_mem_of_decomposes hshort (colon_mem_of_decomposes hlong)
      rcases List.mem_pair.mp hshape with rfl | rfl <;>
        rcases List.mem_pair.mp hshape' with rfl | rfl
      · rfl
      · exact absurd h' (hclash h)
      · exact absurd h (hclash h')
      · rfl
  | _ => exact (List.mem_singleton.mp hshape).trans (List.mem_singleton.mp hshape').symm

/-! ## The readers follow the table -/

/-- The reader gives the reading of a text under a kind, and nothing only if the text has no form of
the kind. -/
structure Reads (k : Kind) (reader : List Char → Option Segment) : Prop where
  eq_some_iff : ∀ cs s, reader cs = some s ↔ s.kind = k ∧ Chosen s cs
  eq_none_iff : ∀ cs, reader cs = none ↔ ¬ k.Fits cs

theorem reads_of_parses {k : Kind} {reader : List Char → Option Segment}
    (hsome : ∀ cs s, reader cs = some s ↔ s.kind = k ∧ Chosen s cs)
    (hall : ∀ cs s, s.kind = k → Parses s cs → (reader cs).isSome) : Reads k reader := by
  refine ⟨hsome, fun cs => ?_⟩
  rw [fits_iff_parses, ← Option.not_isSome_iff_eq_none, Option.isSome_iff_exists]
  refine not_congr
    ⟨fun ⟨s, h⟩ => ?_, fun ⟨s, hs, h⟩ => Option.isSome_iff_exists.mp (hall cs s hs h)⟩
  obtain ⟨hs, hchosen⟩ := (hsome cs s).mp h
  exact ⟨s, hs, hchosen.parses⟩

theorem preferred_of_not_ambiguous {s : Segment} (h : ¬ s.kind.Ambiguous) (cs : List Char) :
    Preferred cs s := by
  cases s with
  | indexedWrite => exact absurd (.inl rfl) h
  | verbCall => exact absurd (.inr rfl) h
  | _ => trivial

theorem readShape_eq_some_iff {k : Kind} (hk : ¬ k.Ambiguous) {shape : List Slot}
    (hshape : shape ∈ k.shapes) {cs : List Char} {s : Segment} :
    readShape k cs shape = some s ↔
      s.kind = k ∧ ∃ pieces, Decomposes shape cs pieces ∧ groups shape pieces = s.parts := by
  simp only [readShape, Option.bind_eq_some_iff, greedy_eq_some_iff (delimited_shapes hk hshape),
    ofGroups?_eq_some_iff]
  grind

/-- **A reader that reads the shapes of an unambiguous kind greedily follows the table.** -/
theorem reads_of_greedy {k : Kind} (hk : ¬ k.Ambiguous) {reader : List Char → Option Segment}
    (heq : ∀ cs, reader cs = k.shapes.findSome? (readShape k cs)) : Reads k reader := by
  have hsome : ∀ cs s, reader cs = some s ↔ s.kind = k ∧ Chosen s cs := by
    intro cs s
    constructor
    · intro h
      rw [heq] at h
      obtain ⟨shape, hshape, hread⟩ := List.exists_of_findSome?_eq_some h
      obtain ⟨rfl, pieces, hpieces, hparts⟩ := (readShape_eq_some_iff hk hshape).mp hread
      exact ⟨rfl, ⟨shape, hshape, pieces, hpieces, hparts⟩, preferred_of_not_ambiguous hk cs⟩
    · rintro ⟨rfl, ⟨shape, hshape, pieces, hpieces, hparts⟩, -⟩
      have hread := (readShape_eq_some_iff hk hshape).mpr ⟨rfl, pieces, hpieces, hparts⟩
      rw [heq]
      have hfound : (s.kind.shapes.findSome? (readShape s.kind cs)).isSome :=
        List.findSome?_isSome_iff.mpr ⟨shape, hshape, hread ▸ rfl⟩
      obtain ⟨s', hs'⟩ := Option.isSome_iff_exists.mp hfound
      obtain ⟨shape', hshape', hread'⟩ := List.exists_of_findSome?_eq_some hs'
      obtain ⟨-, pieces', hpieces', -⟩ := (readShape_eq_some_iff hk hshape').mp hread'
      obtain ⟨rfl, -⟩ := decomposition_unique hk hshape hshape' hpieces hpieces'
      rw [hs', ← hread', hread]
  refine reads_of_parses hsome fun cs s hs h => ?_
  rw [(hsome cs s).mpr ⟨hs, h, preferred_of_not_ambiguous (hs ▸ hk) cs⟩]
  rfl

/-! ### The shortest index -/

section Index

variable {cs : List Char} {target index property rhs : String}

/-- The two parts of a tail. -/
def pair? : List String → Option (String × String)
  | [property, rhs] => some (property, rhs)
  | _ => none

theorem pair?_eq_some_iff {parts : List String} :
    pair? parts = some (property, rhs) ↔ parts = [property, rhs] := by
  unfold pair?
  split
  · simp
  · rename_i hother
    exact iff_of_false (by simp) (hother property rhs)

theorem propertyTail?_eq_some_iff :
    propertyTail? cs = some (property, rhs) ↔
      ∃ pieces, Decomposes [.mark '.', .property, .mark ':', .rhs] cs pieces ∧
        groups [.mark '.', .property, .mark ':', .rhs] pieces = [property, rhs] := by
  have heq : propertyTail? cs =
      (greedy [.mark '.', .property, .mark ':', .rhs] cs).bind fun pieces =>
        pair? (groups [.mark '.', .property, .mark ':', .rhs] pieces) := by
    simp [propertyTail?, greedy, Slot.take?, Option.bind_assoc, Option.bind_map, groups, done?,
      pair?]
  simp only [heq, Option.bind_eq_some_iff, greedy_eq_some_iff delimited_tail, pair?_eq_some_iff]

/-- The index that is found leaves a tail. -/
theorem indexTail?_sound : ∀ {cs index : List Char} {tail : String × String},
    indexTail? cs = some (index, tail) →
      '\n' ∉ index ∧ ∃ rest, cs = index ++ ']' :: rest ∧ propertyTail? rest = some tail
  | [], _, _, h => by contradiction
  | c :: cs, index, tail, h => by
      simp only [indexTail?] at h
      split at h
      · rename_i property rhs hclosed
        obtain ⟨rfl, rfl⟩ := Prod.mk.inj (Option.some.inj h)
        split at hclosed
        · rename_i hc
          exact ⟨List.not_mem_nil, cs, by rw [beq_iff_eq.mp hc]; rfl, hclosed⟩
        · contradiction
      · split at h
        · contradiction
        · rename_i hc
          obtain ⟨⟨index', tail'⟩, hrec, heq⟩ := Option.map_eq_some_iff.mp h
          obtain ⟨rfl, rfl⟩ := Prod.mk.inj heq
          obtain ⟨hnl, rest, rfl, htail⟩ := indexTail?_sound hrec
          refine ⟨?_, rest, rfl, htail⟩
          simp only [beq_iff_eq] at hc
          simp [hnl, Ne.symm hc]

/-- Wherever an index leaves a tail, one is found that is no longer. -/
theorem indexTail?_least : ∀ {index rest : List Char} {tail : String × String},
    '\n' ∉ index → propertyTail? rest = some tail →
      ∃ index' tail', indexTail? (index ++ ']' :: rest) = some (index', tail') ∧
        index'.length ≤ index.length
  | [], rest, tail, _, h => ⟨[], tail, by simp [indexTail?, h], Nat.le_refl _⟩
  | c :: index, rest, tail, hnl, h => by
      simp only [List.mem_cons, not_or] at hnl
      obtain ⟨index', tail', hrec, hlen⟩ := indexTail?_least hnl.2 h
      simp only [List.cons_append, indexTail?]
      split
      · -- this character is a bracket that leaves a tail already
        exact ⟨[], _, rfl, Nat.zero_le _⟩
      · have hc : (c == '\n') = false := by simpa using Ne.symm hnl.1
        simp only [hc, hrec]
        exact ⟨c :: index', tail', rfl, Nat.succ_le_succ hlen⟩

theorem parses_indexedWrite_iff :
    Parses (indexedWrite target index property rhs) cs ↔
      ∃ rest, target? cs = some (target, '[' :: (index.toList ++ ']' :: rest)) ∧
        '\n' ∉ index.toList ∧ propertyTail? rest = some (property, rhs) := by
  constructor
  · rintro ⟨shape, hshape, pieces, hpieces, hparts⟩
    obtain rfl := List.mem_singleton.mp hshape
    obtain ⟨name, _, _, hname, hopen, rfl, rfl⟩ := decomposes_cons.mp hpieces
    obtain ⟨_, _, _, rfl, hline, rfl, rfl⟩ := decomposes_cons.mp hopen
    obtain ⟨line, _, _, hnl, hclose, rfl, rfl⟩ := decomposes_cons.mp hline
    obtain ⟨_, rest, tail, rfl, htail, rfl, rfl⟩ := decomposes_cons.mp hclose
    simp only [groups, parts, List.cons.injEq] at hparts
    obtain ⟨rfl, rfl, hparts⟩ := hparts
    rw [String.toList_ofList]
    refine ⟨rest, target?_eq_some_iff.mpr ?_, hnl, ?_⟩
    · rw [String.toList_ofList]
      exact ⟨hname, by simp [EndsRun]; decide, rfl⟩
    · exact propertyTail?_eq_some_iff.mpr ⟨tail, htail, hparts⟩
  · rintro ⟨rest, htarget, hnl, htail⟩
    obtain ⟨hname, -, rfl⟩ := target?_eq_some_iff.mp htarget
    obtain ⟨tail, hpieces, hgroups⟩ := propertyTail?_eq_some_iff.mp htail
    refine ⟨_, List.mem_singleton_self _, target.toList :: ['['] :: index.toList :: [']'] :: tail,
      ?_, ?_⟩
    · refine decomposes_cons.mpr ⟨_, _, _, hname, decomposes_cons.mpr ⟨_, _, _, rfl, ?_, rfl, rfl⟩,
        rfl, rfl⟩
      exact decomposes_cons.mpr ⟨_, _, _, hnl,
        decomposes_cons.mpr ⟨_, _, _, rfl, hpieces, rfl, rfl⟩, rfl, rfl⟩
    · simp only [groups, String.ofList_toList, parts, List.cons.injEq, true_and]
      exact hgroups

theorem indexedWrite?_eq_some_iff {s : Segment} :
    indexedWrite? cs = some s ↔
      ∃ target index property rhs rest, s = indexedWrite target index property rhs ∧
        target? cs = some (target, '[' :: rest) ∧
          indexTail? rest = some (index.toList, property, rhs) := by
  simp only [indexedWrite?, Option.bind_eq_bind, Option.bind_eq_some_iff, Prod.exists,
    char?_eq_some_iff, Option.pure_def, Option.some.injEq]
  constructor
  · rintro ⟨target, _, htarget, rest, rfl, index, property, rhs, hindex, rfl⟩
    exact ⟨target, String.ofList index, property, rhs, rest, rfl, htarget,
      by rwa [String.toList_ofList]⟩
  · rintro ⟨target, index, property, rhs, rest, rfl, htarget, hindex⟩
    exact ⟨target, _, htarget, rest, rfl, index.toList, property, rhs, hindex,
      by rw [String.ofList_toList]⟩

/-- Whatever reading there is, the reader finds one whose index is no longer. -/
theorem indexedWrite?_least (h : Parses (indexedWrite target index property rhs) cs) :
    ∃ index' property' rhs', indexedWrite? cs = some (indexedWrite target index' property' rhs') ∧
      index'.length ≤ index.length := by
  obtain ⟨rest, htarget, hnl, htail⟩ := parses_indexedWrite_iff.mp h
  obtain ⟨index', ⟨property', rhs'⟩, hindex, hlen⟩ := indexTail?_least hnl htail
  refine ⟨String.ofList index', property', rhs', indexedWrite?_eq_some_iff.mpr ?_, ?_⟩
  · exact ⟨_, _, _, _, _, rfl, htarget, by rwa [String.toList_ofList]⟩
  · rwa [String.length_ofList, ← String.length_toList]

theorem parses_of_indexedWrite? {s : Segment} (h : indexedWrite? cs = some s) : Parses s cs := by
  obtain ⟨target, index, property, rhs, rest, rfl, htarget, hindex⟩ :=
    indexedWrite?_eq_some_iff.mp h
  obtain ⟨hnl, rest', rfl, htail⟩ := indexTail?_sound hindex
  exact parses_indexedWrite_iff.mpr ⟨rest', htarget, hnl, htail⟩

/-- Two readings with indices of one length are the same. -/
theorem parses_indexedWrite_inj {target' index' property' rhs' : String}
    (h : Parses (indexedWrite target index property rhs) cs)
    (h' : Parses (indexedWrite target' index' property' rhs') cs)
    (hlen : index.length = index'.length) :
    indexedWrite target index property rhs = indexedWrite target' index' property' rhs' := by
  obtain ⟨rest, htarget, -, htail⟩ := parses_indexedWrite_iff.mp h
  obtain ⟨rest', htarget', -, htail'⟩ := parses_indexedWrite_iff.mp h'
  obtain ⟨rfl, hrest⟩ := Prod.mk.inj (Option.some.inj (htarget.symm.trans htarget'))
  obtain ⟨hindex, hclose⟩ := List.append_inj (List.cons.inj hrest).2
    (by rwa [String.length_toList, String.length_toList])
  obtain ⟨-, rfl⟩ := List.cons.inj hclose
  obtain ⟨rfl, rfl⟩ := Prod.mk.inj (Option.some.inj (htail.symm.trans htail'))
  rw [String.toList_inj.mp hindex]

/-- **The reader of indexed writes takes the shortest index.** -/
theorem reads_indexedWrite : Reads .indexedWrite indexedWrite? := by
  refine reads_of_parses (fun cs s => ?_) fun cs s hs h => ?_
  · constructor
    · intro h
      obtain ⟨target, index, property, rhs, rest, rfl, -, -⟩ := indexedWrite?_eq_some_iff.mp h
      refine ⟨rfl, parses_of_indexedWrite? h, fun target' index' property' rhs' h' => ?_⟩
      obtain ⟨_, _, _, hleast, hlen⟩ := indexedWrite?_least h'
      cases h.symm.trans hleast
      exact hlen
    · -- what is read and what is preferred both have the shortest index, which fixes the rest
      rintro ⟨hs, hparses, hshortest⟩
      cases s <;> cases hs
      obtain ⟨_, _, _, hleast, hlen⟩ := indexedWrite?_least hparses
      have hfound := parses_of_indexedWrite? hleast
      have hindex := Nat.le_antisymm hlen (hshortest _ _ _ _ hfound)
      rw [hleast, parses_indexedWrite_inj hfound hparses hindex]
  · cases s <;> cases hs
    obtain ⟨_, _, _, hleast, -⟩ := indexedWrite?_least h
    exact hleast ▸ rfl

end Index

/-! ### The longest verb -/

section Verb

variable {cs : List Char} {verb parameters : String}

theorem parses_verbCall_iff :
    Parses (verbCall verb parameters) cs ↔
      IsRun isVerbChar verb.toList ∧ '\n' ∉ parameters.toList ∧
        (cs = verb.toList ++ parameters.toList ∨ cs = verb.toList ++ ':' :: parameters.toList) := by
  constructor
  · rintro ⟨shape, hshape, pieces, hpieces, hparts⟩
    rcases List.mem_pair.mp hshape with rfl | rfl
    · obtain ⟨run, _, _, hrun, hline, rfl, rfl⟩ := decomposes_cons.mp hpieces
      obtain ⟨line, _, _, hnl, hnil, rfl, rfl⟩ := decomposes_cons.mp hline
      obtain ⟨rfl, rfl⟩ := decomposes_nil.mp hnil
      simp only [groups, parts, List.cons.injEq, and_true] at hparts
      obtain ⟨rfl, rfl⟩ := hparts
      simpa using ⟨hrun, hnl⟩
    · obtain ⟨run, _, _, hrun, hcolon, rfl, rfl⟩ := decomposes_cons.mp hpieces
      obtain ⟨_, _, _, rfl, hline, rfl, rfl⟩ := decomposes_cons.mp hcolon
      obtain ⟨line, _, _, hnl, hnil, rfl, rfl⟩ := decomposes_cons.mp hline
      obtain ⟨rfl, rfl⟩ := decomposes_nil.mp hnil
      simp only [groups, parts, List.cons.injEq, and_true] at hparts
      obtain ⟨rfl, rfl⟩ := hparts
      simpa using ⟨hrun, hnl⟩
  · rintro ⟨hrun, hnl, rfl | rfl⟩
    · refine ⟨_, List.mem_pair.mpr (.inl rfl), [verb.toList, parameters.toList], ⟨?_, ?_⟩, ?_⟩
      · exact .cons hrun (.cons hnl .nil)
      · simp
      · simp [groups, parts]
    · refine ⟨_, List.mem_pair.mpr (.inr rfl), [verb.toList, [':'], parameters.toList], ⟨?_, ?_⟩,
        ?_⟩
      · exact .cons hrun (.cons rfl (.cons hnl .nil))
      · simp
      · simp [groups, parts]

/-- One colon at the front is dropped. -/
theorem getD_char?_eq_iff {c : Char} {rest tail : List Char} :
    (char? c rest).getD rest = tail ↔ rest = c :: tail ∨ rest = tail ∧ tail.head? ≠ some c := by
  cases rest with
  | nil => simp [char?]; grind
  | cons d rest =>
      by_cases hd : d = c
      · subst hd
        simp only [char?, beq_self_eq_true, if_true, Option.getD_some, List.cons.injEq, true_and]
        refine ⟨.inl, ?_⟩
        rintro (h | ⟨rfl, h⟩)
        · exact h
        · exact absurd rfl h
      · simp only [char?, beq_iff_eq, hd, if_false, Option.getD_none, List.cons.injEq, false_and,
          false_or]
        refine ⟨fun h => ⟨h, ?_⟩, fun h => h.1⟩
        rw [← h]
        simpa using hd

theorem verbCall?_eq_some_iff {s : Segment} :
    verbCall? cs = some s ↔
      ∃ verb parameters, s = verbCall verb parameters ∧ verb.toList ≠ [] ∧
        '\n' ∉ parameters.toList ∧ Preferred cs (verbCall verb parameters) := by
  have hrun : ∀ run rest, run? isVerbChar cs = some (run, rest) ↔
      run.toList ≠ [] ∧ run.toList = cs.takeWhile isVerbChar ∧ rest = cs.dropWhile isVerbChar := by
    intro run rest
    unfold run?
    split
    · rename_i hnil
      rw [hnil]
      exact ⟨fun h => by contradiction, fun ⟨hne, heq, _⟩ => absurd heq hne⟩
    · rename_i hne
      simp only [Option.some.injEq, Prod.mk.injEq, ← String.toList_inj, String.toList_ofList]
      grind
  simp only [verbCall?, Option.bind_eq_bind, Option.bind_eq_some_iff, Prod.exists, hrun, Preferred]
  constructor
  · rintro ⟨verb, rest, ⟨hne, hverb, rfl⟩, h⟩
    split at h
    · contradiction
    · rename_i hnl
      rw [List.contains_iff_mem] at hnl
      refine ⟨verb, String.ofList _, (Option.some.inj h).symm, hne, ?_, hverb, ?_⟩
      · rwa [String.toList_ofList]
      · exact getD_char?_eq_iff.mp (String.toList_ofList ..).symm
  · rintro ⟨verb, parameters, rfl, hne, hnl, hverb, hrest⟩
    refine ⟨verb, _, ⟨hne, hverb, rfl⟩, ?_⟩
    rw [getD_char?_eq_iff.mpr hrest, if_neg (by rwa [List.contains_iff_mem]), String.ofList_toList]
    rfl

/-- The text of a verb call has no line feed, and begins with a character of a verb. -/
theorem verbCall?_isSome (h : Parses (verbCall verb parameters) cs) : (verbCall? cs).isSome := by
  -- the reader may cut the text elsewhere, but what it needs is true of the text as a whole
  obtain ⟨⟨hne, hrun⟩, hnl, hcs⟩ := parses_verbCall_iff.mp h
  have hcs' : '\n' ∉ cs := by
    have hverb : '\n' ∉ verb.toList := fun hmem => absurd (hrun _ hmem) (by decide)
    rcases hcs with rfl | rfl <;> simp [hverb, hnl]
  have hstart : cs.takeWhile isVerbChar ≠ [] := by
    obtain ⟨c, verb', hverb⟩ := List.exists_cons_of_ne_nil hne
    have hc : isVerbChar c = true := hrun c (hverb ▸ List.mem_cons_self)
    rcases hcs with rfl | rfl <;> simp [hverb, hc]
  obtain ⟨tail, htail⟩ : ∃ tail,
      (char? ':' (cs.dropWhile isVerbChar)).getD (cs.dropWhile isVerbChar) = tail := ⟨_, rfl⟩
  have hrest := getD_char?_eq_iff.mp htail
  have htail' : '\n' ∉ tail := by
    refine fun hmem => hcs' ((List.dropWhile_suffix isVerbChar).subset ?_)
    rcases hrest with heq | ⟨heq, -⟩ <;> rw [heq]
    · exact List.mem_cons_of_mem _ hmem
    · exact hmem
  refine Option.isSome_iff_exists.mpr ⟨_, verbCall?_eq_some_iff.mpr
    ⟨String.ofList (cs.takeWhile isVerbChar), String.ofList tail, rfl, ?_, ?_, ?_, ?_⟩⟩
  all_goals simp only [String.toList_ofList]
  · exact hstart
  · exact htail'
  · exact hrest

/-- **The reader of verb calls takes the longest verb.** -/
theorem reads_verbCall : Reads .verbCall verbCall? := by
  refine reads_of_parses (fun cs s => ?_) fun cs s hs h => ?_
  · constructor
    · intro h
      obtain ⟨verb, parameters, rfl, hne, hnl, hverb, hrest⟩ := verbCall?_eq_some_iff.mp h
      refine ⟨rfl, parses_verbCall_iff.mpr ⟨⟨hne, ?_⟩, hnl, ?_⟩, hverb, hrest⟩
      · rw [hverb]
        exact fun c hc => List.mem_takeWhile_imp hc
      · have hsplit := List.takeWhile_append_dropWhile (p := isVerbChar) (l := cs)
        rw [← hverb] at hsplit
        rcases hrest with hrest | ⟨hrest, -⟩
        · exact .inr (by rw [← hrest, hsplit])
        · exact .inl (by rw [← hrest, hsplit])
    · rintro ⟨hs, hparses, hpreferred⟩
      cases s <;> cases hs
      obtain ⟨⟨hne, -⟩, hnl, -⟩ := parses_verbCall_iff.mp hparses
      exact verbCall?_eq_some_iff.mpr ⟨_, _, rfl, hne, hnl, hpreferred⟩
  · cases s <;> cases hs
    exact verbCall?_isSome h

end Verb

/-! ## The first kind that fits -/

theorem reads_readers : List.Forall₂ Reads Kind.order readers := by
  have hgreedy {k : Kind} (hk : k ≠ .indexedWrite ∧ k ≠ .verbCall)
      {reader : List Char → Option Segment}
      (heq : ∀ cs, reader cs = k.shapes.findSome? (readShape k cs)) : Reads k reader :=
    reads_of_greedy (not_or.mpr hk) heq
  exact .cons (hgreedy (by decide) attrWrite?_eq) <| .cons reads_indexedWrite <|
    .cons (hgreedy (by decide) shellOpen?_eq) <| .cons (hgreedy (by decide) shellClose?_eq) <|
    .cons (hgreedy (by decide) propRead?_eq) <| .cons (hgreedy (by decide) literalAssign?_eq) <|
    .cons (hgreedy (by decide) propWrite?_eq) <| .cons (hgreedy (by decide) nopStore?_eq) <|
    .cons (hgreedy (by decide) contentSet?_eq) <| .cons reads_verbCall .nil

/-- The kind is in the list, and none before it fits. -/
def FirstFit (kinds : List Kind) (k : Kind) (cs : List Char) : Prop :=
  ∃ before after, kinds = before ++ k :: after ∧ ∀ k' ∈ before, ¬ k'.Fits cs

theorem firstFit_cons {kinds : List Kind} {k k' : Kind} {cs : List Char} :
    FirstFit (k :: kinds) k' cs ↔ k' = k ∨ ¬ k.Fits cs ∧ FirstFit kinds k' cs := by
  constructor
  · rintro ⟨before, after, heq, hbefore⟩
    cases before with
    | nil => exact .inl (List.cons.inj heq).1.symm
    | cons b before =>
        obtain ⟨rfl, rfl⟩ := List.cons.inj heq
        obtain ⟨hb, hbefore⟩ := List.forall_mem_cons.mp hbefore
        exact .inr ⟨hb, before, after, rfl, hbefore⟩
  · rintro (rfl | ⟨hk, before, after, rfl, hbefore⟩)
    · exact ⟨[], kinds, rfl, by simp⟩
    · exact ⟨k :: before, after, rfl, List.forall_mem_cons.mpr ⟨hk, hbefore⟩⟩

/-- **Readers tried in turn give the reading under the first kind that fits.** -/
theorem findSome?_eq_some_iff_firstFit {kinds : List Kind}
    {readers : List (List Char → Option Segment)} (h : List.Forall₂ Reads kinds readers)
    {cs : List Char} {s : Segment} :
    (readers.findSome? fun reader => reader cs) = some s ↔
      Chosen s cs ∧ FirstFit kinds s.kind cs := by
  induction h with
  | nil => simp [FirstFit]
  | @cons k reader kinds readers hread _ ih =>
      rw [List.findSome?_cons, firstFit_cons]
      cases hfound : reader cs with
      | none =>
          have hmiss : Chosen s cs → s.kind ≠ k := fun hchosen hk => by
            rw [(hread.eq_some_iff cs s).mpr ⟨hk, hchosen⟩] at hfound
            contradiction
          have hfits : ¬ k.Fits cs := (hread.eq_none_iff cs).mp hfound
          rw [ih]
          exact and_congr_right fun hchosen => by simp [hmiss hchosen, hfits]
      | some s' =>
          have hfits : k.Fits cs := by
            by_contra hno
            rw [(hread.eq_none_iff cs).mpr hno] at hfound
            contradiction
          have hsome := hread.eq_some_iff cs s
          rw [hfound] at hsome
          simp only [hsome, hfits, not_true_eq_false, false_and, or_false]
          exact and_comm

theorem findSome?_eq_none_iff_fits {kinds : List Kind}
    {readers : List (List Char → Option Segment)} (h : List.Forall₂ Reads kinds readers)
    {cs : List Char} :
    (readers.findSome? fun reader => reader cs) = none ↔ ∀ k ∈ kinds, ¬ k.Fits cs := by
  induction h with
  | nil => simp
  | @cons k reader kinds readers hread _ ih =>
      rw [List.findSome?_cons, List.forall_mem_cons, ← hread.eq_none_iff, ← ih]
      cases reader cs <;> simp

theorem class_of_mem_shapes {k : Kind} {shape : List Slot} (hshape : shape ∈ k.shapes)
    {p : Char → Bool} (hp : Slot.group (.run p) ∈ shape) :
    p = isNameChar ∨ p = isWordChar ∨ p = isPropertyChar ∨ p = isVerbChar := by
  cases k <;> simp only [Kind.shapes, List.mem_cons, List.not_mem_nil, or_false] at hshape
  case contentSet | verbCall => rcases hshape with rfl | rfl <;> simp_all
  all_goals
    subst hshape
    simp only [List.mem_cons, List.not_mem_nil, Slot.group.injEq, Group.run.injEq, reduceCtorEq,
      false_or, or_false] at hp
    grind

/-- No group of the table takes a line feed. -/
theorem newline_not_mem_of_takes {k : Kind} {shape : List Slot} (hshape : shape ∈ k.shapes)
    {g : Group} (hg : Slot.group g ∈ shape) {piece : List Char} (h : g.Takes piece) :
    '\n' ∉ piece := by
  have hrun {p : Char → Bool} (hp : p '\n' = false) {piece : List Char} (h : IsRun p piece) :
      '\n' ∉ piece := fun hmem => by
    rw [h.2 _ hmem] at hp
    contradiction
  cases g with
  | run p =>
      refine hrun ?_ h
      rcases class_of_mem_shapes hshape hg with rfl | rfl | rfl | rfl <;> decide
  | target =>
      rcases h with h | ⟨sign, name, hsign, rfl, hname⟩
      · exact hrun (by decide) h
      · have := hrun (by decide) hname
        rcases hsign with rfl | rfl | rfl <;> simpa using this
  | line => exact h
  | rhs => exact h.2
  | absent =>
      obtain rfl : piece = [] := h
      exact List.not_mem_nil

theorem mem_groups {shape : List Slot} {pieces : List (List Char)}
    (h : List.Forall₂ Slot.Takes shape pieces) {part : String}
    (hpart : part ∈ groups shape pieces) : ∃ g, Slot.group g ∈ shape ∧ g.Takes part.toList := by
  induction h with
  | nil => simp [groups] at hpart
  | @cons slot piece shape pieces hpiece _ ih =>
      have hrest : part ∈ groups shape pieces →
          ∃ g, Slot.group g ∈ slot :: shape ∧ g.Takes part.toList :=
        fun hmem => (ih hmem).imp fun g hg => ⟨List.mem_cons_of_mem _ hg.1, hg.2⟩
      cases slot with
      | mark c => exact hrest hpart
      | spaces => exact hrest hpart
      | group g =>
          rcases List.mem_cons.mp hpart with rfl | hmem
          · exact ⟨g, List.mem_cons_self, by rwa [String.toList_ofList]⟩
          · exact hrest hmem

/-- **A segment is read by the first form that fits.** What is read is a decomposition of the whole
text in a form of the first kind that has one, and nothing is read only if no form of any kind has
one. The decomposition is the only one, unless the kind is one of the two for which `Preferred` says
which is taken. No part has a line feed in it. -/
theorem read?_eq_some_iff_chosen (escaped : String) :
    (∀ s, read? escaped = some s ↔
        Chosen s escaped.toList ∧ FirstFit Kind.order s.kind escaped.toList) ∧
      (read? escaped = none ↔ ∀ k : Kind, ¬ k.Fits escaped.toList) ∧
      (∀ k : Kind, ¬ k.Ambiguous → ∀ shape ∈ k.shapes, ∀ shape' ∈ k.shapes, ∀ pieces pieces',
        Decomposes shape escaped.toList pieces → Decomposes shape' escaped.toList pieces' →
          shape = shape' ∧ pieces = pieces') ∧
      ∀ s, read? escaped = some s → ∀ part ∈ s.parts, '\n' ∉ part.toList := by
  have hread : ∀ s, read? escaped = some s ↔
      Chosen s escaped.toList ∧ FirstFit Kind.order s.kind escaped.toList :=
    fun s => findSome?_eq_some_iff_firstFit reads_readers
  refine ⟨hread, ?_, ?_, ?_⟩
  · refine (findSome?_eq_none_iff_fits reads_readers).trans ⟨fun h k => ?_, fun h k _ => h k⟩
    by_cases hk : k = .malformed
    · subst hk
      rintro ⟨shape, hshape, -⟩
      simp [Kind.shapes] at hshape
    · exact h k (by cases k <;> simp_all [Kind.order])
  · exact fun k hk shape hshape shape' hshape' pieces pieces' =>
      decomposition_unique hk hshape hshape'
  · intro s hs
    obtain ⟨⟨shape, hshape, pieces, hpieces, hparts⟩, -⟩ := ((hread s).mp hs).1
    intro part hpart
    rw [← hparts] at hpart
    obtain ⟨g, hg, htakes⟩ := mem_groups hpieces.takes hpart
    exact newline_not_mem_of_takes hshape hg htakes

/-- A text that is an indexed write in two ways: the one with the shorter index is read. -/
theorem shorter_index_is_read :
    Parses (indexedWrite ".r" "].x:1" "y" "2") ".r[].x:1].y:2".toList ∧
      Chosen (indexedWrite ".r" "" "x" "1].y:2") ".r[].x:1].y:2".toList ∧
      FirstFit Kind.order .indexedWrite ".r[].x:1].y:2".toList := by
  have hread : read? ".r[].x:1].y:2" = some (indexedWrite ".r" "" "x" "1].y:2") := by decide +kernel
  refine ⟨parses_indexedWrite_iff.mpr ⟨".y:2".toList, ?_⟩, ?_⟩
  · decide +kernel
  · exact ((read?_eq_some_iff_chosen _).1 _).mp hread

end PageMacro.Segment
