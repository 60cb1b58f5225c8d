import Mathlib.Data.List.DropRight
import PageMacro.Text.Pieces

/-!
# Cutting and joining

What a text is cut into and what pieces are joined to, as lists of characters: the definitions work
on texts, and these facts are how the rest gets inside. What trimming leaves of a text, and what
sorting does to a list of names.
-/

namespace PageMacro.Text

theorem exists_of_beginsWith {start s : String} (h : beginsWith start s = true) :
    ∃ rest, s.toList = start.toList ++ rest := by
  obtain ⟨rest, hrest⟩ := List.isPrefixOf_iff_prefix.mp h
  exact ⟨rest, hrest.symm⟩

theorem beginsWith_append (start rest : String) : beginsWith start (start ++ rest) = true := by
  unfold beginsWith
  rw [String.toList_append, List.isPrefixOf_iff_prefix]
  exact List.prefix_append _ _

/-- A start is taken away once, and a text without it stays as it is. -/
theorem withoutStart_eq_iff {start s rest : String} :
    withoutStart start s = rest ↔ s = start ++ rest ∨ s = rest ∧ beginsWith start s = false := by
  unfold withoutStart
  constructor
  · intro h
    split at h
    · rename_i hstart
      obtain ⟨more, hmore⟩ := exists_of_beginsWith hstart
      rw [hmore, List.drop_left] at h
      refine .inl (String.toList_inj.mp ?_)
      rw [hmore, String.toList_append, ← h, String.toList_ofList]
    · rename_i hstart
      exact .inr ⟨h, eq_false_of_ne_true hstart⟩
  · rintro (rfl | ⟨rfl, hstart⟩)
    · rw [if_pos (beginsWith_append start rest), String.toList_append, List.drop_left,
        String.ofList_toList]
    · rw [hstart, if_neg Bool.false_ne_true]

theorem cutChars_append {sep : Char} {front : List Char} (hfront : sep ∉ front)
    (rest : List Char) :
    cutChars sep (front ++ rest) =
      (cutChars sep rest).map fun pair => (front ++ pair.1, pair.2) := by
  induction front with
  | nil =>
      rw [List.nil_append]
      cases cutChars sep rest <;> rfl
  | cons c front ih =>
      obtain ⟨hc, hrest⟩ := not_or.mp (mt List.mem_cons.mpr hfront)
      have hne : (c == sep) = false := by simpa using fun h => hc h.symm
      rw [List.cons_append, cutChars, if_neg (by simp [hne]), ih hrest, Option.map_map]
      rfl

theorem cutChars_eq_some_iff {sep : Char} {cs before after : List Char} :
    cutChars sep cs = some (before, after) ↔ sep ∉ before ∧ cs = before ++ sep :: after := by
  constructor
  · intro h
    induction cs generalizing before with
    | nil => cases h
    | cons c rest ih =>
        rw [cutChars] at h
        split at h
        · rename_i hsep
          obtain ⟨rfl, rfl⟩ := Prod.mk.inj (Option.some.inj h)
          rw [beq_iff_eq.mp hsep]
          exact ⟨List.not_mem_nil, rfl⟩
        · rename_i hne
          obtain ⟨⟨front, back⟩, hfront, hcons⟩ := Option.map_eq_some_iff.mp h
          obtain ⟨rfl, rfl⟩ := Prod.mk.inj hcons
          obtain ⟨hnot, rfl⟩ := ih hfront
          have hc : sep ≠ c := fun heq => hne (beq_iff_eq.mpr heq.symm)
          exact ⟨List.not_mem_cons_of_ne_of_not_mem hc hnot, rfl⟩
  · rintro ⟨hnot, rfl⟩
    rw [cutChars_append hnot, cutChars, if_pos BEq.rfl]
    simp

/-- A text is cut at the first separator. -/
theorem cut_eq_some_iff {sep : Char} {s before after : String} :
    cut sep s = some (before, after) ↔
      sep ∉ before.toList ∧ s.toList = before.toList ++ sep :: after.toList := by
  rw [← cutChars_eq_some_iff]
  unfold cut
  cases cutChars sep s.toList with
  | none => simp
  | some pair =>
      obtain ⟨front, back⟩ := pair
      rw [Option.map_some, Option.some.injEq, Option.some.injEq, Prod.mk.injEq, Prod.mk.injEq,
        ← String.toList_inj, ← String.toList_inj, String.toList_ofList, String.toList_ofList]

theorem toList_join_cons (sep first second : String) (more : List String) :
    (join sep (first :: second :: more)).toList =
      first.toList ++ (sep.toList ++ (join sep (second :: more)).toList) := by
  rw [join, String.intercalate_cons_cons, String.toList_append, String.toList_append,
    List.append_assoc]
  rfl

theorem toList_join (sep : String) (pieces : List String) :
    (join sep pieces).toList = sep.toList.intercalate (pieces.map String.toList) := by
  induction pieces with
  | nil => rfl
  | cons first pieces ih =>
      cases pieces with
      | nil => rw [join, String.intercalate_singleton, List.map_singleton,
          List.intercalate_singleton]
      | cons second pieces =>
          rw [toList_join_cons, ih, List.map_cons, List.map_cons, List.map_cons,
            List.intercalate_cons_cons, List.append_assoc]

theorem splitOn_append_of_not_mem (sep : Char) (cs : List Char) :
    ∃ init last, cs.splitOn sep = init ++ [last] ∧
      ∀ tail, sep ∉ tail → (cs ++ tail).splitOn sep = init ++ [last ++ tail] := by
  induction cs with
  | nil =>
      refine ⟨[], [], List.splitOn_nil sep, fun tail htail => ?_⟩
      exact List.splitOn_eq_singleton htail
  | cons c cs ih =>
      obtain ⟨init, last, hsplit, htails⟩ := ih
      by_cases hc : (c == sep) = true
      · refine ⟨[] :: init, last, ?_, fun tail htail => ?_⟩
        · rw [List.splitOn_cons_eq_if_modifyHead, if_pos hc, hsplit, List.cons_append]
        · rw [List.cons_append, List.splitOn_cons_eq_if_modifyHead, if_pos hc, htails tail htail,
            List.cons_append]
      · cases init with
        | nil =>
            refine ⟨[], c :: last, ?_, fun tail htail => ?_⟩
            · rw [List.splitOn_cons_eq_if_modifyHead, if_neg hc, hsplit]
              rfl
            · rw [List.cons_append, List.splitOn_cons_eq_if_modifyHead, if_neg hc,
                htails tail htail]
              rfl
        | cons first init =>
            refine ⟨(c :: first) :: init, last, ?_, fun tail htail => ?_⟩
            · rw [List.splitOn_cons_eq_if_modifyHead, if_neg hc, hsplit]
              rfl
            · rw [List.cons_append, List.splitOn_cons_eq_if_modifyHead, if_neg hc,
                htails tail htail]
              rfl

theorem not_mem_of_mem_splitOn {sep : Char} {cs piece : List Char} (h : piece ∈ cs.splitOn sep) :
    sep ∉ piece := by
  induction cs generalizing piece with
  | nil =>
      rw [List.splitOn_nil, List.mem_singleton] at h
      rw [h]
      exact List.not_mem_nil
  | cons c cs ih =>
      rw [List.splitOn_cons_eq_if_modifyHead] at h
      split at h
      · rcases List.mem_cons.mp h with rfl | h
        · exact List.not_mem_nil
        · exact ih h
      · rename_i hc
        cases hsplit : cs.splitOn sep with
        | nil => exact absurd hsplit (List.splitOn_ne_nil sep cs)
        | cons first more =>
            rw [hsplit] at h ih
            rcases List.mem_cons.mp h with rfl | h
            · rw [List.mem_cons, not_or]
              exact ⟨fun e => hc (by rw [e]; exact beq_self_eq_true c), ih List.mem_cons_self⟩
            · exact ih (List.mem_cons_of_mem first h)

/-! ## Pieces of texts -/

/-- Joining the pieces gives the text back. -/
theorem join_splitAtChar {sep : String} {c : Char} (hsep : sep.toList = [c]) (s : String) :
    join sep (splitAtChar c s) = s := by
  refine String.toList_inj.mp ?_
  unfold splitAtChar
  have hback : (String.toList ∘ String.ofList) = id := funext fun _ => String.toList_ofList
  rw [toList_join, hsep, List.map_map, hback, List.map_id, List.intercalate_splitOn]

/-- Pieces without a separator come back from what they are joined to. -/
theorem splitAtChar_join {sep : String} {c : Char} (hsep : sep.toList = [c]) {pieces : List String}
    (hne : pieces ≠ []) (hpieces : ∀ piece ∈ pieces, c ∉ piece.toList) :
    splitAtChar c (join sep pieces) = pieces := by
  have hback : (String.ofList ∘ String.toList) = id := funext fun _ => String.ofList_toList
  have hnot : ∀ cs ∈ pieces.map String.toList, c ∉ cs := by
    intro cs hcs
    obtain ⟨piece, hpiece, rfl⟩ := List.mem_map.mp hcs
    exact hpieces piece hpiece
  unfold splitAtChar
  rw [toList_join, hsep, List.splitOn_intercalate c hnot (mt List.map_eq_nil_iff.mp hne),
    List.map_map, hback, List.map_id]

/-- A text with a separator in it has the pieces before the separator and those after it. -/
theorem splitAtChar_append {sep : String} {c : Char} (hsep : sep.toList = [c]) (s t : String) :
    splitAtChar c (s ++ sep ++ t) = splitAtChar c s ++ splitAtChar c t := by
  unfold splitAtChar
  rw [String.toList_append, String.toList_append, hsep, List.append_assoc, List.singleton_append,
    List.splitOn_append_cons_self, List.map_append]

/-- What stands before and after the first separator. -/
theorem exists_first {sep : String} {c : Char} (hsep : sep.toList = [c]) {s : String}
    (h : c ∈ s.toList) : ∃ before after, c ∉ before.toList ∧ s = before ++ sep ++ after := by
  obtain ⟨front, back, hback, hnot⟩ := List.eq_append_cons_of_mem h
  refine ⟨String.ofList front, String.ofList back, ?_, String.toList_inj.mp ?_⟩
  · rw [String.toList_ofList]
    exact hnot
  · rw [hback, String.toList_append, String.toList_append, String.toList_ofList,
      String.toList_ofList, hsep, List.append_assoc]
    rfl

theorem splitAtChar_of_not_mem {c : Char} {s : String} (h : c ∉ s.toList) :
    splitAtChar c s = [s] := by
  unfold splitAtChar
  rw [List.splitOn_eq_singleton h, List.map_singleton, String.ofList_toList]

theorem splitAtChar_ne_nil (c : Char) (s : String) : splitAtChar c s ≠ [] :=
  fun h => List.splitOn_ne_nil c s.toList (List.map_eq_nil_iff.mp h)

theorem not_mem_of_mem_splitAtChar {c : Char} {s piece : String} (h : piece ∈ splitAtChar c s) :
    c ∉ piece.toList := by
  obtain ⟨cs, hcs, rfl⟩ := List.mem_map.mp h
  rw [String.toList_ofList]
  exact not_mem_of_mem_splitOn hcs

/-! ## Blanks at the ends -/

theorem trimChars_idem (cs : List Char) : trimChars (trimChars cs) = trimChars cs := by
  obtain ⟨front, hfront⟩ : ∃ front, front = cs.dropWhile isBlank := ⟨_, rfl⟩
  have hpre : trimChars cs <+: front := by
    rw [hfront]
    exact List.rdropWhile_prefix isBlank _
  -- nothing is left to drop at the start: the first character is the one the first pass stopped at
  have hstart : (trimChars cs).dropWhile isBlank = trimChars cs := by
    obtain ⟨rest, hrest⟩ := hpre
    cases htrim : trimChars cs with
    | nil => rfl
    | cons c more =>
        have hkeeps : front.dropWhile isBlank = front := by
          rw [hfront, List.dropWhile_idempotent]
        rw [← hrest, htrim, List.cons_append, List.dropWhile_cons] at hkeeps
        rw [List.dropWhile_cons]
        split at hkeeps
        · have hlen := congrArg List.length hkeeps
          have hle := List.length_dropWhile_le isBlank (more ++ rest)
          rw [List.length_cons] at hlen
          omega
        · rename_i hblank
          rw [if_neg hblank]
  show dropEndWhile isBlank ((trimChars cs).dropWhile isBlank) = _
  rw [hstart]
  exact List.rdropWhile_idempotent isBlank _

theorem trim_idem (s : String) : trim (trim s) = trim s := by
  unfold trim
  rw [String.toList_ofList, trimChars_idem]

theorem mem_of_mem_trim {c : Char} {s : String} (h : c ∈ (trim s).toList) : c ∈ s.toList := by
  unfold trim trimChars at h
  rw [String.toList_ofList] at h
  have hfront : c ∈ s.toList.dropWhile isBlank := (List.rdropWhile_prefix isBlank _).subset h
  exact (List.dropWhile_suffix isBlank).subset hfront

/-- Characters without blanks stay as they are. -/
theorem trimChars_of_no_blank {cs : List Char} (h : ∀ c ∈ cs, isBlank c = false) :
    trimChars cs = cs := by
  have hfront : ∀ cs : List Char, (∀ c ∈ cs, isBlank c = false) → cs.dropWhile isBlank = cs := by
    intro cs hcs
    cases cs with
    | nil => rfl
    | cons c rest =>
        have hc : isBlank c = false := hcs c List.mem_cons_self
        rw [List.dropWhile_cons_of_neg (ne_true_of_eq_false hc)]
  have hback : ∀ c ∈ cs.reverse, isBlank c = false := fun c hc => h c (List.mem_reverse.mp hc)
  unfold trimChars dropEndWhile
  rw [hfront _ h, hfront _ hback, List.reverse_reverse]

/-- A text without blanks stays as it is. -/
theorem trim_of_no_blank {s : String} (h : ∀ c ∈ s.toList, isBlank c = false) : trim s = s := by
  unfold trim
  rw [trimChars_of_no_blank h, String.ofList_toList]

/-- A blank in front of a text is dropped. -/
theorem trim_blank (s : String) : trim (" " ++ s) = trim s := by
  unfold trim trimChars
  rw [String.toList_append]
  rfl

/-! ## Names in order -/

theorem sortNames_mem {names : List String} {name : String} :
    name ∈ sortNames names ↔ name ∈ names :=
  (List.mergeSort_perm names _).mem_iff

/-- Different names are in strict order once they are sorted. -/
theorem sortNames_strict {names : List String} (h : names.Nodup) :
    (sortNames names).Pairwise (· < ·) := by
  have hsorted : (sortNames names).Pairwise fun a b => decide (a ≤ b) = true := by
    refine List.pairwise_mergeSort ?_ ?_ names
    · intro a b c hab hbc
      rw [decide_eq_true_eq] at hab hbc ⊢
      exact String.le_trans hab hbc
    · intro a b
      rw [Bool.or_eq_true, decide_eq_true_eq, decide_eq_true_eq]
      exact String.le_total a b
  have hnodup : (sortNames names).Pairwise (· ≠ ·) := (List.mergeSort_perm names _).nodup_iff.mpr h
  refine (hsorted.and hnodup).imp fun {a b} hab => ?_
  rw [decide_eq_true_eq] at hab
  exact String.not_le.mp fun hba => hab.2 (String.le_antisymm hab.1 hba)

/-- Names in strict order are known by what is among them. -/
theorem eq_of_strict {xs ys : List String} (hx : xs.Pairwise (· < ·)) (hy : ys.Pairwise (· < ·))
    (h : ∀ name, name ∈ xs ↔ name ∈ ys) : xs = ys := by
  have hsame : xs.Perm ys := by
    refine (List.perm_ext_iff_of_nodup ?_ ?_).mpr h
    · exact hx.imp fun h => String.ne_of_lt h
    · exact hy.imp fun h => String.ne_of_lt h
  refine hsame.eq_of_pairwise ?_ hx hy
  intro a b _ _ hab hba
  exact absurd (String.lt_trans hab hba) (String.lt_irrefl a)

end PageMacro.Text
