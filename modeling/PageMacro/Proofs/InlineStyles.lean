import Mathlib.Data.List.Find
import PageMacro.Proofs.ElementWrites
import PageMacro.Proofs.Pieces

/-!
# Inline styles

A style is written by reading all declarations from the attribute, changing them and writing them
all back. So what a write means for later reads rests on what is read back from a text that has been
written (`parse_format`). A declaration that has been read is `Plain`, and plain ones come back as
they are. The declaration that is written need not be: its value goes into the attribute as it is,
and only the part before the first `;` belongs to it when it is read, without the blanks around.

What a write does to the declarations of other names is said by one equation: they are the same ones
in the same order.
-/

namespace PageMacro

namespace Style

/-! ## What is read back -/

/-- A name that is read back as it has been written. -/
structure Readable (name : String) : Prop where
  nonempty : name ≠ ""
  trimmed : Text.trim name = name
  colon : ':' ∉ name.toList
  semicolon : ';' ∉ name.toList

namespace Declaration

/-- How a declaration is written. -/
def text (d : Declaration) : String := d.name ++ ": " ++ d.value

/-- A declaration that is read back as it has been written. -/
structure Plain (d : Declaration) : Prop where
  name : Readable d.name
  trimmed : Text.trim d.value = d.value
  semicolon : ';' ∉ d.value.toList

end Declaration

theorem declaration?_of_cut {part before after : String}
    (hcut : Text.cut ':' part = some (before, after)) :
    declaration? part = if (Text.trim before).isEmpty then none
      else some ⟨Text.trim before, Text.trim after⟩ := by
  unfold declaration?
  rw [hcut, Option.bind_eq_bind, Option.bind_some]

theorem declaration?_of_no_colon {part : String} (hcut : Text.cut ':' part = none) :
    declaration? part = none := by
  unfold declaration?
  rw [hcut]
  rfl

theorem cut_blank {sep : Char} (hsep : sep ≠ ' ') (part : String) :
    Text.cut sep (" " ++ part) =
      (Text.cut sep part).map fun pair => (" " ++ pair.1, pair.2) := by
  have hfront : sep ∉ " ".toList := by simpa using hsep
  unfold Text.cut
  rw [String.toList_append, Text.cutChars_append hfront, Option.map_map, Option.map_map]
  refine Option.map_congr fun pair _ => Prod.ext (String.toList_inj.mp ?_) rfl
  simp

theorem declaration?_blank (part : String) : declaration? (" " ++ part) = declaration? part := by
  have hblank := @cut_blank ':' (by decide) part
  cases hcut : Text.cut ':' part with
  | none =>
      rw [hcut] at hblank
      rw [declaration?_of_no_colon hcut, declaration?_of_no_colon hblank]
  | some pair =>
      rw [hcut] at hblank
      rw [declaration?_of_cut hcut, declaration?_of_cut hblank, Text.trim_blank]

theorem declaration?_text {name : String} (hname : Readable name) (value : String) :
    declaration? (name ++ ": " ++ value) = some ⟨name, Text.trim value⟩ := by
  have hcut : Text.cut ':' (name ++ ": " ++ value) = some (name, " " ++ value) := by
    refine Text.cut_eq_some_iff.mpr ⟨hname.colon, ?_⟩
    rw [String.toList_append, String.toList_append, String.toList_append, List.append_assoc]
    rfl
  rw [declaration?_of_cut hcut, hname.trimmed, Text.trim_blank,
    if_neg (mt String.isEmpty_iff.mp hname.nonempty)]

/-! ### Texts of declarations -/

theorem parse_append (s t : String) : parse (s ++ ";" ++ t) = parse s ++ parse t := by
  unfold parse
  rw [Text.splitAtChar_append rfl, List.filterMap_append]

theorem parse_of_not_mem {s : String} (h : ';' ∉ s.toList) : parse s = (declaration? s).toList := by
  unfold parse
  rw [Text.splitAtChar_of_not_mem h]
  cases hpart : declaration? s with
  | none => rw [List.filterMap_cons_none hpart]; rfl
  | some d => rw [List.filterMap_cons_some hpart]; rfl

/-- A blank in front does not matter. -/
theorem parse_blank (s : String) : parse (" " ++ s) = parse s := by
  have hpiece : ∀ t : String, ';' ∉ t.toList → parse (" " ++ t) = parse t := by
    intro t ht
    have hblank : ';' ∉ (" " ++ t).toList := by
      rw [String.toList_append]
      exact fun h => (List.mem_append.mp h).elim (by decide) ht
    rw [parse_of_not_mem ht, parse_of_not_mem hblank, declaration?_blank]
  -- the blank belongs to the first part only
  by_cases hmem : ';' ∈ s.toList
  · obtain ⟨before, after, hnot, rfl⟩ := @Text.exists_first ";" ';' rfl _ hmem
    have hfront : " " ++ (before ++ ";" ++ after) = (" " ++ before) ++ ";" ++ after := by
      rw [String.append_assoc, String.append_assoc, String.append_assoc]
    rw [hfront, parse_append, parse_append, hpiece before hnot]
  · exact hpiece s hmem

theorem parse_join (texts : List String) (hne : texts ≠ []) :
    parse (Text.join "; " texts ++ ";") = texts.flatMap parse := by
  induction texts with
  | nil => exact absurd rfl hne
  | cons t rest ih =>
      cases rest with
      | nil =>
          have hlast : Text.join "; " [t] ++ ";" = t ++ ";" ++ "" := by
            rw [Text.join, String.intercalate_singleton, String.append_empty]
          rw [hlast, parse_append]
          rfl
      | cons next rest =>
          -- the separator is a `;`, where the reader cuts, and a blank, which it does not see
          have hfirst : Text.join "; " (t :: next :: rest) ++ ";" =
              t ++ ";" ++ (" " ++ (Text.join "; " (next :: rest) ++ ";")) := by
            refine String.toList_inj.mp ?_
            simp [Text.toList_join_cons]
          rw [hfirst, parse_append, parse_blank, ih (List.cons_ne_nil _ _)]
          rfl

/-- **Of a text that has been written, each declaration is read by itself.** -/
theorem parse_format (ds : List Declaration) :
    parse (format ds) = ds.flatMap fun d => parse d.text := by
  unfold format
  cases ds with
  | nil => rfl
  | cons d rest =>
      have hne : (d :: rest).map (fun d => d.name ++ ": " ++ d.value) ≠ [] := List.cons_ne_nil _ _
      rw [List.isEmpty_cons, if_neg Bool.false_ne_true, parse_join _ hne, List.flatMap_map]
      rfl

theorem parse_text {name value : String} (hname : Readable name) (hvalue : ';' ∉ value.toList) :
    parse (Declaration.text ⟨name, value⟩) = [⟨name, Text.trim value⟩] := by
  have hnot : ';' ∉ (name ++ ": " ++ value).toList := by
    rw [String.toList_append, String.toList_append]
    intro h
    rcases List.mem_append.mp h with h | h
    · exact (List.mem_append.mp h).elim hname.semicolon (by decide)
    · exact hvalue h
  unfold Declaration.text
  rw [parse_of_not_mem hnot, declaration?_text hname]
  rfl

/-- The value goes as far as the first `;`; what stands behind it is read by itself. -/
theorem parse_text_cut {name front : String} (hname : Readable name) (hfront : ';' ∉ front.toList)
    (back : String) :
    parse (Declaration.text ⟨name, front ++ ";" ++ back⟩) =
      ⟨name, Text.trim front⟩ :: parse back := by
  have hsplit : Declaration.text ⟨name, front ++ ";" ++ back⟩ =
      Declaration.text ⟨name, front⟩ ++ ";" ++ back := by
    unfold Declaration.text
    dsimp only
    rw [String.append_assoc, String.append_assoc, String.append_assoc, String.append_assoc,
      String.append_assoc]
  rw [hsplit, parse_append, parse_text hname hfront]
  rfl

/-- What has been read is plain. -/
theorem plain_of_mem_parse {s : String} {d : Declaration} (h : d ∈ parse s) : d.Plain := by
  obtain ⟨part, hpart, hd⟩ := List.mem_filterMap.mp h
  have hsemicolon : ';' ∉ part.toList := Text.not_mem_of_mem_splitAtChar hpart
  cases hcut : Text.cut ':' part with
  | none => rw [declaration?_of_no_colon hcut] at hd; cases hd
  | some pair =>
      obtain ⟨before, after⟩ := pair
      obtain ⟨hcolon, hwhole⟩ := Text.cut_eq_some_iff.mp hcut
      rw [declaration?_of_cut hcut] at hd
      split at hd
      · cases hd
      · rename_i hnonempty
        obtain rfl := Option.some.inj hd
        rw [hwhole] at hsemicolon
        refine ⟨⟨?_, Text.trim_idem before, ?_, ?_⟩, Text.trim_idem after, ?_⟩
        · exact mt String.isEmpty_iff.mpr hnonempty
        · exact mt Text.mem_of_mem_trim hcolon
        · exact fun h => hsemicolon (List.mem_append_left _ (Text.mem_of_mem_trim h))
        · exact fun h => hsemicolon (List.mem_append_right _
            (List.mem_cons_of_mem _ (Text.mem_of_mem_trim h)))

/-- **Plain declarations come back as they have been written.** -/
theorem parse_format_of_plain {ds : List Declaration} (h : ∀ d ∈ ds, d.Plain) :
    parse (format ds) = ds := by
  rw [parse_format]
  induction ds with
  | nil => rfl
  | cons d rest ih =>
      obtain ⟨hd, hrest⟩ := List.forall_mem_cons.mp h
      have htext : parse d.text = [d] := by
        rw [parse_text hd.name hd.semicolon, hd.trimmed]
      rw [List.flatMap_cons, htext, ih hrest]
      rfl

/-! ## What a write does -/

/-- The first declaration of the name is replaced, and the others of that name are dropped. -/
theorem replaceFirst_eq (css value : String) {ds : List Declaration}
    (hany : ds.any (fun d => d.name == css) = true) :
    ∃ front back, replaceFirst css value ds = front ++ ⟨css, value⟩ :: back ∧
      front ++ back = ds.filter fun d => d.name != css := by
  induction ds with
  | nil => cases hany
  | cons d rest ih =>
      rw [replaceFirst]
      split
      · rename_i hsame
        have hdrop : (d.name != css) = false := by rw [bne, hsame]; rfl
        refine ⟨[], _, rfl, ?_⟩
        rw [List.filter_cons, if_neg (ne_true_of_eq_false hdrop)]
        exact List.nil_append _
      · rename_i hother
        have hkeep : (d.name != css) = true := by
          rw [bne, Bool.eq_false_iff.mpr hother]
          rfl
        rw [List.any_cons, Bool.eq_false_iff.mpr hother, Bool.false_or] at hany
        obtain ⟨front, back, hreplaced, hfilter⟩ := ih hany
        refine ⟨d :: front, back, congrArg (d :: ·) hreplaced, ?_⟩
        rw [List.filter_cons, if_pos hkeep, ← hfilter]
        exact List.cons_append

/-- **A write leaves one declaration of the name, between those of the others.** -/
theorem assign_eq (css : String) {value : String} (hvalue : value ≠ "") (ds : List Declaration) :
    ∃ front back, assign css value ds = front ++ ⟨css, value⟩ :: back ∧
      front ++ back = ds.filter fun d => d.name != css := by
  unfold assign
  rw [if_neg (mt String.isEmpty_iff.mp hvalue)]
  split
  · rename_i hany
    exact replaceFirst_eq css value hany
  · rename_i hnone
    refine ⟨ds, [], rfl, ?_⟩
    rw [List.append_nil, eq_comm, List.filter_eq_self]
    intro d hd
    have hne : ¬ (d.name == css) = true := fun h => hnone (List.any_eq_true.mpr ⟨d, hd, h⟩)
    rw [bne, Bool.eq_false_iff.mpr hne]
    rfl

theorem name_ne_of_split {css : String} {front back ds : List Declaration}
    (h : front ++ back = ds.filter fun d => d.name != css) : ∀ d ∈ front ++ back, d.name ≠ css := by
  intro d hd
  rw [h] at hd
  simpa using (List.mem_filter.mp hd).2

section Write

variable {styles name value : String}

/-- What is read after a style has been written. -/
theorem parse_set (styles : String) (hvalue : value ≠ "") :
    ∃ front back, front ++ back = (parse styles).filter (fun d => d.name != dashedName name) ∧
      parse (set styles name value) =
        front ++ (parse (Declaration.text ⟨dashedName name, value⟩) ++ back) := by
  obtain ⟨front, back, hassign, hfilter⟩ := assign_eq (dashedName name) hvalue (parse styles)
  have hplain : ∀ d ∈ front ++ back, d.Plain := by
    intro d hd
    rw [hfilter] at hd
    exact plain_of_mem_parse (List.mem_filter.mp hd).1
  have hback : ∀ ds : List Declaration, (∀ d ∈ ds, d.Plain) →
      ds.flatMap (fun d => parse d.text) = ds := fun ds hds => by
    rw [← parse_format, parse_format_of_plain hds]
  refine ⟨front, back, hfilter, ?_⟩
  unfold set
  rw [hassign, parse_format, List.flatMap_append, List.flatMap_cons,
    hback front fun d hd => hplain d (List.mem_append_left _ hd),
    hback back fun d hd => hplain d (List.mem_append_right _ hd)]

/-- What is read after a style has been removed. -/
theorem parse_set_empty (styles name : String) :
    parse (set styles name "") = (parse styles).filter fun d => d.name != dashedName name := by
  have hassign : assign (dashedName name) "" (parse styles) =
      (parse styles).filter fun d => d.name != dashedName name := rfl
  unfold set
  rw [hassign]
  exact parse_format_of_plain fun d hd => plain_of_mem_parse (List.mem_filter.mp hd).1

end Write

/-! ## What is read afterwards -/

section Read

variable {styles name value : String}

/-- Declarations of other names decide over the value of a style. -/
theorem get_of_others {styles' css other : String} (hne : dashedName other ≠ css)
    (hothers : (parse styles').filter (fun d => d.name != css) =
      (parse styles).filter fun d => d.name != css) : get styles' other = get styles other := by
  have hfind : ∀ ds : List Declaration, ds.find? (fun d => d.name == dashedName other) =
      (ds.filter fun d => d.name != css).find? fun d => d.name == dashedName other := by
    intro ds
    rw [List.find?_filter]
    refine List.find?_congr fun d _ => ?_
    by_cases hd : d.name = dashedName other
    · rw [hd]
      simpa using hne
    · simp [hd]
  unfold get
  rw [hfind, hothers, ← hfind]

theorem get_of_first {front back : List Declaration} {d : Declaration}
    (hparse : parse styles = front ++ d :: back) (hd : d.name = dashedName name)
    (hfront : ∀ e ∈ front, e.name ≠ dashedName name) : get styles name = d.value := by
  have hnone : front.find? (fun e => e.name == dashedName name) = none :=
    List.find?_eq_none.mpr fun e he => by simpa using hfront e he
  have hfind : (parse styles).find? (fun e => e.name == dashedName name) = some d := by
    rw [hparse, List.find?_append, hnone, Option.none_or,
      List.find?_cons_of_pos (by simpa using hd)]
  unfold get
  rw [hfind]

/-- The part of a value that belongs to its declaration, and what is read after it. -/
theorem exists_first_part {css : String} (hcss : Readable css) (value : String) :
    ∃ front rest, ';' ∉ front.toList ∧
      parse (Declaration.text ⟨css, value⟩) = ⟨css, Text.trim front⟩ :: rest ∧
      (';' ∉ value.toList → front = value ∧ rest = []) := by
  by_cases hmem : ';' ∈ value.toList
  · obtain ⟨front, back, hfront, rfl⟩ := @Text.exists_first ";" ';' rfl _ hmem
    exact ⟨front, parse back, hfront, parse_text_cut hcss hfront back, fun h => absurd hmem h⟩
  · exact ⟨value, [], hmem, parse_text hcss hmem, fun _ => ⟨rfl, rfl⟩⟩

/-- A value without `;` is in one declaration, between those of the others. -/
theorem parse_set_whole (hcss : Readable (dashedName name)) (styles : String) (hvalue : value ≠ "")
    (hwhole : ';' ∉ value.toList) :
    ∃ front back, front ++ back = (parse styles).filter (fun d => d.name != dashedName name) ∧
      parse (set styles name value) = front ++ ⟨dashedName name, Text.trim value⟩ :: back := by
  obtain ⟨front, back, hfilter, hparse⟩ := @parse_set name value styles hvalue
  rw [parse_text hcss hwhole] at hparse
  exact ⟨front, back, hfilter, hparse⟩

/-- **A value without `;` leaves the other declarations as they are.** -/
theorem others_set (hcss : Readable (dashedName name)) (styles : String)
    (hwhole : ';' ∉ value.toList) :
    (parse (set styles name value)).filter (fun d => d.name != dashedName name) =
      (parse styles).filter fun d => d.name != dashedName name := by
  by_cases hvalue : value = ""
  · rw [hvalue, parse_set_empty, List.filter_filter]
    exact List.filter_congr fun d _ => Bool.and_self _
  · obtain ⟨front, back, hfilter, hparse⟩ := parse_set_whole hcss styles hvalue hwhole
    have hself : (front ++ back).filter (fun d => d.name != dashedName name) = front ++ back := by
      rw [hfilter, List.filter_filter]
      exact List.filter_congr fun d _ => Bool.and_self _
    rw [hparse, List.filter_append, List.filter_cons_of_neg (by simp), ← List.filter_append, hself,
      hfilter]

/-- **A value comes back if and only if it has no blanks at its ends and no `;` in it.** -/
theorem get_set_eq_iff (hcss : Readable (dashedName name)) (styles : String) (hvalue : value ≠ "") :
    get (set styles name value) name = value ↔
      Text.trim value = value ∧ ';' ∉ value.toList := by
  obtain ⟨front, back, hfilter, hparse⟩ := @parse_set name value styles hvalue
  obtain ⟨first, rest, hfirst, htext, hwhole⟩ := exists_first_part hcss value
  have hother : ∀ e ∈ front, e.name ≠ dashedName name := fun e he =>
    name_ne_of_split hfilter e (List.mem_append_left _ he)
  rw [htext] at hparse
  rw [get_of_first hparse rfl hother]
  show Text.trim first = value ↔ _
  constructor
  · intro heq
    -- what is read back has no `;`, so the value has none, and so all of it has been read back
    have hnot : ';' ∉ value.toList := by
      rw [← heq]
      exact mt Text.mem_of_mem_trim hfirst
    obtain ⟨rfl, -⟩ := hwhole hnot
    exact ⟨heq, hnot⟩
  · rintro ⟨htrim, hnot⟩
    obtain ⟨rfl, -⟩ := hwhole hnot
    exact htrim

/-- The attribute is empty if and only if no declaration is left. -/
theorem set_eq_empty_iff (hcss : Readable (dashedName name)) (styles value : String) :
    set styles name value = "" ↔ parse (set styles name value) = [] := by
  constructor
  · intro h
    rw [h]
    rfl
  · intro h
    -- a value that is not empty leaves at least its own declaration
    by_cases hvalue : value = ""
    · subst hvalue
      rw [parse_set_empty] at h
      unfold set
      show format ((parse styles).filter fun d => d.name != dashedName name) = ""
      rw [h]
      rfl
    · obtain ⟨front, back, -, hparse⟩ := @parse_set name value styles hvalue
      obtain ⟨first, rest, -, htext, -⟩ := exists_first_part hcss value
      rw [hparse, htext] at h
      exact absurd h (List.append_ne_nil_of_right_ne_nil _ (List.cons_ne_nil _ _))

end Read

/-! ## Names -/

section Names

open Segment

theorem isBlank_of_isPropertyChar {c : Char} (h : isPropertyChar c = true) :
    Text.isBlank c = false := by
  unfold isPropertyChar isLetter at h
  unfold Text.isBlank
  simp only [Bool.or_eq_true, Bool.and_eq_true, decide_eq_true_eq, beq_iff_eq, Char.le_def,
    UInt32.le_iff_toNat_le, Bool.or_eq_false_iff, Bool.and_eq_false_iff, decide_eq_false_iff_not,
    beq_eq_false_iff_ne, ne_eq, Char.ext_iff, ← UInt32.toNat_inj, Char.reduceVal,
    UInt32.reduceToNat] at h ⊢
  omega

theorem isPropertyChar_toLower {c : Char} (h : c.isUpper = true) :
    isPropertyChar c.toLower = true := by
  have hletters : ∀ n < 26, isPropertyChar (Char.ofNat (65 + n)).toLower = true := by
    decide +kernel
  have hrange : 65 ≤ c.toNat ∧ c.toNat ≤ 90 := by
    unfold Char.isUpper at h
    exact of_decide_eq_true h
  have hback := hletters (c.toNat - 65) (by omega)
  rw [show 65 + (c.toNat - 65) = c.toNat by omega, Char.ofNat_toNat] at hback
  exact hback

theorem isPropertyChar_dashedTail {cs : List Char} (h : ∀ c ∈ cs, isPropertyChar c = true) :
    ∀ c ∈ dashedTail cs, isPropertyChar c = true := by
  induction cs with
  | nil => exact h
  | cons c rest ih =>
      obtain ⟨hc, hrest⟩ := List.forall_mem_cons.mp h
      rw [dashedTail]
      split
      · rename_i hupper
        exact List.forall_mem_cons.mpr ⟨rfl,
          List.forall_mem_cons.mpr ⟨isPropertyChar_toLower hupper, ih hrest⟩⟩
      · exact List.forall_mem_cons.mpr ⟨hc, ih hrest⟩

theorem isPropertyChar_dashedName {name : String}
    (h : ∀ c ∈ name.toList, isPropertyChar c = true) :
    ∀ c ∈ (dashedName name).toList, isPropertyChar c = true := by
  unfold dashedName
  split
  · exact h
  · rename_i c rest _ hname
    rw [hname] at h
    obtain ⟨hc, hrest⟩ := List.forall_mem_cons.mp h
    rw [String.toList_ofList]
    refine List.forall_mem_cons.mpr ⟨?_, isPropertyChar_dashedTail hrest⟩
    split
    · rename_i hupper
      exact isPropertyChar_toLower hupper
    · exact hc
  · exact fun c hc => absurd hc List.not_mem_nil

/-- **A style that can be written to by name has a name that is read back.** -/
theorem readable_dashedName {name : String} (h : ∀ c ∈ name.toList, isPropertyChar c = true)
    (hknown : isKnown name = true) : Readable (dashedName name) := by
  have hchars := isPropertyChar_dashedName h
  refine ⟨fun hempty => ?_, ?_, fun hmem => ?_, fun hmem => ?_⟩
  · unfold isKnown at hknown
    rw [hempty] at hknown
    exact absurd hknown (by decide +kernel)
  · exact Text.trim_of_no_blank fun c hc => isBlank_of_isPropertyChar (hchars c hc)
  · exact absurd (hchars _ hmem) (by decide)
  · exact absurd (hchars _ hmem) (by decide)

end Names

end Style

namespace Document

variable {d : Document} {id : NodeId}

/-- The declarations in the style attribute of an element. -/
def declarations (d : Document) (id : NodeId) : List Style.Declaration :=
  Style.parse (d.attr id "style")

/-- After a write the attribute holds what was written, and is gone if that is empty. -/
theorem setStyle_attr (hid : d.isElement id = true) {name : String}
    (hknown : Style.isKnown name = true) (value : String) :
    ∃ d', d.setStyle id name value = .ok d' ∧
      d'.attr id "style" = Style.set (d.attr id "style") name value ∧
      ((d'.attr? id "style").isSome ↔ Style.set (d.attr id "style") name value ≠ "") := by
  obtain ⟨d', hok, hedited⟩ := setStyle_comes hid hknown value
  have hattr : d'.attr? id "style" = if (Style.set (d.attr id "style") name value).isEmpty then none
      else some (Style.set (d.attr id "style") name value) := hedited.done
  have hget : d'.attr id "style" = (d'.attr? id "style").getD "" := rfl
  refine ⟨d', hok, ?_⟩
  rw [hget, hattr]
  by_cases hempty : Style.set (d.attr id "style") name value = ""
  · rw [hempty]
    exact ⟨rfl, iff_of_false Bool.false_ne_true fun h => h rfl⟩
  · rw [if_neg (mt String.isEmpty_iff.mp hempty)]
    exact ⟨rfl, iff_of_true rfl hempty⟩

/-- **What a style holds after it has been written.** It is the value, without the blanks around it,
in the only declaration of its name; with the empty value no declaration is left. The declarations
of other names stay as they are and in their order, and with them all other styles. Only a value
with a `;` in it can be more than one declaration. The attribute is there as long as it has a
declaration. -/
theorem styles_hold_what_is_set (d : Document) {id : NodeId} {name : String} (value : String)
    (hid : d.isElement id = true) (hname : ∀ c ∈ name.toList, Segment.isPropertyChar c = true)
    (hknown : Style.isKnown name = true) :
    ∃ d', d.setStyle id name value = .ok d' ∧
      ((d'.attr? id "style").isSome ↔ d'.declarations id ≠ []) ∧
      (value ≠ "" → (d'.style id name = value ↔ Text.trim value = value ∧ ';' ∉ value.toList)) ∧
      (';' ∉ value.toList →
        (value ≠ "" → d'.style id name = Text.trim value ∧
          (d'.declarations id).filter (fun e => e.name == Style.dashedName name) =
            [⟨Style.dashedName name, Text.trim value⟩]) ∧
        (value = "" → ∀ e ∈ d'.declarations id, e.name ≠ Style.dashedName name) ∧
        (d'.declarations id).filter (fun e => e.name != Style.dashedName name) =
          (d.declarations id).filter (fun e => e.name != Style.dashedName name) ∧
        ∀ other, Style.dashedName other ≠ Style.dashedName name →
          d'.style id other = d.style id other) := by
  have hcss := Style.readable_dashedName hname hknown
  obtain ⟨d', hok, hattr, hpresent⟩ := setStyle_attr hid hknown value
  have hpresent' : (d'.attr? id "style").isSome ↔ d'.declarations id ≠ [] := by
    unfold declarations
    rw [hpresent, hattr, Ne, Style.set_eq_empty_iff hcss]
  refine ⟨d', hok, hpresent', fun hvalue => ?_, fun hwhole => ?_⟩
  · unfold style
    rw [hattr]
    exact Style.get_set_eq_iff hcss _ hvalue
  · have hothers := Style.others_set hcss (d.attr id "style") hwhole
    unfold declarations style
    rw [hattr]
    refine ⟨fun hvalue => ?_, fun hvalue e he => ?_, hothers, fun other hne => ?_⟩
    · obtain ⟨front, back, hfilter, hparse⟩ :=
        Style.parse_set_whole hcss (d.attr id "style") hvalue hwhole
      obtain ⟨hfront, hback⟩ := List.forall_mem_append.mp (Style.name_ne_of_split hfilter)
      refine ⟨Style.get_of_first hparse rfl hfront, ?_⟩
      rw [hparse, List.filter_append, List.filter_cons_of_pos (by simp),
        List.filter_eq_nil_iff.mpr fun e he => by simpa using hfront e he,
        List.filter_eq_nil_iff.mpr fun e he => by simpa using hback e he]
      rfl
    · rw [hvalue, Style.parse_set_empty] at he
      simpa using (List.mem_filter.mp he).2
    · exact Style.get_of_others hne hothers

/-- An element that declares a style twice. -/
def styledPage : Document :=
  { nodes := #[⟨.document, [⟨1⟩]⟩,
    ⟨.element "div" "" [⟨"", "style", "color: blue; margin: 1px; color: red"⟩], []⟩] }

theorem styled_page_turns_green :
    ∃ d', styledPage.setStyle ⟨1⟩ "color" "green" = .ok d' ∧ d'.style ⟨1⟩ "color" = "green" ∧
      (d'.declarations ⟨1⟩).filter (fun e => e.name == "color") = [⟨"color", "green"⟩] ∧
      d'.style ⟨1⟩ "margin" = "1px" := by
  have hchars : "color".toList.all Segment.isPropertyChar = true := by decide +kernel
  obtain ⟨d', hok, -, -, hwhole⟩ := @styles_hold_what_is_set styledPage ⟨1⟩ "color" "green" rfl
    (List.all_eq_true.mp hchars) (by decide +kernel)
  obtain ⟨hset, -, -, hothers⟩ := hwhole (by decide)
  have hcss : Style.dashedName "color" = "color" := by decide +kernel
  have htrim : Text.trim "green" = "green" := by decide +kernel
  obtain ⟨hstyle, honly⟩ := hset (by decide)
  rw [hcss, htrim] at honly
  refine ⟨d', hok, hstyle.trans htrim, honly, (hothers "margin" (by decide +kernel)).trans ?_⟩
  decide +kernel

/-- Blanks around a value are not read back, and neither is what stands behind a `;`. -/
theorem not_all_values_are_read_back :
    (∃ d', styledPage.setStyle ⟨1⟩ "color" " red" = .ok d' ∧ d'.style ⟨1⟩ "color" = "red") ∧
    ∃ d', styledPage.setStyle ⟨1⟩ "background" "url(data:image/png;base64,AAAA)" = .ok d' ∧
      d'.style ⟨1⟩ "background" = "url(data:image/png" := by
  obtain ⟨blank, hblank, hred, -⟩ :=
    @setStyle_attr styledPage ⟨1⟩ rfl "color" (by decide +kernel) " red"
  obtain ⟨cut, hcut, hurl, -⟩ := @setStyle_attr styledPage ⟨1⟩ rfl "background" (by decide +kernel)
    "url(data:image/png;base64,AAAA)"
  refine ⟨⟨blank, hblank, ?_⟩, cut, hcut, ?_⟩
  · unfold style
    rw [hred]
    decide +kernel
  · unfold style
    rw [hurl]
    decide +kernel

end Document

end PageMacro
