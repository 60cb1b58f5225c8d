import PageMacro.Proofs.Grammar
import PageMacro.Proofs.NumberTexts
import PageMacro.Proofs.Scene

/-!
# Values copied from name to name

`&c:!n` copies a variable by way of its text: the reference is replaced by the text of `n`, and what
stands there then is read as a word again. The text of a value that came from a word is a word for
the same value, so the copy is the value itself, and making it again changes nothing any more.
-/

namespace PageMacro

namespace Segment

/-- The segment that copies a variable. -/
def copy (name other : String) : String := "&" ++ name ++ ":!" ++ other

section Copy

variable {name other : String}

/-- An identifier begins as one and goes on as one. -/
theorem isIdent_iff {s : String} :
    isIdent s = true ↔ identAhead s.toList = true ∧ ∀ c ∈ s.toList, isIdentPart c = true := by
  unfold isIdent
  cases s.toList with
  | nil => exact ⟨nofun, nofun⟩
  | cons c rest =>
      dsimp only
      rw [Bool.and_eq_true, List.all_eq_true, List.forall_mem_cons]
      exact ⟨fun h => ⟨h.1, isIdentPart_of_isIdentStart h.1, h.2⟩, fun h => ⟨h.1, h.2.2⟩⟩

theorem escapeChars_of_not_mem {cs : List Char} (h : '\\' ∉ cs) : escapeChars cs = cs := by
  induction cs with
  | nil => rfl
  | cons c rest ih =>
      rw [List.mem_cons, not_or] at h
      rw [escapeChars_cons (Ne.symm h.1), ih h.2]

theorem toList_copy : (copy name other).toList =
    '&' :: (name.toList ++ ':' :: '!' :: other.toList) := by
  simp [copy]

/-- A copy is read as an assignment with the reference for its right-hand side. -/
theorem ofScript?_copy (hname : IsRun isWordChar name.toList) (hother : isIdent other = true) :
    ofScript? (copy name other) = some (.literalAssign name ("!" ++ other)) := by
  rw [isIdent_iff] at hother
  have hplain : ∀ d : Char, isWordChar d = false → d ∉ name.toList ∧ d ∉ other.toList := by
    intro d hd
    constructor
    · intro hmem
      rw [hname.2 d hmem] at hd
      cases hd
    · intro hmem
      rw [show isWordChar d = true from hother.2 d hmem] at hd
      cases hd
  have hescape : escapeChars (copy name other).toList = (copy name other).toList := by
    refine escapeChars_of_not_mem ?_
    rw [toList_copy]
    simp [hplain '\\' (by decide)]
  have hassign : literalAssign? (copy name other).toList =
      some (.literalAssign name ("!" ++ other)) := by
    have hrun : run? isWordChar (name.toList ++ ':' :: '!' :: other.toList) =
        some (name, ':' :: '!' :: other.toList) := by
      refine run?_eq_some_iff.mpr ⟨hname, ?_, rfl⟩
      intro d hd
      cases hd
      decide
    have hrhs : rhs? ('!' :: other.toList) = some ("!" ++ other) := by
      refine rhs?_eq_some_iff.mpr ⟨⟨List.cons_ne_nil _ _, ?_⟩, ?_⟩
      · simp [hplain '\n' (by decide)]
      · rw [← String.toList_inj]
        simp
    unfold literalAssign?
    rw [toList_copy]
    change (run? isWordChar (name.toList ++ ':' :: '!' :: other.toList) >>= _) = _
    rw [hrun]
    change (rhs? ('!' :: other.toList) >>= _) = _
    rw [hrhs]
    rfl
  unfold ofScript? read? escape
  rw [String.toList_ofList, hescape]
  have hearlier : ∀ cs, attrWrite? ('&' :: cs) = none ∧ indexedWrite? ('&' :: cs) = none ∧
      shellOpen? ('&' :: cs) = none ∧ shellClose? ('&' :: cs) = none ∧
      propRead? ('&' :: cs) = none := fun cs => ⟨rfl, rfl, rfl, rfl, rfl⟩
  unfold readers
  obtain ⟨h₁, h₂, h₃, h₄, h₅⟩ := hearlier (name.toList ++ ':' :: '!' :: other.toList)
  rw [← toList_copy] at h₁ h₂ h₃ h₄ h₅
  rw [List.findSome?_cons, h₁, List.findSome?_cons, h₂, List.findSome?_cons, h₃,
    List.findSome?_cons, h₄, List.findSome?_cons, h₅, List.findSome?_cons, hassign]

/-- A reference is replaced by the text of the variable. -/
theorem resolve_reference {lookup : String → String} (hother : isIdent other = true)
    (hmark : hiddenMark ∉ (lookup other).toList) : resolve lookup ("!" ++ other) = lookup other := by
  rw [isIdent_iff] at hother
  have hescape : escapeChars other.toList = other.toList := escapeChars_of_not_mem fun hmem => by
    have hpart := hother.2 _ hmem
    revert hpart
    decide
  have hrun : (other.toList ++ []).takeWhile isIdentPart = other.toList ∧
      (other.toList ++ []).dropWhile isIdentPart = [] :=
    takeWhile_append_of_endsRun hother.2 nofun
  rw [List.append_nil] at hrun
  have hreference := substituteChars_reference lookup hother.1
  rw [hescape, hrun.1, hrun.2, String.ofList_toList] at hreference
  unfold resolve expand unescape
  rw [String.toList_append, String.toList_ofList]
  change String.ofList (unescapeChars (substituteChars lookup ('!' :: other.toList) false 0)) = _
  rw [hreference]
  change String.ofList (unescapeChars ((lookup other).toList ++ [])) = _
  rw [List.append_nil, unescapeChars_of_not_mem hmark, String.ofList_toList]

/-- A reference without a fallback has none. -/
theorem fallback?_reference (hother : isIdent other = true) : fallback? ("!" ++ other) = none := by
  rw [isIdent_iff] at hother
  have hrun : (other.toList ++ []).takeWhile isIdentPart = other.toList ∧
      (other.toList ++ []).dropWhile isIdentPart = [] :=
    takeWhile_append_of_endsRun hother.2 nofun
  rw [List.append_nil] at hrun
  unfold fallback?
  rw [String.toList_append]
  change (if identAhead other.toList = true then
    char? '?' (other.toList.dropWhile isIdentPart) >>= _ else none) = none
  rw [if_pos hother.1, hrun.2]
  rfl

end Copy

end Segment

namespace Store

/-- Setting a value that is there already only counts as a write. -/
theorem set_of_lookup {s : Store} {name : String} {v : Value} (h : s.vars.lookup name = some v) :
    s.set name v = s.touch name := by
  unfold set
  rw [putField_of_lookup h]

end Store

namespace Execution

open Segment

variable {x : Execution} {w : World} {name other raw : String}

/-- A copy sets the one variable to what the text of the other is read as. -/
theorem step_copy (hname : IsRun isWordChar name.toList) (hother : isIdent other = true)
    (hmark : hiddenMark ∉ (((x.vars w).get other).text w.document.label).toList) {v : Value}
    (hv : Value.parse (((x.vars w).get other).text w.document.label) = v) :
    x.step w (copy name other) =
      (x.modifyVars w (·.set name v), { x with current := v }, .next) := by
  have hresolve : x.resolve w ("!" ++ other) = ((x.vars w).get other).text w.document.label := by
    unfold resolve
    exact resolve_reference hother hmark
  unfold step
  rw [ofScript?_copy hname hother]
  dsimp only
  unfold assign
  rw [fallback?_reference hother, hresolve, hv]

/-- **Values of words survive copying.** The text of such a value is a word for a value of the same
kind that is equal to it by comparison. So if a variable has a value that a word was read as, with
no hidden mark in its text, then a copy of it under any name, be it its own, is of the same kind and
equal to it, to what it was and to what it is then, and copying once more changes nothing but the
record of writes. -/
theorem literals_survive_copying
    (hread : ∀ y, Value.parse raw = .number y → Decimal.Faithful y) :
    (∀ label, (Value.parse ((Value.parse raw).text label)).kind = (Value.parse raw).kind ∧
        (Value.parse ((Value.parse raw).text label)).same (Value.parse raw) = true) ∧
      ∀ (x : Execution) (w : World) (name other : String), x.Placed w →
        IsRun isWordChar name.toList → isIdent other = true →
        (x.vars w).get other = Value.parse raw →
        hiddenMark ∉ ((Value.parse raw).text w.document.label).toList →
        ∃ w' v, w' = x.modifyVars w (·.set name v) ∧
          x.step w (copy name other) = (w', { x with current := v }, .next) ∧
          (x.vars w').get name = v ∧ v.kind = (Value.parse raw).kind ∧
          v.same (Value.parse raw) = true ∧ v.same ((x.vars w').get other) = true ∧
          ({ x with current := v } : Execution).step w' (copy name other) =
            (x.modifyVars w' (·.touch name), { x with current := v }, .next) := by
  have hback (label : NodeId → String) := Value.parse_text label hread
  have hsame := Value.same_parse raw
  refine ⟨fun label => ⟨(hback label).kind, (hback label).same hsame⟩, ?_⟩
  intro x w name other hp hname hother hvalue hmark
  obtain ⟨v, hv⟩ : ∃ v, Value.parse ((Value.parse raw).text w.document.label) = v := ⟨_, rfl⟩
  have hsurvives : (Value.parse raw).SurvivesAs v := hv ▸ hback w.document.label
  have hstep : x.step w (copy name other) =
      (x.modifyVars w (·.set name v), { x with current := v }, .next) := by
    rw [← hvalue] at hmark hv
    exact step_copy hname hother hmark hv
  obtain ⟨w', hw'⟩ : ∃ w', w' = x.modifyVars w (·.set name v) := ⟨_, rfl⟩
  have hvars : x.vars w' = (x.vars w).set name v := by
    rw [hw']
    exact vars_modifyVars hp _
  have hnow : (x.vars w').vars.lookup name = some v := by
    rw [hvars]
    exact (lookup_putField name name v _).trans (if_pos rfl)
  -- the variable that is copied has the copy now, if it is the same one, or what it had
  have hsource : (x.vars w').get other = v ∨ (x.vars w').get other = Value.parse raw := by
    by_cases hself : other = name
    · rw [hself, Store.get, hnow]
      exact .inl rfl
    · right
      rw [← hvalue, hvars, Store.get, Store.get]
      exact congrArg (Option.getD · _) ((lookup_putField name other v _).trans (if_neg hself))
  have hagain : ((x.vars w').get other).text w'.document.label =
      (Value.parse raw).text w.document.label := by
    have hdocument : w'.document = w.document := by rw [hw', modifyVars_frame]
    rw [hdocument]
    rcases hsource with h | h
    · rw [h, hsurvives.text]
    · rw [h]
  refine ⟨w', v, hw', hw' ▸ hstep, ?_, hsurvives.kind, hsurvives.same hsame, ?_, ?_⟩
  · rw [Store.get, hnow]
    rfl
  · rcases hsource with h | h
    · rw [h]
      exact hsurvives.same_self hsame
    · rw [h]
      exact hsurvives.same hsame
  · have hrepeat := step_copy (x := { x with current := v }) (w := w') hname hother
      (v := v) (hagain ▸ hmark) (hagain ▸ hv)
    refine hrepeat.trans ?_
    have htouch : x.modifyVars w' (·.set name v) = x.modifyVars w' (·.touch name) :=
      modifyVars_congr (Store.set_of_lookup hnow)
    exact congrArg (fun world => (world, ({ x with current := v } : Execution), Verdict.next)) htouch

/-- A page whose entry has a number that is written with an exponent. -/
def smallPage : World :=
  { document := .empty
    entries := #[{ key := "p", script := "", element := ⟨0⟩
                   vars := Store.empty.set "n" (.parse "0.0000001") }] }

/-- An execution that copies it. -/
def copier : Execution :=
  { entry := 0, key := "p", trigger := ⟨0⟩, segments := ["&c:!n"], state := .running }

/-- A small number is copied by way of `1e-07`. -/
theorem small_number_is_copied :
    (Value.parse "0.0000001").text smallPage.document.label = "1e-07" ∧
      ∃ w' v, copier.step smallPage "&c:!n" = (w', { copier with current := v }, .next) ∧
        (copier.vars w').get "c" = v ∧ v.kind = .number ∧ v.same (.parse "0.0000001") = true := by
  have hnumber : Value.parse "0.0000001" = .number 1e-7 :=
    Value.parse_of_parseNumber (by decide +kernel)
  have htext : Value.numberText 1e-7 = "1e-07" := by decide +kernel
  have hread : ∀ y, Value.parse "0.0000001" = .number y → Decimal.Faithful y := by
    intro y hy l hl
    cases hnumber.symm.trans hy
    have hvalue : ((Decimal.Literal.parse? (Decimal.Layout.general.write 1e-7).toList).map
        Decimal.Literal.toFloat) = some 1e-7 := by decide +kernel
    rw [hl] at hvalue
    exact Option.some.inj hvalue
  have htext' : (Value.parse "0.0000001").text smallPage.document.label = "1e-07" := by
    rw [hnumber]
    exact htext
  have hplaced : copier.Placed smallPage := ⟨by decide, nofun⟩
  obtain ⟨w', v, -, hstep, hget, hkind, hsame, -⟩ :=
    (literals_survive_copying hread).2 copier smallPage "c" "n" hplaced
      ⟨by decide, List.all_eq_true.mp (by decide)⟩ (by decide) rfl (by rw [htext']; decide)
  refine ⟨htext', w', v, hstep, hget, ?_, hsame⟩
  rw [hkind, hnumber]
  rfl

end Execution

end PageMacro
