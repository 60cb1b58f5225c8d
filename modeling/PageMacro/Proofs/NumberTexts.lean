import PageMacro.Proofs.Doubles
import PageMacro.Proofs.Pieces
import PageMacro.Value.Basic

/-!
# Texts of numbers

A number is written in one of two ways, by the digits of a whole number or by its shortest decimal
with or without an exponent, and whatever is written is a literal that can be read (`write_form`,
`scan_numeral`). A whole number is read back from its digits by the same operation that made it;
that a shortest decimal has the number as its value is the one thing taken from the arithmetic of
doubles (`Faithful`).
-/

namespace PageMacro

namespace Decimal

/-! ## Digits -/

/-- Only digits. -/
def IsDigits (cs : List Char) : Prop := ∀ c ∈ cs, c.isDigit = true

section Digits

variable {ds rest : List Char}

theorem isDigits_nil : IsDigits [] := fun _ h => absurd h List.not_mem_nil

theorem isDigits_digitsOf (n : Nat) : IsDigits (digitsOf n) := fun _ h =>
  Nat.isDigit_of_mem_toDigits (by decide) (by decide) h

theorem digitsOf_ne_nil (n : Nat) : digitsOf n ≠ [] := Nat.toDigits_ne_nil

theorem natOfDigits_digitsOf (n : Nat) : natOfDigits (digitsOf n) = n := by
  have hfold : natOfDigits (digitsOf n) = Nat.ofDigitChars 10 (digitsOf n) 0 := by
    rw [Nat.ofDigitChars_eq_foldl]
    unfold natOfDigits
    congr 1
    funext m c
    rw [Nat.mul_comm]
  rw [hfold]
  exact Nat.ofDigitChars_ten_toDigits

theorem IsDigits.append {es : List Char} (h : IsDigits ds) (h' : IsDigits es) :
    IsDigits (ds ++ es) := fun c hc => (List.mem_append.mp hc).elim (h c) (h' c)

theorem isDigits_zeros (n : Nat) : IsDigits (List.replicate n '0') := fun c hc => by
  rw [List.eq_of_mem_replicate hc]
  rfl

/-- The digits are taken up to the first character that is none. -/
theorem spanDigits_of_digits (h : IsDigits ds) (hrest : ∀ c ∈ rest.head?, c.isDigit = false) :
    spanDigits (ds ++ rest) = (ds, rest) := by
  have hnone : rest.takeWhile Char.isDigit = [] ∧ rest.dropWhile Char.isDigit = rest := by
    cases rest with
    | nil => exact ⟨rfl, rfl⟩
    | cons c rest =>
        have hc : ¬ c.isDigit = true := ne_true_of_eq_false (hrest c rfl)
        exact ⟨List.takeWhile_cons_of_neg hc, List.dropWhile_cons_of_neg hc⟩
  unfold spanDigits
  rw [List.takeWhile_append_of_pos h, List.dropWhile_append_of_pos h, hnone.1, hnone.2,
    List.append_nil]

end Digits

/-! ## The form of what is written -/

/-- The sign in front of a number. -/
def signText (negative : Bool) : List Char := if negative then ['-'] else []

/-- Digits with a point, if any are behind it. -/
def mantissaText (whole fraction : List Char) : List Char :=
  whole ++ if fraction.isEmpty then [] else '.' :: fraction

/-- What may follow the digits: nothing, or an exponent with its sign. -/
inductive IsTail : List Char → Prop
  | none : IsTail []
  | exponent {sign : Char} {digits : List Char} (hsign : sign = '-' ∨ sign = '+')
      (hdigits : IsDigits digits) (hne : digits ≠ []) : IsTail ('e' :: sign :: digits)

/-- Digits, perhaps a point and more digits, perhaps an exponent. -/
def IsMagnitude (cs : List Char) : Prop :=
  ∃ whole fraction tail, cs = mantissaText whole fraction ++ tail ∧ whole ≠ [] ∧
    IsDigits whole ∧ IsDigits fraction ∧ IsTail tail

section Form

variable {whole fraction tail digits : List Char}

theorem IsTail.head_not_digit (h : IsTail tail) : ∀ c ∈ tail.head?, c.isDigit = false := by
  intro c hc
  cases h with
  | none => cases hc
  | exponent _ _ _ => cases hc; rfl

theorem IsTail.takeExponent (h : IsTail tail) : (Decimal.takeExponent tail).2 = [] := by
  cases h with
  | none => rfl
  | @exponent sign digits hsign hdigits hne =>
      have hspan : spanDigits (digits ++ []) = (digits, []) := spanDigits_of_digits hdigits nofun
      rw [List.append_nil] at hspan
      have hsome : digits.isEmpty = false := by simpa using hne
      rcases hsign with rfl | rfl
      all_goals
        simp [Decimal.takeExponent, takeSign, hspan, hsome]

/-- A mantissa is read up to its end. -/
theorem takeMantissa_mantissaText (hne : whole ≠ []) (hwhole : IsDigits whole)
    (hfraction : IsDigits fraction) (htail : IsTail tail) :
    takeMantissa (mantissaText whole fraction ++ tail) = some (whole, fraction, tail) := by
  have hsome : whole.isEmpty = false := by simpa using hne
  unfold takeMantissa mantissaText
  cases fraction with
  | nil =>
      rw [List.isEmpty_nil, if_pos rfl, List.append_nil,
        spanDigits_of_digits hwhole htail.head_not_digit]
      cases htail with
      | none => simp [hsome]
      | exponent _ _ _ => simp [hsome]
  | cons c rest =>
      have hpoint : ∀ d ∈ ('.' :: (c :: rest ++ tail)).head?, d.isDigit = false := by
        intro d hd
        cases hd
        rfl
      rw [List.isEmpty_cons, if_neg (by decide), List.append_assoc, List.cons_append,
        spanDigits_of_digits hwhole hpoint]
      change (if (whole.isEmpty && (spanDigits (c :: rest ++ tail)).1.isEmpty) = true then none
        else some (whole, spanDigits (c :: rest ++ tail))) = _
      rw [spanDigits_of_digits hfraction htail.head_not_digit, hsome]
      rfl

theorem takeSign_signText (negative : Bool) {c : Char} {cs : List Char} (hc : c.isDigit = true) :
    takeSign (signText negative ++ c :: cs) = (negative, c :: cs) := by
  cases negative with
  | true => rfl
  | false =>
      change takeSign (c :: cs) = _
      unfold takeSign
      split
      · rename_i h
        cases h
        cases hc
      · rename_i h
        cases h
        cases hc
      · rfl

/-- What has the form of a number is read as a literal. -/
theorem scan_numeral (negative : Bool) (hne : whole ≠ []) (hwhole : IsDigits whole)
    (hfraction : IsDigits fraction) (htail : IsTail tail) :
    Literal.scan (signText negative ++ (mantissaText whole fraction ++ tail)) =
      some (⟨negative, whole, fraction, (takeExponent tail).1⟩, []) := by
  have hmantissa := takeMantissa_mantissaText hne hwhole hfraction htail
  obtain ⟨c, cs, hcs⟩ : ∃ c cs, mantissaText whole fraction ++ tail = c :: cs ∧
      c.isDigit = true := by
    obtain ⟨c, cs, rfl⟩ := List.exists_cons_of_ne_nil hne
    exact ⟨c, _, rfl, hwhole c List.mem_cons_self⟩
  unfold Literal.scan
  rw [hcs.1] at hmantissa ⊢
  rw [takeSign_signText negative hcs.2]
  dsimp only
  rw [hmantissa, Option.map_some, htail.takeExponent]

/-- Digits with the point after the first of them. -/
theorem isMagnitude_positional (hne : digits ≠ []) (hdigits : IsDigits digits) (point : Int) :
    IsMagnitude (positional digits point) := by
  unfold positional
  split
  · refine ⟨['0'], List.replicate (-point).toNat '0' ++ digits, [], ?_, by decide,
      isDigits_zeros 1, (isDigits_zeros _).append hdigits, .none⟩
    have hsome : (List.replicate (-point).toNat '0' ++ digits).isEmpty = false := by
      simp [hne]
    rw [mantissaText, hsome, if_neg (by decide), List.append_nil, List.append_assoc]
    rfl
  · rename_i hpoint
    refine ⟨digits.take point.toNat ++ List.replicate (point.toNat - digits.length) '0',
      digits.drop point.toNat, [], ?_, ?_, ?_, fun c hc => hdigits c (List.mem_of_mem_drop hc), .none⟩
    · rw [mantissaText, List.append_nil]
    · have htake : digits.take point.toNat ≠ [] := by
        rw [ne_eq, List.take_eq_nil_iff, not_or]
        exact ⟨by omega, hne⟩
      exact List.append_ne_nil_of_left_ne_nil htake _
    · exact IsDigits.append (fun c hc => hdigits c (List.mem_of_mem_take hc)) (isDigits_zeros _)

theorem isMagnitude_exponential (hdigits : IsDigits digits) (exponent : Int) (width : Nat) :
    IsMagnitude (exponential digits exponent width) := by
  have htail : IsTail ('e' :: (if exponent < 0 then '-' else '+') ::
      (List.replicate (width - (digitsOf exponent.natAbs).length) '0' ++
        digitsOf exponent.natAbs)) := by
    refine .exponent ?_ ((isDigits_zeros _).append (isDigits_digitsOf _))
      (List.append_ne_nil_of_right_ne_nil _ (digitsOf_ne_nil _))
    split
    · exact .inl rfl
    · exact .inr rfl
  have hform : ∀ whole fraction, whole ≠ [] → IsDigits whole → IsDigits fraction →
      IsMagnitude (mantissaText whole fraction ++ ['e', if exponent < 0 then '-' else '+'] ++
        List.replicate (width - (digitsOf exponent.natAbs).length) '0' ++
          digitsOf exponent.natAbs) := by
    intro whole fraction hne hwhole hfraction
    refine ⟨whole, fraction, _, ?_, hne, hwhole, hfraction, htail⟩
    simp
  unfold exponential
  cases digits with
  | nil => exact hform ['0'] [] (by decide) (isDigits_zeros 1) isDigits_nil
  | cons d rest =>
      have hfirst : IsDigits [d] := fun c hc =>
        hdigits c (List.mem_cons.mpr (.inl (List.mem_singleton.mp hc)))
      cases rest with
      | nil => exact hform [d] [] (List.cons_ne_nil _ _) hfirst isDigits_nil
      | cons e rest =>
          exact hform [d] (e :: rest) (List.cons_ne_nil _ _) hfirst fun c hc =>
            hdigits c (List.mem_cons_of_mem d hc)

theorem isMagnitude_magnitude (layout : Layout) (m : Binary) :
    IsMagnitude (layout.magnitude m) := by
  unfold Layout.magnitude
  dsimp only
  split
  · exact ⟨['0'], [], [], rfl, by decide, isDigits_zeros 1, isDigits_nil, .none⟩
  split
  · exact isMagnitude_exponential (isDigits_digitsOf _) _ _
  · exact isMagnitude_positional (digitsOf_ne_nil _) (isDigits_digitsOf _) _

/-- What is written for a finite double is a sign and a magnitude. -/
theorem write_form (layout : Layout) {x : Float} (hnumber : x.isNaN = false)
    (hfinite : x.isInf = false) :
    ∃ negative cs, (layout.write x).toList = signText negative ++ cs ∧ IsMagnitude cs := by
  obtain ⟨negative, m, hclass⟩ := exists_finite hnumber hfinite
  refine ⟨negative, layout.magnitude m, ?_, isMagnitude_magnitude layout m⟩
  unfold Layout.write
  rw [hclass]
  exact String.toList_ofList

theorem parse?_numeral (negative : Bool) (hne : whole ≠ []) (hwhole : IsDigits whole)
    (hfraction : IsDigits fraction) (htail : IsTail tail) :
    Literal.parse? (signText negative ++ (mantissaText whole fraction ++ tail)) =
      some ⟨negative, whole, fraction, (takeExponent tail).1⟩ := by
  unfold Literal.parse?
  rw [scan_numeral negative hne hwhole hfraction htail]

/-! ## No blanks -/

theorem isBlank_of_isDigit {c : Char} (h : c.isDigit = true) : Text.isBlank c = false := by
  have hall : ((List.range' 48 10).all fun n => !Text.isBlank (Char.ofNat n)) = true := by decide
  have hrange : 48 ≤ c.toNat ∧ c.toNat ≤ 57 := by
    simpa [Char.isDigit, UInt32.le_iff_toNat_le] using h
  have hc := List.all_eq_true.mp hall c.toNat (List.mem_range'_1.mpr (by omega))
  rwa [Char.ofNat_toNat, Bool.not_eq_true'] at hc

theorem IsTail.no_blank (h : IsTail tail) : ∀ c ∈ tail, Text.isBlank c = false := by
  intro c hc
  cases h with
  | none => cases hc
  | exponent hsign hdigits _ =>
      rcases List.mem_cons.mp hc with rfl | hc
      · rfl
      rcases List.mem_cons.mp hc with rfl | hc
      · rcases hsign with rfl | rfl <;> rfl
      · exact isBlank_of_isDigit (hdigits c hc)

theorem no_blank_mantissaText (hwhole : IsDigits whole) (hfraction : IsDigits fraction) :
    ∀ c ∈ mantissaText whole fraction, Text.isBlank c = false := by
  intro c hc
  rcases List.mem_append.mp hc with hc | hc
  · exact isBlank_of_isDigit (hwhole c hc)
  · split at hc
    · cases hc
    · rcases List.mem_cons.mp hc with rfl | hc
      · rfl
      · exact isBlank_of_isDigit (hfraction c hc)

/-- What has the form of a number is read as one if it is in range. -/
theorem parseNumber_numeral (negative : Bool) (hne : whole ≠ []) (hwhole : IsDigits whole)
    (hfraction : IsDigits fraction) (htail : IsTail tail) :
    Value.parseNumber (signText negative ++ (mantissaText whole fraction ++ tail)) =
      Literal.toFloat? ⟨negative, whole, fraction, (takeExponent tail).1⟩ := by
  have hblank : ∀ c ∈ signText negative ++ (mantissaText whole fraction ++ tail),
      Text.isBlank c = false := by
    intro c hc
    rcases List.mem_append.mp hc with hc | hc
    · cases negative with
      | true =>
          rw [List.mem_singleton.mp hc]
          rfl
      | false => cases hc
    rcases List.mem_append.mp hc with hc | hc
    · exact no_blank_mantissaText hwhole hfraction c hc
    · exact htail.no_blank c hc
  unfold Value.parseNumber
  rw [Text.trimChars_of_no_blank hblank, parse?_numeral negative hne hwhole hfraction htail,
    Option.bind_some]

end Form

/-! ## Whole numbers -/

theorem toList_toString (n : Int) :
    (toString n).toList = signText (decide (n < 0)) ++ digitsOf n.natAbs := by
  cases n with
  | ofNat n =>
      have hsign : decide (Int.ofNat n < 0) = false := by simp
      rw [hsign]
      exact Nat.toList_repr
  | negSucc n =>
      have hsign : decide (Int.negSucc n < 0) = true := by simp
      rw [hsign]
      change ("-" ++ Nat.repr (n + 1)).toList = _
      rw [String.toList_append, Nat.toList_repr]
      rfl

/-- A number of up to 400 digits is read as it is made. -/
theorem nearest_zero {n : Nat} (h : (digitsOf n).length ≤ 400) : nearest n 0 = Float.ofNat n := by
  unfold nearest
  by_cases hzero : n = 0
  · rw [hzero]
    decide +kernel
  · have hnonzero : (n == 0) = false := by simpa using hzero
    have hcount : digitCount n = (digitsOf n).length := by
      rw [digitCount, hnonzero, if_neg (by decide)]
      rfl
    have hfew : ¬ (n == 0 || decide ((digitCount n : Int) + 0 < -400)) = true := by
      rw [hnonzero, Bool.false_or, decide_eq_true_eq]
      omega
    dsimp only
    rw [if_neg hfew, if_neg (by omega), if_neg (by decide)]
    rfl

theorem toFloat?_of_toFloat {l : Literal} {x : Float} (h : l.toFloat = x) (hfinite : x.isInf = false) :
    l.toFloat? = some x := by
  rw [Literal.toFloat?, h, if_neg (by rw [hfinite]; decide)]

/-- The digits of a whole number are read as the double it makes. -/
theorem parseNumber_toString {n : Int} (h : (digitsOf n.natAbs).length ≤ 400)
    (hfinite : (Float.ofInt n).isInf = false) :
    Value.parseNumber (toString n).toList = some (Float.ofInt n) := by
  have hform : (toString n).toList =
      signText (decide (n < 0)) ++ (mantissaText (digitsOf n.natAbs) [] ++ []) := by
    rw [toList_toString, mantissaText, List.isEmpty_nil, if_pos rfl, List.append_nil,
      List.append_nil]
  rw [hform, parseNumber_numeral _ (digitsOf_ne_nil _) (isDigits_digitsOf _) isDigits_nil .none]
  refine toFloat?_of_toFloat ?_ hfinite
  unfold Literal.toFloat
  dsimp only
  rw [List.append_nil, natOfDigits_digitsOf]
  change (if decide (n < 0) = true then -nearest n.natAbs 0 else nearest n.natAbs 0) = _
  rw [nearest_zero h]
  cases n with
  | ofNat n =>
      rw [if_neg (by simp)]
      rfl
  | negSucc n =>
      rw [if_pos (by simp)]
      rfl

/-- Whatever literal is written for a number has the number as its value. -/
def Faithful (x : Float) : Prop :=
  ∀ l, Literal.parse? (Layout.general.write x).toList = some l → l.toFloat = x

/-- A finite double is read back from its shortest decimal. -/
theorem parseNumber_write {x : Float} (hnumber : x.isNaN = false) (hfinite : x.isInf = false)
    (h : Faithful x) : Value.parseNumber (Layout.general.write x).toList = some x := by
  obtain ⟨negative, cs, hcs, whole, fraction, tail, rfl, hne, hwhole, hfraction, htail⟩ :=
    write_form Layout.general hnumber hfinite
  have hparse := parse?_numeral negative hne hwhole hfraction htail
  rw [hcs, parseNumber_numeral negative hne hwhole hfraction htail]
  exact toFloat?_of_toFloat (h _ (hcs ▸ hparse)) hfinite

end Decimal

/-! ## Values -/

namespace Value

theorem natAbs_truncate (x : Float) : (truncate x).natAbs ≤ Word.half := by
  have hleast : Word.least.natAbs ≤ Word.half := by decide
  have hclamp (n : Int) : (if Word.fits n then n else Word.least).natAbs ≤ Word.half := by
    split
    · rename_i hfits
      unfold Word.fits at hfits
      rw [Bool.and_eq_true, decide_eq_true_eq, decide_eq_true_eq, Word.least, Word.half] at hfits
      rw [Word.half]
      omega
    · exact hleast
  unfold truncate
  split
  · exact hleast
  split
  · exact hclamp _
  · exact hleast

/-- The text of a finite number is read as that number; only a zero loses its sign. -/
theorem parseNumber_numberText {x : Float} (hnumber : x.isNaN = false) (hfinite : x.isInf = false)
    (h : Decimal.Faithful x) :
    parseNumber (numberText x).toList = some x ∨
      x = -0.0 ∧ parseNumber (numberText x).toList = some 0.0 := by
  unfold numberText
  split
  · rename_i hwhole
    rcases Decimal.beq_iff.mp hwhole with ⟨hsame, -⟩ | ⟨rfl | rfl, -⟩
    · have hlength : (Decimal.digitsOf (truncate x).natAbs).length ≤ 400 := by
        have hfew := (Nat.length_toDigits_le_iff (b := 10) (k := 20) (by decide) (by decide)).mpr
          (Nat.lt_of_le_of_lt (natAbs_truncate x) (by decide))
        exact Nat.le_trans hfew (by decide)
      have hread := Decimal.parseNumber_toString hlength (hsame ▸ hfinite)
      exact .inl (hread.trans (congrArg some hsame.symm))
    · have hread : parseNumber (toString (truncate 0.0)).toList = some 0.0 := by decide +kernel
      exact .inl hread
    · have hread : parseNumber (toString (truncate (-0.0))).toList = some 0.0 := by decide +kernel
      exact .inr ⟨rfl, hread⟩
  · exact .inl (Decimal.parseNumber_write hnumber hfinite h)

theorem parse_of_parseNumber {raw : String} {x : Float} (h : parseNumber raw.toList = some x) :
    parse raw = number x := by
  have hword : ∀ word, parseNumber word.toList = none → (raw == word) = false := by
    intro word hnone
    rw [beq_eq_false_iff_ne]
    rintro rfl
    rw [hnone] at h
    cases h
  unfold parse
  rw [hword "true" (by decide +kernel), hword "false" (by decide +kernel), h]
  rfl

/-- A word stands for a flag, a number or itself. -/
theorem parse_cases (raw : String) :
    (∃ b, parse raw = boolean b) ∨ (∃ x, parse raw = number x) ∨ parse raw = string raw := by
  unfold parse
  split
  · exact .inl ⟨true, rfl⟩
  split
  · exact .inl ⟨false, rfl⟩
  split
  · exact .inr (.inl ⟨_, rfl⟩)
  · exact .inr (.inr rfl)

/-- A number that a word stands for is finite. -/
theorem finite_of_parse {raw : String} {x : Float} (h : parse raw = number x) :
    x.isNaN = false ∧ x.isInf = false := by
  unfold parse at h
  split at h
  · cases h
  split at h
  · cases h
  split at h
  · rename_i y hread
    cases h
    unfold parseNumber at hread
    obtain ⟨l, -, hvalue⟩ := Option.bind_eq_some_iff.mp hread
    unfold Decimal.Literal.toFloat? at hvalue
    split at hvalue
    · cases hvalue
    · rename_i hfinite
      cases hvalue
      exact ⟨Decimal.isNaN_toFloat l, by simpa using hfinite⟩
  · cases h

/-- What a value has become on its way through another form: itself, or for a zero with a sign the
one without. -/
def SurvivesAs (v v' : Value) : Prop := v' = v ∨ v = number (-0.0) ∧ v' = number 0.0

theorem SurvivesAs.kind {v v' : Value} (h : v.SurvivesAs v') : v'.kind = v.kind := by
  rcases h with rfl | ⟨rfl, rfl⟩ <;> rfl

theorem SurvivesAs.same {v v' : Value} (h : v.SurvivesAs v') (hv : v.same v = true) :
    v'.same v = true := by
  rcases h with rfl | ⟨rfl, rfl⟩
  · exact hv
  · rfl

theorem SurvivesAs.same_self {v v' : Value} (h : v.SurvivesAs v') (hv : v.same v = true) :
    v'.same v' = true := by
  rcases h with rfl | ⟨rfl, rfl⟩
  · exact hv
  · rfl

/-- It has the same text: both zeros are written without a sign. -/
theorem SurvivesAs.text {v v' : Value} (h : v.SurvivesAs v') (label : NodeId → String) :
    v'.text label = v.text label := by
  rcases h with rfl | ⟨rfl, rfl⟩
  · rfl
  · have hzero : numberText 0.0 = numberText (-0.0) := by decide +kernel
    exact hzero

/-- **The text of a word's value is a word for the same value.** -/
theorem parse_text {raw : String} (label : NodeId → String)
    (hread : ∀ x, parse raw = number x → Decimal.Faithful x) :
    (parse raw).SurvivesAs (parse ((parse raw).text label)) := by
  rcases parse_cases raw with ⟨b, h⟩ | ⟨x, h⟩ | h
  · rw [h]
    cases b <;> exact .inl rfl
  · obtain ⟨hnumber, hfinite⟩ := finite_of_parse h
    rw [h]
    rcases parseNumber_numberText hnumber hfinite (hread x h) with hback | ⟨rfl, hback⟩
    · exact .inl (parse_of_parseNumber hback)
    · exact .inr ⟨rfl, parse_of_parseNumber hback⟩
  · left
    rw [h]
    exact h

theorem same_parse (raw : String) : (parse raw).same (parse raw) = true := by
  rcases parse_cases raw with ⟨b, h⟩ | ⟨x, h⟩ | h
  · rw [h]
    exact beq_self_eq_true b
  · obtain ⟨hnumber, -⟩ := finite_of_parse h
    rw [h]
    exact Decimal.beq_iff.mpr (.inl ⟨rfl, hnumber⟩)
  · rw [h]
    exact beq_self_eq_true raw

end Value

end PageMacro
