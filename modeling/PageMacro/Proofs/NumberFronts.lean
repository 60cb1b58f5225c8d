import PageMacro.Proofs.NumberTexts

/-!
# The number at the front of a text

A text counts as the number at its front: the longest front that is a numeric literal should give
it. `Literal.Written` says what a literal is, without the reader, and `parse?_eq_some_iff` that the
reader agrees.

The front is searched for from the end, and a front is passed over for two reasons: it is no
literal, or it is one whose value lies beyond the range of doubles. So what is found is the longest
literal that has a value (`asNumber_eq_some_iff`), and that is the longest literal exactly if that
one has a value. Nothing is found only where there is no literal at all, as every literal begins
with one of a single digit (`exists_front`).
-/

namespace PageMacro

namespace Decimal

namespace Literal

/-! ## Literals -/

/-- An optional sign, and whether it is a minus. -/
inductive Sign : List Char → Bool → Prop
  | none : Sign [] false
  | plus : Sign ['+'] false
  | minus : Sign ['-'] true

/-- Digits with an optional point, with digits on at least one side of it. -/
inductive Mantissa : List Char → List Char → List Char → Prop
  | whole {ds : List Char} : IsDigits ds → ds ≠ [] → Mantissa ds ds []
  | point {ds es : List Char} : IsDigits ds → IsDigits es → ds ++ es ≠ [] →
      Mantissa (ds ++ '.' :: es) ds es

/-- An optional exponent. -/
inductive Exponent : List Char → Int → Prop
  | none : Exponent [] 0
  | some {mark : Char} {sign ds : List Char} {negative : Bool} : mark = 'e' ∨ mark = 'E' →
      Sign sign negative → IsDigits ds → ds ≠ [] →
      Exponent (mark :: (sign ++ ds)) (if negative then -(natOfDigits ds : Int) else natOfDigits ds)

/-- The characters of a literal. -/
inductive Written : List Char → Literal → Prop
  | mk {sign mantissa tail whole fraction : List Char} {negative : Bool} {exponent : Int} :
      Sign sign negative → Mantissa mantissa whole fraction → Exponent tail exponent →
      Written (sign ++ (mantissa ++ tail)) ⟨negative, whole, fraction, exponent⟩

section Reading

variable {sign mantissa tail whole fraction rest cs ds : List Char} {negative : Bool}
  {exponent : Int}

theorem head_not_sign (h : IsDigits ds) (hne : ds ≠ []) :
    ∀ c ∈ (ds ++ rest).head?, c ≠ '+' ∧ c ≠ '-' := by
  obtain ⟨d, more, rfl⟩ := List.exists_cons_of_ne_nil hne
  rintro c ⟨⟩
  have hd := h d List.mem_cons_self
  constructor
  · rintro rfl
    cases hd
  · rintro rfl
    cases hd

theorem Mantissa.head_not_sign (h : Mantissa mantissa whole fraction) :
    ∀ c ∈ (mantissa ++ rest).head?, c ≠ '+' ∧ c ≠ '-' := by
  cases h with
  | whole hds hne => exact Literal.head_not_sign hds hne
  | point hds _ _ =>
      rw [List.append_assoc]
      cases whole with
      | nil =>
          rintro c ⟨⟩
          exact ⟨by decide, by decide⟩
      | cons d more => exact Literal.head_not_sign hds (List.cons_ne_nil d more)

theorem takeSign_of_sign (h : Sign sign negative) (hrest : ∀ c ∈ rest.head?, c ≠ '+' ∧ c ≠ '-') :
    takeSign (sign ++ rest) = (negative, rest) := by
  cases h with
  | plus => rfl
  | minus => rfl
  | none =>
      rw [List.nil_append]
      unfold takeSign
      split
      · exact absurd rfl (hrest '+' rfl).1
      · exact absurd rfl (hrest '-' rfl).2
      · rfl

theorem Exponent.head_not_digit (h : Exponent tail exponent) :
    ∀ c ∈ tail.head?, c.isDigit = false := by
  cases h with
  | none => rintro c ⟨⟩
  | some hmark _ _ _ =>
      rintro c ⟨⟩
      rcases hmark with rfl | rfl <;> rfl

theorem Exponent.takeExponent (h : Exponent tail exponent) :
    Decimal.takeExponent tail = (exponent, []) := by
  cases h with
  | none => rfl
  | @some mark sign ds negative hmark hsign hds hne =>
      have hspan : spanDigits ds = (ds, []) := by
        have hall : spanDigits (ds ++ []) = (ds, []) := spanDigits_of_digits hds (by rintro c ⟨⟩)
        rwa [List.append_nil] at hall
      have hsigned : takeSign (sign ++ ds) = (negative, ds) := by
        have hhead : ∀ c ∈ (ds ++ []).head?, c ≠ '+' ∧ c ≠ '-' := Literal.head_not_sign hds hne
        rw [List.append_nil] at hhead
        exact takeSign_of_sign hsign hhead
      have hsome : ds.isEmpty = false := by simpa using hne
      have hmarked : (mark == 'e' || mark == 'E') = true := by
        rcases hmark with rfl | rfl <;> rfl
      simp only [Decimal.takeExponent, hmarked, if_true, hsigned, hspan, hsome]
      rfl

theorem takeMantissa_of_mantissa (h : Mantissa mantissa whole fraction)
    (htail : Exponent tail exponent) :
    takeMantissa (mantissa ++ tail) = some (whole, fraction, tail) := by
  cases h with
  | whole hds hne =>
      have hsome : mantissa.isEmpty = false := by simpa using hne
      unfold takeMantissa
      rw [spanDigits_of_digits hds htail.head_not_digit]
      cases htail with
      | none => simp [hsome]
      | some hmark _ _ _ => rcases hmark with rfl | rfl <;> simp [hsome]
  | point hds hes hne =>
      have hpoint : ∀ c ∈ ('.' :: (fraction ++ tail)).head?, c.isDigit = false := by
        rintro c ⟨⟩
        rfl
      have hsome : (whole.isEmpty && fraction.isEmpty) = false := by
        rw [← Bool.not_eq_true, Bool.and_eq_true, List.isEmpty_iff, List.isEmpty_iff]
        rwa [ne_eq, List.append_eq_nil_iff] at hne
      unfold takeMantissa
      rw [List.append_assoc, List.cons_append, spanDigits_of_digits hds hpoint]
      simp only [spanDigits_of_digits hes htail.head_not_digit, hsome]
      rfl

theorem parse?_of_written {l : Literal} (h : Written cs l) : parse? cs = some l := by
  obtain ⟨hsign, hmantissa, htail⟩ := h
  unfold parse? scan
  rw [takeSign_of_sign hsign hmantissa.head_not_sign]
  dsimp only
  rw [takeMantissa_of_mantissa hmantissa htail, Option.map_some, htail.takeExponent]

theorem exists_sign (cs : List Char) :
    ∃ sign, Sign sign (takeSign cs).1 ∧ cs = sign ++ (takeSign cs).2 := by
  unfold takeSign
  split
  · exact ⟨['+'], .plus, rfl⟩
  · exact ⟨['-'], .minus, rfl⟩
  · exact ⟨[], .none, rfl⟩

theorem spanDigits_append (cs : List Char) :
    IsDigits (spanDigits cs).1 ∧ cs = (spanDigits cs).1 ++ (spanDigits cs).2 := by
  refine ⟨fun c hc => ?_, List.takeWhile_append_dropWhile.symm⟩
  exact List.mem_takeWhile_imp hc

theorem exists_mantissa (h : takeMantissa cs = some (whole, fraction, rest)) :
    ∃ mantissa, Mantissa mantissa whole fraction ∧ cs = mantissa ++ rest := by
  obtain ⟨hds, hcs⟩ := spanDigits_append cs
  unfold takeMantissa at h
  generalize spanDigits cs = pieces at h hds hcs
  obtain ⟨ds, after⟩ := pieces
  dsimp only at h hds hcs
  split at h
  · rename_i more
    obtain ⟨hes, hmore⟩ := spanDigits_append more
    generalize spanDigits more = pieces at h hes hmore
    obtain ⟨es, last⟩ := pieces
    dsimp only at h hes hmore
    split at h
    · cases h
    · rename_i hsome
      cases h
      refine ⟨whole ++ '.' :: fraction, .point hds hes ?_, ?_⟩
      · rwa [Bool.and_eq_true, List.isEmpty_iff, List.isEmpty_iff,
          ← List.append_eq_nil_iff] at hsome
      · rw [hcs, hmore, List.append_assoc, List.cons_append]
  · split at h
    · cases h
    · rename_i hsome
      cases h
      exact ⟨whole, .whole hds (by simpa using hsome), hcs⟩

theorem exponent_of_takeExponent (h : takeExponent cs = (exponent, [])) : Exponent cs exponent := by
  unfold takeExponent at h
  split at h
  · rename_i mark more
    split at h
    · rename_i hmark
      obtain ⟨sign, hsign, hmore⟩ := exists_sign more
      obtain ⟨hds, hrest⟩ := spanDigits_append (takeSign more).2
      dsimp only at h
      generalize takeSign more = signed at h hsign hmore hds hrest
      generalize spanDigits signed.2 = pieces at h hds hrest
      obtain ⟨ds, last⟩ := pieces
      dsimp only at h hds hrest
      split at h
      · cases h
      · rename_i hsome
        cases h
        rw [hmore, hrest, List.append_nil]
        refine .some ?_ hsign hds (by simpa using hsome)
        simpa using hmark
    · cases h
  · cases h
    exact .none

theorem scan_eq (cs : List Char) :
    scan cs = (takeMantissa (takeSign cs).2).map fun m =>
      (⟨(takeSign cs).1, m.1, m.2.1, (takeExponent m.2.2).1⟩, (takeExponent m.2.2).2) := rfl

/-- **The reader accepts exactly the literals.** -/
theorem parse?_eq_some_iff {l : Literal} : parse? cs = some l ↔ Written cs l := by
  refine ⟨fun h => ?_, parse?_of_written⟩
  obtain ⟨sign, hsign, hcs⟩ := exists_sign cs
  unfold parse? at h
  split at h
  · rename_i x hscan
    cases h
    rw [scan_eq] at hscan
    obtain ⟨⟨whole, fraction, rest⟩, hmantissa, hparts⟩ := Option.map_eq_some_iff.mp hscan
    obtain ⟨hl, hrest⟩ := Prod.mk.inj hparts
    obtain ⟨mantissa, hform, hsplit⟩ := exists_mantissa hmantissa
    have htail : Exponent rest (takeExponent rest).1 :=
      exponent_of_takeExponent (Prod.ext rfl hrest)
    rw [hcs, hsplit, ← hl]
    exact .mk hsign hform htail
  · cases h

end Reading

section Fronts

variable {cs : List Char} {l : Literal}

theorem Written.no_blank (h : Written cs l) : ∀ c ∈ cs, Text.isBlank c = false := by
  have hsigned : ∀ {sign negative}, Sign sign negative → ∀ c ∈ sign, Text.isBlank c = false := by
    intro sign negative hsign c hc
    cases hsign with
    | none => cases hc
    | plus => rw [List.mem_singleton.mp hc]; rfl
    | minus => rw [List.mem_singleton.mp hc]; rfl
  obtain ⟨hsign, hmantissa, htail⟩ := h
  intro c hc
  rcases List.mem_append.mp hc with hc | hc
  · exact hsigned hsign c hc
  rcases List.mem_append.mp hc with hc | hc
  · cases hmantissa with
    | whole hds _ => exact isBlank_of_isDigit (hds c hc)
    | point hds hes _ =>
        rcases List.mem_append.mp hc with hc | hc
        · exact isBlank_of_isDigit (hds c hc)
        rcases List.mem_cons.mp hc with rfl | hc
        · rfl
        · exact isBlank_of_isDigit (hes c hc)
  · cases htail with
    | none => cases hc
    | some hmark hsign hds _ =>
        rcases List.mem_cons.mp hc with rfl | hc
        · rcases hmark with rfl | rfl <;> rfl
        rcases List.mem_append.mp hc with hc | hc
        · exact hsigned hsign c hc
        · exact isBlank_of_isDigit (hds c hc)

theorem Written.ne_nil (h : Written cs l) : cs ≠ [] := by
  rintro rfl
  have hread := parse?_of_written h
  cases hread

/-- A literal of a single digit has a value. -/
theorem isInf_digit {d : Char} (hd : d.isDigit = true) (negative : Bool) :
    (toFloat ⟨negative, [d], [], 0⟩).isInf = false ∧
      (toFloat ⟨negative, [], [d], 0⟩).isInf = false := by
  have hall : ((List.range' 48 10).all fun n => [true, false].all fun negative =>
      !(toFloat ⟨negative, [Char.ofNat n], [], 0⟩).isInf &&
        !(toFloat ⟨negative, [], [Char.ofNat n], 0⟩).isInf) = true := by decide +kernel
  have hrange : 48 ≤ d.toNat ∧ d.toNat ≤ 57 := by
    simpa [Char.isDigit, UInt32.le_iff_toNat_le] using hd
  have hdigit := List.all_eq_true.mp hall d.toNat (List.mem_range'_1.mpr (by omega))
  have hboth := List.all_eq_true.mp hdigit negative (by cases negative <;> simp)
  rw [Char.ofNat_toNat] at hboth
  simpa using hboth

/-- **Every literal begins with one that has a value**, of a single digit. -/
theorem exists_front (h : Written cs l) :
    ∃ p l', p <+: cs ∧ Written p l' ∧ l'.toFloat.isInf = false := by
  obtain ⟨hsign, hmantissa, htail⟩ := h
  rename_i sign mantissa tail whole fraction negative exponent
  have hfront : ∀ {p w f}, p <+: mantissa → Mantissa p w f →
      sign ++ p <+: sign ++ (mantissa ++ tail) ∧ Written (sign ++ p) ⟨negative, w, f, 0⟩ := by
    intro p w f hp hform
    refine ⟨(List.prefix_append_right_inj sign).mpr (hp.trans (List.prefix_append _ _)), ?_⟩
    have hwritten := Written.mk hsign hform .none
    rwa [List.append_nil] at hwritten
  have hsingle : ∀ {d : Char}, d.isDigit = true → IsDigits [d] := by
    intro d hd c hc
    rwa [List.mem_singleton.mp hc]
  cases hmantissa with
  | whole hds hne =>
      obtain ⟨d, more, rfl⟩ := List.exists_cons_of_ne_nil hne
      have hd := hds d List.mem_cons_self
      obtain ⟨hstarts, hwritten⟩ := hfront (p := [d]) ⟨more, rfl⟩
        (.whole (hsingle hd) (List.cons_ne_nil d []))
      exact ⟨_, _, hstarts, hwritten, (isInf_digit hd negative).1⟩
  | point hds hes hne =>
      cases whole with
      | cons d more =>
          have hd := hds d List.mem_cons_self
          obtain ⟨hstarts, hwritten⟩ := hfront (p := [d]) ⟨more ++ '.' :: fraction, rfl⟩
            (.whole (hsingle hd) (List.cons_ne_nil d []))
          exact ⟨_, _, hstarts, hwritten, (isInf_digit hd negative).1⟩
      | nil =>
          obtain ⟨e, more, rfl⟩ := List.exists_cons_of_ne_nil hne
          have he := hes e List.mem_cons_self
          obtain ⟨hstarts, hwritten⟩ := hfront (p := ['.', e]) ⟨more, rfl⟩
            (.point isDigits_nil (hsingle he) (List.cons_ne_nil e []))
          exact ⟨_, _, hstarts, hwritten, (isInf_digit he negative).2⟩

end Fronts

end Literal

end Decimal

namespace Text

/-! ## Fronts of a trimmed text -/

variable {cs : List Char}

theorem head_trimChars (cs : List Char) : ∀ c ∈ (trimChars cs).head?, isBlank c = false := by
  intro c hc
  obtain ⟨rest, hrest⟩ : trimChars cs <+: cs.dropWhile isBlank := List.rdropWhile_prefix isBlank _
  have hhead := List.head?_dropWhile_not isBlank cs
  cases htrim : trimChars cs with
  | nil =>
      rw [htrim] at hc
      cases hc
  | cons d more =>
      rw [htrim] at hc hrest
      cases hc
      rw [← hrest] at hhead
      exact hhead

/-- Without a blank in front, only blanks at the end are dropped. -/
theorem exists_blanks (h : ∀ c ∈ cs.head?, isBlank c = false) :
    ∃ blanks, cs = trimChars cs ++ blanks ∧ ∀ c ∈ blanks, isBlank c = true := by
  have hfront : cs.dropWhile isBlank = cs := by
    cases cs with
    | nil => rfl
    | cons c rest => exact List.dropWhile_cons_of_neg (ne_true_of_eq_false (h c rfl))
  refine ⟨(cs.reverse.takeWhile isBlank).reverse, ?_, ?_⟩
  · unfold trimChars dropEndWhile
    rw [hfront, ← List.reverse_append, List.takeWhile_append_dropWhile, List.reverse_reverse]
  · intro c hc
    exact List.mem_takeWhile_imp (List.mem_reverse.mp hc)

/-- What has no blank in it and is a front of a text is one of the text without blanks at its
end. -/
theorem length_le_of_no_blank {p blanks : List Char} (hp : p <+: cs ++ blanks)
    (hblanks : ∀ c ∈ blanks, isBlank c = true) (hno : ∀ c ∈ p, isBlank c = false) :
    p.length ≤ cs.length := by
  rcases List.prefix_or_prefix_of_prefix hp (List.prefix_append cs blanks) with hshort | hlong
  · exact hshort.length_le
  · obtain ⟨more, rfl⟩ := hlong
    have hmore : more <+: blanks := (List.prefix_append_right_inj cs).mp hp
    cases more with
    | nil => simp
    | cons b rest =>
        have hyes := hblanks b (hmore.subset List.mem_cons_self)
        rw [hno b (List.mem_append_right cs List.mem_cons_self)] at hyes
        cases hyes

end Text

namespace Value

open Decimal

/-! ## The longest literal -/

/-- A literal, and its value as a double. -/
def Reads (p : List Char) (x : Float) : Prop := ∃ l, Literal.Written p l ∧ l.toFloat? = some x

/-- The longest front of a text that has a property. -/
structure Longest (P : List Char → Prop) (cs p : List Char) : Prop where
  front : p <+: cs
  holds : P p
  longest : ∀ q, q <+: cs → P q → q.length ≤ p.length

/-- Whether characters are a literal. -/
def IsLiteral (p : List Char) : Prop := ∃ l, Literal.Written p l

/-- Whether characters are a literal with a value that is a double. -/
def IsReadable (p : List Char) : Prop := ∃ x, Reads p x

section Longest

variable {P : List Char → Prop} {cs p q : List Char} {x y : Float} {l l' : Literal}

theorem Longest.unique (hp : Longest P cs p) (hq : Longest P cs q) : p = q := by
  have hle := hp.longest q hq.front hq.holds
  have hge := hq.longest p hp.front hp.holds
  exact (List.prefix_of_prefix_length_le hp.front hq.front hge).eq_of_length (by omega)

theorem written_unique (h : Literal.Written p l) (h' : Literal.Written p l') : l = l' :=
  Option.some.inj ((Literal.parse?_of_written h).symm.trans (Literal.parse?_of_written h'))

theorem reads_iff (h : Literal.Written p l) :
    Reads p x ↔ l.toFloat.isInf = false ∧ x = l.toFloat := by
  have hvalue : l.toFloat? = some x ↔ l.toFloat.isInf = false ∧ x = l.toFloat := by
    unfold Literal.toFloat?
    by_cases hinf : l.toFloat.isInf = true
    · simp [hinf]
    · simp [hinf, eq_comm]
  rw [← hvalue]
  constructor
  · rintro ⟨l', h', hread⟩
    rwa [written_unique h h']
  · exact fun hread => ⟨l, h, hread⟩

theorem Reads.unique (h : Reads p x) (h' : Reads p y) : x = y := by
  obtain ⟨l, hl, hx⟩ := h
  obtain ⟨l', hl', hy⟩ := h'
  rw [written_unique hl hl', hy] at hx
  exact (Option.some.inj hx).symm

theorem IsReadable.no_blank (h : IsReadable p) : ∀ c ∈ p, Text.isBlank c = false := by
  obtain ⟨_, _, hwritten, _⟩ := h
  exact hwritten.no_blank

/-- **A number is read from a literal with blanks around it.** -/
theorem parseNumber_eq_some_iff : parseNumber cs = some x ↔ Reads (Text.trimChars cs) x := by
  unfold parseNumber Reads
  simp only [Option.bind_eq_some_iff, Literal.parse?_eq_some_iff]

theorem parseNumber_eq_none_iff : parseNumber cs = none ↔ ¬ IsReadable (Text.trimChars cs) := by
  unfold IsReadable
  simp only [← parseNumber_eq_some_iff, ← Option.isSome_iff_exists, Option.not_isSome_iff_eq_none]

/-- What is read from a front with blanks at its end is its longest readable front. -/
theorem longest_trimChars (hhead : ∀ c ∈ cs.head?, Text.isBlank c = false)
    (h : IsReadable (Text.trimChars cs)) : Longest IsReadable cs (Text.trimChars cs) := by
  obtain ⟨blanks, hcs, hblanks⟩ := Text.exists_blanks hhead
  refine ⟨⟨blanks, hcs.symm⟩, h, fun q hq hread => ?_⟩
  exact Text.length_le_of_no_blank (hcs ▸ hq) hblanks hread.no_blank

/-- **The search finds the longest readable front**, or there is none. -/
theorem parseFront_cases (hhead : ∀ c ∈ cs.head?, Text.isBlank c = false) (n : Nat) :
    (parseFront cs n = none ∧ ∀ p, p <+: cs.take n → ¬ IsReadable p) ∨
      ∃ x p, parseFront cs n = some x ∧ Longest IsReadable (cs.take n) p ∧ Reads p x := by
  induction n with
  | zero =>
      refine .inl ⟨rfl, fun p hp hread => ?_⟩
      obtain ⟨x, l, hwritten, -⟩ := hread
      exact hwritten.ne_nil (List.prefix_nil.mp hp)
  | succ n ih =>
      have hheadTake : ∀ c ∈ (cs.take (n + 1)).head?, Text.isBlank c = false := by
        cases cs with
        | nil => exact hhead
        | cons c rest => exact hhead
      cases hfound : parseNumber (cs.take (n + 1)) with
      | some x =>
          have hread := parseNumber_eq_some_iff.mp hfound
          refine .inr ⟨x, _, ?_, longest_trimChars hheadTake ⟨x, hread⟩, hread⟩
          rw [parseFront, hfound]
          rfl
      | none =>
          -- the whole of it is not readable, so a readable front is a shorter one
          have hnot : ¬ IsReadable (cs.take (n + 1)) := by
            intro hread
            have htrim := Text.trimChars_of_no_blank hread.no_blank
            exact parseNumber_eq_none_iff.mp hfound (htrim.symm ▸ hread)
          have hshorter : ∀ p, p <+: cs.take (n + 1) → IsReadable p → p <+: cs.take n := by
            intro p hp hread
            obtain ⟨hfront, hle⟩ := List.prefix_take_iff.mp hp
            have hne : p.length ≠ n + 1 := by
              intro hlength
              have hwhole : p = cs.take (n + 1) := by
                rw [← hlength]
                exact List.prefix_iff_eq_take.mp hfront
              exact hnot (hwhole ▸ hread)
            exact List.prefix_take_iff.mpr ⟨hfront, by omega⟩
          have hstep : parseFront cs (n + 1) = parseFront cs n := by
            rw [parseFront, hfound]
            rfl
          rw [hstep]
          rcases ih with ⟨hnone, hall⟩ | ⟨x, p, hsome, hlongest, hread⟩
          · exact .inl ⟨hnone, fun p hp hread => hall p (hshorter p hp hread) hread⟩
          · refine .inr ⟨x, p, hsome, ⟨?_, hlongest.holds, ?_⟩, hread⟩
            · exact hlongest.front.trans (List.take_prefix_take_left (Nat.le_succ n))
            · exact fun q hq hq' => hlongest.longest q (hshorter q hq hq') hq'

/-- **A text counts as the value of its longest readable front.** -/
theorem asNumber_eq_some_iff {s : String} :
    asNumber (.string s) = some x ↔
      ∃ p, Longest IsReadable (Text.trimChars s.toList) p ∧ Reads p x := by
  show numberAtFront s = some x ↔ _
  unfold numberAtFront
  dsimp only
  have hcases := parseFront_cases (Text.head_trimChars s.toList) (Text.trimChars s.toList).length
  rw [List.take_length] at hcases
  rcases hcases with ⟨hnone, hall⟩ | ⟨y, q, hsome, hlongest, hread⟩
  · rw [hnone]
    constructor
    · rintro ⟨⟩
    · rintro ⟨p, hp, -⟩
      exact absurd hp.holds (hall p hp.front)
  · rw [hsome, Option.some.injEq]
    constructor
    · rintro rfl
      exact ⟨q, hlongest, hread⟩
    · rintro ⟨p, hp, hx⟩
      rw [hp.unique hlongest] at hx
      exact hread.unique hx

theorem asNumber_eq_none_iff {s : String} :
    asNumber (.string s) = none ↔ ∀ p, p <+: Text.trimChars s.toList → ¬ IsReadable p := by
  show numberAtFront s = none ↔ _
  unfold numberAtFront
  dsimp only
  have hcases := parseFront_cases (Text.head_trimChars s.toList) (Text.trimChars s.toList).length
  rw [List.take_length] at hcases
  rcases hcases with ⟨hnone, hall⟩ | ⟨y, q, hsome, hlongest, -⟩
  · exact iff_of_true hnone hall
  · refine iff_of_false (by rw [hsome]; rintro ⟨⟩) fun hall => ?_
    exact hall q hlongest.front hlongest.holds

theorem parseNumber_of_parse {raw : String} (h : parse raw = number x) :
    parseNumber raw.toList = some x := by
  unfold parse at h
  split at h
  · cases h
  split at h
  · cases h
  split at h
  · rename_i y hread
    cases h
    exact hread
  · cases h

/-- **The longest literal at the front of a text is what the text counts as, unless its value is
beyond the range of doubles.** A text without a literal at its front is no number. One that has some
counts as the longest of those that have a value; that is the longest of all if and only if this has
a value itself. A text that is a number as a word is the same number. -/
theorem longest_literal_counts_iff_finite (s : String) :
    (asNumber (.string s) = none ↔ ∀ p, p <+: Text.trimChars s.toList → ¬ IsLiteral p) ∧
    (∀ p l, Longest IsLiteral (Text.trimChars s.toList) p → Literal.Written p l →
      (asNumber (.string s) = some l.toFloat ↔ l.toFloat.isInf = false)) ∧
    (∀ x, asNumber (.string s) = some x ↔
      ∃ p, Longest IsReadable (Text.trimChars s.toList) p ∧ Reads p x) ∧
    ∀ x, parse s = .number x → asNumber (.string s) = some x := by
  have hliteral : ∀ {p}, IsReadable p → IsLiteral p := by
    rintro p ⟨_, l, hwritten, _⟩
    exact ⟨l, hwritten⟩
  refine ⟨?_, ?_, fun x => asNumber_eq_some_iff, ?_⟩
  · rw [asNumber_eq_none_iff]
    constructor
    · rintro hnone p hp ⟨l, hwritten⟩
      obtain ⟨q, l', hq, hwritten', hfinite⟩ := Literal.exists_front hwritten
      exact hnone q (hq.trans hp) ⟨_, (reads_iff hwritten').mpr ⟨hfinite, rfl⟩⟩
    · exact fun hall p hp hread => hall p hp (hliteral hread)
  · intro p l hp hwritten
    rw [asNumber_eq_some_iff]
    constructor
    · rintro ⟨q, -, l', -, hvalue⟩
      unfold Literal.toFloat? at hvalue
      split at hvalue
      · cases hvalue
      · rename_i hfinite
        rw [← Option.some.inj hvalue]
        simpa using hfinite
    · intro hfinite
      have hread : Reads p l.toFloat := (reads_iff hwritten).mpr ⟨hfinite, rfl⟩
      exact ⟨p, ⟨hp.front, ⟨_, hread⟩, fun q hq hq' => hp.longest q hq (hliteral hq')⟩, hread⟩
  · intro x hparse
    have hread := parseNumber_eq_some_iff.mp (parseNumber_of_parse hparse)
    exact asNumber_eq_some_iff.mpr
      ⟨_, ⟨List.prefix_refl _, ⟨x, hread⟩, fun q hq _ => hq.length_le⟩, hread⟩

end Longest

/-- The number in front of a unit. -/
theorem length_counts_as_number :
    Longest IsLiteral (Text.trimChars " -1.5e1em".toList) "-1.5e1".toList ∧
      Literal.Written "-1.5e1".toList ⟨true, ['1'], ['5'], 1⟩ ∧
      asNumber (.string " -1.5e1em") = some (-15.0) := by
  have htrim : Text.trimChars " -1.5e1em".toList = "-1.5e1em".toList := by decide +kernel
  have hwritten : Literal.Written "-1.5e1".toList ⟨true, ['1'], ['5'], 1⟩ :=
    Literal.parse?_eq_some_iff.mp rfl
  -- neither of the two longer fronts is a literal
  have hlonger : ((List.range 9).all fun n => n ≤ 6 ||
      (Literal.parse? ("-1.5e1em".toList.take n)).isNone) = true := by decide +kernel
  have hlongest : Longest IsLiteral "-1.5e1em".toList "-1.5e1".toList := by
    refine ⟨⟨"em".toList, by decide +kernel⟩, ⟨_, hwritten⟩, ?_⟩
    rintro q hq ⟨l, hl⟩
    have hle : q.length ≤ 8 := hq.length_le
    have hnone := List.all_eq_true.mp hlonger q.length (List.mem_range.mpr (by omega))
    rw [← List.prefix_iff_eq_take.mp hq, Literal.parse?_of_written hl] at hnone
    simpa using hnone
  have hvalue : Literal.toFloat ⟨true, ['1'], ['5'], 1⟩ = -15.0 := by decide +kernel
  have hfinite : (Literal.toFloat ⟨true, ['1'], ['5'], 1⟩).isInf = false := by decide +kernel
  have hcounts := ((longest_literal_counts_iff_finite " -1.5e1em").2.1 _ _ (htrim.symm ▸ hlongest)
    hwritten).mpr hfinite
  rw [hvalue] at hcounts
  exact ⟨htrim.symm ▸ hlongest, hwritten, hcounts⟩

/-- A literal beyond the range of doubles does not count: the text counts as a shorter one. -/
theorem shorter_literal_counts :
    ¬ ∀ (s : String) p l, Longest IsLiteral (Text.trimChars s.toList) p → Literal.Written p l →
      asNumber (.string s) = some l.toFloat := by
  intro h
  have hwritten : Literal.Written "1e999".toList ⟨false, ['1'], [], 999⟩ :=
    Literal.parse?_eq_some_iff.mp rfl
  have htrim : Text.trimChars "1e999".toList = "1e999".toList := by decide +kernel
  have hclaimed := h "1e999" _ _
    ⟨htrim ▸ List.prefix_refl _, ⟨_, hwritten⟩, fun q hq _ => htrim ▸ hq.length_le⟩ hwritten
  exact absurd hclaimed (by decide +kernel)

end Value

end PageMacro
