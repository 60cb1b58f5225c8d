import Mathlib.Data.List.Perm.Basic
import Mathlib.Data.List.TakeWhile
import PageMacro.Json.Read
import PageMacro.Json.Write
import PageMacro.Proofs.Pieces
import PageMacro.Value.Basic

/-!
# JSON that is written can be read

The writer and the reader are two programs, and this file is about the one undoing the other on
texts of one line. The writer is compositional and the reader is not: it goes by fuel, and a number
ends where its neighbour begins. So the facts that compose are about a text in front of any other:

* `Spells`: the text is read as a tree, whatever stands behind it, by any fuel above its length;
* `Levels`: the reader's count of open lists and maps is back where it was after the text, and has
  been so much higher in between.

There is one lemma of each kind for every way to write a tree, and `exists_roundTrip` puts them
together along the tree. What is read is not quite what was written: fields come back in order.
-/

namespace PageMacro.Json

/-! ## Strings -/

theorem unit?_append {digits rest : List Char} {n : Nat} (hlength : digits.length = 4)
    (h : unit? digits = some (n, [])) : unit? (digits ++ rest) = some (n, rest) := by
  rcases digits with _ | ⟨a, _ | ⟨b, _ | ⟨c, _ | ⟨d, _ | ⟨e, more⟩⟩⟩⟩⟩ <;> try cases hlength
  simp only [List.cons_append, List.nil_append, unit?, Option.bind_eq_bind,
    Option.bind_eq_some_iff, Option.pure_def, Option.some.injEq, Prod.mk.injEq] at h ⊢
  obtain ⟨x, hx, y, hy, z, hz, w, hw, hn, -⟩ := h
  exact ⟨x, hx, y, hy, z, hz, w, hw, hn, trivial⟩

/-- The characters that are written by their number. -/
def numbered : List Nat := List.range 32 ++ [0x26, 0x3c, 0x3e, 0x2028, 0x2029]

theorem mem_numbered {c : Char} (h : (decide (c.toNat < 0x20) || c == '<' || c == '>' || c == '&' ||
    c == '\u2028' || c == '\u2029') = true) : c.toNat ∈ numbered := by
  simp only [Bool.or_eq_true, decide_eq_true_eq, beq_iff_eq] at h
  rcases h with ((((h | h) | h) | h) | h) | h
  · exact List.mem_append_left _ (List.mem_range.mpr h)
  all_goals
    rw [h]
    decide

theorem unit?_hexPadded {n : Nat} (hn : n ∈ numbered) (rest : List Char) :
    unit? (Text.hexPadded 4 n ++ rest) = some (n, rest) := by
  have hall : ∀ n ∈ numbered, (Text.hexPadded 4 n).length = 4 ∧
      unit? (Text.hexPadded 4 n) = some (n, []) := by decide +kernel
  exact unit?_append (hall n hn).1 (hall n hn).2

theorem pair_of_lt {n : Nat} (hn : n < 0xD800) (rest : List Char) :
    pair n rest = (Char.ofNat n, rest) := by
  unfold pair
  rw [if_neg (by simp; omega), if_neg (by simp; omega)]

theorem bind_cons (c : Char) (found : Option (List Char × List Char)) :
    (found >>= fun p => pure (c :: p.1, p.2)) = found.map fun p => (c :: p.1, p.2) := by
  cases found <;> rfl

/-- A character that is written by its number is read back. -/
theorem chars?_numbered {c : Char} (hc : c.toNat ∈ numbered) (fuel : Nat) (rest : List Char) :
    chars? (fuel + 1) ('\\' :: 'u' :: (Text.hexPadded 4 c.toNat ++ rest)) =
      (chars? fuel rest).map fun p => (c :: p.1, p.2) := by
  have hlow : c.toNat < 0xD800 := by
    have hall : ∀ n ∈ numbered, n < 0xD800 := by decide
    exact hall _ hc
  rw [chars?, unit?_hexPadded hc, Option.map_some]
  dsimp only
  rw [pair_of_lt hlow, Char.ofNat_toNat]
  exact bind_cons c _

theorem chars?_plain {c : Char} (hquote : c ≠ '"') (hslash : c ≠ '\\') (hlow : 0x20 ≤ c.toNat)
    (fuel : Nat) (rest : List Char) :
    chars? (fuel + 1) (c :: rest) = (chars? fuel rest).map fun p => (c :: p.1, p.2) := by
  rw [chars?]
  · rw [if_neg (by omega)]
    exact bind_cons c _
  · exact fun h => hquote h
  all_goals exact fun _ _ h => absurd h hslash

/-- A whole character of a string is read back as it was written. -/
theorem chars?_stringChar {c : Char} (hwhole : (Text.strayByte? c).isSome = false) (fuel : Nat)
    (rest : List Char) :
    chars? (fuel + 1) (stringChar c ++ rest) =
      (chars? fuel rest).map fun p => (c :: p.1, p.2) := by
  unfold stringChar
  -- first the characters that are written by a letter
  iterate 7
    split
    · rename_i h
      rw [beq_iff_eq.mp h, List.cons_append, List.cons_append, List.nil_append, chars?]
      exact bind_cons _ _
  rename_i hquote hslash _ _ _ _ _
  rw [hwhole, if_neg Bool.false_ne_true]
  split
  · rename_i h
    exact chars?_numbered (mem_numbered h) fuel rest
  · rename_i h
    simp only [Bool.or_eq_true, decide_eq_true_eq, not_or, Nat.not_lt] at h
    exact chars?_plain (fun e => hquote (beq_iff_eq.mpr e)) (fun e => hslash (beq_iff_eq.mpr e))
      h.1.1.1.1.1 fuel rest

/-- **A whole text is read back between its quotes.** -/
theorem chars?_flatMap {cs : List Char} (hwhole : ∀ c ∈ cs, (Text.strayByte? c).isSome = false)
    {fuel : Nat} (hfuel : cs.length < fuel) (rest : List Char) :
    chars? fuel (cs.flatMap stringChar ++ '"' :: rest) = some (cs, rest) := by
  induction cs generalizing fuel with
  | nil =>
      obtain ⟨fuel, rfl⟩ := Nat.exists_eq_add_of_lt hfuel
      rw [List.flatMap_nil, List.nil_append, chars?]
  | cons c cs ih =>
      rw [List.forall_mem_cons] at hwhole
      cases fuel with
      | zero => cases hfuel
      | succ fuel =>
          rw [List.flatMap_cons, List.append_assoc, chars?_stringChar hwhole.1,
            ih hwhole.2 (Nat.lt_of_succ_lt_succ hfuel), Option.map_some]

/-! ## Numbers -/

/-- Nothing that could go on a value. -/
def EndsValue (rest : List Char) : Prop := ∀ c ∈ rest.head?, c = ',' ∨ c = ']' ∨ c = '\x7d'

/-- The characters of numbers. -/
def isNumberChar (c : Char) : Bool :=
  c.isDigit || c == '-' || c == '+' || c == '.' || c == 'e' || c == 'E'

section Number

variable {cs rest : List Char} {x : Float}

theorem endsValue_cons {c : Char} (h : c = ',' ∨ c = ']' ∨ c = '\x7d') : EndsValue (c :: rest) := by
  intro d hd
  cases hd
  exact h

theorem spanDigits_append (h : EndsValue rest) (cs : List Char) :
    Decimal.spanDigits (cs ++ rest) =
      ((Decimal.spanDigits cs).1, (Decimal.spanDigits cs).2 ++ rest) := by
  have hnone : rest.takeWhile Char.isDigit = [] ∧ rest.dropWhile Char.isDigit = rest := by
    cases rest with
    | nil => exact ⟨rfl, rfl⟩
    | cons d rest =>
        have hd : d.isDigit = false := by
          rcases h d rfl with rfl | rfl | rfl <;> rfl
        simp [hd]
  unfold Decimal.spanDigits
  induction cs with
  | nil => simp only [List.nil_append, hnone.1, hnone.2, List.takeWhile_nil, List.dropWhile_nil]
  | cons c cs ih =>
      rw [List.cons_append]
      by_cases hc : c.isDigit = true
      · rw [List.takeWhile_cons_of_pos hc, List.dropWhile_cons_of_pos hc,
          List.takeWhile_cons_of_pos hc, List.dropWhile_cons_of_pos hc]
        rw [Prod.mk.injEq] at ih ⊢
        exact ⟨congrArg (c :: ·) ih.1, ih.2⟩
      · rw [List.takeWhile_cons_of_neg hc, List.dropWhile_cons_of_neg hc,
          List.takeWhile_cons_of_neg hc, List.dropWhile_cons_of_neg hc, List.cons_append]

theorem takeSign_append (h : EndsValue rest) (cs : List Char) :
    Decimal.takeSign (cs ++ rest) =
      ((Decimal.takeSign cs).1, (Decimal.takeSign cs).2 ++ rest) := by
  cases cs with
  | nil =>
      rw [List.nil_append]
      cases rest with
      | nil => rfl
      | cons d rest => rcases h d rfl with rfl | rfl | rfl <;> rfl
  | cons c cs =>
      rw [List.cons_append]
      by_cases hplus : c = '+'
      · rw [hplus]; rfl
      · by_cases hminus : c = '-'
        · rw [hminus]; rfl
        · rw [Decimal.takeSign, Decimal.takeSign, List.cons_append]
          all_goals simp_all

theorem takeExponent_append (h : EndsValue rest) (cs : List Char) :
    Decimal.takeExponent (cs ++ rest) =
      ((Decimal.takeExponent cs).1, (Decimal.takeExponent cs).2 ++ rest) := by
  cases cs with
  | nil =>
      rw [List.nil_append]
      cases rest with
      | nil => rfl
      | cons d rest => rcases h d rfl with rfl | rfl | rfl <;> rfl
  | cons c cs =>
      rw [List.cons_append]
      unfold Decimal.takeExponent
      dsimp only
      rw [takeSign_append h, spanDigits_append h]
      split
      · split <;> rfl
      · rfl

theorem head?_append_isExponent (h : EndsValue rest) (cs : List Char) :
    ((cs ++ rest).head?.any fun c => c == 'e' || c == 'E') =
      cs.head?.any fun c => c == 'e' || c == 'E' := by
  cases cs with
  | cons c cs => rfl
  | nil =>
      cases rest with
      | nil => rfl
      | cons d rest => rcases h d rfl with rfl | rfl | rfl <;> rfl

/-- The minus sign, if there is one. -/
def takeMinus : List Char → Bool × List Char
  | '-' :: rest => (true, rest)
  | cs => (false, cs)

/-- The digits after a point, if there is one. -/
def takeFraction? : List Char → Option (List Char × List Char)
  | '.' :: after =>
    if (Decimal.spanDigits after).1.isEmpty then none else some (Decimal.spanDigits after)
  | cs => some ([], cs)

/-- The number whose digits have been read, and what is behind its exponent. -/
def finish? (negative : Bool) (whole fraction cs : List Char) : Option (Float × List Char) :=
  if (Decimal.takeExponent cs).2.head?.any fun c => c == 'e' || c == 'E' then none
  else (Decimal.Literal.toFloat? ⟨negative, whole, fraction, (Decimal.takeExponent cs).1⟩).map
    fun x => (x, (Decimal.takeExponent cs).2)

/-- A number without its sign. -/
def unsigned? (negative : Bool) (cs : List Char) : Option (Float × List Char) :=
  let digits := Decimal.spanDigits cs
  if digits.1.isEmpty || (1 < digits.1.length && digits.1.head? == some '0') then none
  else (takeFraction? digits.2).bind fun fraction =>
    finish? negative digits.1 fraction.1 fraction.2

/-- A number is read part by part. -/
theorem number?_eq (cs : List Char) :
    number? cs = unsigned? (takeMinus cs).1 (takeMinus cs).2 := by
  have hfinish : ∀ (negative : Bool) (whole fraction rest : List Char),
      (if (Decimal.takeExponent rest).2.head?.any fun c => c == 'e' || c == 'E' then none
        else do
          let x ← Decimal.Literal.toFloat? ⟨negative, whole, fraction, (Decimal.takeExponent rest).1⟩
          pure (x, (Decimal.takeExponent rest).2)) = finish? negative whole fraction rest := by
    intro negative whole fraction rest
    unfold finish?
    split
    · rfl
    · cases Decimal.Literal.toFloat? ⟨negative, whole, fraction, _⟩ <;> rfl
  unfold number?
  split
  rename_i negative unsigned hsign
  have hminus : takeMinus cs = (negative, unsigned) := by
    split at hsign
    · cases hsign
      rfl
    · cases hsign
      rw [takeMinus]
      assumption
  rw [hminus]
  unfold unsigned?
  dsimp only
  split
  · rfl
  · split
    · rename_i after hpoint
      rw [hpoint, takeFraction?]
      split
      · rfl
      · exact hfinish _ _ _ _
    · rename_i hpoint
      rw [takeFraction?]
      · exact hfinish _ _ _ _
      · exact hpoint

theorem finish?_append (h : EndsValue rest) (negative : Bool) (whole fraction cs : List Char) :
    finish? negative whole fraction (cs ++ rest) =
      (finish? negative whole fraction cs).map fun p => (p.1, p.2 ++ rest) := by
  unfold finish?
  rw [takeExponent_append h]
  dsimp only
  rw [head?_append_isExponent h]
  split
  · rfl
  · rw [Option.map_map]
    rfl

theorem takeFraction?_append (h : EndsValue rest) (cs : List Char) :
    takeFraction? (cs ++ rest) = (takeFraction? cs).map fun p => (p.1, p.2 ++ rest) := by
  cases cs with
  | nil =>
      cases rest with
      | nil => rfl
      | cons d rest => rcases h d rfl with rfl | rfl | rfl <;> rfl
  | cons c cs =>
      rw [List.cons_append]
      by_cases hc : c = '.'
      · rw [hc, takeFraction?, takeFraction?, spanDigits_append h]
        split <;> rfl
      · rw [takeFraction?, takeFraction?]
        · rfl
        all_goals simp [hc]

theorem unsigned?_append (h : EndsValue rest) (negative : Bool) (cs : List Char) :
    unsigned? negative (cs ++ rest) =
      (unsigned? negative cs).map fun p => (p.1, p.2 ++ rest) := by
  unfold unsigned?
  rw [spanDigits_append h]
  dsimp only
  split
  · rfl
  · rw [takeFraction?_append h, Option.bind_map, Option.map_bind]
    congr 1
    funext fraction
    exact finish?_append h _ _ _ _

/-- What cannot go on a number stands behind it untouched. -/
theorem number?_append (h : EndsValue rest) (cs : List Char) :
    number? (cs ++ rest) = (number? cs).map fun p => (p.1, p.2 ++ rest) := by
  rw [number?_eq, number?_eq, ← unsigned?_append h]
  cases cs with
  | nil =>
      cases rest with
      | nil => rfl
      | cons d rest => rcases h d rfl with rfl | rfl | rfl <;> rfl
  | cons c cs =>
      rw [List.cons_append]
      by_cases hc : c = '-'
      · rw [hc]; rfl
      · rw [takeMinus, takeMinus, List.cons_append]
        all_goals simp [hc]

theorem isNumberChar_of_isDigit {c : Char} (h : c.isDigit = true) : isNumberChar c = true := by
  simp [isNumberChar, h]

theorem mem_spanDigits {c : Char} (h : c ∈ cs) :
    isNumberChar c = true ∨ c ∈ (Decimal.spanDigits cs).2 := by
  have hparts : cs = cs.takeWhile Char.isDigit ++ cs.dropWhile Char.isDigit :=
    List.takeWhile_append_dropWhile.symm
  rw [hparts] at h
  rcases List.mem_append.mp h with h | h
  · exact .inl (isNumberChar_of_isDigit (List.mem_takeWhile_imp h))
  · exact .inr h

theorem mem_takeSign {c : Char} (h : c ∈ cs) :
    isNumberChar c = true ∨ c ∈ (Decimal.takeSign cs).2 := by
  unfold Decimal.takeSign
  split
  · rcases List.mem_cons.mp h with rfl | h
    · exact .inl rfl
    · exact .inr h
  · rcases List.mem_cons.mp h with rfl | h
    · exact .inl rfl
    · exact .inr h
  · exact .inr h

theorem mem_takeExponent {c : Char} (h : c ∈ cs) :
    isNumberChar c = true ∨ c ∈ (Decimal.takeExponent cs).2 := by
  unfold Decimal.takeExponent
  split
  · rename_i d rest
    dsimp only
    split
    · rename_i hmark
      split
      · exact .inr h
      · rcases List.mem_cons.mp h with rfl | h
        · refine .inl ?_
          simp only [Bool.or_eq_true, beq_iff_eq] at hmark
          rcases hmark with rfl | rfl <;> rfl
        · rcases mem_takeSign h with h | h
          · exact .inl h
          · exact mem_spanDigits h
    · exact .inr h
  · exact .inr h

theorem mem_takeFraction? {c : Char} (h : c ∈ cs) {fraction : List Char}
    (htake : takeFraction? cs = some (fraction, rest)) : isNumberChar c = true ∨ c ∈ rest := by
  unfold takeFraction? at htake
  split at htake
  · split at htake
    · cases htake
    · rw [Option.some.injEq] at htake
      rcases List.mem_cons.mp h with rfl | h
      · exact .inl rfl
      · have hspan := mem_spanDigits h
        rwa [htake] at hspan
  · cases htake
    exact .inr h

/-- All that is read as a number are its characters. -/
theorem isNumberChar_of_number? (h : number? cs = some (x, [])) :
    ∀ c ∈ cs, isNumberChar c = true := by
  intro c hc
  rw [number?_eq] at h
  unfold unsigned? at h
  dsimp only at h
  split at h
  · cases h
  · obtain ⟨fraction, hfraction, hfinish⟩ := Option.bind_eq_some_iff.mp h
    have hrest : (Decimal.takeExponent fraction.2).2 = [] := by
      unfold finish? at hfinish
      split at hfinish
      · cases hfinish
      · obtain ⟨y, -, hy⟩ := Option.map_eq_some_iff.mp hfinish
        exact congrArg Prod.snd hy
    have hminus : isNumberChar c = true ∨ c ∈ (takeMinus cs).2 := by
      unfold takeMinus
      split
      · rcases List.mem_cons.mp hc with rfl | hc
        · exact .inl rfl
        · exact .inr hc
      · exact .inr hc
    rcases hminus with hc | hc
    · exact hc
    rcases mem_spanDigits hc with hc | hc
    · exact hc
    rcases mem_takeFraction? hc hfraction with hc | hc
    · exact hc
    rcases mem_takeExponent hc with hc | hc
    · exact hc
    · rw [hrest] at hc
      cases hc

end Number
theorem toList_stringText (s : String) :
    (stringText s).toList = '"' :: (s.toList.flatMap stringChar ++ ['"']) := by
  rw [stringText, String.toList_ofList, List.cons_append]

theorem whole_iff {s : String} :
    Text.isWhole s = true ↔ ∀ c ∈ s.toList, (Text.strayByte? c).isSome = false := by
  rw [Text.isWhole, List.all_eq_true]
  refine forall₂_congr fun c _ => ?_
  cases Text.strayByte? c <;> simp

theorem length_le_flatMap (cs : List Char) : cs.length ≤ (cs.flatMap stringChar).length := by
  induction cs with
  | nil => exact Nat.le_refl 0
  | cons c cs ih =>
      have hpos : 0 < (stringChar c).length := by
        unfold stringChar
        split_ifs <;> exact Nat.succ_pos _
      rw [List.flatMap_cons, List.length_cons, List.length_append]
      omega

theorem chars?_stringText {s : String} (hs : Text.isWhole s = true) (rest : List Char) :
    chars? ((s.toList.flatMap stringChar ++ '"' :: rest).length + 1)
      (s.toList.flatMap stringChar ++ '"' :: rest) = some (s.toList, rest) := by
  refine chars?_flatMap (whole_iff.mp hs) ?_ rest
  have hshort := length_le_flatMap s.toList
  rw [List.length_append]
  omega

/-! ## Depth -/

section Depth

variable {rest : List Char} {depth most : Nat}

theorem deepest_inside {cs : List Char} (h : ∀ c ∈ cs, c ≠ '"' ∧ c ≠ '\\') :
    deepest (cs ++ rest) true depth most = deepest rest true depth most := by
  induction cs with
  | nil => rfl
  | cons c cs ih =>
      rw [List.forall_mem_cons] at h
      have hopen : (c != '"') = true := by simpa using h.1.1
      rw [List.cons_append, deepest, hopen, ih h.2]
      exact fun _ _ hslash => absurd hslash h.1.2

theorem deepest_outside {cs : List Char} (h : ∀ c ∈ cs, c ∉ ['[', ']', '\x7b', '\x7d', '"']) :
    deepest (cs ++ rest) false depth most = deepest rest false depth most := by
  induction cs with
  | nil => rfl
  | cons c cs ih =>
      rw [List.forall_mem_cons] at h
      have hc := h.1
      simp only [List.mem_cons, List.not_mem_nil, or_false, not_or] at hc
      rw [List.cons_append, deepest, if_neg (by simp [hc]), if_neg (by simp [hc])]
      have hclosed : (c == '"') = false := by simpa using hc.2.2.2.2
      rw [hclosed, ih h.2]

theorem deepest_stringChar {c : Char} (hwhole : (Text.strayByte? c).isSome = false) :
    deepest (stringChar c ++ rest) true depth most = deepest rest true depth most := by
  unfold stringChar
  iterate 7
    split
    · rfl
  rename_i hquote hslash _ _ _ _ _
  rw [hwhole, if_neg Bool.false_ne_true]
  split
  · rename_i h
    have hall : (numbered.all fun n => (Text.hexPadded 4 n).all fun d =>
        decide (d ≠ '"' ∧ d ≠ '\\')) = true := by decide +kernel
    have hdigits := List.all_eq_true.mp (List.all_eq_true.mp hall _ (mem_numbered h))
    rw [List.cons_append, List.cons_append, deepest]
    exact deepest_inside fun d hd => of_decide_eq_true (hdigits d hd)
  · refine deepest_inside ?_
    rw [List.forall_mem_singleton]
    exact ⟨fun e => hquote (beq_iff_eq.mpr e), fun e => hslash (beq_iff_eq.mpr e)⟩

theorem deepest_string {cs : List Char} (hwhole : ∀ c ∈ cs, (Text.strayByte? c).isSome = false) :
    deepest (cs.flatMap stringChar ++ '"' :: rest) true depth most =
      deepest rest false depth most := by
  induction cs with
  | nil => rfl
  | cons c cs ih =>
      rw [List.forall_mem_cons] at hwhole
      rw [List.flatMap_cons, List.append_assoc, deepest_stringChar hwhole.1, ih hwhole.2]

end Depth

/-- The lists and maps of a text, which are all closed, stand so deep in each other. -/
def Levels (text : List Char) (height : Nat) : Prop :=
  ∀ (rest : List Char) {depth most : Nat}, depth ≤ most →
    deepest (text ++ rest) false depth most = deepest rest false depth (max most (depth + height))

namespace Levels

variable {a b : List Char} {m n : Nat}

theorem outside {cs : List Char} (h : ∀ c ∈ cs, c ∉ ['[', ']', '\x7b', '\x7d', '"']) :
    Levels cs 0 := by
  intro rest depth most hdepth
  rw [deepest_outside h, Nat.add_zero, Nat.max_eq_left hdepth]

/-- A flag is decided along the text, and not over all characters. -/
theorem outside_of_all {cs : List Char}
    (h : (cs.all fun c => decide (c ∉ ['[', ']', '\x7b', '\x7d', '"'])) = true) : Levels cs 0 :=
  .outside fun c hc => of_decide_eq_true (List.all_eq_true.mp h c hc)

theorem eq_zero (h : Levels [] n) : n = 0 := by
  have hn : 0 = max 0 (0 + n) := h [] (Nat.le_refl 0)
  omega

theorem append (ha : Levels a m) (hb : Levels b n) : Levels (a ++ b) (max m n) := by
  intro rest depth most hdepth
  rw [List.append_assoc, ha _ hdepth, hb _ (by omega)]
  congr 1
  omega

theorem enclose {left right : Char} (hleft : left = '[' ∨ left = '\x7b')
    (hright : right = ']' ∨ right = '\x7d') (h : Levels a n) :
    Levels (left :: (a ++ [right])) (n + 1) := by
  intro rest depth most hdepth
  rw [List.cons_append, List.append_assoc, List.singleton_append, deepest,
    if_pos (by simpa using hleft), h _ (by omega), deepest,
    if_neg (by rcases hright with rfl | rfl <;> decide), if_pos (by simpa using hright),
    Nat.add_sub_cancel]
  congr 1
  omega

theorem string {s : String} (hs : Text.isWhole s = true) : Levels (stringText s).toList 0 := by
  intro rest depth most hdepth
  rw [toList_stringText, List.cons_append, List.append_assoc, List.singleton_append, deepest,
    if_neg (by decide), if_neg (by decide), show ('"' == '"') = true from rfl,
    deepest_string (whole_iff.mp hs), Nat.add_zero, Nat.max_eq_left hdepth]

end Levels

/-! ## Values -/

/-- The text is read as a tree, whatever stands behind it. -/
structure Spells (text : List Char) (t : Tree) : Prop where
  start : ∃ c more, text = c :: more ∧ isSpace c = false ∧ c ≠ ']'
  reads : ∀ {fuel : Nat} (rest : List Char), text.length < fuel → EndsValue rest →
    value? fuel (text ++ rest) = some (t, rest)

theorem skipSpace_of_not {c : Char} (h : isSpace c = false) (cs : List Char) :
    skipSpace (c :: cs) = c :: cs :=
  List.dropWhile_cons_of_neg (by rw [h]; exact Bool.false_ne_true)

theorem isNumberChar_ne {c d : Char} (h : isNumberChar c = true) (hd : isNumberChar d = false) :
    c ≠ d := by
  rintro rfl
  rw [h] at hd
  cases hd

theorem isSpace_of_isNumberChar {c : Char} (h : isNumberChar c = true) : isSpace c = false := by
  cases hspace : isSpace c with
  | false => rfl
  | true =>
      simp only [isSpace, Bool.or_eq_true, beq_iff_eq] at hspace
      rcases hspace with ((hc | hc) | hc) | hc <;> exact absurd hc (isNumberChar_ne h rfl)

theorem value?_number {fuel : Nat} {c : Char} {cs : List Char} (hc : isNumberChar c = true) :
    value? (fuel + 1) (c :: cs) = (number? (c :: cs)).map fun p => (.num p.1, p.2) := by
  rw [value?, skipSpace_of_not (isSpace_of_isNumberChar hc)]
  split
  case h_7 => rfl
  all_goals
    rename_i heq
    exact absurd (List.cons.inj heq).1 (isNumberChar_ne hc rfl)

theorem spells_number {text : List Char} {x : Float} (h : number? text = some (x, [])) :
    Spells text (.num x) := by
  have hchars := isNumberChar_of_number? h
  cases text with
  | nil => cases h
  | cons c more =>
      have hc : isNumberChar c = true := hchars c List.mem_cons_self
      refine ⟨⟨c, more, rfl, isSpace_of_isNumberChar hc, isNumberChar_ne hc rfl⟩, ?_⟩
      intro fuel rest hfuel hrest
      obtain ⟨fuel, rfl⟩ := Nat.exists_eq_add_of_lt hfuel
      rw [List.cons_append, value?_number hc, ← List.cons_append, number?_append hrest, h]
      rfl

theorem levels_number {text : List Char} {x : Float} (h : number? text = some (x, [])) :
    Levels text 0 := by
  refine .outside fun c hc hmem => ?_
  have hnumber : isNumberChar c = true := isNumberChar_of_number? h c hc
  simp only [List.mem_cons, List.not_mem_nil, or_false] at hmem
  rcases hmem with h | h | h | h | h <;> exact isNumberChar_ne hnumber rfl h

theorem spells_null : Spells "null".toList .null := by
  refine ⟨⟨'n', _, rfl, rfl, by decide⟩, ?_⟩
  intro fuel rest hfuel _
  obtain ⟨fuel, rfl⟩ := Nat.exists_eq_add_of_lt hfuel
  rw [value?]
  rfl

theorem spells_bool (b : Bool) : Spells (Tree.boolText b).toList (.bool b) := by
  refine ⟨?_, ?_⟩
  · cases b
    · exact ⟨'f', _, rfl, rfl, by decide⟩
    · exact ⟨'t', _, rfl, rfl, by decide⟩
  · intro fuel rest hfuel _
    obtain ⟨fuel, rfl⟩ := Nat.exists_eq_add_of_lt hfuel
    rw [value?]
    cases b <;> rfl

theorem value?_quote (fuel : Nat) (rest : List Char) :
    value? (fuel + 1) ('"' :: rest) =
      (chars? (rest.length + 1) rest).map fun p => (.str (String.ofList p.1), p.2) := by
  rw [value?]
  rfl

theorem spells_string {s : String} (hs : Text.isWhole s = true) :
    Spells (stringText s).toList (.str s) := by
  rw [toList_stringText]
  refine ⟨⟨'"', _, rfl, rfl, by decide⟩, ?_⟩
  intro fuel rest hfuel _
  obtain ⟨fuel, rfl⟩ := Nat.exists_eq_add_of_lt hfuel
  rw [List.cons_append, List.append_assoc, List.singleton_append, value?_quote,
    chars?_stringText hs, Option.map_some, String.ofList_toList]

/-! ## Lists -/

theorem value?_bracket {fuel : Nat} {cs : List Char} (h : skipSpace cs = cs)
    (hopen : ∀ after, cs ≠ ']' :: after) :
    value? (fuel + 1) ('[' :: cs) = (items? fuel cs).map fun p => (.list p.1, p.2) := by
  rw [value?, skipSpace_of_not rfl]
  split
  case h_5 =>
    rename_i heq
    cases heq
    rw [h]
    split
    · exact absurd rfl (hopen _)
    · rfl
  case h_7 =>
    rename_i hother _
    exact absurd rfl (hother cs)
  all_goals
    rename_i heq
    cases heq

theorem toList_join_cons (first second : String) (more : List String) :
    (Text.join "," (first :: second :: more)).toList =
      first.toList ++ ',' :: (Text.join "," (second :: more)).toList :=
  Text.toList_join_cons "," first second more

theorem toList_enclosed {left right : String} {l r : Char} (hleft : left.toList = [l])
    (hright : right.toList = [r]) {items : List String} (h : items ≠ []) :
    (enclosed .line left right items).toList = l :: ((Text.join "," items).toList ++ [r]) := by
  cases items with
  | nil => exact absurd rfl h
  | cons first more =>
      rw [enclosed, String.toList_append, String.toList_append, hleft, hright, List.append_assoc]
      · rfl
      · exact h

theorem items?_last {fuel : Nat} {cs after : List Char} {item : Tree}
    (h : value? fuel cs = some (item, ']' :: after)) :
    items? (fuel + 1) cs = some ([item], after) := by
  rw [items?, h]
  rfl

theorem items?_more {fuel : Nat} {cs more : List Char} {item : Tree}
    (h : value? fuel cs = some (item, ',' :: more)) :
    items? (fuel + 1) cs = (items? fuel more).map fun p => (item :: p.1, p.2) := by
  rw [items?, h]
  change (items? fuel more >>= fun p => pure (item :: p.1, p.2)) = _
  cases items? fuel more <;> rfl

/-- The items of a list are read one after the other. -/
theorem items?_join {pairs : List (String × Tree)} (hne : pairs ≠ [])
    (h : ∀ p ∈ pairs, Spells p.1.toList p.2) {fuel : Nat}
    (hfuel : (Text.join "," (pairs.map Prod.fst)).toList.length + 1 < fuel) (rest : List Char) :
    items? fuel ((Text.join "," (pairs.map Prod.fst)).toList ++ ']' :: rest) =
      some (pairs.map Prod.snd, rest) := by
  induction pairs generalizing fuel with
  | nil => exact absurd rfl hne
  | cons p more ih =>
      rw [List.forall_mem_cons] at h
      cases fuel with
      | zero => cases hfuel
      | succ fuel =>
          cases more with
          | nil =>
              rw [List.map_singleton, Text.join, String.intercalate_singleton] at hfuel ⊢
              exact items?_last (h.1.reads _ (by omega) (endsValue_cons (.inr (.inl rfl))))
          | cons q more =>
              rw [List.map_cons, List.map_cons, toList_join_cons, ← List.map_cons] at hfuel ⊢
              rw [List.length_append, List.length_cons] at hfuel
              have hread := h.1.reads (',' :: ((Text.join "," ((q :: more).map Prod.fst)).toList ++
                ']' :: rest)) (show _ < fuel by omega) (endsValue_cons (.inl rfl))
              rw [List.append_assoc, List.cons_append, items?_more hread,
                ih (List.cons_ne_nil _ _) h.2 (by omega)]
              rfl

theorem start_append {text : List Char} (rest : List Char)
    (h : ∃ c more, text = c :: more ∧ isSpace c = false ∧ c ≠ ']') :
    skipSpace (text ++ rest) = text ++ rest ∧ ∀ after, text ++ rest ≠ ']' :: after := by
  obtain ⟨c, more, rfl, hspace, hne⟩ := h
  exact ⟨skipSpace_of_not hspace _, fun after heq => hne (List.cons.inj heq).1⟩

theorem start_join {p : String × Tree} {more : List (String × Tree)}
    (h : ∀ q ∈ p :: more, Spells q.1.toList q.2) :
    ∃ c rest, (Text.join "," ((p :: more).map Prod.fst)).toList = c :: rest ∧
      isSpace c = false ∧ c ≠ ']' := by
  obtain ⟨c, rest, hfirst, hspace, hne⟩ := (h p List.mem_cons_self).start
  cases more with
  | nil =>
      rw [List.map_singleton, Text.join, String.intercalate_singleton]
      exact ⟨c, rest, hfirst, hspace, hne⟩
  | cons second more =>
      rw [List.map_cons, List.map_cons, toList_join_cons, hfirst]
      exact ⟨c, _, rfl, hspace, hne⟩

/-- **A list is read as the list of what its items are read as.** -/
theorem spells_list {pairs : List (String × Tree)} (h : ∀ p ∈ pairs, Spells p.1.toList p.2) :
    Spells (enclosed .line "[" "]" (pairs.map Prod.fst)).toList (.list (pairs.map Prod.snd)) := by
  cases pairs with
  | nil =>
      refine ⟨⟨'[', _, rfl, rfl, by decide⟩, ?_⟩
      intro fuel rest hfuel _
      obtain ⟨fuel, rfl⟩ := Nat.exists_eq_add_of_lt hfuel
      rw [value?]
      rfl
  | cons p more =>
      have hne : (p :: more).map Prod.fst ≠ [] := List.cons_ne_nil _ _
      rw [toList_enclosed (show "[".toList = ['['] from rfl) (show "]".toList = [']'] from rfl) hne]
      refine ⟨⟨'[', _, rfl, rfl, by decide⟩, ?_⟩
      intro fuel rest hfuel _
      rw [List.length_cons, List.length_append, List.length_singleton] at hfuel
      cases fuel with
      | zero => cases hfuel
      | succ fuel =>
          obtain ⟨hskip, hopen⟩ := start_append (']' :: rest) (start_join h)
          rw [List.cons_append, List.append_assoc, List.singleton_append,
            value?_bracket hskip hopen, items?_join (List.cons_ne_nil _ _) h (by omega),
            Option.map_some]

/-! ## Maps -/

theorem value?_brace {fuel : Nat} (cs : List Char) :
    value? (fuel + 1) ('\x7b' :: '"' :: cs) =
      (fields? fuel ('"' :: cs) []).map fun p => (.map p.1, p.2) := by
  rw [value?]
  rfl

theorem putField_of_not_mem {α : Type} {name : String} (value : α) {found : List (String × α)}
    (h : name ∉ found.map Prod.fst) : putField name value found = found ++ [(name, value)] := by
  induction found with
  | nil => rfl
  | cons field found ih =>
      rw [List.map_cons, List.mem_cons, not_or] at h
      rw [putField, if_neg (by simpa using Ne.symm h.1), ih h.2, List.cons_append]

theorem toList_fieldText (name text : String) :
    (fieldText .line name text).toList =
      '"' :: (name.toList.flatMap stringChar ++ '"' :: ':' :: text.toList) := by
  rw [fieldText, String.toList_append, String.toList_append, toList_stringText]
  simp

section Field

variable {fuel : Nat} {t : Tree} {cs name after rest : List Char} {found : List (String × Tree)}

theorem fields?_last (hname : chars? (cs.length + 1) cs = some (name, ':' :: after))
    (hvalue : value? fuel after = some (t, '\x7d' :: rest)) :
    fields? (fuel + 1) ('"' :: cs) found =
      some (putField (String.ofList name) t found, rest) := by
  rw [fields?]
  change (chars? (cs.length + 1) cs >>= _) = _
  rw [hname]
  change (value? fuel after >>= _) = _
  rw [hvalue]
  rfl

theorem fields?_more (hname : chars? (cs.length + 1) cs = some (name, ':' :: after))
    (hvalue : value? fuel after = some (t, ',' :: rest)) :
    fields? (fuel + 1) ('"' :: cs) found =
      fields? fuel rest (putField (String.ofList name) t found) := by
  rw [fields?]
  change (chars? (cs.length + 1) cs >>= _) = _
  rw [hname]
  change (value? fuel after >>= _) = _
  rw [hvalue]
  rfl

end Field

/-- A field as it is written, the tree that is read, and how deep that is. -/
structure Field where
  name : String
  text : String
  tree : Tree
  height : Nat

namespace Field

/-- The field as text. -/
def written (f : Field) : String := fieldText .line f.name f.text

/-- The field as it is read. -/
def read (f : Field) : String × Tree := (f.name, f.tree)

/-- The field is read back. -/
structure Spelt (f : Field) : Prop where
  whole : Text.isWhole f.name = true
  spells : Spells f.text.toList f.tree
  levels : Levels f.text.toList f.height

variable {f : Field} {fuel : Nat} {found : List (String × Tree)}

theorem Spelt.reads (h : f.Spelt) (hfuel : f.written.toList.length < fuel) {rest : List Char}
    (hrest : EndsValue rest) :
    ∃ cs after, f.written.toList ++ rest = '"' :: cs ∧
      chars? (cs.length + 1) cs = some (f.name.toList, ':' :: after) ∧
      value? fuel after = some (f.tree, rest) := by
  rw [written, toList_fieldText, List.length_cons, List.length_append, List.length_cons,
    List.length_cons] at hfuel
  rw [written, toList_fieldText, List.cons_append, List.append_assoc, List.cons_append,
    List.cons_append]
  exact ⟨_, _, rfl, chars?_stringText h.whole _, h.spells.reads _ (by omega) hrest⟩

theorem Spelt.last (h : f.Spelt) (hfuel : f.written.toList.length < fuel) (rest : List Char) :
    fields? (fuel + 1) (f.written.toList ++ '\x7d' :: rest) found =
      some (putField f.name f.tree found, rest) := by
  obtain ⟨cs, after, htext, hname, hvalue⟩ := h.reads hfuel (endsValue_cons (.inr (.inr rfl)))
  rw [htext, fields?_last hname hvalue, String.ofList_toList]

theorem Spelt.more (h : f.Spelt) (hfuel : f.written.toList.length < fuel) (rest : List Char) :
    fields? (fuel + 1) (f.written.toList ++ ',' :: rest) found =
      fields? fuel rest (putField f.name f.tree found) := by
  obtain ⟨cs, after, htext, hname, hvalue⟩ := h.reads hfuel (endsValue_cons (.inl rfl))
  rw [htext, fields?_more hname hvalue, String.ofList_toList]

end Field

/-- The fields of a map are read one after the other. -/
theorem fields?_join {fields : List Field} (hne : fields ≠ []) (h : ∀ f ∈ fields, f.Spelt)
    {fuel : Nat} (hfuel : (Text.join "," (fields.map Field.written)).toList.length + 1 < fuel)
    (rest : List Char) {found : List (String × Tree)}
    (hnames : (found.map Prod.fst ++ fields.map Field.name).Nodup) :
    fields? fuel ((Text.join "," (fields.map Field.written)).toList ++ '\x7d' :: rest) found =
      some (found ++ fields.map Field.read, rest) := by
  induction fields generalizing fuel found with
  | nil => exact absurd rfl hne
  | cons f more ih =>
      rw [List.forall_mem_cons] at h
      have hnew : f.name ∉ found.map Prod.fst := by
        rw [List.nodup_append] at hnames
        exact fun hmem => hnames.2.2 _ hmem _ List.mem_cons_self rfl
      have hput : putField f.name f.tree found = found ++ [f.read] := putField_of_not_mem _ hnew
      cases fuel with
      | zero => cases hfuel
      | succ fuel =>
          cases more with
          | nil =>
              rw [List.map_singleton, Text.join, String.intercalate_singleton] at hfuel ⊢
              rw [h.1.last (by omega), hput, List.map_singleton]
          | cons g more =>
              rw [List.map_cons, List.map_cons, toList_join_cons, ← List.map_cons] at hfuel ⊢
              rw [List.length_append, List.length_cons] at hfuel
              have hnames' : ((found ++ [f.read]).map Prod.fst ++
                  (g :: more).map Field.name).Nodup := by
                rw [List.map_append, List.append_assoc]
                exact hnames
              rw [List.append_assoc, List.cons_append, h.1.more (by omega), hput,
                ih (List.cons_ne_nil _ _) h.2 (by omega) hnames', List.append_assoc]
              rfl

/-- **A map is read as the map of its fields.** -/
theorem spells_map {fields : List Field} (h : ∀ f ∈ fields, f.Spelt)
    (hnames : (fields.map Field.name).Nodup) :
    Spells (enclosed .line "\x7b" "\x7d" (fields.map Field.written)).toList
      (.map (fields.map Field.read)) := by
  cases fields with
  | nil =>
      refine ⟨⟨'\x7b', _, rfl, rfl, by decide⟩, ?_⟩
      intro fuel rest hfuel _
      obtain ⟨fuel, rfl⟩ := Nat.exists_eq_add_of_lt hfuel
      rw [value?]
      rfl
  | cons f more =>
      have hne : (f :: more).map Field.written ≠ [] := List.cons_ne_nil _ _
      rw [toList_enclosed (show "\x7b".toList = ['\x7b'] from rfl)
        (show "\x7d".toList = ['\x7d'] from rfl) hne]
      refine ⟨⟨'\x7b', _, rfl, rfl, by decide⟩, ?_⟩
      intro fuel rest hfuel _
      rw [List.length_cons, List.length_append, List.length_singleton] at hfuel
      have hquote : ∃ cs, (Text.join "," ((f :: more).map Field.written)).toList = '"' :: cs := by
        cases more with
        | nil =>
            rw [List.map_singleton, Text.join, String.intercalate_singleton, Field.written,
              toList_fieldText]
            exact ⟨_, rfl⟩
        | cons g more =>
            rw [List.map_cons, List.map_cons, toList_join_cons, Field.written, toList_fieldText]
            exact ⟨_, rfl⟩
      obtain ⟨cs, hcs⟩ := hquote
      cases fuel with
      | zero => cases hfuel
      | succ fuel =>
          have hread : fields? fuel _ [] = _ :=
            fields?_join (List.cons_ne_nil _ _) h (by omega) rest hnames
          rw [hcs] at hread ⊢
          rw [List.cons_append, List.append_assoc, List.singleton_append, List.cons_append,
            value?_brace, ← List.cons_append, hread]
          rfl

/-! ## Trees -/

mutual

/-- How deep lists and maps stand in each other in the text of a tree. -/
def height : Tree → Nat
  | .list items => itemHeight items + 1
  | .map fields => fieldHeight fields + 1
  | .intMap _ | .record _ | .element _ => 1
  | _ => 0

/-- The height of the items of a list. -/
def itemHeight : List Tree → Nat
  | [] => 0
  | item :: rest => max (height item) (itemHeight rest)

/-- The height of the fields of a map. -/
def fieldHeight : List (String × Tree) → Nat
  | [] => 0
  | (_, value) :: rest => max (height value) (fieldHeight rest)

end

/-- The number is read back as it is written. -/
def ReadsBack (x : Float) : Prop :=
  ∃ text, numberText? x = some text ∧ number? text.toList = some (x, [])

/-- The trees that JSON is read as, with whole texts and numbers that are read back. -/
inductive Plain : Tree → Prop
  | null : Plain .null
  | bool (b : Bool) : Plain (.bool b)
  | num {x : Float} (h : ReadsBack x) : Plain (.num x)
  | str {s : String} (h : Text.isWhole s = true) : Plain (.str s)
  | list {items : List Tree} (h : ∀ t ∈ items, Plain t) : Plain (.list items)
  | map {fields : List (String × Tree)} (hnames : (fields.map Prod.fst).Nodup)
      (hwhole : ∀ f ∈ fields, Text.isWhole f.1 = true) (h : ∀ f ∈ fields, Plain f.2) :
      Plain (.map fields)

/-- The trees that can be written and read: those of JSON data, and beside them what is written like
a number or a map. -/
inductive Legible : Tree → Prop
  | null : Legible .null
  | bool (b : Bool) : Legible (.bool b)
  | num {x : Float} (h : ReadsBack x) : Legible (.num x)
  | int {n : Int} {x : Float} (h : number? (toString n).toList = some (x, [])) : Legible (.int n)
  | str {s : String} (h : Text.isWhole s = true) : Legible (.str s)
  | list {items : List Tree} (h : ∀ t ∈ items, Legible t) : Legible (.list items)
  | map {fields : List (String × Tree)} (hnames : (fields.map Prod.fst).Nodup)
      (hwhole : ∀ f ∈ fields, Text.isWhole f.1 = true) (h : ∀ f ∈ fields, Legible f.2) :
      Legible (.map fields)
  | intMap {fields : List (Int × String)}
      (h : Legible (.map (fields.map fun f => (toString f.1, .str f.2)))) :
      Legible (.intMap fields)
  | record (n : Int) : Legible (.record n)
  | element (node : NodeId) : Legible (.element node)

theorem Plain.legible {t : Tree} (h : Plain t) : Legible t := by
  induction h with
  | null => exact .null
  | bool b => exact .bool b
  | num h => exact .num h
  | str h => exact .str h
  | list _ ih => exact .list ih
  | map hnames hwhole _ ih => exact .map hnames hwhole ih

/-- What is read for a tree: the same, except that the fields of maps are in order. -/
structure Returns (t t' : Tree) : Prop where
  text : ∀ label, t'.text label = t.text label
  kind : (Value.ofTree t').kind = (Value.ofTree t).kind
  scalar : (Value.ofTree t).kind ≠ .object → t' = t

theorem Returns.refl (t : Tree) : Returns t t := ⟨fun _ => rfl, rfl, fun _ => rfl⟩

/-- A tree is written, and another may be read for it. -/
structure Trip (t t' : Tree) (text : String) : Prop where
  written : write? .line t = some text
  spells : Spells text.toList t'
  levels : Levels text.toList (height t)

/-- A tree is written, and read again. -/
structure RoundTrip (t t' : Tree) (text : String) : Prop extends Trip t t' text where
  returns : Returns t t'

theorem levels_join_cons {first : String} {more : List String} {m n : Nat}
    (hfirst : Levels first.toList m) (hmore : Levels (Text.join "," more).toList n) :
    Levels (Text.join "," (first :: more)).toList (max m n) := by
  cases more with
  | nil =>
      rw [Text.join, String.intercalate_singleton, hmore.eq_zero, Nat.max_zero]
      exact hfirst
  | cons second more =>
      rw [toList_join_cons]
      have hcomma : Levels [','] 0 := .outside_of_all (by decide)
      have h := hfirst.append (hcomma.append hmore)
      rwa [Nat.zero_max] at h

theorem levels_enclosed {left right : String} {l r : Char} (hleft : left.toList = [l])
    (hright : right.toList = [r]) (hl : l = '[' ∨ l = '\x7b') (hr : r = ']' ∨ r = '\x7d')
    {items : List String} {n : Nat} (h : Levels (Text.join "," items).toList n) :
    Levels (enclosed .line left right items).toList (n + 1) := by
  have hparts : (enclosed .line left right items).toList =
      l :: ((Text.join "," items).toList ++ [r]) := by
    cases items with
    | nil => rw [enclosed, String.toList_append, hleft, hright]; rfl
    | cons first more => exact toList_enclosed hleft hright (List.cons_ne_nil _ _)
  rw [hparts]
  exact h.enclose hl hr

/-! ### Items -/

section List

variable {items : List Tree} {Q : Tree → Tree → Prop}

theorem trip_items (h : ∀ t ∈ items, ∃ t' text, Trip t t' text ∧ Q t t') :
    ∃ pairs : List (String × Tree), writeItems? .line items = some (pairs.map Prod.fst) ∧
      (∀ p ∈ pairs, Spells p.1.toList p.2) ∧
      Levels (Text.join "," (pairs.map Prod.fst)).toList (itemHeight items) ∧
      List.Forall₂ (fun p t => Q t p.2) pairs items := by
  induction items with
  | nil => exact ⟨[], rfl, nofun, .outside nofun, .nil⟩
  | cons t items ih =>
      rw [List.forall_mem_cons] at h
      obtain ⟨⟨t', text, htrip, hq⟩, hitems⟩ := h
      obtain ⟨pairs, hwritten, hspells, hlevels, hsame⟩ := ih hitems
      refine ⟨(text, t') :: pairs, ?_, ?_, ?_, .cons hq hsame⟩
      · rw [writeItems?, htrip.written, hwritten]
        rfl
      · exact List.forall_mem_cons.mpr ⟨htrip.spells, hspells⟩
      · exact levels_join_cons htrip.levels hlevels

/-- **A list is read as the list of what is read for its items.** -/
theorem trip_list (h : ∀ t ∈ items, ∃ t' text, Trip t t' text ∧ Q t t') :
    ∃ (pairs : List (String × Tree)) (text : String),
      Trip (.list items) (.list (pairs.map Prod.snd)) text ∧
      List.Forall₂ (fun p t => Q t p.2) pairs items := by
  obtain ⟨pairs, hwritten, hspells, hlevels, hsame⟩ := trip_items h
  refine ⟨pairs, enclosed .line "[" "]" (pairs.map Prod.fst), ⟨?_, spells_list hspells, ?_⟩, hsame⟩
  · rw [write?]
    change writeItems? .line items >>= _ = _
    rw [hwritten]
    rfl
  · exact levels_enclosed rfl rfl (.inl rfl) (.inl rfl) hlevels

end List

/-! ### Fields -/

namespace Field

/-- The fields in the order in which they are written. -/
def sorted (fields : List Field) : List Field :=
  fields.mergeSort fun a b => decide (a.name ≤ b.name)

theorem sortFields_map {α : Type} (value : Field → α) (fields : List Field) :
    Tree.sortFields (fields.map fun f => (f.name, value f)) =
      (sorted fields).map fun f => (f.name, value f) := by
  unfold Tree.sortFields sorted
  rw [List.map_mergeSort]
  intro a _ b _
  rfl

theorem sorted_sorted (fields : List Field) : sorted (sorted fields) = sorted fields := by
  refine List.mergeSort_of_pairwise (List.pairwise_mergeSort ?_ ?_ fields)
  · intro a b c hab hbc
    rw [decide_eq_true_eq] at hab hbc ⊢
    exact String.le_trans hab hbc
  · intro a b
    rw [Bool.or_eq_true, decide_eq_true_eq, decide_eq_true_eq]
    exact String.le_total a.name b.name

theorem Spelt.levels_written {f : Field} (h : f.Spelt) : Levels f.written.toList f.height := by
  have hcolon : Levels [':'] 0 := .outside_of_all (by decide)
  have hall := (Levels.string h.whole).append (hcolon.append h.levels)
  rw [Nat.zero_max, Nat.zero_max] at hall
  rw [written, fieldText, String.toList_append, String.toList_append, List.append_assoc]
  exact hall

theorem levels_join {fields : List Field} (h : ∀ f ∈ fields, f.Spelt) :
    Levels (Text.join "," (fields.map written)).toList ((fields.map Field.height).foldr max 0) := by
  induction fields with
  | nil => exact .outside nofun
  | cons f fields ih =>
      rw [List.forall_mem_cons] at h
      exact levels_join_cons h.1.levels_written (ih h.2)

end Field

section Map

variable {fields : List (String × Tree)} {Q : Tree → Tree → Prop}

theorem trip_fields (hwhole : ∀ f ∈ fields, Text.isWhole f.1 = true)
    (h : ∀ f ∈ fields, ∃ t' text, Trip f.2 t' text ∧ Q f.2 t') :
    ∃ spelt : List Field,
      writeFields? .line fields = some (spelt.map fun f => (f.name, f.text)) ∧
      (∀ f ∈ spelt, f.Spelt) ∧ (spelt.map Field.height).foldr max 0 = fieldHeight fields ∧
      List.Forall₂ (fun f field => f.name = field.1 ∧ Q field.2 f.tree) spelt fields := by
  induction fields with
  | nil => exact ⟨[], rfl, nofun, rfl, .nil⟩
  | cons field fields ih =>
      rw [List.forall_mem_cons] at h hwhole
      obtain ⟨⟨t', text, htrip, hq⟩, hfields⟩ := h
      obtain ⟨spelt, hwritten, hspelt, hheight, hsame⟩ := ih hwhole.2 hfields
      obtain ⟨name, t⟩ := field
      refine ⟨⟨name, text, t', height t⟩ :: spelt, ?_, ?_, ?_, .cons ⟨rfl, hq⟩ hsame⟩
      · rw [writeFields?, htrip.written, hwritten]
        rfl
      · exact List.forall_mem_cons.mpr ⟨⟨hwhole.1, htrip.spells, htrip.levels⟩, hspelt⟩
      · rw [List.map_cons, List.foldr_cons, hheight, fieldHeight]

/-- **A map is read as the map of what is read for its fields**, in order. -/
theorem trip_map (hnames : (fields.map Prod.fst).Nodup)
    (hwhole : ∀ f ∈ fields, Text.isWhole f.1 = true)
    (h : ∀ f ∈ fields, ∃ t' text, Trip f.2 t' text ∧ Q f.2 t') :
    ∃ (spelt : List Field) (text : String),
      Trip (.map fields) (.map ((Field.sorted spelt).map Field.read)) text ∧
      List.Forall₂ (fun f field => f.name = field.1 ∧ Q field.2 f.tree) spelt fields := by
  obtain ⟨spelt, hwritten, hspelt, hheight, hsame⟩ := trip_fields hwhole h
  have hperm : (Field.sorted spelt).Perm spelt := List.mergeSort_perm _ _
  have hsorted : ∀ f ∈ Field.sorted spelt, f.Spelt := fun f hf => hspelt f (hperm.mem_iff.mp hf)
  have hread : spelt.map Field.name = fields.map Prod.fst := by
    rw [← List.forall₂_eq_eq_eq, List.forall₂_map_left_iff, List.forall₂_map_right_iff]
    exact hsame.imp fun _ _ hq => hq.1
  refine ⟨spelt, enclosed .line "\x7b" "\x7d" ((Field.sorted spelt).map Field.written),
    ⟨?_, spells_map hsorted ?_, ?_⟩, hsame⟩
  · rw [write?]
    change writeFields? .line fields >>= _ = _
    rw [hwritten]
    change some (enclosed .line _ _ ((Tree.sortFields _).map _)) = _
    rw [Field.sortFields_map, List.map_map]
    rfl
  · rw [(hperm.map Field.name).nodup_iff, hread]
    exact hnames
  · rw [height, ← hheight, ← (hperm.map Field.height).foldr_eq]
    exact levels_enclosed rfl rfl (.inr rfl) (.inr rfl) (Field.levels_join hsorted)

end Map

theorem write?_intMap (fields : List (Int × String)) :
    write? .line (.intMap fields) =
      write? .line (.map (fields.map fun f => (toString f.1, .str f.2))) := by
  have hfields : writeFields? .line (fields.map fun f => (toString f.1, .str f.2)) =
      some (fields.map fun f => (toString f.1, stringText f.2)) := by
    induction fields with
    | nil => rfl
    | cons f fields ih =>
        rw [List.map_cons, writeFields?, ih]
        rfl
  rw [write?, write?]
  change _ = writeFields? .line _ >>= _
  rw [hfields]
  rfl

theorem height_intMap (fields : List (Int × String)) :
    height (.map (fields.map fun f => (toString f.1, .str f.2))) = height (.intMap fields) := by
  rw [height, height]
  induction fields with
  | nil => rfl
  | cons f fields ih =>
      rw [List.map_cons, fieldHeight, height, Nat.zero_max]
      · exact ih
      all_goals nofun

theorem trip_empty {t : Tree} (hwritten : write? .line t = some "\x7b\x7d") (hheight : height t = 1) :
    Trip t (.map []) "\x7b\x7d" := by
  have htext : enclosed .line "\x7b" "\x7d" [] = "\x7b\x7d" := by decide
  refine ⟨hwritten, ?_, ?_⟩
  · rw [← htext]
    exact @spells_map [] (fun _ h => absurd h List.not_mem_nil) List.nodup_nil
  · have hnone : Levels (Text.join "," []).toList 0 := .outside_of_all (by decide)
    rw [hheight, ← htext]
    exact levels_enclosed rfl rfl (.inr rfl) (.inr rfl) hnone

/-! ### All trees -/

theorem itemTexts_of_returns (label : NodeId → String) {pairs : List (String × Tree)}
    {items : List Tree} (h : List.Forall₂ (fun p t => Plain t → Returns t p.2) pairs items)
    (hplain : ∀ t ∈ items, Plain t) :
    Tree.itemTexts label (pairs.map Prod.snd) = Tree.itemTexts label items := by
  induction h with
  | nil => rfl
  | cons hfirst _ ih =>
      rw [List.forall_mem_cons] at hplain
      rw [List.map_cons, Tree.itemTexts, Tree.itemTexts, (hfirst hplain.1).text, ih hplain.2]

theorem fieldTexts_read (label : NodeId → String) (fields : List Field) :
    Tree.fieldTexts label (fields.map Field.read) =
      fields.map fun f => (f.name, f.tree.text label) := by
  induction fields with
  | nil => rfl
  | cons f fields ih => rw [List.map_cons, Field.read, Tree.fieldTexts, ih, List.map_cons]

theorem fieldTexts_of_returns (label : NodeId → String) {spelt : List Field}
    {fields : List (String × Tree)}
    (h : List.Forall₂ (fun f field => f.name = field.1 ∧ (Plain field.2 → Returns field.2 f.tree))
      spelt fields)
    (hplain : ∀ f ∈ fields, Plain f.2) :
    (spelt.map fun f => (f.name, f.tree.text label)) = Tree.fieldTexts label fields := by
  induction h with
  | nil => rfl
  | cons hfirst _ ih =>
      rw [List.forall_mem_cons] at hplain
      rw [List.map_cons, Tree.fieldTexts, ih hplain.2, hfirst.1, (hfirst.2 hplain.1).text]

/-- **A legible tree can be read**, and JSON data is read back, with the fields of its maps in
order. -/
theorem exists_trip {t : Tree} (h : Legible t) :
    ∃ t' text, Trip t t' text ∧ (Plain t → Returns t t') := by
  induction h with
  | null => exact ⟨.null, "null", ⟨rfl, spells_null, .outside_of_all (by decide)⟩, fun _ => .refl _⟩
  | bool b =>
      exact ⟨.bool b, _, ⟨rfl, spells_bool b, .outside_of_all (by cases b <;> decide)⟩, fun _ => .refl _⟩
  | @num x h =>
      obtain ⟨text, hwritten, hread⟩ := h
      exact ⟨.num x, text, ⟨hwritten, spells_number hread, levels_number hread⟩, fun _ => .refl _⟩
  | @int n x h => exact ⟨.num x, _, ⟨rfl, spells_number h, levels_number h⟩, nofun⟩
  | @str s h => exact ⟨.str s, _, ⟨rfl, spells_string h, .string h⟩, fun _ => .refl _⟩
  | list _ ih =>
      obtain ⟨pairs, text, htrip, hsame⟩ :=
        trip_list (Q := fun t t' => Plain t → Returns t t') ih
      refine ⟨_, text, htrip, fun hplain => ?_⟩
      cases hplain with
      | list hitems =>
          refine ⟨fun label => ?_, rfl, fun hkind => absurd rfl hkind⟩
          rw [Tree.text, Tree.text, itemTexts_of_returns label hsame hitems]
  | map hnames hwhole _ ih =>
      obtain ⟨spelt, text, htrip, hsame⟩ :=
        trip_map (Q := fun t t' => Plain t → Returns t t') hnames hwhole ih
      refine ⟨_, text, htrip, fun hplain => ?_⟩
      cases hplain with
      | map _ _ hfields =>
          refine ⟨fun label => ?_, rfl, fun hkind => absurd rfl hkind⟩
          rw [Tree.text, Tree.text, fieldTexts_read, ← fieldTexts_of_returns label hsame hfields,
            Field.sortFields_map, Field.sortFields_map, Field.sorted_sorted]
  | @intMap fields _ ih =>
      obtain ⟨t', text, htrip, -⟩ := ih
      refine ⟨t', text, ⟨write?_intMap fields ▸ htrip.written, htrip.spells, ?_⟩, nofun⟩
      rw [← height_intMap]
      exact htrip.levels
  | record n => exact ⟨_, _, trip_empty (by rw [write?]) rfl, nofun⟩
  | element node => exact ⟨_, _, trip_empty (by rw [write?]) rfl, nofun⟩

/-- **A tree of JSON data is read back**, with the fields of its maps in order. -/
theorem exists_roundTrip {t : Tree} (h : Plain t) : ∃ t' text, RoundTrip t t' text := by
  obtain ⟨t', text, htrip, hreturns⟩ := exists_trip h.legible
  exact ⟨t', text, htrip, hreturns h⟩

theorem Levels.deepest_eq {cs : List Char} {n : Nat} (h : Levels cs n) :
    deepest cs false 0 0 = n := by
  have hall := h [] (Nat.le_refl 0)
  rw [List.append_nil, Nat.zero_add, Nat.zero_max] at hall
  exact hall

theorem parse?_of_spells {text : String} {t : Tree} {n : Nat} (h : Spells text.toList t)
    (hlevels : Levels text.toList n) (hn : n ≤ depthLimit) : parse? text = some t := by
  have hread : value? (text.toList.length + 1) text.toList = some (t, []) := by
    have hall := h.reads [] (Nat.lt_succ_self _) nofun
    rwa [List.append_nil] at hall
  unfold parse?
  dsimp only
  rw [hlevels.deepest_eq, if_neg (by omega), hread]
  rfl

/-- **The text of a tree is read as a whole** if it does not go too deep. -/
theorem Trip.parse? {t t' : Tree} {text : String} (h : Trip t t' text)
    (hheight : height t ≤ depthLimit) : parse? text = some t' :=
  parse?_of_spells h.spells h.levels hheight

theorem Trip.parse?_eq_none {t t' : Tree} {text : String} (h : Trip t t' text)
    (hheight : depthLimit < height t) : Json.parse? text = none := by
  unfold Json.parse?
  dsimp only
  rw [h.levels.deepest_eq, if_pos hheight]

end PageMacro.Json
