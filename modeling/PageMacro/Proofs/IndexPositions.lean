import Mathlib.Data.List.Forall2
import PageMacro.Selector

/-!
# The positions an index expression selects

What an expression should select is said by `Index.Selects`, without the loop that finds it. A slice
selects every position between its bounds that is a number of steps away from the lower one. The
loop adds the step to a 64-bit integer, and that is the one thing that can go wrong: from a selected
position near enough to the greatest word the next sum wraps around to a negative number, which is
still below the upper bound and so is taken for a position (`Index.Overruns`).

`Index.Loop` is the loop without a limit on its rounds. Every walk below is first a fact about the
loop; `walk_of_loop` then says that the rounds `Index.apply` allows are enough.
-/

namespace PageMacro

/-! ## Words -/

namespace Word

theorem wrap_of_fits {n : Int} (hlow : least ≤ n) (hhigh : n < half) : wrap n = n := by
  unfold least half at *
  unfold wrap count
  exact Int.bmod_eq_of_le_mul_two (by omega) (by omega)

theorem wrap_of_over {n : Int} (hlow : half ≤ n) (hhigh : n < half + half) :
    wrap n = n - count := by
  unfold half at *
  have hback : wrap (n - count) = n - count := by
    refine wrap_of_fits ?_ ?_
    · unfold least count
      omega
    · unfold half count
      omega
  rw [← hback]
  exact (Int.sub_bmod_right n count).symm

end Word

namespace Index

/-! ## What an expression selects -/

/-- A field that is a whole number with an optional sign, within 64 bits. -/
def Writes (field : String) (n : Int) : Prop :=
  Word.fits n = true ∧ ∃ sign digits, Text.trimChars field.toList = sign ++ digits ∧
    digits ≠ [] ∧ (∀ c ∈ digits, c.isDigit = true) ∧
    ((sign = [] ∨ sign = ['+']) ∧ n = Decimal.natOfDigits digits ∨
      sign = ['-'] ∧ n = -(Decimal.natOfDigits digits : Int))

/-- Whether an expression writes a list. -/
def IsList (expression : String) : Prop := ',' ∈ (Text.trim expression).toList

/-- Whether an expression writes a slice. -/
def IsSlice (expression : String) : Prop :=
  ¬ IsList expression ∧ ':' ∈ (Text.trim expression).toList

/-- The number in a field of a slice, if there is one. -/
def fieldAt (expression : String) (i : Nat) : Option Int :=
  ((Text.splitAtChar ':' (Text.trim expression))[i]?).bind parseInt?

/-- A bound of a slice among `count` matches, no lower than the first and no higher than the
end. -/
def clamped (count : Nat) (n : Int) : Int := max 0 (min count (fromEnd count n))

/-- Where a slice starts; at the first match unless it says so. -/
def lower (count : Nat) (expression : String) : Int :=
  clamped count ((fieldAt expression 0).getD 0)

/-- Where a slice stops; behind the last match unless it says so. -/
def upper (count : Nat) (expression : String) : Int :=
  clamped count ((fieldAt expression 1).getD count)

/-- How far a slice steps; a step that is missing, no number or not positive counts as one. -/
def stride (expression : String) : Int :=
  match fieldAt expression 2 with
  | some n => if 0 < n then n else 1
  | none => 1

/-- A position of a slice. -/
def InSlice (lo hi step p : Int) : Prop := lo ≤ p ∧ p < hi ∧ step ∣ p - lo

/-- The position a written number stands for among `count` matches. -/
def position? (count : Nat) (written : Int) : Option Int :=
  if 0 ≤ fromEnd count written ∧ fromEnd count written < count then
    some (fromEnd count written)
  else none

/-- The positions that an expression should select among `count` matches. -/
inductive Selects (count : Nat) (expression : String) : List Int → Prop where
  /-- An expression that is no number selects every match. -/
  | every : ¬ IsList expression → ¬ IsSlice expression →
      (∀ n, ¬ Writes (Text.trim expression) n) →
      Selects count expression ((List.range count).map Int.ofNat)
  /-- A number selects the match there, if there is one. -/
  | single {n : Int} : ¬ IsList expression → ¬ IsSlice expression →
      Writes (Text.trim expression) n → Selects count expression (position? count n).toList
  /-- A list selects in the order written; what is no number or no match is passed over. -/
  | list : IsList expression →
      Selects count expression
        (((Text.splitAtChar ',' (Text.trim expression)).filterMap parseInt?).filterMap
          (position? count))
  /-- A slice selects its positions in increasing order, each once. -/
  | slice {ps : List Int} : IsSlice expression → ps.Pairwise (· < ·) →
      (∀ p, p ∈ ps ↔ InSlice (lower count expression) (upper count expression) (stride expression) p) →
      Selects count expression ps

/-- A step of a slice leads out of the 64-bit integers. -/
def Overruns (count : Nat) (expression : String) : Prop :=
  IsSlice expression ∧ ∃ p, InSlice (lower count expression) (upper count expression)
    (stride expression) p ∧ Word.half ≤ p + stride expression

theorem lower_nonneg (count : Nat) (expression : String) : 0 ≤ lower count expression := by
  unfold lower clamped
  omega

theorem upper_le (count : Nat) (expression : String) : upper count expression ≤ count := by
  unfold upper clamped
  omega

theorem position?_eq_some {count : Nat} {written p : Int} (h : position? count written = some p) :
    0 ≤ p ∧ p < count := by
  unfold position? at h
  split at h
  · rename_i hexists
    rw [← Option.some.inj h]
    exact hexists
  · cases h

/-- **What an expression should select are positions of matches.** -/
theorem Selects.mem {count : Nat} {expression : String} {ps : List Int}
    (h : Selects count expression ps) : ∀ p ∈ ps, 0 ≤ p ∧ p < count := by
  intro p hp
  cases h with
  | every _ _ _ =>
      obtain ⟨i, hi, rfl⟩ := List.mem_map.mp hp
      have hlt : i < count := List.mem_range.mp hi
      exact ⟨Int.natCast_nonneg i, Int.ofNat_lt.mpr hlt⟩
  | single _ _ _ => exact position?_eq_some (Option.mem_toList.mp hp)
  | list _ =>
      obtain ⟨written, _, hwritten⟩ := List.mem_filterMap.mp hp
      exact position?_eq_some hwritten
  | slice _ _ hmem =>
      obtain ⟨hlow, hhigh, _⟩ := (hmem p).mp hp
      have hnonneg := lower_nonneg count expression
      have hle := upper_le count expression
      omega

/-! ## The loop -/

/-- The loop from a position, without a limit on its rounds: what it selects before it stops. -/
inductive Loop (stop step : Int) : Int → List Int → Prop where
  | done {p : Int} : stop ≤ p → Loop stop step p []
  | next {p : Int} {ps : List Int} : p < stop → Loop stop step (Word.wrap (p + step)) ps →
      Loop stop step p (p :: ps)

/-- **As many rounds as the loop takes are enough.** -/
theorem walk_of_loop {stop step p : Int} {ps : List Int} (h : Loop stop step p ps) :
    ∀ {fuel : Nat}, ps.length ≤ fuel → walk stop step fuel p = ps := by
  induction h with
  | done hstop =>
      intro fuel _
      cases fuel with
      | zero => rfl
      | succ fuel => rw [walk, if_neg (by omega)]
  | next hp _ ih =>
      intro fuel hfuel
      cases fuel with
      | zero => exact absurd hfuel (by simp)
      | succ fuel =>
          have hrest := ih (Nat.le_of_succ_le_succ hfuel)
          rw [walk, if_pos hp, hrest]

variable {stop step : Int}

/-- The positions of a slice after its first are those of the slice one step on. -/
theorem inSlice_next (hstep : 0 < step) {p q : Int} :
    InSlice (p + step) stop step q ↔ InSlice p stop step q ∧ q ≠ p := by
  have hshift : q - (p + step) = q - p - step := by omega
  constructor
  · rintro ⟨hlow, hhigh, hd⟩
    rw [hshift] at hd
    have hback : step ∣ q - p - step + step := Int.dvd_add hd (Int.dvd_refl step)
    rw [Int.sub_add_cancel] at hback
    exact ⟨⟨by omega, hhigh, hback⟩, by omega⟩
  · rintro ⟨⟨hlow, hhigh, hd⟩, hne⟩
    have hfar : step ≤ q - p := Int.le_of_dvd (by omega) hd
    refine ⟨by omega, hhigh, ?_⟩
    rw [hshift]
    exact Int.dvd_sub hd (Int.dvd_refl step)

theorem not_inSlice_of_le {p q : Int} (h : stop ≤ p) : ¬ InSlice p stop step q := by
  intro hq
  have hlow := hq.1
  have hhigh := hq.2.1
  omega

/-- A loop that does not overrun selects the positions of its slice. -/
theorem loop_of_fits (hstep : 0 < step) :
    ∀ (n : Nat) (p : Int), 0 ≤ p → stop - p ≤ n →
      (∀ q, InSlice p stop step q → q + step < Word.half) →
      ∃ ps, Loop stop step p ps ∧ ps.length ≤ n ∧ ps.Pairwise (· < ·) ∧
        ∀ q, q ∈ ps ↔ InSlice p stop step q := by
  intro n
  induction n with
  | zero =>
      intro p hp hn _
      refine ⟨[], .done (by omega), Nat.le_refl 0, List.Pairwise.nil, fun q => ?_⟩
      have hnone : ¬ InSlice p stop step q := not_inSlice_of_le (by omega)
      simp [hnone]
  | succ n ih =>
      intro p hp hn hfits
      by_cases hstop : p < stop
      · -- this position is one of the slice, so that the step from it does not wrap around
        have hself : InSlice p stop step p := ⟨Int.le_refl p, hstop, by simp⟩
        have hsum := hfits p hself
        have hwrap : Word.wrap (p + step) = p + step := by
          refine Word.wrap_of_fits ?_ hsum
          unfold Word.least
          omega
        obtain ⟨ps, hloop, hlen, hsorted, hmem⟩ := ih (p + step) (by omega) (by omega)
          fun q hq => hfits q ((inSlice_next hstep).mp hq).1
        refine ⟨p :: ps, .next hstop (by rw [hwrap]; exact hloop), ?_, ?_, fun q => ?_⟩
        · simpa using hlen
        · refine List.pairwise_cons.mpr ⟨fun q hq => ?_, hsorted⟩
          have hlow := ((hmem q).mp hq).1
          omega
        · rw [List.mem_cons, hmem q, inSlice_next hstep]
          by_cases hq : q = p
          · simp [hq, hself]
          · simp [hq]
      · refine ⟨[], .done (by omega), Nat.zero_le _, List.Pairwise.nil, fun q => ?_⟩
        have hnone : ¬ InSlice p stop step q := not_inSlice_of_le (by omega)
        simp [hnone]

/-- **A walk that overruns selects a negative number.** -/
theorem mem_walk_of_overruns (hstep : 0 < step) (hsmall : step < Word.half)
    (hstop : stop < Word.half) :
    ∀ (fuel : Nat) (p : Int), 0 ≤ p → stop - p + 1 ≤ fuel →
      (∃ q, InSlice p stop step q ∧ Word.half ≤ q + step) →
      ∃ q ∈ walk stop step fuel p, q < 0 := by
  have hcount : (Word.count : Int) = 2 * Word.half := rfl
  intro fuel
  induction fuel with
  | zero =>
      rintro p _ hfuel ⟨q, ⟨hlow, hhigh, _⟩, _⟩
      omega
  | succ fuel ih =>
      rintro p hp hfuel ⟨q, hq, hover⟩
      have hlow := hq.1
      have hhigh := hq.2.1
      rw [walk, if_pos (by omega)]
      by_cases hsum : p + step < Word.half
      · -- the step from here is harmless, so the overrun is further on
        have hne : q ≠ p := by
          rintro rfl
          omega
        have hnext : InSlice (p + step) stop step q := (inSlice_next hstep).mpr ⟨hq, hne⟩
        have hwrap : Word.wrap (p + step) = p + step := by
          refine Word.wrap_of_fits ?_ hsum
          unfold Word.least
          omega
        obtain ⟨r, hr, hneg⟩ := ih (p + step) (by omega) (by omega) ⟨q, hnext, hover⟩
        exact ⟨r, List.mem_cons_of_mem _ (by rw [hwrap]; exact hr), hneg⟩
      · -- the sum wraps around to a number below zero, and so below the upper bound
        have hwrap : Word.wrap (p + step) = p + step - Word.count :=
          Word.wrap_of_over (by omega) (by omega)
        have hneg : p + step - Word.count < 0 := by omega
        obtain ⟨more, rfl⟩ : ∃ more, fuel = more + 1 := ⟨fuel - 1, by omega⟩
        refine ⟨p + step - Word.count, List.mem_cons_of_mem _ ?_, hneg⟩
        rw [hwrap, walk, if_pos (by omega)]
        exact List.mem_cons_self

/-- More matches than fit any memory. -/
def mostMatches : Nat := 0x2000000000000000

/-- **A loop over matches that fit a memory stops**, also when its steps wrap around: two steps that
wrap take it back by twice what the step falls short of the greatest word. -/
theorem loop_of_large_step (hsmall : step < Word.half) (hlarge : (Word.half : Int) ≤ step + stop)
    (hstop : stop ≤ mostMatches) :
    ∀ (n : Nat) (p : Int), 0 ≤ p → p ≤ n → p < stop →
      ∃ ps, Loop stop step p ps ∧ ps.length ≤ n + 3 := by
  have hhalf : (Word.half : Int) = 4 * mostMatches := rfl
  have hcount : (Word.count : Int) = 8 * mostMatches := rfl
  have hleast : Word.least = -(4 * mostMatches) := rfl
  intro n
  induction n using Nat.strongRecOn with
  | ind n ih =>
      intro p hp hn hlt
      by_cases hsum : p + step < Word.half
      · have hwrap : Word.wrap (p + step) = p + step := Word.wrap_of_fits (by omega) hsum
        refine ⟨[p], .next hlt ?_, by simp⟩
        rw [hwrap]
        exact .done (by omega)
      · -- the sum wraps around, and the next step leads back to where `back` says
        have hwrap : Word.wrap (p + step) = p + step - Word.count :=
          Word.wrap_of_over (by omega) (by omega)
        obtain ⟨back, hback⟩ : ∃ back, back = p + step - Word.count + step := ⟨_, rfl⟩
        have hreturn : Word.wrap (p + step - Word.count + step) = back := by
          rw [← hback]
          exact Word.wrap_of_fits (by omega) (by omega)
        by_cases hpos : 0 ≤ back
        · -- `back` is at least two lower than `p`, so two more rounds are paid for
          obtain ⟨ps, hloop, hlen⟩ := ih (n - 2) (by omega) back hpos (by omega) (by omega)
          refine ⟨p :: (p + step - Word.count) :: ps, .next hlt ?_, ?_⟩
          · rw [hwrap]
            exact .next (by omega) (by rw [hreturn]; exact hloop)
          · simp only [List.length_cons]
            omega
        · -- from below zero one more step leads behind the upper bound
          have hlast : Word.wrap (back + step) = back + step :=
            Word.wrap_of_fits (by omega) (by omega)
          refine ⟨[p, p + step - Word.count, back], .next hlt ?_, by simp⟩
          rw [hwrap]
          refine .next (by omega) ?_
          rw [hreturn]
          refine .next (by omega) ?_
          rw [hlast]
          exact .done (by omega)

/-! ## Reading an expression -/

theorem takeSign_cases (cs : List Char) :
    ∃ sign, cs = sign ++ (Decimal.takeSign cs).2 ∧
      ((sign = [] ∨ sign = ['+']) ∧ (Decimal.takeSign cs).1 = false ∨
        sign = ['-'] ∧ (Decimal.takeSign cs).1 = true) := by
  unfold Decimal.takeSign
  split
  · exact ⟨['+'], rfl, .inl ⟨.inr rfl, rfl⟩⟩
  · exact ⟨['-'], rfl, .inr ⟨rfl, rfl⟩⟩
  · exact ⟨[], rfl, .inl ⟨.inl rfl, rfl⟩⟩

theorem takeSign_of_digits {digits : List Char} (hne : digits ≠ [])
    (hdigits : ∀ c ∈ digits, c.isDigit = true) : Decimal.takeSign digits = (false, digits) := by
  cases digits with
  | nil => exact absurd rfl hne
  | cons c rest =>
      have hc := hdigits c List.mem_cons_self
      unfold Decimal.takeSign
      split
      · rename_i heq
        rw [(List.cons.inj heq).1] at hc
        exact absurd hc (by decide)
      · rename_i heq
        rw [(List.cons.inj heq).1] at hc
        exact absurd hc (by decide)
      · rfl

/-- **A field is read as the number it writes.** -/
theorem parseInt?_eq_some_iff {field : String} {n : Int} :
    parseInt? field = some n ↔ Writes field n := by
  unfold parseInt? Writes
  dsimp only
  constructor
  · intro h
    obtain ⟨sign, hcut, hsign⟩ := takeSign_cases (Text.trimChars field.toList)
    generalize Decimal.takeSign (Text.trimChars field.toList) = taken at h hcut hsign
    obtain ⟨negative, digits⟩ := taken
    dsimp only at h hcut hsign
    by_cases hdigits : digits = [] ∨ ¬ ∀ c ∈ digits, c.isDigit = true
    · rw [if_pos (by simpa using hdigits)] at h
      cases h
    · obtain ⟨hne, hall⟩ := not_or.mp hdigits
      rw [if_neg (by simpa using hdigits)] at h
      obtain ⟨hfits, hn⟩ := Option.ite_none_right_eq_some.mp h
      obtain rfl := Option.some.inj hn
      refine ⟨hfits, sign, digits, hcut, hne, Decidable.not_not.mp hall, ?_⟩
      rcases hsign with ⟨hplain, rfl⟩ | ⟨hminus, rfl⟩
      · exact .inl ⟨hplain, rfl⟩
      · exact .inr ⟨hminus, rfl⟩
  · rintro ⟨hfits, sign, digits, hcut, hne, hdigits, hsign⟩
    have htake : ∃ negative, Decimal.takeSign (Text.trimChars field.toList) = (negative, digits) ∧
        n = if negative = true then -(Decimal.natOfDigits digits : Int)
          else Decimal.natOfDigits digits := by
      rw [hcut]
      rcases hsign with ⟨rfl | rfl, hn⟩ | ⟨rfl, hn⟩
      · exact ⟨false, takeSign_of_digits hne hdigits, hn⟩
      · exact ⟨false, rfl, hn⟩
      · exact ⟨true, rfl, hn⟩
    obtain ⟨negative, htaken, hn⟩ := htake
    rw [htaken, if_neg (by simpa [hne] using hdigits), ← hn, if_pos hfits]

theorem lt_half_of_writes {field : String} {n : Int} (h : Writes field n) : n < Word.half := by
  have hfits := h.1
  unfold Word.fits at hfits
  simp only [Bool.and_eq_true, decide_eq_true_eq] at hfits
  exact hfits.2

theorem stride_pos (expression : String) : 0 < stride expression := by
  unfold stride
  split
  · split <;> omega
  · omega

theorem stride_lt (expression : String) : stride expression < Word.half := by
  have hone : (1 : Int) < Word.half := by
    unfold Word.half
    omega
  unfold stride
  cases hfield : fieldAt expression 2 with
  | none => exact hone
  | some n =>
      obtain ⟨field, _, hread⟩ := Option.bind_eq_some_iff.mp hfield
      have hlt : n < Word.half := lt_half_of_writes (parseInt?_eq_some_iff.mp hread)
      dsimp only
      by_cases hn : 0 < n
      · rw [if_pos hn]
        exact hlt
      · rw [if_neg hn]
        exact hone

theorem parse_of_isList {expression : String} (h : IsList expression) :
    parse expression =
      .list ((Text.splitAtChar ',' (Text.trim expression)).filterMap parseInt?) := by
  unfold IsList at h
  have hne : (Text.trim expression).isEmpty = false := by
    rw [String.isEmpty_eq_false_iff]
    rintro hempty
    rw [hempty] at h
    exact absurd h List.not_mem_nil
  unfold parse
  dsimp only
  rw [if_neg (by simp [hne]), if_pos (by simpa using h)]

theorem parse_of_isSlice {expression : String} (h : IsSlice expression) :
    parse expression =
      .slice (fieldAt expression 0) (fieldAt expression 1) (stride expression) := by
  obtain ⟨hlist, hcolon⟩ := h
  unfold IsList at hlist
  have hne : (Text.trim expression).isEmpty = false := by
    rw [String.isEmpty_eq_false_iff]
    rintro hempty
    rw [hempty] at hcolon
    exact absurd hcolon List.not_mem_nil
  have hfield : ∀ i, (((Text.splitAtChar ':' (Text.trim expression)).map parseInt?)[i]?).bind id =
      fieldAt expression i := by
    intro i
    rw [List.getElem?_map, Option.bind_map]
    rfl
  have hstep : ((fieldAt expression 2).filter fun n => 0 < n).getD 1 = stride expression := by
    unfold stride
    cases fieldAt expression 2 with
    | none => rfl
    | some n => by_cases hn : 0 < n <;> simp [Option.filter, hn]
  unfold parse
  dsimp only
  rw [if_neg (by simp [hne]), if_neg (by simpa using hlist), if_pos (by simpa using hcolon),
    hfield, hfield, hfield, hstep]

theorem parse_of_plain {expression : String} (hlist : ¬ IsList expression)
    (hslice : ¬ IsSlice expression) :
    parse expression = ((parseInt? (Text.trim expression)).map Index.single).getD .all := by
  have hcolon : ':' ∉ (Text.trim expression).toList := fun h => hslice ⟨hlist, h⟩
  unfold IsList at hlist
  unfold parse
  dsimp only
  by_cases hempty : Text.trim expression = ""
  · rw [hempty]
    rfl
  · rw [if_neg (by simpa using hempty), if_neg (by simpa using hlist),
      if_neg (by simpa using hcolon)]
    cases parseInt? (Text.trim expression) <;> rfl

theorem pick_eq (count : Nat) (positions : List Int) :
    pick count positions = positions.filterMap (position? count) := by
  unfold pick
  induction positions with
  | nil => rfl
  | cons written rest ih =>
      rw [List.map_cons, List.filterMap_cons, ← ih]
      unfold position?
      by_cases h : 0 ≤ fromEnd count written ∧ fromEnd count written < count
      · rw [if_pos h, List.filter_cons_of_pos (by simpa using h)]
      · rw [if_neg h, List.filter_cons_of_neg (by simpa using h)]

/-! ## What is selected -/

/-- The loop of a slice stops by itself, with the positions that `apply` gives. -/
def Stops (index : Index) (count : Nat) : Prop :=
  ∀ start stop step, index = .slice start stop step →
    Loop (min (count : Int) (fromEnd count (stop.getD count))) step
      (max 0 (fromEnd count (start.getD 0))) (index.apply count)

theorem apply_slice (count : Nat) (start stop : Option Int) (step : Int) :
    (Index.slice start stop step).apply count =
      walk (min (count : Int) (fromEnd count (stop.getD count))) step (2 * count + 4)
        (max 0 (fromEnd count (start.getD 0))) := by
  rw [apply]

/-- The bounds of the loop are those of the slice, unless nothing is between them. -/
theorem bounds_cases (count : Nat) (expression : String) {first last : Int}
    (hfirst : first = max 0 (fromEnd count ((fieldAt expression 0).getD 0)))
    (hlast : last = min (count : Int) (fromEnd count ((fieldAt expression 1).getD count))) :
    last ≤ first ∧ upper count expression ≤ lower count expression ∨
      first = lower count expression ∧ last = upper count expression := by
  unfold lower upper clamped
  omega

/-- A slice that does not overrun stops, and selects what it should. -/
theorem selects_slice {count : Nat} {expression : String} (h : IsSlice expression)
    (hfits : ¬ Overruns count expression) :
    Stops (parse expression) count ∧
      Selects count expression ((parse expression).apply count) := by
  rw [parse_of_isSlice h]
  obtain ⟨first, hfirst⟩ : ∃ n, n = max 0 (fromEnd count ((fieldAt expression 0).getD 0)) :=
    ⟨_, rfl⟩
  obtain ⟨last, hlast⟩ :
      ∃ n, n = min (count : Int) (fromEnd count ((fieldAt expression 1).getD count)) := ⟨_, rfl⟩
  have happly : (Index.slice (fieldAt expression 0) (fieldAt expression 1)
      (stride expression)).apply count =
        walk last (stride expression) (2 * count + 4) first := by
    rw [hfirst, hlast, apply_slice]
  -- it is enough to find a short run of the loop
  have hstops : ∀ ps, Loop last (stride expression) first ps → ps.length ≤ count →
      Stops (.slice (fieldAt expression 0) (fieldAt expression 1) (stride expression)) count ∧
        (Index.slice (fieldAt expression 0) (fieldAt expression 1)
          (stride expression)).apply count = ps := by
    intro ps hloop hlen
    have hwalk : walk last (stride expression) (2 * count + 4) first = ps :=
      walk_of_loop hloop (by omega)
    refine ⟨?_, by rw [happly, hwalk]⟩
    rintro start stop step heq
    obtain ⟨rfl, rfl, rfl⟩ := Index.slice.inj heq
    rw [happly, hwalk, ← hfirst, ← hlast]
    exact hloop
  rcases bounds_cases count expression hfirst hlast with ⟨hle, hempty⟩ | ⟨hlow, hhigh⟩
  · obtain ⟨hend, happly⟩ := hstops [] (.done hle) (Nat.zero_le count)
    refine ⟨hend, ?_⟩
    rw [happly]
    refine .slice h List.Pairwise.nil fun p => ?_
    simp [not_inSlice_of_le hempty]
  · have hnonneg := lower_nonneg count expression
    have hle := upper_le count expression
    obtain ⟨ps, hloop, hlen, hsorted, hmem⟩ :=
      loop_of_fits (stride_pos expression) count (lower count expression) hnonneg (by omega)
        fun q hq => Int.lt_of_not_ge fun hover => hfits ⟨h, q, hq, hover⟩
    obtain ⟨hend, happly⟩ := hstops ps (by rw [hlow, hhigh]; exact hloop) hlen
    refine ⟨hend, ?_⟩
    rw [happly]
    exact .slice h hsorted hmem

/-- A slice that overruns selects a negative number, and among matches that fit a memory it stops
all the same. -/
theorem slice_overruns {count : Nat} {expression : String} (hcount : (count : Int) < Word.half)
    (hover : Overruns count expression) :
    (∃ p ∈ (parse expression).apply count, p < 0) ∧
      (count ≤ mostMatches → Stops (parse expression) count) := by
  obtain ⟨h, q, hq, hfar⟩ := hover
  have hlow := hq.1
  have hhigh := hq.2.1
  have hnonneg := lower_nonneg count expression
  have hle := upper_le count expression
  have hsmall := stride_lt expression
  -- something is between the bounds, so they are those of the loop
  obtain ⟨hfirst, hlast⟩ := (bounds_cases count expression rfl rfl).resolve_left
    fun hempty => by omega
  have happly : (parse expression).apply count =
      walk (upper count expression) (stride expression) (2 * count + 4)
        (lower count expression) := by
    rw [parse_of_isSlice h, ← hfirst, ← hlast, apply_slice]
  constructor
  · rw [happly]
    exact mem_walk_of_overruns (stride_pos expression) hsmall (by omega) (2 * count + 4)
      (lower count expression) hnonneg (by omega) ⟨q, hq, hfar⟩
  · intro hfew
    have hstop : upper count expression ≤ mostMatches := by omega
    obtain ⟨ps, hloop, hlen⟩ := loop_of_large_step hsmall (by omega) hstop count
      (lower count expression) hnonneg (by omega) (by omega)
    rintro start stop step heq
    rw [happly, walk_of_loop hloop (by omega)]
    obtain ⟨rfl, rfl, rfl⟩ := Index.slice.inj ((parse_of_isSlice h).symm.trans heq)
    rw [hfirst, hlast]
    exact hloop

/-- An expression that is no slice selects what it should. -/
theorem selects_plain {count : Nat} {expression : String} (h : ¬ IsSlice expression) :
    Stops (parse expression) count ∧
      Selects count expression ((parse expression).apply count) := by
  by_cases hlist : IsList expression
  · rw [parse_of_isList hlist]
    constructor
    · intro _ _ _ heq
      cases heq
    · show Selects count expression (pick count _)
      rw [pick_eq]
      exact .list hlist
  · rw [parse_of_plain hlist h]
    cases hread : parseInt? (Text.trim expression) with
    | none =>
        constructor
        · intro _ _ _ heq
          cases heq
        · refine .every hlist h fun n hn => ?_
          rw [parseInt?_eq_some_iff.mpr hn] at hread
          cases hread
    | some n =>
        constructor
        · intro _ _ _ heq
          cases heq
        · have hpick : pick count [n] = (position? count n).toList := by
            rw [pick_eq, List.filterMap_cons]
            cases position? count n <;> rfl
          show Selects count expression (pick count [n])
          rw [hpick]
          exact .single hlist h (parseInt?_eq_some_iff.mp hread)

/-- What does not overrun stops and is selected as it should be. -/
theorem selects_of_fits {expression : String} {count : Nat} (hfits : ¬ Overruns count expression) :
    Stops (parse expression) count ∧ Selects count expression ((parse expression).apply count) := by
  by_cases hslice : IsSlice expression
  · exact selects_slice hslice hfits
  · exact selects_plain hslice

/-- **All positions lie inside the list** unless the expression overruns. -/
theorem inside_iff {expression : String} {count : Nat} (hcount : (count : Int) < Word.half) :
    (∀ p ∈ (parse expression).apply count, 0 ≤ p ∧ p < count) ↔ ¬ Overruns count expression := by
  constructor
  · intro h hover
    obtain ⟨p, hp, hneg⟩ := (slice_overruns hcount hover).1
    have hpos := (h p hp).1
    omega
  · intro hfits
    exact (selects_of_fits hfits).2.mem

end Index

/-! ## Looking positions up -/

namespace Selector

/-- **Positions are looked up one by one**, and each is the number of a match. -/
theorem lookUp_eq_some_iff {matched : List NodeId} {positions : List Int} {nodes : List NodeId} :
    lookUp matched positions = some nodes ↔
      List.Forall₂ (fun (p : Int) node => ∃ i : Nat, p = i ∧ matched[i]? = some node)
        positions nodes := by
  induction positions generalizing nodes with
  | nil =>
      rw [List.forall₂_nil_left_iff, show lookUp matched [] = some [] from rfl, Option.some.injEq]
      exact eq_comm
  | cons p rest ih =>
      constructor
      · intro h
        unfold lookUp at h
        split at h
        · rename_i hall
          rw [List.all_cons, Bool.and_eq_true] at hall
          obtain ⟨hfirst, hrest⟩ := hall
          have hp : 0 ≤ p ∧ p < matched.length := by simpa using hfirst
          obtain ⟨i, rfl⟩ := Int.eq_ofNat_of_zero_le hp.1
          have hi : i < matched.length := Int.ofNat_lt.mp hp.2
          have hfound : matched[i]? = some matched[i] := List.getElem?_eq_getElem hi
          rw [List.filterMap_cons, Int.toNat_natCast, hfound] at h
          rw [← Option.some.inj h]
          exact .cons ⟨i, rfl, hfound⟩ (ih.mp (if_pos hrest))
        · simp at h
      · intro h
        obtain ⟨node, nodes, ⟨i, rfl, hfound⟩, hrest, rfl⟩ := List.forall₂_cons_left_iff.mp h
        have hi : i < matched.length := (List.getElem?_eq_some_iff.mp hfound).1
        have hlooked := ih.mpr hrest
        unfold lookUp at hlooked ⊢
        split at hlooked
        · rename_i hall
          have hinside : (0 ≤ (i : Int) && (i : Int) < matched.length) = true := by
            simpa using hi
          rw [List.all_cons, hinside, hall, List.filterMap_cons, Int.toNat_natCast, hfound,
            Option.some.inj hlooked]
          rfl
        · simp at hlooked

/-- **A lookup fails** where a position is outside of the matches, and only there. -/
theorem lookUp_eq_none_iff {matched : List NodeId} {positions : List Int} :
    lookUp matched positions = none ↔ ∃ p ∈ positions, ¬ (0 ≤ p ∧ p < matched.length) := by
  simp [lookUp]

/-- An index expression selects a position outside of the matches of a class. -/
def Misses (d : Document) (token index : String) : Prop :=
  ∃ name, parse token = .classOf name ∧
    ∃ p ∈ (Index.parse index).apply (d.elementsByClass name).length,
      ¬ (0 ≤ p ∧ p < (d.elementsByClass name).length)

/-- A position outside of the matches comes of an overrun. -/
theorem misses_iff_overruns {d : Document} {token index name : String}
    (hclass : parse token = .classOf name)
    (hcount : ((d.elementsByClass name).length : Int) < Word.half) :
    Misses d token index ↔ Index.Overruns (d.elementsByClass name).length index := by
  have hmisses : Misses d token index ↔ ¬ ∀ p ∈ (Index.parse index).apply
      (d.elementsByClass name).length, 0 ≤ p ∧ p < (d.elementsByClass name).length := by
    unfold Misses
    rw [hclass]
    simp
  rw [hmisses, Index.inside_iff hcount, not_not]

/-- **What a target and an index expression name is looked up**, unless a position is outside of the
matches. -/
theorem resolve_eq_none_iff {d : Document} {token index : String} :
    resolve d token index = none ↔ Misses d token index := by
  unfold resolve Misses
  cases parse token with
  | id name => simp
  | classOf name =>
      simp only [classOf.injEq, exists_eq_left']
      exact lookUp_eq_none_iff

end Selector

namespace Index

/-- **An index expression selects what it should, unless a step overruns.** As long as no selected
position lies so near to the greatest word that the next step wraps around, the loop of a slice
stops, what is selected is what `Selects` says, and each position is looked up among the matches. If
one does, a negative number is selected, and its lookup fails. -/
theorem selects_iff_not_overruns (expression : String) {count : Nat}
    (hcount : (count : Int) < Word.half) :
    (∀ field n, parseInt? field = some n ↔ Writes field n) ∧
    (Selects count expression ((parse expression).apply count) ↔ ¬ Overruns count expression) ∧
    ((∀ p ∈ (parse expression).apply count, 0 ≤ p ∧ p < count) ↔ ¬ Overruns count expression) ∧
    (¬ Overruns count expression ∨ count ≤ mostMatches → Stops (parse expression) count) ∧
    (∀ (d : Document) (token name : String), Selector.parse token = .id name →
      Selector.resolve d token expression = some (d.elementById? name).toList) ∧
    ∀ (d : Document) (token name : String), Selector.parse token = .classOf name →
      (d.elementsByClass name).length = count →
      ((∃ nodes, Selector.resolve d token expression = some nodes ∧
          List.Forall₂ (fun (p : Int) node =>
              ∃ i : Nat, p = i ∧ (d.elementsByClass name)[i]? = some node)
            ((parse expression).apply count) nodes) ↔ ¬ Overruns count expression) ∧
      (Selector.resolve d token expression = none ↔ Overruns count expression) := by
  have hinside : (∀ p ∈ (parse expression).apply count, 0 ≤ p ∧ p < count) ↔
      ¬ Overruns count expression := inside_iff hcount
  refine ⟨fun _ _ => parseInt?_eq_some_iff,
    ⟨fun h => hinside.mp h.mem, fun h => (selects_of_fits h).2⟩, hinside, ?_, ?_, ?_⟩
  · intro h
    by_cases hover : Overruns count expression
    · exact (slice_overruns hcount hover).2 (h.resolve_left (not_not_intro hover))
    · exact (selects_of_fits hover).1
  · intro d token name hid
    unfold Selector.resolve
    rw [hid]
    rfl
  · intro d token name hclass hlen
    subst hlen
    have hfails : Selector.resolve d token expression = none ↔
        Overruns (d.elementsByClass name).length expression :=
      Selector.resolve_eq_none_iff.trans (Selector.misses_iff_overruns hclass hcount)
    refine ⟨?_, hfails⟩
    rw [← hfails, ← ne_eq, Option.ne_none_iff_exists']
    refine exists_congr fun nodes => and_iff_left_of_imp fun hfound => ?_
    unfold Selector.resolve at hfound
    rw [hclass] at hfound
    exact Selector.lookUp_eq_some_iff.mp hfound

/-- Every third of eight matches, from the first to the one before the last. -/
theorem every_third_selected :
    ((8 : Nat) : Int) < Word.half ∧ Selects 8 " -9:-1:3 " [0, 3, 6] := by
  have hfits : ¬ Overruns 8 " -9:-1:3 " := by
    have hupper : upper 8 " -9:-1:3 " = 7 := by decide +kernel
    have hstride : stride " -9:-1:3 " = 3 := by decide +kernel
    rintro ⟨_, p, hp, hover⟩
    have hhigh := hp.2.1
    rw [hstride] at hover
    rw [hupper] at hhigh
    unfold Word.half at hover
    omega
  have happly : (parse " -9:-1:3 ").apply 8 = [0, 3, 6] := by decide +kernel
  have hselects := (@selects_iff_not_overruns " -9:-1:3 " 8 (by decide)).2.1.mpr hfits
  rw [happly] at hselects
  exact ⟨by decide, hselects⟩

/-- Of two matches, a slice from the second one on with the greatest step selects two negative
numbers. -/
theorem greatest_step_selects_no_match :
    ¬ ∀ (expression : String) (count : Nat), (count : Int) < Word.half →
      ∀ p ∈ (parse expression).apply count, 0 ≤ p ∧ p < count := by
  intro h
  have happly : (parse "1:2:9223372036854775807").apply 2 = [1, -9223372036854775808, -1] := by
    decide +kernel
  have hneg := h "1:2:9223372036854775807" 2 (by decide) (-1) (by rw [happly]; decide)
  exact absurd hneg.1 (by decide)

end Index

end PageMacro
