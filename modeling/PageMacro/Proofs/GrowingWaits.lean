import Mathlib.Tactic.Ring
import PageMacro.Fetch.Client

/-!
# Waits grow up to their limit, and then fall below it

Between two attempts a client waits a base times a power of two, but no longer than its limit. A
product with a power of two needs no rounding, so that within the 64-bit integers a wait is what it
should be: the smaller of the product and the limit. Outside of them it is not, since the product is
compared with the limit as an integer, and the integer that stands for a number out of range is the
least one. That is not above the limit, and so it is the wait.

The same number can be written as a scaled number in several ways, and which of them comes out
depends on how it was computed. `Scaled.Writes` says what is written and leaves the way open.
-/

namespace PageMacro

namespace Decimal

/-! ## Products without rounding -/

theorem log2_mul_two_pow {m : Nat} (hm : 0 < m) (i : Nat) :
    Nat.log2 (m * 2 ^ i) = Nat.log2 m + i := by
  induction i with
  | zero => simp
  | succ i ih =>
      have hpos : m * 2 ^ i ≠ 0 := Nat.mul_ne_zero (by omega) (Nat.ne_of_gt (Nat.two_pow_pos i))
      have hnext : m * 2 ^ (i + 1) = 2 * (m * 2 ^ i) := by rw [Nat.pow_succ]; ac_rfl
      rw [hnext, Nat.log2_two_mul hpos, ih]
      omega

/-- Zeros at the end are shifted out without a remainder. -/
theorem shiftRounded_mul_two_pow (n shift : Nat) : shiftRounded (n * 2 ^ shift) shift = n := by
  have hpos : 0 < 2 ^ shift := Nat.two_pow_pos shift
  unfold shiftRounded
  simp only [Nat.pow_eq, Nat.mul_div_cancel n hpos, Nat.mul_mod_left]
  rw [if_neg]
  simp
  omega

namespace Scaled

/-- A way to write `m · 2 ^ k`. -/
def Writes (m : Nat) (k : Int) (x : Scaled) : Prop :=
  ∃ i : Nat, x = ⟨(m * 2 ^ i : Nat), k - i⟩

section Writes

variable {m : Nat} {k l : Int} {x y : Scaled}

theorem writes_natCast (m : Nat) : Writes m 0 ⟨m, 0⟩ := ⟨0, by simp⟩

/-- **A significand within the precision is not rounded.** -/
theorem Writes.rounded (h : x.Writes m k) (hm : 0 < m) (hfits : m < 2 ^ 53) :
    x.rounded.Writes m k := by
  obtain ⟨i, rfl⟩ := h
  have hlog : Nat.log2 m < 53 := (Nat.log2_lt (by omega)).mpr hfits
  -- what is shifted out is among the zeros at the end
  obtain ⟨shift, hshift⟩ : ∃ shift, Nat.log2 (m * 2 ^ i) + 1 - precision = shift := ⟨_, rfl⟩
  have hzeros : shift ≤ i := by
    rw [log2_mul_two_pow hm, precision] at hshift
    omega
  have hsplit : m * 2 ^ i = m * 2 ^ (i - shift) * 2 ^ shift := by
    rw [Nat.mul_assoc, ← Nat.pow_add, Nat.sub_add_cancel hzeros]
  refine ⟨i - shift, ?_⟩
  unfold Scaled.rounded
  dsimp only
  rw [Int.natAbs_natCast, hshift, if_neg (by omega), hsplit, shiftRounded_mul_two_pow,
    Scaled.mk.injEq]
  exact ⟨rfl, by omega⟩

/-- **A product with a power of two is exact.** -/
theorem Writes.mul (hx : x.Writes m k) (hy : y.Writes 1 l) (hm : 0 < m) (hfits : m < 2 ^ 53) :
    (x.mul y).Writes m (k + l) := by
  obtain ⟨i, rfl⟩ := hx
  obtain ⟨j, rfl⟩ := hy
  have hsignificand : m * 2 ^ i * (1 * 2 ^ j) = m * 2 ^ (i + j) := by ring
  have hexponent : k - i + (l - j) = k + l - (i + j : Nat) := by omega
  refine Writes.rounded ⟨i + j, ?_⟩ hm hfits
  rw [← hsignificand, ← hexponent, Int.natCast_mul (m * 2 ^ i)]

theorem Writes.powFrom {acc base : Scaled} (n : Nat) (hacc : acc.Writes 1 k)
    (hbase : base.Writes 1 l) : (powFrom acc base n).Writes 1 (k + n * l) := by
  induction n using Nat.strongRecOn generalizing acc base k l with
  | ind n ih =>
      rw [Scaled.powFrom]
      split
      · rename_i hzero
        simpa [hzero] using hacc
      · have hsquare : (base.mul base).Writes 1 (l + l) := hbase.mul hbase (by decide) (by decide)
        rcases Nat.mod_two_eq_zero_or_one n with heven | hodd
        · have hrest := ih (n / 2) (by omega) hacc hsquare
          have hhalf : (n : Int) = 2 * (n / 2 : Nat) := by omega
          have hexponent : k + n * l = k + (n / 2 : Nat) * (l + l) := by rw [hhalf]; ring
          rw [hexponent, if_neg (by simp [heven])]
          exact hrest
        · have hrest := ih (n / 2) (by omega) (hacc.mul hbase (by decide) (by decide)) hsquare
          have hhalf : (n : Int) = 2 * (n / 2 : Nat) + 1 := by omega
          have hexponent : k + n * l = k + l + (n / 2 : Nat) * (l + l) := by rw [hhalf]; ring
          rw [hexponent, if_pos (by simp [hodd])]
          exact hrest

theorem Writes.pow (h : x.Writes 1 k) (n : Nat) : (x.pow n).Writes 1 (n * k) := by
  have hpow := Writes.powFrom n (writes_natCast 1) h
  rwa [Int.zero_add] at hpow

theorem Writes.truncated {e : Nat} (h : x.Writes m e) : x.truncated = (m * 2 ^ e : Nat) := by
  obtain ⟨i, rfl⟩ := h
  unfold Scaled.truncated
  dsimp only
  rw [Int.natAbs_natCast, if_neg (by omega), Nat.pow_eq, Nat.pow_eq]
  rcases Nat.le_total i e with hle | hle
  · have hup : ((e : Int) - i).toNat = e - i := by omega
    have hdown : (-((e : Int) - i)).toNat = 0 := by omega
    rw [hup, hdown, Nat.pow_zero, Nat.div_one, Nat.mul_assoc, ← Nat.pow_add,
      Nat.add_sub_cancel' hle]
  · have hup : ((e : Int) - i).toNat = 0 := by omega
    have hdown : (-((e : Int) - i)).toNat = i - e := by omega
    have hsplit : m * 2 ^ i = m * 2 ^ e * 2 ^ (i - e) := by
      rw [Nat.mul_assoc, ← Nat.pow_add, Nat.add_sub_cancel' hle]
    rw [hup, hdown, Nat.pow_zero, Nat.mul_one, hsplit,
      Nat.mul_div_cancel _ (Nat.two_pow_pos (i - e))]

theorem Writes.ne_zero (h : x.Writes m k) (hm : 0 < m) : x.significand ≠ 0 := by
  obtain ⟨i, rfl⟩ := h
  have hpos : 0 < m * 2 ^ i := Nat.mul_pos hm (Nat.two_pow_pos i)
  show ((m * 2 ^ i : Nat) : Int) ≠ 0
  omega

theorem Writes.nonneg (h : x.Writes m k) : ¬ x.significand < 0 := by
  obtain ⟨i, rfl⟩ := h
  show ¬ ((m * 2 ^ i : Nat) : Int) < 0
  omega

theorem Writes.toDouble (h : x.Writes m k) (hm : 0 < m) :
    x.toDouble = if 1024 ≤ (Nat.log2 m : Int) + k then .infinite false else .finite x := by
  have hne := h.ne_zero hm
  have hnonneg := h.nonneg
  obtain ⟨i, rfl⟩ := h
  have hlog : ((Nat.log2 m + i : Nat) : Int) + (k - i) = Nat.log2 m + k := by omega
  unfold Scaled.toDouble
  simp only [Int.natAbs_natCast, log2_mul_two_pow hm, hlog, hnonneg, bne_iff_ne, ne_eq, hne,
    not_false_eq_true, Bool.and_eq_true, decide_eq_true_eq, and_true, decide_false]

end Writes

end Scaled

/-! ## What is read off as an integer -/

namespace Double

/-- A double that counts as `n` where it becomes an integer: the least one if `n` is out of
range. -/
structure CountsAs (x : Double) (n : Nat) : Prop where
  nonnegative : x.isNegative = false
  toInt64 : x.toInt64 = if n < Word.half then (n : Int) else Word.least

theorem half_le_of_log2 {n : Nat} (hn : 0 < n) (h : 63 ≤ Nat.log2 n) : Word.half ≤ n := by
  have hpow := (Nat.le_log2 (Nat.ne_of_gt hn)).mp h
  rw [Word.half]
  omega

theorem countsAs_infinite {n : Nat} (h : Word.half ≤ n) : CountsAs (.infinite false) n where
  nonnegative := rfl
  toInt64 := by rw [if_neg (by omega)]; rfl

theorem countsAs_toDouble {m e : Nat} {x : Scaled} (h : x.Writes m e) (hm : 0 < m) :
    x.toDouble.CountsAs (m * 2 ^ e) := by
  have hpos : 0 < m * 2 ^ e := Nat.mul_pos hm (Nat.two_pow_pos e)
  rw [h.toDouble hm]
  split
  · rename_i hlarge
    refine countsAs_infinite (half_le_of_log2 hpos ?_)
    rw [log2_mul_two_pow hm]
    omega
  · rename_i hsmall
    constructor
    · exact decide_eq_false h.nonneg
    · unfold Double.toInt64
      dsimp only
      rw [h.truncated]
      generalize m * 2 ^ e = n
      have hfits : Word.fits n = decide (n < Word.half) := by
        unfold Word.fits Word.least
        simp
      simp only [hfits, decide_eq_true_eq]

/-- **A whole number up to `2 ^ 53` is a double as it is.** -/
theorem exists_ofInt {n : Nat} (hpos : 1 ≤ n) (hle : n ≤ 2 ^ 53) :
    ∃ (m e : Nat) (x : Scaled), n = m * 2 ^ e ∧ 0 < m ∧ m < 2 ^ 53 ∧ x.Writes m e ∧
      ofInt n = x.toDouble ∧ x.toDouble = .finite x := by
  obtain ⟨m, e, rfl, hm, hfits⟩ : ∃ m e : Nat, n = m * 2 ^ e ∧ 0 < m ∧ m < 2 ^ 53 := by
    by_cases htop : n = 2 ^ 53
    · exact ⟨1, 53, by omega, by omega, by omega⟩
    · exact ⟨n, 0, by omega, by omega, by omega⟩
  have hwrites : Scaled.Writes m e ⟨(m * 2 ^ e : Nat), 0⟩ := ⟨e, by rw [Int.sub_self]⟩
  have hrounded := hwrites.rounded hm hfits
  have hlog : Nat.log2 m + e ≤ 53 := by
    rw [← log2_mul_two_pow hm]
    have hlt := (Nat.log2_lt (by omega)).mpr (Nat.lt_of_le_of_lt hle (by decide : _ < 2 ^ 54))
    omega
  refine ⟨m, e, _, rfl, hm, hfits, hrounded, rfl, ?_⟩
  rw [hrounded.toDouble hm, if_neg (by omega)]

theorem countsAs_ofInt {n : Nat} (hpos : 1 ≤ n) (hle : n ≤ 2 ^ 53) : (ofInt n).CountsAs n := by
  obtain ⟨m, e, x, rfl, hm, -, hx, hof, -⟩ := exists_ofInt hpos hle
  rw [hof]
  exact countsAs_toDouble hx hm

/-- A factor of two, in any way of writing it. -/
def IsTwo (x : Double) : Prop := ∃ y : Scaled, x = .finite y ∧ y.Writes 1 1

/-- **Doubling a whole number is exact.** -/
theorem countsAs_mul_pow {base : Nat} {factor : Double} (hpos : 1 ≤ base) (hle : base ≤ 2 ^ 53)
    (hfactor : factor.IsTwo) (n : Nat) :
    ((ofInt base).mul (factor.pow n)).CountsAs (base * 2 ^ n) := by
  obtain ⟨m, e, x, rfl, hm, hfits, hx, hof, hfinite⟩ := exists_ofInt hpos hle
  obtain ⟨y, rfl, hy⟩ := hfactor
  have hpow : (y.pow n).Writes 1 n := by simpa using hy.pow n
  have hproduct : (x.mul (y.pow n)).Writes m (e + n : Nat) := hx.mul hpow hm hfits
  have hsplit : m * 2 ^ e * 2 ^ n = m * 2 ^ (e + n) := by rw [Nat.mul_assoc, ← Nat.pow_add]
  have hgrown : 0 < m * 2 ^ (e + n) := Nat.mul_pos hm (Nat.two_pow_pos _)
  rw [hof, hfinite, hsplit]
  unfold Double.pow
  dsimp only
  rw [hpow.toDouble (by decide)]
  split
  · -- the power alone is out of range
    rename_i hlarge
    have hinfinite : (finite x).mul (.infinite false) = .infinite false := by
      simp only [Double.mul, beq_iff_eq, if_neg (hx.ne_zero hm), decide_eq_false hx.nonneg]
      rfl
    rw [hinfinite]
    refine countsAs_infinite (half_le_of_log2 hgrown ?_)
    rw [log2_mul_two_pow hm]
    have hone : Nat.log2 1 = 0 := by decide
    omega
  · exact countsAs_toDouble hproduct hm

end Double

end Decimal

namespace Fetch

open Decimal

/-! ## Waits -/

namespace Backoff

/-- Waits that double, as they do where no factor is given. -/
def Doubles (b : Backoff) : Prop := isZero b.factor = true ∨ b.factor.IsTwo

/-- What a wait would be without a limit and without a range. -/
def unlimited (b : Backoff) (n : Nat) : Int := b.base.nanoseconds * 2 ^ n

theorem unlimited_eq {b : Backoff} {base : Nat} (h : b.base.nanoseconds = base) (n : Nat) :
    b.unlimited n = (base * 2 ^ n : Nat) := by
  unfold unlimited
  rw [h]
  push_cast
  rfl

theorem unlimited_mono {b : Backoff} (hbase : 1 ≤ b.base.nanoseconds) {i j : Nat} (h : i ≤ j) :
    b.unlimited i ≤ b.unlimited j := by
  obtain ⟨base, hbase'⟩ := Int.eq_ofNat_of_zero_le (show 0 ≤ b.base.nanoseconds by omega)
  have hpow : base * 2 ^ i ≤ base * 2 ^ j :=
    Nat.mul_le_mul_left base (Nat.pow_le_pow_right (by decide) h)
  rw [unlimited_eq hbase', unlimited_eq hbase']
  omega

/-- The factor that is used is two. -/
theorem Doubles.isTwo {b : Backoff} (h : b.Doubles) :
    (if isZero b.factor then .finite ⟨2, 0⟩ else b.factor : Double).IsTwo := by
  split
  · exact ⟨_, rfl, 1, rfl⟩
  · rename_i hzero
    exact h.resolve_left hzero

/-- **A wait is the smaller of the doubled base and the limit** as long as the doubled base is an
integer of 64 bits, and the least integer from there on. -/
theorem nanoseconds_wait {b : Backoff} (hfactor : b.Doubles)
    (hbase : 1 ≤ b.base.nanoseconds ∧ b.base.nanoseconds ≤ 2 ^ 53)
    (hlimit : 1 ≤ b.limit.nanoseconds ∧ b.limit.nanoseconds ≤ 2 ^ 53) (n : Nat) :
    (b.wait n).nanoseconds =
      if b.unlimited n < Word.half then min (b.unlimited n) b.limit.nanoseconds
      else Word.least := by
  obtain ⟨base, hbase'⟩ := Int.eq_ofNat_of_zero_le (show 0 ≤ b.base.nanoseconds by omega)
  obtain ⟨limit, hlimit'⟩ := Int.eq_ofNat_of_zero_le (show 0 ≤ b.limit.nanoseconds by omega)
  have hgrown : ((Double.ofInt base).mul _).CountsAs (base * 2 ^ n) :=
    Double.countsAs_mul_pow (by omega) (by omega) hfactor.isTwo n
  have htop : (Double.ofInt limit).CountsAs limit := Double.countsAs_ofInt (by omega) (by omega)
  have hlimited : limit < Word.half := by unfold Word.half; omega
  have hread := hgrown.toInt64
  have hreadLimit := htop.toInt64
  rw [if_pos hlimited] at hreadLimit
  rw [unlimited_eq hbase', hlimit']
  unfold wait
  dsimp only
  rw [hbase', hlimit']
  generalize (Double.ofInt base).mul _ = grown at hgrown hread ⊢
  generalize base * 2 ^ n = product at hgrown hread ⊢
  by_cases hrange : product < Word.half
  · have hinside : (product : Int) < Word.half := by omega
    rw [if_pos hrange] at hread
    rw [if_pos hinside, hread]
    by_cases habove : limit < product
    · have hcapped : (decide ((0 : Int) < limit) && decide ((limit : Int) < product)) = true := by
        simp
        omega
      rw [if_pos hcapped, htop.nonnegative, if_neg (by decide), hreadLimit]
      omega
    · have hfree : ¬ (decide ((0 : Int) < limit) && decide ((limit : Int) < product)) = true := by
        simp
        omega
      rw [if_neg hfree, hgrown.nonnegative, if_neg (by decide), hread]
      omega
  · -- the product is taken for the least integer, which is within every limit
    have houtside : ¬ (product : Int) < Word.half := by omega
    rw [if_neg hrange] at hread
    have hfree : ¬ (decide ((0 : Int) < limit) && decide ((limit : Int) < Word.least)) = true := by
      unfold Word.least
      simp
    rw [if_neg houtside, hread, if_neg hfree, hgrown.nonnegative, if_neg (by decide), hread]

/-- **Waits are capped and do not decrease, up to the first that is out of range.** As long as the
base doubled for each attempt is an integer of 64 bits, a wait is the smaller of it and the limit,
none is negative, and none is shorter than one before. From then on each wait is the least
integer. -/
theorem waits_capped_iff_in_range {b : Backoff} (hfactor : b.Doubles)
    (hbase : 1 ≤ b.base.nanoseconds ∧ b.base.nanoseconds ≤ 2 ^ 53)
    (hlimit : 1 ≤ b.limit.nanoseconds ∧ b.limit.nanoseconds ≤ 2 ^ 53) (n : Nat) :
    ((b.wait n).nanoseconds = min (b.unlimited n) b.limit.nanoseconds ↔
      b.unlimited n < Word.half) ∧
    (0 ≤ (b.wait n).nanoseconds ↔ b.unlimited n < Word.half) ∧
    ((∀ i j, i ≤ j → j ≤ n → (b.wait i).nanoseconds ≤ (b.wait j).nanoseconds) ↔
      b.unlimited n < Word.half) ∧
    (b.wait n).nanoseconds ≤ b.limit.nanoseconds ∧
    (¬ b.unlimited n < Word.half → (b.wait n).nanoseconds = Word.least) := by
  have hwait := nanoseconds_wait hfactor hbase hlimit
  have hleast : Word.least < 0 := by decide
  have hmono {i j : Nat} (h : i ≤ j) : b.unlimited i ≤ b.unlimited j := unlimited_mono hbase.1 h
  have hzero : b.unlimited 0 = b.base.nanoseconds := by simp [unlimited]
  have hpos : 1 ≤ b.unlimited n := by
    have hgrown := hmono (Nat.zero_le n)
    omega
  by_cases hrange : b.unlimited n < Word.half
  · have hn := hwait n
    rw [if_pos hrange] at hn
    refine ⟨iff_of_true hn hrange, iff_of_true ?_ hrange, iff_of_true ?_ hrange, ?_, ?_⟩
    · omega
    · intro i j hij hjn
      have hfirst := hmono hij
      have hlast := hmono hjn
      rw [hwait i, hwait j, if_pos (by omega), if_pos (by omega)]
      omega
    · omega
    · exact fun hnot => absurd hrange hnot
  · have hn := hwait n
    rw [if_neg hrange] at hn
    refine ⟨iff_of_false ?_ hrange, iff_of_false ?_ hrange, iff_of_false ?_ hrange, ?_, fun _ => hn⟩
    · omega
    · omega
    · -- the first wait is in range
      intro hall
      have hdrop := hall 0 n (Nat.zero_le n) (Nat.le_refl n)
      have hfirst := hwait 0
      have hinside : b.unlimited 0 < Word.half := by
        rw [hzero, Word.half]
        omega
      rw [if_pos hinside, hzero] at hfirst
      omega
    · omega

/-- The usual waits before the eleventh further attempt: the limit of five seconds. -/
theorem eleventh_usual_wait :
    Retry.standard.backoff.Doubles ∧
      (1 ≤ Retry.standard.backoff.base.nanoseconds ∧
        Retry.standard.backoff.base.nanoseconds ≤ 2 ^ 53) ∧
      (1 ≤ Retry.standard.backoff.limit.nanoseconds ∧
        Retry.standard.backoff.limit.nanoseconds ≤ 2 ^ 53) ∧
      (Retry.standard.backoff.wait 10).nanoseconds = 5000000000 := by
  have hfactor : Retry.standard.backoff.Doubles := .inr ⟨_, rfl, 1, rfl⟩
  have hbase : 1 ≤ Retry.standard.backoff.base.nanoseconds ∧
      Retry.standard.backoff.base.nanoseconds ≤ 2 ^ 53 := by decide
  have hlimit : 1 ≤ Retry.standard.backoff.limit.nanoseconds ∧
      Retry.standard.backoff.limit.nanoseconds ≤ 2 ^ 53 := by decide
  have hrange : Retry.standard.backoff.unlimited 10 < Word.half := by decide
  exact ⟨hfactor, hbase, hlimit,
    (waits_capped_iff_in_range hfactor hbase hlimit 10).1.mpr hrange⟩

/-- The usual waits, doubled often enough, are negative: the wait of `200ms · 2 ^ 36` is. -/
theorem usual_waits_turn_negative :
    ¬ ∀ (b : Backoff), b.Doubles →
      (1 ≤ b.base.nanoseconds ∧ b.base.nanoseconds ≤ 2 ^ 53) →
      (1 ≤ b.limit.nanoseconds ∧ b.limit.nanoseconds ≤ 2 ^ 53) →
      ∀ n, (b.wait n).nanoseconds = min (b.unlimited n) b.limit.nanoseconds := by
  intro h
  have hfactor : Retry.standard.backoff.Doubles := .inr ⟨_, rfl, 1, rfl⟩
  have hclaimed := h Retry.standard.backoff hfactor (by decide) (by decide) 36
  rw [nanoseconds_wait hfactor (by decide) (by decide)] at hclaimed
  exact absurd hclaimed (by decide)

end Backoff

end Fetch

end PageMacro
