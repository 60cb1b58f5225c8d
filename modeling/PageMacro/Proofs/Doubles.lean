import PageMacro.Decimal.Literal

/-!
# Doubles taken apart and compared

`classify` takes the bits of a double apart as the model of doubles does (`unpack_eq`), and of a
double that is a number it loses nothing (`bits_classify`). So two doubles that are equal by
comparison are the same double, unless both are zeros (`beq_iff`).

What a literal is read as is always a number (`isNaN_toFloat`): neither rounding nor packing makes
anything else of a product or quotient of numbers as they come up there.
-/

namespace PageMacro

namespace Decimal

open Float.Model (UnpackedFloat)
open Float.Model.Format (binary64)
open Float.Model.UnpackedFloat (unpackSign unpackExponent unpackMantissa Sign)

/-! ## The parts of a double -/

/-- The sign of a number. -/
def signOf (negative : Bool) : Sign := if negative then .negative else .positive

/-- A double that was taken apart. -/
def Class.unpacked : Class → UnpackedFloat
  | .nan => .notANumber
  | .infinite negative => .infinity (signOf negative)
  | .finite negative magnitude =>
    if h : magnitude.significand = 0 then .zero (signOf negative)
    else .finite (signOf negative) magnitude.significand magnitude.exponent (Nat.pos_of_ne_zero h)

theorem toNat_unpackSign (b : BitVec binary64.numBits) :
    (@unpackSign binary64 b).toNat = b.toNat / 0x8000000000000000 := by
  have hb : b.toNat < 0x10000000000000000 := b.isLt
  have hsign : (@unpackSign binary64 b).toNat = (b.toNat >>> 63) % 2 := by
    unfold unpackSign
    rw [BitVec.toNat_cast, BitVec.extractLsb_toNat]
    rfl
  rw [hsign, Nat.shiftRight_eq_div_pow]
  omega

theorem toNat_unpackExponent (b : BitVec binary64.numBits) :
    (@unpackExponent binary64 b).toNat = b.toNat / 0x10000000000000 % 0x800 := by
  have hexponent : (@unpackExponent binary64 b).toNat = (b.toNat >>> 52) % 0x800 := by
    unfold unpackExponent
    rw [BitVec.toNat_cast, BitVec.extractLsb_toNat]
    rfl
  rw [hexponent, Nat.shiftRight_eq_div_pow]

theorem toNat_unpackMantissa (b : BitVec binary64.numBits) :
    (@unpackMantissa binary64 b).toNat = b.toNat % 0x10000000000000 := by
  have hmantissa : (@unpackMantissa binary64 b).toNat = (b.toNat >>> 0) % 0x10000000000000 := by
    unfold unpackMantissa
    rw [BitVec.toNat_cast, BitVec.extractLsb_toNat]
    rfl
  rw [hmantissa, Nat.shiftRight_zero]

theorem ofBitVec_eq (s : BitVec 1) : Sign.ofBitVec s = signOf (s.toNat == 1) := by
  rcases BitVec.eq_zero_or_eq_one s with rfl | rfl <;> rfl

theorem toNat_eq_iff {n : Nat} (v w : BitVec n) : (v.toNat == w.toNat) = true ↔ v = w := by
  rw [beq_iff_eq, BitVec.toNat_inj]

theorem unpacked_finite (negative narrow : Bool) {m significand : Nat} (exponent : Int)
    (hm : 0 < m) (h : m = significand) :
    (Class.finite negative ⟨significand, exponent, narrow⟩).unpacked =
      .finite (signOf negative) m exponent hm := by
  subst h
  exact dif_neg (Nat.pos_iff_ne_zero.mp hm)

/-- Taking a double apart gives what the model of doubles unpacks. -/
theorem unpack_eq (x : Float) : x.toModel.unpack = (classify x).unpacked := by
  have hbits : x.toBits.toNat = x.toModel.toBits.toBitVec.toNat := rfl
  have hsign := toNat_unpackSign x.toModel.toBits.toBitVec
  have hexponent := toNat_unpackExponent x.toModel.toBits.toBitVec
  have hmantissa := toNat_unpackMantissa x.toModel.toBits.toBitVec
  rw [← hbits] at hsign hexponent hmantissa
  unfold classify
  dsimp only
  rw [← hsign, ← hexponent, ← hmantissa]
  unfold Float.Model.unpack UnpackedFloat.unpack
  dsimp only
  rw [ofBitVec_eq]
  have hlow : (@unpackMantissa binary64 x.toModel.toBits.toBitVec).toNat <
      0x10000000000000 := BitVec.isLt _
  have htop := toNat_eq_iff (@unpackExponent binary64 x.toModel.toBits.toBitVec) (-1#11)
  have hbottom := toNat_eq_iff (@unpackExponent binary64 x.toModel.toBits.toBitVec) 0#11
  have hzero := toNat_eq_iff (@unpackMantissa binary64 x.toModel.toBits.toBitVec) 0#52
  rw [show (-1#11).toNat = 2047 from rfl] at htop
  rw [show (0#11).toNat = 0 from rfl] at hbottom
  rw [show (0#52).toNat = 0 from rfl] at hzero
  by_cases hexp : @unpackExponent binary64 x.toModel.toBits.toBitVec = -1#11
  · rw [if_pos hexp, if_pos (htop.mpr hexp)]
    by_cases hnone : @unpackMantissa binary64 x.toModel.toBits.toBitVec = 0#52
    · rw [if_pos hnone, if_pos (hzero.mpr hnone)]
      rfl
    · rw [if_neg hnone, if_neg (mt hzero.mp hnone)]
      rfl
  rw [if_neg hexp, if_neg (mt htop.mp hexp)]
  by_cases hexp : @unpackExponent binary64 x.toModel.toBits.toBitVec = 0#11
  · rw [if_pos hexp, if_pos (hbottom.mpr hexp)]
    by_cases hnone : @unpackMantissa binary64 x.toModel.toBits.toBitVec = 0#52
    · rw [dif_pos hnone, hnone]
      rfl
    · have hpos : 0 < (@unpackMantissa binary64 x.toModel.toBits.toBitVec).toNat :=
        Nat.pos_of_ne_zero fun h => hnone (hzero.mp (beq_iff_eq.mpr h))
      rw [dif_neg hnone, unpacked_finite _ _ _ hpos rfl, hexp]
      rfl
  · rw [if_neg hexp, if_neg (mt hbottom.mp hexp)]
    have happend : (1#1 ++ @unpackMantissa binary64 x.toModel.toBits.toBitVec).toNat =
        0x10000000000000 + (@unpackMantissa binary64 x.toModel.toBits.toBitVec).toNat := by
      rw [BitVec.toNat_append]
      exact (Nat.two_pow_add_eq_or_of_lt (i := 52) hlow 1).symm
    exact (unpacked_finite _ _ _ _ happend).symm

/-- The bits of a double that was taken apart. -/
def Class.bits : Class → Nat
  | .nan => 0x7ff8000000000000
  | .infinite negative => negative.toNat * 0x8000000000000000 + 0x7ff0000000000000
  | .finite negative magnitude =>
    negative.toNat * 0x8000000000000000 +
      if magnitude.significand < 0x10000000000000 then magnitude.significand
      else (magnitude.exponent + 1075).toNat * 0x10000000000000 +
        (magnitude.significand - 0x10000000000000)

/-! ## Comparing -/

section Compare

variable {x y : Float} {u v : UnpackedFloat}

/-- A double that is a number is put together again from its parts. -/
theorem bits_classify (h : classify x ≠ .nan) : (classify x).bits = x.toBits.toNat := by
  have hlt : x.toBits.toNat < 0x10000000000000000 := x.toBits.toNat_lt
  have hbit : x.toBits.toNat / 0x8000000000000000 = 0 ∨ x.toBits.toNat / 0x8000000000000000 = 1 := by
    omega
  have hsign : (x.toBits.toNat / 0x8000000000000000 == 1).toNat =
      x.toBits.toNat / 0x8000000000000000 := by
    rcases hbit with h | h <;> rw [h] <;> rfl
  unfold classify at h ⊢
  dsimp only at h ⊢
  split at h
  · rename_i htop
    rw [if_pos htop]
    split at h
    · rename_i hzero
      rw [if_pos hzero, Class.bits, hsign]
      rw [beq_iff_eq] at htop hzero
      omega
    · exact absurd rfl h
  · rename_i htop
    rw [if_neg htop]
    split
    · rename_i hbottom
      rw [Class.bits, hsign, if_pos (Nat.mod_lt _ (by decide))]
      rw [beq_iff_eq] at hbottom
      dsimp only
      omega
    · rename_i hbottom
      rw [beq_iff_eq] at hbottom
      rw [Class.bits, hsign]
      dsimp only
      rw [if_neg (by omega), Nat.add_sub_cancel_left, Int.ofNat_eq_natCast]
      omega

theorem eq_of_toNat_toBits (h : x.toBits.toNat = y.toBits.toNat) : x = y := by
  obtain ⟨bits, hvalid⟩ := x
  obtain ⟨bits', hvalid'⟩ := y
  have hbits : bits = bits' := UInt64.toNat_inj.mp h
  subst hbits
  rfl

theorem signOf_inj {a b : Bool} (h : signOf a = signOf b) : a = b := by
  cases a <;> cases b <;> first | rfl | cases h

/-- A finite double is taken apart to a zero, or to what is not zero. -/
theorem unpacked_cases (a : Bool) (m : Binary) :
    m.significand = 0 ∧ (Class.finite a m).unpacked = .zero (signOf a) ∨
      ∃ hm, (Class.finite a m).unpacked = .finite (signOf a) m.significand m.exponent hm := by
  by_cases hm : m.significand = 0
  · exact .inl ⟨hm, dif_pos hm⟩
  · exact .inr ⟨Nat.pos_of_ne_zero hm, dif_neg hm⟩

theorem bits_of_unpacked {c c' : Class} (h : c.unpacked = c'.unpacked) : c.bits = c'.bits := by
  cases c with
  | nan =>
      cases c' with
      | nan => rfl
      | infinite _ => cases h
      | finite b m' =>
          rcases unpacked_cases b m' with ⟨-, heq⟩ | ⟨_, heq⟩ <;> cases h.trans heq
  | infinite a =>
      cases c' with
      | nan => cases h
      | infinite b => rw [signOf_inj (UnpackedFloat.infinity.inj h)]
      | finite b m' =>
          rcases unpacked_cases b m' with ⟨-, heq⟩ | ⟨_, heq⟩ <;> cases h.trans heq
  | finite a m =>
      cases c' with
      | nan => rcases unpacked_cases a m with ⟨-, heq⟩ | ⟨_, heq⟩ <;> cases heq.symm.trans h
      | infinite b => rcases unpacked_cases a m with ⟨-, heq⟩ | ⟨_, heq⟩ <;> cases heq.symm.trans h
      | finite b m' =>
          rcases unpacked_cases a m with ⟨hm, heq⟩ | ⟨_, heq⟩
          · rcases unpacked_cases b m' with ⟨hm', heq'⟩ | ⟨_, heq'⟩
            · rw [Class.bits, Class.bits,
                signOf_inj (UnpackedFloat.zero.inj (heq.symm.trans (h.trans heq'))), hm, hm',
                if_pos (by decide), if_pos (by decide)]
            · cases heq.symm.trans (h.trans heq')
          · rcases unpacked_cases b m' with ⟨-, heq'⟩ | ⟨_, heq'⟩
            · cases heq.symm.trans (h.trans heq')
            · obtain ⟨hsign, hsignificand, hexponent⟩ :=
                UnpackedFloat.finite.inj (heq.symm.trans (h.trans heq'))
              rw [Class.bits, Class.bits, signOf_inj hsign, hsignificand, hexponent]

theorem eq_of_compare {m n : Nat} {d e : Int} (h : (compare d e).then (compare m n) = .eq) :
    d = e ∧ m = n := by
  rw [Ordering.then_eq_eq] at h
  exact ⟨Int.compare_eq_eq.mp h.1, Nat.compare_eq_eq.mp h.2⟩

theorem compare_eq (h : u.compare v = some .eq) :
    (u = v ∧ u ≠ .notANumber) ∨ ∃ s s', u = .zero s ∧ v = .zero s' := by
  cases u with
  | notANumber => cases h
  | infinity s =>
      cases v with
      | infinity s' => cases s <;> cases s' <;> first | exact .inl ⟨rfl, nofun⟩ | cases h
      | notANumber => cases h
      | zero _ => cases s <;> cases h
      | finite _ _ _ _ => cases s <;> cases h
  | zero s =>
      cases v with
      | infinity s' => cases s' <;> cases h
      | notANumber => cases h
      | zero s' => exact .inr ⟨s, s', rfl, rfl⟩
      | finite s' _ _ _ => cases s' <;> cases h
  | finite s m e hm =>
      cases v with
      | infinity s' => cases s <;> cases s' <;> cases h
      | notANumber => cases h
      | zero s' => cases s <;> cases h
      | finite s' m' e' hm' =>
          left
          cases s <;> cases s'
          · have hcompare : (compare e e').then (compare m m') = .eq :=
              Ordering.swap_eq_eq.mp (Option.some.inj h)
            obtain ⟨rfl, rfl⟩ := eq_of_compare hcompare
            exact ⟨rfl, nofun⟩
          · cases h
          · cases h
          · obtain ⟨rfl, rfl⟩ := eq_of_compare (Option.some.inj h)
            exact ⟨rfl, nofun⟩

theorem compare_self (h : u ≠ .notANumber) : u.compare u = some .eq := by
  cases u with
  | notANumber => exact absurd rfl h
  | infinity s => cases s <;> rfl
  | zero s => rfl
  | finite s m e hm =>
      have hsame : (compare e e).then (compare m m) = .eq := by
        rw [Ordering.then_eq_eq, Int.compare_eq_eq, Nat.compare_eq_eq]
        exact ⟨rfl, rfl⟩
      cases s
      · exact congrArg (fun o => some (Ordering.swap o)) hsame
      · exact congrArg some hsame

theorem eq_of_unpack (h : x.toModel.unpack = y.toModel.unpack)
    (hnumber : x.toModel.unpack ≠ .notANumber) : x = y := by
  have hclass {z : Float} (hz : z.toModel.unpack ≠ .notANumber) : classify z ≠ .nan :=
    fun hnan => hz (by rw [unpack_eq, hnan]; rfl)
  have hbits := bits_of_unpacked ((unpack_eq x).symm.trans (h.trans (unpack_eq y)))
  rw [bits_classify (hclass hnumber), bits_classify (hclass (h ▸ hnumber))] at hbits
  exact eq_of_toNat_toBits hbits

/-- One of the two zeros. -/
def IsZero (x : Float) : Prop := x = 0.0 ∨ x = -0.0

theorem isZero_of_unpack {s : Sign} (h : x.toModel.unpack = .zero s) : IsZero x := by
  have hpositive : (0.0 : Float).toModel.unpack = .zero .positive := rfl
  have hnegative : (-0.0 : Float).toModel.unpack = .zero .negative := rfl
  cases s with
  | positive =>
      exact .inl (eq_of_unpack (h.trans hpositive.symm) (by rw [h]; nofun))
  | negative => exact .inr (eq_of_unpack (h.trans hnegative.symm) (by rw [h]; nofun))

theorem isNaN_eq_false_iff : x.isNaN = false ↔ x.toModel.unpack ≠ .notANumber := by
  change x.toModel.unpack.isNaN = false ↔ _
  cases x.toModel.unpack with
  | notANumber => exact ⟨nofun, fun h => absurd rfl h⟩
  | infinity _ => exact ⟨fun _ => nofun, fun _ => rfl⟩
  | zero _ => exact ⟨fun _ => nofun, fun _ => rfl⟩
  | finite _ _ _ _ => exact ⟨fun _ => nofun, fun _ => rfl⟩

/-- Doubles are equal by comparison if they are the same number or both zeros. -/
theorem beq_iff : (x == y) = true ↔ (x = y ∧ x.isNaN = false) ∨ (IsZero x ∧ IsZero y) := by
  have hbeq : (x == y) = (x.toModel.unpack.compare y.toModel.unpack == some .eq) := rfl
  rw [hbeq, beq_iff_eq, isNaN_eq_false_iff]
  constructor
  · intro h
    rcases compare_eq h with ⟨hsame, hnumber⟩ | ⟨s, s', hx, hy⟩
    · exact .inl ⟨eq_of_unpack hsame hnumber, hnumber⟩
    · exact .inr ⟨isZero_of_unpack hx, isZero_of_unpack hy⟩
  · rintro (⟨rfl, hnumber⟩ | ⟨rfl | rfl, rfl | rfl⟩)
    · exact compare_self hnumber
    all_goals rfl

/-- A double that is a number and not infinite is finite. -/
theorem exists_finite (hnumber : x.isNaN = false) (hfinite : x.isInf = false) :
    ∃ negative magnitude, classify x = .finite negative magnitude := by
  have hunpack := unpack_eq x
  rw [isNaN_eq_false_iff] at hnumber
  have hinf : x.toModel.unpack.isInf = false := hfinite
  cases hclass : classify x with
  | nan =>
      rw [hclass] at hunpack
      exact absurd hunpack hnumber
  | infinite negative =>
      rw [hunpack, hclass] at hinf
      cases hinf
  | finite negative magnitude => exact ⟨negative, magnitude, rfl⟩

end Compare

/-! ## Numbers that are read -/

section Numbers

variable {u : UnpackedFloat} {s : Sign} {m : Nat} {e : Int} {hm : 0 < m}

/-- A choice is a number if both sides are. -/
theorem dite_ne_nan {c : Prop} [Decidable c] {yes : c → UnpackedFloat} {no : ¬c → UnpackedFloat}
    (hyes : ∀ h, yes h ≠ .notANumber) (hno : ∀ h, no h ≠ .notANumber) :
    dite c yes no ≠ .notANumber := by
  by_cases h : c
  · rw [dif_pos h]
    exact hyes h
  · rw [dif_neg h]
    exact hno h

theorem ite_ne_nan {c : Prop} [Decidable c] {yes no : UnpackedFloat} (hyes : yes ≠ .notANumber)
    (hno : no ≠ .notANumber) : ite c yes no ≠ .notANumber :=
  dite_ne_nan (fun _ => hyes) (fun _ => hno)

theorem unpack_ne_nan {b : BitVec binary64.numBits}
    (h : @unpackExponent binary64 b = -1#11 → @unpackMantissa binary64 b = 0#52) :
    UnpackedFloat.unpack binary64 b ≠ .notANumber := by
  unfold UnpackedFloat.unpack
  dsimp only
  by_cases htop : @unpackExponent binary64 b = -1#11
  · rw [if_pos htop, if_pos (h htop)]
    rintro ⟨⟩
  rw [if_neg htop]
  refine ite_ne_nan (dite_ne_nan (fun _ => ?_) (fun _ => ?_)) ?_ <;> rintro ⟨⟩

theorem unpack_pack_ne_nan (h : u ≠ .notANumber) : (Float.Model.pack u).unpack ≠ .notANumber := by
  refine unpack_ne_nan ?_
  change @unpackExponent binary64 (UnpackedFloat.pack binary64 u) = _ →
    @unpackMantissa binary64 (UnpackedFloat.pack binary64 u) = _
  unfold UnpackedFloat.pack
  split
  · exact absurd rfl h
  · rw [UnpackedFloat.packedInfinity, UnpackedFloat.unpackMantissa_packComponents]
    exact fun _ => rfl
  · rw [UnpackedFloat.packedZero, UnpackedFloat.unpackMantissa_packComponents]
    exact fun _ => rfl
  · dsimp only
    split
    · rw [UnpackedFloat.packedInfinity, UnpackedFloat.unpackMantissa_packComponents]
      exact fun _ => rfl
    · rename_i hlow
      split
      · rw [UnpackedFloat.unpackExponent_packComponents]
        intro htop
        have hnat := congrArg BitVec.toNat htop
        rw [BitVec.toNat_ofNat, show (-1#11).toNat = 2047 from rfl,
          show 2 ^ binary64.exponentBits = 2048 from rfl] at hnat
        rw [show 2 ^ binary64.exponentBits = 2048 from rfl] at hlow
        omega
      · rw [UnpackedFloat.unpackExponent_packComponents]
        exact fun htop => absurd htop (by decide)

theorem roundWithAccuracy_ne_nan (spec : Float.Model.Format) (s : Sign) (m : Nat) (e : Int)
    (a : UnpackedFloat.Accuracy) : UnpackedFloat.roundWithAccuracy spec s m e a ≠ .notANumber := by
  unfold UnpackedFloat.roundWithAccuracy
  dsimp only
  exact dite_ne_nan (fun _ => by rintro ⟨⟩) (fun _ => by rintro ⟨⟩)

theorem mul_ne_nan (h : u ≠ .notANumber) (spec : Float.Model.Format) :
    UnpackedFloat.mul spec u (.finite s m e hm) ≠ .notANumber := by
  cases u with
  | notANumber => exact absurd rfl h
  | infinity _ => rintro ⟨⟩
  | zero _ => rintro ⟨⟩
  | finite _ _ _ _ => exact roundWithAccuracy_ne_nan _ _ _ _ _

theorem div_ne_nan (h : u ≠ .notANumber) (spec : Float.Model.Format) :
    UnpackedFloat.div spec u (.finite s m e hm) ≠ .notANumber := by
  cases u with
  | notANumber => exact absurd rfl h
  | infinity _ => rintro ⟨⟩
  | zero _ => rintro ⟨⟩
  | finite _ _ _ _ => exact roundWithAccuracy_ne_nan _ _ _ _ _

theorem normalize_ne_nan (spec : Float.Model.Format) (m e : Int) (s : Sign) :
    UnpackedFloat.normalize spec m e s ≠ .notANumber := by
  unfold UnpackedFloat.normalize
  split
  · exact roundWithAccuracy_ne_nan _ _ _ _ _
  · rintro ⟨⟩
  · exact roundWithAccuracy_ne_nan _ _ _ _ _

theorem ofScientific_ne_nan (spec : Float.Model.Format) (m : Nat) (e : Int) :
    UnpackedFloat.ofScientific spec m e ≠ .notANumber := by
  unfold UnpackedFloat.ofScientific
  refine dite_ne_nan (fun _ => by rintro ⟨⟩) fun _ => ?_
  refine ite_ne_nan (by rintro ⟨⟩) (ite_ne_nan (by rintro ⟨⟩) (ite_ne_nan ?_ ?_))
  · exact mul_ne_nan (by rintro ⟨⟩) spec
  · exact div_ne_nan (by rintro ⟨⟩) spec

theorem isNaN_pack (h : u ≠ .notANumber) : (Float.ofModel (.pack u)).isNaN = false :=
  isNaN_eq_false_iff.mpr (unpack_pack_ne_nan h)

/-- A power of ten that is a double is a finite number and not zero. -/
theorem finite_of_power {e : Nat} (h : e < Float.exactlyRepresentablePowersOfTen.size) :
    ∃ s m n hm, Float.exactlyRepresentablePowersOfTen[e].toModel.unpack = .finite s m n hm := by
  have hall : (Float.exactlyRepresentablePowersOfTen.all fun p =>
      p.isFinite && !(p == 0.0)) = true := by decide +kernel
  have hpower := Array.all_eq_true.mp hall e h
  rw [Bool.and_eq_true, Bool.not_eq_true'] at hpower
  obtain ⟨hfinite, hnonzero⟩ := hpower
  change Float.exactlyRepresentablePowersOfTen[e].toModel.unpack.isFinite = true at hfinite
  cases hunpack : Float.exactlyRepresentablePowersOfTen[e].toModel.unpack with
  | notANumber =>
      rw [hunpack] at hfinite
      cases hfinite
  | infinity s =>
      rw [hunpack] at hfinite
      cases hfinite
  | zero s =>
      rw [beq_iff.mpr (.inr ⟨isZero_of_unpack hunpack, .inl rfl⟩)] at hnonzero
      cases hnonzero
  | finite s m n hm => exact ⟨s, m, n, hm, rfl⟩

theorem isNaN_ofScientific (m : Nat) (s : Bool) (e : Nat) :
    (Float.ofScientific m s e).isNaN = false := by
  unfold Float.ofScientific
  split
  · rename_i hsmall
    have hnumber : m.toUInt64.toFloat.toModel.unpack ≠ .notANumber :=
      unpack_pack_ne_nan (normalize_ne_nan _ _ _ _)
    obtain ⟨_, _, _, _, hpower⟩ := finite_of_power
      (show e < Float.exactlyRepresentablePowersOfTen.size from Nat.lt_succ_of_le hsmall.2)
    dsimp only
    split
    · refine isNaN_pack ?_
      rw [hpower]
      exact div_ne_nan hnumber _
    · refine isNaN_pack ?_
      rw [hpower]
      exact mul_ne_nan hnumber _
  · exact isNaN_pack (ofScientific_ne_nan _ _ _)

theorem isNaN_nearest (digits : Nat) (exponent : Int) : (nearest digits exponent).isNaN = false := by
  unfold nearest
  dsimp only
  split
  · rfl
  split
  · rfl
  split <;> exact isNaN_ofScientific _ _ _

/-- What a literal is read as is a number. -/
theorem isNaN_toFloat (x : Literal) : x.toFloat.isNaN = false := by
  unfold Literal.toFloat
  dsimp only
  have hnumber := isNaN_eq_false_iff.mp
    (isNaN_nearest (natOfDigits (x.whole ++ x.fraction)) (x.exponent - x.fraction.length))
  split
  · refine isNaN_pack ?_
    cases h : (nearest (natOfDigits (x.whole ++ x.fraction))
      (x.exponent - x.fraction.length)).toModel.unpack with
    | notANumber => exact absurd h hnumber
    | infinity _ => nofun
    | zero _ => nofun
    | finite _ _ _ _ => nofun
  · exact isNaN_eq_false_iff.mpr hnumber

end Numbers

end Decimal

end PageMacro
