import Mathlib.Algebra.Ring.Nat
import LineCalc.Number.Rank

namespace LineCalc.Number

open Float.Model Float.Model.UnpackedFloat

/-- The three fields of 64 bits. -/
structure Fields where
  sign : Sign
  exponent : BitVec 11
  mantissa : BitVec 52

namespace Fields

variable (f : Fields)

/-- The fields side by side. -/
def bits : BitVec 64 := packComponents .binary64 f.sign f.exponent f.mantissa

/-- The fields that lie side by side in some bits. -/
def ofBits (b : BitVec 64) : Fields :=
  ⟨.ofBitVec (@unpackSign .binary64 b), @unpackExponent .binary64 b,
    @unpackMantissa .binary64 b⟩

/-- The fields with the sign turned over. -/
def negated : Fields := { f with sign := -f.sign }

@[simp] theorem sign_negated : f.negated.sign = -f.sign := rfl

@[simp] theorem exponent_negated : f.negated.exponent = f.exponent := rfl

@[simp] theorem mantissa_negated : f.negated.mantissa = f.mantissa := rfl

/-- The mantissa of a number with all its digits, the first of which is not kept. -/
theorem toNat_one_append (m : BitVec 52) : (1#1 ++ m).toNat = 2 ^ 52 + m.toNat := by
  rw [BitVec.toNat_append, ← Nat.shiftLeft_add_eq_or_of_lt m.isLt, Nat.shiftLeft_eq]
  rfl

/-- What the fields stand for. -/
def unpacked : UnpackedFloat :=
  if f.exponent = -1#_ then
    if f.mantissa = 0#_ then .infinity f.sign else .notANumber
  else if f.exponent = 0#_ then
    if h : f.mantissa = 0#_ then .zero f.sign
    else
      .finite f.sign f.mantissa.toNat (f.exponent.toNat - (1023 + 52) + 1)
        (by simpa [BitVec.toNat_pos, BitVec.pos_iff_ne_zero])
  else
    .finite f.sign (1#1 ++ f.mantissa).toNat (f.exponent.toNat - (1023 + 52))
      (by rw [toNat_one_append]; omega)

private theorem unpack_eq (b : BitVec 64) : unpack .binary64 b = (ofBits b).unpacked := rfl

theorem ones_ne_zero : (-1#11 : BitVec 11) ≠ 0#11 := by decide

/-- What the fields stand for, case by case. -/
inductive Stands : UnpackedFloat → Prop
  | infinity (hones : f.exponent = -1#_) (hmantissa : f.mantissa = 0#_) :
    Stands (.infinity f.sign)
  | notANumber (hones : f.exponent = -1#_) (hmantissa : f.mantissa ≠ 0#_) : Stands .notANumber
  | zero (hzero : f.exponent = 0#_) (hmantissa : f.mantissa = 0#_) : Stands (.zero f.sign)
  | subnormal (hzero : f.exponent = 0#_) (hpos : 0 < f.mantissa.toNat) :
    Stands (.finite f.sign f.mantissa.toNat (f.exponent.toNat - (1023 + 52) + 1) hpos)
  | normal (hones : f.exponent ≠ -1#_) (hzero : f.exponent ≠ 0#_)
      (hpos : 0 < (1#1 ++ f.mantissa).toNat) :
    Stands (.finite f.sign (1#1 ++ f.mantissa).toNat (f.exponent.toNat - (1023 + 52)) hpos)

theorem stands_unpacked : f.Stands f.unpacked := by
  rw [unpacked]
  by_cases hones : f.exponent = -1#_
  · rw [if_pos hones]
    by_cases hmantissa : f.mantissa = 0#_
    · rw [if_pos hmantissa]
      exact .infinity hones hmantissa
    · rw [if_neg hmantissa]
      exact .notANumber hones hmantissa
  · rw [if_neg hones]
    by_cases hzero : f.exponent = 0#_
    · rw [if_pos hzero]
      by_cases hmantissa : f.mantissa = 0#_
      · rw [dif_pos hmantissa]
        exact .zero hzero hmantissa
      · rw [dif_neg hmantissa]
        exact .subnormal hzero _
    · rw [if_neg hzero]
      exact .normal hones hzero _

namespace Stands

variable {f} {u : UnpackedFloat}

theorem neg (h : f.Stands u) : f.negated.Stands u.neg := by
  cases h with
  | infinity hones hmantissa => exact .infinity hones hmantissa
  | notANumber hones hmantissa => exact .notANumber hones hmantissa
  | zero hzero hmantissa => exact .zero hzero hmantissa
  | subnormal hzero hpos => exact .subnormal (f := f.negated) hzero hpos
  | normal hones hzero hpos => exact .normal (f := f.negated) hones hzero hpos

/-- All bits of the exponent are set in infinities and in what is no number. -/
theorem isFinite_iff (h : f.Stands u) : u.isFinite = true ↔ f.exponent ≠ -1#_ := by
  cases h with
  | infinity hones => exact iff_of_false nofun (not_not_intro hones)
  | notANumber hones => exact iff_of_false nofun (not_not_intro hones)
  | zero hzero => exact iff_of_true rfl (hzero.trans_ne ones_ne_zero.symm)
  | subnormal hzero => exact iff_of_true rfl (hzero.trans_ne ones_ne_zero.symm)
  | normal hones => exact iff_of_true rfl hones

/-- A digit is set in the mantissa of what is no number, and in that of no infinity. -/
theorem isNaN_iff (h : f.Stands u) :
    u.isNaN = true ↔ f.exponent = -1#_ ∧ f.mantissa ≠ 0#_ := by
  cases h with
  | infinity hones hmantissa => exact iff_of_false nofun fun h => h.2 hmantissa
  | notANumber hones hmantissa => exact iff_of_true rfl ⟨hones, hmantissa⟩
  | zero hzero => exact iff_of_false nofun fun h => ones_ne_zero (h.1.symm.trans hzero)
  | subnormal hzero => exact iff_of_false nofun fun h => ones_ne_zero (h.1.symm.trans hzero)
  | normal hones => exact iff_of_false nofun fun h => hones h.1

end Stands

theorem toNat_bits :
    f.bits.toNat =
      f.sign.toBitVec.toNat * 2 ^ 63 + f.exponent.toNat * 2 ^ 52 + f.mantissa.toNat := by
  have he := f.exponent.isLt
  have hm := f.mantissa.isLt
  rw [bits, packComponents, BitVec.toNat_append, BitVec.toNat_append,
    ← Nat.shiftLeft_add_eq_or_of_lt f.mantissa.isLt,
    ← Nat.shiftLeft_add_eq_or_of_lt f.exponent.isLt, Nat.shiftLeft_eq, Nat.shiftLeft_eq]
  omega

private theorem toNat_unpackSign (b : BitVec 64) :
    (@unpackSign .binary64 b).toNat = b.toNat / 2 ^ 63 % 2 := by
  have hextract : (@unpackSign .binary64 b).toNat = (b.extractLsb 63 63).toNat := rfl
  rw [hextract, BitVec.extractLsb_toNat, Nat.shiftRight_eq_div_pow]

private theorem toNat_unpackExponent (b : BitVec 64) :
    (@unpackExponent .binary64 b).toNat = b.toNat / 2 ^ 52 % 2 ^ 11 := by
  have hextract : (@unpackExponent .binary64 b).toNat = (b.extractLsb 62 52).toNat := rfl
  rw [hextract, BitVec.extractLsb_toNat, Nat.shiftRight_eq_div_pow]

private theorem toNat_unpackMantissa (b : BitVec 64) :
    (@unpackMantissa .binary64 b).toNat = b.toNat % 2 ^ 52 := by
  have hextract : (@unpackMantissa .binary64 b).toNat = (b.extractLsb 51 0).toNat := rfl
  rw [hextract, BitVec.extractLsb_toNat, Nat.shiftRight_zero]

private theorem toBitVec_ofBitVec (b : BitVec 1) : (Sign.ofBitVec b).toBitVec = b := by
  decide +revert

private theorem ofBitVec_toBitVec (s : Sign) : Sign.ofBitVec s.toBitVec = s := by
  cases s <;> rfl

private theorem neg_neg_sign (s : Sign) : - -s = s := by
  cases s <;> rfl

@[simp] theorem bits_ofBits (b : BitVec 64) : (ofBits b).bits = b := by
  have hb := b.isLt
  refine BitVec.eq_of_toNat_eq ?_
  rw [toNat_bits, ofBits, toBitVec_ofBitVec, toNat_unpackSign, toNat_unpackExponent,
    toNat_unpackMantissa]
  omega

private theorem unpackSign_bits : @unpackSign .binary64 f.bits = f.sign.toBitVec := by
  refine BitVec.eq_of_toNat_eq ?_
  have hs := f.sign.toBitVec.isLt
  have he := f.exponent.isLt
  have hm := f.mantissa.isLt
  have hbits := f.toNat_bits
  rw [toNat_unpackSign]
  omega

@[simp] theorem ofBits_bits : ofBits f.bits = f := by
  rw [ofBits, unpackSign_bits, ofBitVec_toBitVec, bits, unpackExponent_packComponents,
    unpackMantissa_packComponents]

/-- How a finite number is packed: with its first digit implicit if it has all its digits, and
with an exponent of no set bits if it has not. -/
theorem pack_finite (s : Sign) (m : ℕ) (e : ℤ) (hm : 0 < m) :
    UnpackedFloat.pack .binary64 (.finite s m e hm) =
      if 2 ^ 11 ≤ (e + Format.binary64.exponentBias + 52).toNat + 1 then
        packedInfinity .binary64 s
      else if m.log2 + 1 = 53 then
        packComponents .binary64 s
          (BitVec.ofNat 11 (e + Format.binary64.exponentBias + 52).toNat) (BitVec.ofNat 52 m)
      else packComponents .binary64 s 0#11 (BitVec.ofNat 52 m) := rfl

/-- What the fields stand for is packed into the fields, if it is a number. -/
theorem Stands.pack {u : UnpackedFloat} (h : f.Stands u)
    (hnumber : f.exponent = -1#_ → f.mantissa = 0#_) :
    UnpackedFloat.pack .binary64 u = f.bits := by
  obtain ⟨s, e, m⟩ := f
  cases h with
  | infinity hones hmantissa =>
    obtain rfl : e = -1#_ := hones
    obtain rfl : m = 0#_ := hmantissa
    rfl
  | notANumber hones hmantissa => exact absurd (hnumber hones) hmantissa
  | zero hzero hmantissa =>
    obtain rfl : e = 0#_ := hzero
    obtain rfl : m = 0#_ := hmantissa
    rfl
  | subnormal hzero hpos =>
    obtain rfl : e = 0#_ := hzero
    -- A mantissa without the implicit digit has fewer than 53 digits.
    have hdigits : m.toNat.log2 + 1 ≠ 53 := by
      have hlog := (Nat.log2_lt (Nat.ne_of_gt hpos)).2 m.isLt
      exact Nat.ne_of_lt (Nat.succ_lt_succ hlog)
    have hlt : ¬ 2 ^ 11 ≤ (((0#11).toNat : ℤ) - (1023 + 52) + 1 +
        Format.binary64.exponentBias + 52).toNat + 1 := by
      decide
    rw [pack_finite, if_neg hlt, if_neg hdigits, BitVec.ofNat_toNat, BitVec.setWidth_eq]
    rfl
  | normal hones hzero hpos =>
    have hwhole := toNat_one_append m
    have hdigits : (1#1 ++ m).toNat.log2 + 1 = 53 := by
      have hlog : (1#1 ++ m).toNat.log2 = 52 := by
        refine (Nat.log2_eq_iff ?_).2 ?_ <;> omega
      rw [hlog]
    have hbiased :
        ((e.toNat : ℤ) - (1023 + 52) + Format.binary64.exponentBias + 52).toNat = e.toNat := by
      rw [show (Format.binary64.exponentBias : ℤ) = 1023 from rfl]
      omega
    have hlt : ¬ 2 ^ 11 ≤ e.toNat + 1 := by
      have hne : e.toNat ≠ (-1#11).toNat := fun hall => hones (BitVec.eq_of_toNat_eq hall)
      rw [show (-1#11).toNat = 2047 from rfl] at hne
      omega
    have hmantissa : BitVec.ofNat 52 (1#1 ++ m).toNat = m := by
      refine BitVec.eq_of_toNat_eq ?_
      rw [BitVec.toNat_ofNat]
      omega
    rw [pack_finite, hbiased, if_neg hlt, if_pos hdigits, BitVec.ofNat_toNat,
      BitVec.setWidth_eq, hmantissa]
    rfl

/-- A number is determined by its bits. -/
theorem toBits_inj {x y : Float} (h : x.toBits = y.toBits) : x = y := by
  obtain ⟨⟨xbits, hx⟩⟩ := x
  obtain ⟨⟨ybits, hy⟩⟩ := y
  obtain rfl : xbits = ybits := h
  rfl

/-- The fields of a number. -/
def of (x : Float) : Fields := ofBits x.toBits.toBitVec

variable {x : Float}

theorem bits_of (x : Float) : (of x).bits = x.toBits.toBitVec := bits_ofBits _

theorem isFinite_iff : x.isFinite = true ↔ (of x).exponent ≠ -1#_ :=
  (of x).stands_unpacked.isFinite_iff

theorem isNaN_iff : x.isNaN = true ↔ (of x).exponent = -1#_ ∧ (of x).mantissa ≠ 0#_ :=
  (of x).stands_unpacked.isNaN_iff

/-- A number is determined by its fields. -/
theorem eq_of_of_eq {y : Float} (h : of x = of y) : x = y := by
  refine toBits_inj ?_
  rw [← UInt64.toBitVec_inj, ← bits_of, ← bits_of, h]

/-- Packing what finite fields stand for gives the number that has them. -/
theorem Stands.of_pack {f : Fields} {u : UnpackedFloat} (h : f.Stands u)
    (hones : f.exponent ≠ -1#_) : of (.ofModel (Float.Model.pack u)) = f := by
  calc of (.ofModel (Float.Model.pack u))
      = ofBits (UnpackedFloat.pack .binary64 u) := rfl
    _ = f := by rw [h.pack f fun hexponent => absurd hexponent hones, ofBits_bits]

/-- Negation of a finite number turns its sign over. -/
theorem of_neg (h : x.isFinite = true) : of (-x) = (of x).negated :=
  (of x).stands_unpacked.neg.of_pack (isFinite_iff.1 h)

/-- Finite bits spell the number with these bits. -/
theorem of_floatOfBits {b : UInt64} (h : (ofBits b.toBitVec).exponent ≠ -1#_) :
    of (Float.ofBits b) = ofBits b.toBitVec := by
  rw [Float.ofBits, Float.Model.ofBits, unpack_eq]
  exact (stands_unpacked _).of_pack h

end Fields

variable {x : Float}

theorem isFinite_neg (h : x.isFinite = true) : (-x).isFinite = true := by
  rw [Fields.isFinite_iff, Fields.of_neg h, Fields.exponent_negated]
  exact Fields.isFinite_iff.1 h

theorem neg_neg_of_isFinite (h : x.isFinite = true) : - -x = x := by
  refine Fields.eq_of_of_eq ?_
  rw [Fields.of_neg (isFinite_neg h), Fields.of_neg h, Fields.negated, Fields.negated,
    Fields.neg_neg_sign]

theorem isNaN_of_isFinite (h : x.isFinite = true) : x.isNaN = false := by
  refine Bool.eq_false_iff.2 fun hnan => ?_
  exact Fields.isFinite_iff.1 h (Fields.isNaN_iff.1 hnan).1

/-- The bits of a finite number are its own. -/
theorem ofBits_toBits (h : x.isFinite = true) : Float.ofBits x.toBits = x :=
  Fields.eq_of_of_eq (Fields.of_floatOfBits (Fields.isFinite_iff.1 h))

theorem toNat_toBits (x : Float) :
    x.toBits.toNat = (Fields.of x).sign.toBitVec.toNat * 2 ^ 63 +
      (Fields.of x).exponent.toNat * 2 ^ 52 + (Fields.of x).mantissa.toNat := by
  rw [← Fields.toNat_bits, Fields.bits_of]
  rfl

/-- With a clear sign bit the bits of a finite number are a rank below that of infinity. -/
theorem toNat_toBits_lt (h : x.isFinite = true) (hsign : x.toBits.toNat < 2 ^ 63) :
    x.toBits.toNat < infiniteRank := by
  have hbits := toNat_toBits x
  have hm := (Fields.of x).mantissa.isLt
  have he := (Fields.of x).exponent.isLt
  have hne : (Fields.of x).exponent.toNat ≠ (-1#11).toNat :=
    fun hall => Fields.isFinite_iff.1 h (BitVec.eq_of_toNat_eq hall)
  rw [show (-1#11).toNat = 2047 from rfl] at hne
  rw [show infiniteRank = 2047 * 2 ^ 52 from rfl]
  omega

/-- A set sign bit is cleared by negation, and nothing else changes. -/
theorem toNat_toBits_neg (h : x.isFinite = true) (hsign : 2 ^ 63 ≤ x.toBits.toNat) :
    (-x).toBits.toNat + 2 ^ 63 = x.toBits.toNat := by
  have hm := (Fields.of x).mantissa.isLt
  have he := (Fields.of x).exponent.isLt
  have hbits := toNat_toBits x
  rw [toNat_toBits, Fields.of_neg h, Fields.sign_negated, Fields.exponent_negated,
    Fields.mantissa_negated]
  cases hs : (Fields.of x).sign with
  | negative =>
    rw [hs, show Sign.negative.toBitVec.toNat = 1 from rfl] at hbits
    rw [show (-Sign.negative).toBitVec.toNat = 0 from rfl]
    omega
  | positive =>
    rw [hs, show Sign.positive.toBitVec.toNat = 0 from rfl] at hbits
    omega

end LineCalc.Number
