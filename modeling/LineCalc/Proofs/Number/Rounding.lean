import Mathlib.Algebra.Ring.Nat
import Mathlib.Data.Nat.Log
import LineCalc.Number.Shortest

namespace LineCalc.Number

variable {n d n' d' k rank : ℕ}

private theorem roundHalfEven_mul (hk : 0 < k) :
    roundHalfEven (n * k) (d * k) = roundHalfEven n d := by
  have hmod : 2 * (n * k % (d * k)) = 2 * (n % d) * k := by
    rw [Nat.mul_mod_mul_right, Nat.mul_assoc]
  simp only [roundHalfEven, Nat.mul_div_mul_right _ _ hk, hmod, Nat.mul_lt_mul_right hk]

private theorem roundHalfEven_of_mul (hd : 0 < d) : roundHalfEven (n * d) d = n := by
  simp [roundHalfEven, hd]

private theorem div_le_roundHalfEven (n d : ℕ) : n / d ≤ roundHalfEven n d := by
  simp only [roundHalfEven]
  split
  · exact le_rfl
  · split
    · exact Nat.le_succ _
    · exact Nat.le_add_right ..

private theorem roundHalfEven_eq_zero (h : 2 * n < d) : roundHalfEven n d = 0 := by
  have hlt : n < d := by omega
  rw [roundHalfEven, Nat.div_eq_of_lt hlt, Nat.mod_eq_of_lt hlt]
  exact if_pos h

/-- So many units, the least positive number, are one. -/
@[irreducible] def unitsOfOne : ℕ := Nat.pow 2 1074

private theorem unitsOfOne_pos : 0 < unitsOfOne := by
  unfold unitsOfOne
  generalize 1074 = k
  exact Nat.two_pow_pos k

/-- The halvings that bring `n / d` units down to 53 digits. -/
def halvings (n d : ℕ) : ℕ := (n / d).log2 + 1 - 53

/-- The rank of the number nearest to `n / d` units. -/
def rankOfUnits (n d : ℕ) : ℕ :=
  min (halvings n d * 2 ^ 52 + roundHalfEven n (d * 2 ^ halvings n d)) infiniteRank

theorem nearestRank_eq (n d : ℕ) : nearestRank n d = rankOfUnits (n * unitsOfOne) d := by
  unfold nearestRank unitsOfOne
  generalize Nat.pow 2 1074 = u
  rfl

private theorem rankOfUnits_mul (hk : 0 < k) : rankOfUnits (n * k) (d * k) = rankOfUnits n d := by
  simp only [rankOfUnits, halvings, Nat.mul_div_mul_right _ _ hk, Nat.mul_right_comm d k,
    roundHalfEven_mul hk]

/-- Fractions of less than half of a unit are rounded to zero. -/
theorem rankOfUnits_eq_zero (h : 2 * n < d) : rankOfUnits n d = 0 := by
  have hhalvings : halvings n d = 0 := by
    rw [halvings, Nat.div_eq_of_lt (by omega)]
    rfl
  rw [rankOfUnits, hhalvings, Nat.pow_zero, Nat.mul_one, roundHalfEven_eq_zero h, Nat.zero_mul,
    Nat.zero_add, Nat.zero_min]

/-- With 53 digits left a number of units is at least `2 ^ 52`. -/
theorem two_pow_le_of_halvings (h : 0 < halvings n d) : 2 ^ (52 + halvings n d) ≤ n / d := by
  have hlog : (n / d).log2 = 52 + halvings n d := by
    rw [halvings] at h ⊢
    omega
  have hne : n / d ≠ 0 := by
    intro hzero
    rw [hzero] at hlog
    have : Nat.log2 0 = 0 := rfl
    omega
  rw [← hlog]
  exact (Nat.le_log2 hne).1 le_rfl

/-- From `2 ^ 2098` units on fractions are rounded to infinity. -/
theorem rankOfUnits_eq_infiniteRank (h : 2046 ≤ halvings n d) :
    rankOfUnits n d = infiniteRank := by
  have hpow : 2 ^ 52 ≤ n / (d * 2 ^ halvings n d) := by
    rw [← Nat.div_div_eq_div_mul, Nat.le_div_iff_mul_le (Nat.two_pow_pos _), ← Nat.pow_add]
    exact two_pow_le_of_halvings (by omega)
  have hround := div_le_roundHalfEven n (d * 2 ^ halvings n d)
  refine Nat.min_eq_right ?_
  rw [show infiniteRank = 2047 * 2 ^ 52 from rfl]
  omega

/-- A whole number of units with 53 digits before some zeros has its rank. -/
theorem rankOfUnits_of_mul {q f : ℕ} (hd : 0 < d) (hf : f < 2 ^ 52)
    (hq : (q + 1) * 2 ^ 52 + f ≤ infiniteRank) :
    rankOfUnits ((2 ^ 52 + f) * 2 ^ q * d) d = (q + 1) * 2 ^ 52 + f := by
  have hlog : ((2 ^ 52 + f) * 2 ^ q).log2 = 52 + q := by
    have hpos := Nat.two_pow_pos q
    refine (Nat.log2_eq_iff (Nat.mul_ne_zero (by omega) hpos.ne')).2 ⟨?_, ?_⟩
    · rw [Nat.pow_add]
      exact Nat.mul_le_mul_right _ (Nat.le_add_right ..)
    · rw [show 52 + q + 1 = 53 + q by omega, Nat.pow_add]
      exact Nat.mul_lt_mul_of_pos_right (by omega) hpos
  have hhalvings : halvings ((2 ^ 52 + f) * 2 ^ q * d) d = q := by
    rw [halvings, Nat.mul_div_cancel _ hd, hlog]
    omega
  have hround : roundHalfEven ((2 ^ 52 + f) * 2 ^ q * d) (d * 2 ^ q) = 2 ^ 52 + f := by
    rw [Nat.mul_assoc, Nat.mul_comm (2 ^ q) d]
    exact roundHalfEven_of_mul (Nat.mul_pos hd (Nat.two_pow_pos q))
  rw [rankOfUnits, hhalvings, hround]
  omega

/-- A whole number of units with 53 digits at most is its own rank. -/
theorem rankOfUnits_of_mul_of_lt (hd : 0 < d) (hn : n < 2 ^ 53) : rankOfUnits (n * d) d = n := by
  have hhalvings : halvings (n * d) d = 0 := by
    rw [halvings, Nat.mul_div_cancel _ hd]
    by_cases hzero : n = 0
    · rw [hzero]
      rfl
    · have hlog := (Nat.log2_lt hzero).2 hn
      omega
  have hround : roundHalfEven (n * d) (d * 2 ^ 0) = n := by
    rw [Nat.pow_zero, Nat.mul_one]
    exact roundHalfEven_of_mul hd
  rw [rankOfUnits, hhalvings, hround, show infiniteRank = 2047 * 2 ^ 52 from rfl]
  omega

/-- The number of a rank has that rank. -/
theorem rankOfUnits_units (hd : 0 < d) (h : rank ≤ infiniteRank) :
    rankOfUnits (units rank * d) d = rank := by
  rw [units]
  split
  next hlt => exact rankOfUnits_of_mul_of_lt hd hlt
  next hle =>
    have hq : rank / Nat.pow 2 52 - 1 + 1 = rank / 2 ^ 52 := by
      rw [Nat.pow_eq] at hle ⊢
      omega
    have hrank : (rank / Nat.pow 2 52 - 1 + 1) * 2 ^ 52 + rank % Nat.pow 2 52 = rank := by
      rw [hq, Nat.pow_eq]
      omega
    have hf : rank % Nat.pow 2 52 < 2 ^ 52 := Nat.mod_lt _ (Nat.two_pow_pos 52)
    exact (rankOfUnits_of_mul hd hf (hrank.trans_le h)).trans hrank

/-- Many digits take many halvings. -/
theorem le_halvings (h : 2 ^ k ≤ n / d) : k ≤ halvings n d + 52 := by
  have hne : n / d ≠ 0 := (Nat.lt_of_lt_of_le (Nat.two_pow_pos k) h).ne'
  have hlog := (Nat.le_log2 hne).2 h
  rw [halvings]
  omega

private theorem two_pow_mul_unitsOfOne (k : ℕ) : 2 ^ k * unitsOfOne = 2 ^ (k + 1074) := by
  unfold unitsOfOne
  generalize 1074 = e
  exact (Nat.pow_add 2 k e).symm

/-- Fractions of one value are rounded alike. -/
theorem nearestRank_congr (hd : 0 < d) (hd' : 0 < d') (h : n * d' = n' * d) :
    nearestRank n d = nearestRank n' d' := by
  have hscaled : n * unitsOfOne * d' = n' * unitsOfOne * d := by
    rw [Nat.mul_right_comm, h, Nat.mul_right_comm]
  rw [nearestRank_eq, nearestRank_eq]
  calc rankOfUnits (n * unitsOfOne) d
      = rankOfUnits (n * unitsOfOne * d') (d * d') := (rankOfUnits_mul hd').symm
    _ = rankOfUnits (n' * unitsOfOne * d) (d' * d) := by rw [hscaled, Nat.mul_comm d d']
    _ = rankOfUnits (n' * unitsOfOne) d' := rankOfUnits_mul hd

private theorem nearestRank_units (h : rank ≤ infiniteRank) :
    nearestRank (units rank) unitsOfOne = rank :=
  (nearestRank_eq _ _).trans (rankOfUnits_units unitsOfOne_pos h)

namespace Decimal

/-- The numerator of a decimal as a fraction. -/
def numerator (x : Decimal) : ℕ := x.digits * 10 ^ x.exponent.toNat

/-- The denominator of a decimal as a fraction. -/
def denominator (x : Decimal) : ℕ := 10 ^ (-x.exponent).toNat

/-- Two decimals stand for one number. -/
def SameValue (x y : Decimal) : Prop :=
  x.numerator * y.denominator = y.numerator * x.denominator

theorem denominator_pos (x : Decimal) : 0 < x.denominator := Nat.pow_pos (by decide)

private theorem two_pow_le_ten_pow (e : ℕ) : 2 ^ (3 * e) ≤ 10 ^ e := by
  rw [Nat.pow_mul]
  exact Nat.pow_le_pow_left (by decide) e

/-- Where the digits and the exponent say that a decimal is large, it is rounded to infinity. -/
theorem nearestRank_of_large {digits e : ℕ} (hdigits : digits ≠ 0)
    (h : 1024 ≤ digits.log2 + 3 * e) : Number.nearestRank (digits * 10 ^ e) 1 = infiniteRank := by
  have hvalue : 2 ^ (digits.log2 + 3 * e) ≤ digits * 10 ^ e := by
    rw [Nat.pow_add]
    exact Nat.mul_le_mul (Nat.log2_self_le hdigits) (two_pow_le_ten_pow e)
  have hunits : 2 ^ (digits.log2 + 3 * e + 1074) ≤ digits * 10 ^ e * unitsOfOne / 1 := by
    rw [Nat.div_one, ← two_pow_mul_unitsOfOne]
    exact Nat.mul_le_mul_right unitsOfOne hvalue
  have hhalvings := le_halvings hunits
  rw [Number.nearestRank_eq]
  exact rankOfUnits_eq_infiniteRank (by omega)

/-- Where the digits and the exponent say that a decimal is small, it is rounded to zero. -/
theorem nearestRank_of_small {digits e : ℕ} (h : digits.log2 + 1077 ≤ 3 * e) :
    Number.nearestRank digits (10 ^ e) = 0 := by
  have hvalue : digits * unitsOfOne < 2 ^ (digits.log2 + 1) * unitsOfOne :=
    Nat.mul_lt_mul_of_pos_right Nat.lt_log2_self unitsOfOne_pos
  rw [two_pow_mul_unitsOfOne] at hvalue
  have hpow : 2 * 2 ^ (digits.log2 + 1 + 1074) ≤ 10 ^ e := by
    rw [← Nat.pow_succ']
    exact (Nat.pow_le_pow_right (by decide) (by omega)).trans (two_pow_le_ten_pow e)
  rw [Number.nearestRank_eq]
  exact rankOfUnits_eq_zero (by omega)

/-- A decimal is rounded as the fraction that it is. -/
theorem nearestRank_eq (x : Decimal) :
    x.nearestRank = Number.nearestRank x.numerator x.denominator := by
  obtain ⟨digits, exponent⟩ := x
  by_cases hdigits : digits = 0
  · subst hdigits
    have hzero : numerator ⟨0, exponent⟩ = 0 := Nat.zero_mul _
    have hpos := denominator_pos ⟨0, exponent⟩
    rw [hzero, Number.nearestRank_eq, Nat.zero_mul, rankOfUnits_eq_zero (by omega)]
    rfl
  cases exponent with
  | ofNat e =>
    have hfraction : Number.nearestRank (digits * 10 ^ e) 1 =
        Number.nearestRank (numerator ⟨digits, .ofNat e⟩) (denominator ⟨digits, .ofNat e⟩) := by
      cases e <;> rfl
    rw [← hfraction, nearestRank]
    simp only [hdigits, if_false]
    split
    next hlarge => exact (nearestRank_of_large hdigits hlarge).symm
    next => rfl
  | negSucc e =>
    have hfraction : Number.nearestRank digits (10 ^ (e + 1)) =
        Number.nearestRank (numerator ⟨digits, .negSucc e⟩)
          (denominator ⟨digits, .negSucc e⟩) := by
      rw [numerator, Int.toNat_negSucc, Nat.pow_zero, Nat.mul_one]
      rfl
    rw [← hfraction, nearestRank]
    simp only [hdigits, if_false]
    split
    next hsmall => exact (nearestRank_of_small hsmall).symm
    next => rfl

/-- Decimals that stand for one number are rounded alike. -/
theorem SameValue.nearestRank_eq {x y : Decimal} (h : x.SameValue y) :
    x.nearestRank = y.nearestRank := by
  rw [Decimal.nearestRank_eq, Decimal.nearestRank_eq]
  exact nearestRank_congr x.denominator_pos y.denominator_pos h

end Decimal

private theorem nearestRank_of_pointOn {e : ℤ} {x : Decimal} (h : pointOn rank e = some x) :
    x.nearestRank = rank := by
  simp only [pointOn] at h
  split at h
  next hbelow =>
    split at h
    next habove => exact Option.some.inj h ▸ habove.1
    next => exact Option.some.inj h ▸ hbelow
  next =>
    split at h
    next habove => exact Option.some.inj h ▸ habove
    next => cases h

private theorem nearestRank_of_coarsestPoint {grids : ℕ} {e : ℤ} {x : Decimal}
    (h : coarsestPoint rank grids e = some x) : x.nearestRank = rank := by
  induction grids generalizing e with
  | zero => cases h
  | succ grids ih =>
    obtain hpoint | ⟨-, hpoint⟩ := Option.or_eq_some_iff.1 h
    · exact nearestRank_of_pointOn hpoint
    · exact ih hpoint

/-- All digits of a number are rounded to it. -/
theorem nearestRank_exactDecimal (h : rank ≤ infiniteRank) :
    (exactDecimal rank).nearestRank = rank := by
  have hfraction : ∀ k u : ℕ, (⟨u * Nat.pow 5 k, -(k : ℤ)⟩ : Decimal).nearestRank =
      nearestRank u (Nat.pow 2 k) := by
    intro k u
    rw [Decimal.nearestRank_eq]
    refine nearestRank_congr (Decimal.denominator_pos _) (Nat.two_pow_pos k) ?_
    simp only [Decimal.numerator, Decimal.denominator, Int.neg_neg, Int.toNat_natCast,
      Int.toNat_neg_natCast, Nat.pow_zero, Nat.mul_one, Nat.pow_eq]
    rw [Nat.mul_assoc, ← Nat.mul_pow]
  have hunits := nearestRank_units h
  unfold unitsOfOne at hunits
  rw [exactDecimal, show (-1074 : ℤ) = -((1074 : ℕ) : ℤ) from rfl]
  generalize 1074 = k at hunits ⊢
  rw [hfraction, hunits]

/-- The shortest decimal of a number is rounded to it. -/
theorem nearestRank_shortestDecimal (h : rank ≤ infiniteRank) :
    (shortestDecimal rank).nearestRank = rank := by
  rw [shortestDecimal]
  split
  next hzero =>
    rw [hzero]
    rfl
  next =>
    cases hpoint : coarsestPoint rank 20 (startExponent rank) with
    | none => exact nearestRank_exactDecimal h
    | some x => exact nearestRank_of_coarsestPoint hpoint

end LineCalc.Number
