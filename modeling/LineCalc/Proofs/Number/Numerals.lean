import Mathlib.Data.List.DropRight
import LineCalc.Number.Numeral
import LineCalc.Proofs.Number.Rounding

namespace LineCalc.Number

/-- A numeral without an exponent: digits, and more digits after a point, if there are any. -/
structure Plain where
  whole : List Char
  after : List Char
  whole_ne_nil : whole ≠ []
  isDigit_whole : ∀ c ∈ whole, c.isDigit = true
  isDigit_after : ∀ c ∈ after, c.isDigit = true

namespace Plain

variable (p : Plain)

/-- The characters from the point on. -/
def tail : List Char :=
  match p.after with
  | [] => []
  | after => '.' :: after

/-- The characters of the numeral. -/
def chars : List Char := p.whole ++ p.tail

/-- The decimal that the numeral spells. -/
def decimal : Decimal := ⟨digitsValue (p.whole ++ p.after), -(p.after.length : ℤ)⟩

theorem tail_cases : p.after = [] ∧ p.tail = [] ∨ p.tail = '.' :: p.after := by
  rw [tail]
  split
  next hafter => exact .inl ⟨hafter, rfl⟩
  next => exact .inr rfl

private theorem takeWhile_tail : p.tail.takeWhile Char.isDigit = [] := by
  obtain ⟨-, htail⟩ | htail := p.tail_cases <;> rw [htail] <;> rfl

private theorem dropWhile_tail : p.tail.dropWhile Char.isDigit = p.tail := by
  obtain ⟨-, htail⟩ | htail := p.tail_cases <;> rw [htail] <;> rfl

/-- The digits after the point are found again. -/
theorem splitFraction_tail : splitFraction p.tail = (p.after, []) := by
  obtain ⟨hafter, htail⟩ | htail := p.tail_cases
  · rw [htail, hafter]
    rfl
  · rw [htail, splitFraction, List.takeWhile_eq_self_iff.2 p.isDigit_after,
      List.dropWhile_eq_nil_iff.2 p.isDigit_after]

/-- The numeral is read digit by digit. -/
theorem readDecimal?_chars : readDecimal? p.chars = some p.decimal := by
  have hwhole : p.chars.takeWhile Char.isDigit = p.whole := by
    rw [chars, List.takeWhile_append_of_pos p.isDigit_whole, takeWhile_tail, List.append_nil]
  have hrest : p.chars.dropWhile Char.isDigit = p.tail := by
    rw [chars, List.dropWhile_append_of_pos p.isDigit_whole, dropWhile_tail]
  have hdigits : ¬ (p.whole = [] ∧ p.after = []) := fun h => p.whole_ne_nil h.1
  simp only [readDecimal?, hwhole, hrest, splitFraction_tail, if_neg hdigits]
  simp [readExponent?, decimal]

private theorem ofList_chars :
    String.ofList p.chars =
      match p.after with
      | [] => String.ofList p.whole
      | after => String.ofList p.whole ++ "." ++ String.ofList after := by
  rw [chars, tail, String.ofList_append]
  split
  · exact String.append_empty
  · rw [← List.singleton_append, String.ofList_append, String.append_assoc]

theorem isDigit_or_of_mem {c : Char} (h : c ∈ p.chars) : (c.isDigit || c == '.') = true := by
  obtain hwhole | htail := List.mem_append.1 h
  · rw [p.isDigit_whole c hwhole, Bool.true_or]
  · obtain ⟨-, heq⟩ | heq := p.tail_cases
    · rw [heq] at htail
      cases htail
    · rw [heq] at htail
      obtain rfl | hafter := List.mem_cons.1 htail
      · rfl
      · rw [p.isDigit_after c hafter, Bool.true_or]

/-- The numeral begins with a digit. -/
theorem exists_chars_eq_cons : ∃ first rest, p.chars = first :: rest ∧ first.isDigit = true := by
  obtain ⟨first, rest, hwhole⟩ := List.exists_cons_of_ne_nil p.whole_ne_nil
  refine ⟨first, rest ++ p.tail, ?_, p.isDigit_whole first ?_⟩
  · rw [chars, hwhole, List.cons_append]
  · rw [hwhole]
    exact List.mem_cons_self ..

end Plain

theorem digitsValue_eq (digits : List Char) : digitsValue digits = Nat.ofDigitChars 10 digits 0 :=
  rfl

private theorem digitsValue_append (left right : List Char) :
    digitsValue (left ++ right) = digitsValue left * 10 ^ right.length + digitsValue right := by
  rw [digitsValue_eq, Nat.ofDigitChars_append, Nat.ofDigitChars_eq_ofDigitChars_zero,
    Nat.mul_comm]
  rfl

theorem isDigit_toDigits (n : ℕ) : ∀ c ∈ Nat.toDigits 10 n, c.isDigit = true :=
  fun _ => Nat.isDigit_of_mem_toDigits (by decide) (by decide)

/-- Zeros at the end can be left out. -/
theorem exists_append_replicate (digits : List Char) :
    ∃ k, digits = digits.rdropWhile (· == '0') ++ List.replicate k '0' := by
  have hzeros : digits.rtakeWhile (· == '0') =
      List.replicate (digits.rtakeWhile (· == '0')).length '0' := by
    refine List.eq_replicate_length.2 fun c hc => ?_
    exact beq_iff_eq.1 (List.mem_rtakeWhile_imp (p := (· == '0')) hc)
  refine ⟨(digits.rtakeWhile (· == '0')).length, ?_⟩
  rw [← hzeros, List.rdropWhile_append_rtakeWhile]

/-- The digits after a point, with zeros after them, are the digits of a number with zeros before
them. -/
theorem exists_fraction {places digits : ℕ} (hplaces : 0 < places) (h : digits < 10 ^ places) :
    ∃ k, (Decimal.fraction places digits).length + k = places ∧
      digitsValue (Decimal.fraction places digits) * 10 ^ k = digits ∧
      ∀ c ∈ Decimal.fraction places digits, c.isDigit = true := by
  let padded := List.replicate (places - (Nat.toDigits 10 digits).length) '0' ++
    Nat.toDigits 10 digits
  obtain ⟨k, hk⟩ : ∃ k, padded = Decimal.fraction places digits ++ List.replicate k '0' :=
    exists_append_replicate padded
  have hlength : padded.length = places := by
    have hle := (Nat.length_toDigits_le_iff (b := 10) (by decide) hplaces).2 h
    simp only [padded, List.length_append, List.length_replicate]
    omega
  have hvalue : digitsValue padded = digits := by
    rw [digitsValue_eq, Nat.ofDigitChars_append, Nat.ofDigitChars_replicate_zero, Nat.mul_zero,
      Nat.ofDigitChars_ten_toDigits]
  have hdigits : ∀ c ∈ padded, c.isDigit = true := by
    intro c hc
    obtain hzero | hdigit := List.mem_append.1 hc
    · rw [List.eq_of_mem_replicate hzero]
      rfl
    · exact isDigit_toDigits digits c hdigit
  rw [hk] at hlength hvalue hdigits
  refine ⟨k, ?_, ?_, fun c hc => hdigits c (List.mem_append_left _ hc)⟩
  · rwa [List.length_append, List.length_replicate] at hlength
  · rwa [digitsValue_append, List.length_replicate, digitsValue_eq (List.replicate ..),
      Nat.ofDigitChars_replicate_zero, Nat.mul_zero, Nat.add_zero] at hvalue

namespace Decimal

private theorem numerator_ofNat (digits e : ℕ) :
    numerator ⟨digits, .ofNat e⟩ = digits * 10 ^ e := rfl

private theorem denominator_ofNat (digits e : ℕ) : denominator ⟨digits, .ofNat e⟩ = 1 := by
  rw [denominator, Int.ofNat_eq_natCast, Int.toNat_neg_natCast, Nat.pow_zero]

theorem numerator_neg (digits k : ℕ) : numerator ⟨digits, -(k : ℤ)⟩ = digits := by
  rw [numerator, Int.toNat_neg_natCast, Nat.pow_zero, Nat.mul_one]

theorem denominator_neg (digits k : ℕ) : denominator ⟨digits, -(k : ℤ)⟩ = 10 ^ k := by
  rw [denominator, Int.neg_neg, Int.toNat_natCast]

/-- An integer is written with all its digits. -/
theorem exists_plain_ofNat (digits e : ℕ) :
    ∃ p : Plain, positional ⟨digits, .ofNat e⟩ = String.ofList p.chars ∧
      p.decimal.SameValue ⟨digits, .ofNat e⟩ := by
  let p : Plain := ⟨Nat.toDigits 10 (digits * 10 ^ e), [], Nat.toDigits_ne_nil,
    isDigit_toDigits _, nofun⟩
  have hdecimal : p.decimal = ⟨digits * 10 ^ e, -((0 : ℕ) : ℤ)⟩ := by
    simp [Plain.decimal, p, digitsValue_eq]
  refine ⟨p, ?_, ?_⟩
  · rw [p.ofList_chars]
    exact Nat.toString_eq_ofList_toDigits
  · rw [SameValue, hdecimal, numerator_neg, denominator_neg, numerator_ofNat, denominator_ofNat,
      Nat.pow_zero]

/-- Any other decimal is written with a point before the last of its digits, as many as its
exponent says, apart from the zeros at its end. -/
theorem exists_plain_negSucc (digits e : ℕ) :
    ∃ p : Plain, positional ⟨digits, .negSucc e⟩ = String.ofList p.chars ∧
      p.decimal.SameValue ⟨digits, .negSucc e⟩ := by
  have hpos : 0 < 10 ^ (e + 1) := Nat.pow_pos (by decide)
  obtain ⟨k, hlength, hvalue, hdigits⟩ :=
    exists_fraction (Nat.succ_pos e) (Nat.mod_lt digits hpos)
  let p : Plain := ⟨Nat.toDigits 10 (digits / 10 ^ (e + 1)),
    fraction (e + 1) (digits % 10 ^ (e + 1)), Nat.toDigits_ne_nil, isDigit_toDigits _, hdigits⟩
  refine ⟨p, ?_, ?_⟩
  · rw [p.ofList_chars]
    rfl
  · have hwhole : digitsValue p.whole = digits / 10 ^ (e + 1) := Nat.ofDigitChars_ten_toDigits
    rw [SameValue, Plain.decimal, numerator_neg, denominator_neg,
      show Int.negSucc e = -((e + 1 : ℕ) : ℤ) from rfl, numerator_neg, denominator_neg,
      digitsValue_append, hwhole]
    calc (digits / 10 ^ (e + 1) * 10 ^ p.after.length + digitsValue p.after) * 10 ^ (e + 1)
        = digits / 10 ^ (e + 1) * 10 ^ p.after.length * 10 ^ (e + 1) +
            digitsValue p.after * 10 ^ k * 10 ^ p.after.length := by
          rw [Nat.add_mul, Nat.mul_assoc (digitsValue p.after), ← Nat.pow_add, Nat.add_comm k,
            hlength]
      _ = (digits / 10 ^ (e + 1) * 10 ^ (e + 1) + digits % 10 ^ (e + 1)) *
            10 ^ p.after.length := by
          rw [hvalue, Nat.add_mul, Nat.mul_right_comm]
      _ = digits * 10 ^ p.after.length := by rw [Nat.div_add_mod']

/-- A decimal is written as a numeral that spells a decimal for the same number. -/
theorem exists_plain (x : Decimal) :
    ∃ p : Plain, x.positional = String.ofList p.chars ∧ p.decimal.SameValue x := by
  obtain ⟨digits, exponent⟩ := x
  cases exponent with
  | ofNat e => exact exists_plain_ofNat digits e
  | negSucc e => exact exists_plain_negSucc digits e

end Decimal

/-- The text of a finite number without a sign is a numeral that is read as the number. -/
theorem exists_rankText {rank : ℕ} (h : rank < infiniteRank) :
    ∃ p : Plain, rankText rank = String.ofList p.chars ∧
      read? (rankText rank) = some (Float.ofBits (UInt64.ofNat rank)) := by
  obtain ⟨p, htext, hvalue⟩ := (shortestDecimal rank).exists_plain
  have hrank : rankText rank = String.ofList p.chars := by
    rw [rankText, if_neg h.ne, htext]
  refine ⟨p, hrank, ?_⟩
  rw [hrank, read?, String.toList_ofList, p.readDecimal?_chars, Option.map_some,
    hvalue.nearestRank_eq, nearestRank_shortestDecimal h.le]

end LineCalc.Number
