import LineCalc.Proofs.Number.Bits
import LineCalc.Proofs.Number.Numerals

namespace LineCalc.Number

/-- The rank whose text is given: infinity has the only text that is no numeral. -/
def rankOfText (text : String) : ℕ :=
  ((readDecimal? text.toList).map Decimal.nearestRank).getD infiniteRank

private theorem rankOfText_rankText {rank : ℕ} (h : rank ≤ infiniteRank) :
    rankOfText (rankText rank) = rank := by
  obtain hlt | rfl := lt_or_eq_of_le h
  · obtain ⟨p, htext, hvalue⟩ := (shortestDecimal rank).exists_plain
    rw [rankText, if_neg hlt.ne, htext, rankOfText, String.toList_ofList, p.readDecimal?_chars,
      Option.map_some, Option.getD_some, hvalue.nearestRank_eq, nearestRank_shortestDecimal h]
  · rw [rankText, if_pos rfl]
    decide

private theorem rankText_inj {rank rank' : ℕ} (h : rank ≤ infiniteRank) (h' : rank' ≤ infiniteRank)
    (heq : rankText rank = rankText rank') : rank = rank' := by
  rw [← rankOfText_rankText h, heq, rankOfText_rankText h']

/-- A character in the text of a rank: a digit, a point, or a letter of infinity. -/
def isRankChar (c : Char) : Bool := c.isDigit || c == '.' || c == 'i' || c == 'n' || c == 'f'

theorem isRankChar_of_mem {rank : ℕ} {c : Char} (h : c ∈ (rankText rank).toList) :
    isRankChar c = true := by
  rw [rankText] at h
  split at h
  next =>
    have hletters : "inf".toList.all isRankChar = true := by decide
    exact List.all_eq_true.1 hletters c h
  next =>
    obtain ⟨p, htext, -⟩ := (shortestDecimal rank).exists_plain
    rw [htext, String.toList_ofList] at h
    simp only [isRankChar, p.isDigit_or_of_mem h, Bool.true_or]

variable {x y : Float}

/-- The sign bit is set. -/
def isNegative (x : Float) : Bool := 2 ^ 63 ≤ x.toBits.toNat

theorem isNegative_iff : isNegative x = true ↔ 2 ^ 63 ≤ x.toBits.toNat := decide_eq_true_iff

theorem lt_of_not_isNegative (h : isNegative x = false) : x.toBits.toNat < 2 ^ 63 :=
  Nat.lt_of_not_le fun hle => Bool.eq_false_iff.1 h (isNegative_iff.2 hle)

/-- The rank of a number without its sign. -/
def rank (x : Float) : ℕ := x.toBits.toNat % 2 ^ 63

/-- A number is determined by its sign and its rank. -/
theorem eq_of_rank_eq (hsign : isNegative x = isNegative y) (h : rank x = rank y) : x = y := by
  have hx := x.toBits.toNat_lt
  have hy := y.toBits.toNat_lt
  rw [Bool.eq_iff_iff, isNegative_iff, isNegative_iff] at hsign
  rw [rank, rank] at h
  refine Fields.toBits_inj (UInt64.toNat.inj ?_)
  omega

/-- A number has the rank of infinity at most. -/
theorem rank_le (h : x.isNaN = false) : rank x ≤ infiniteRank := by
  have hbits := toNat_toBits x
  have hm := (Fields.of x).mantissa.isLt
  have he := (Fields.of x).exponent.isLt
  have hnumber : (Fields.of x).exponent.toNat = 2047 → (Fields.of x).mantissa.toNat = 0 := by
    intro hones
    by_contra hmantissa
    refine Bool.eq_false_iff.1 h (Fields.isNaN_iff.2 ⟨BitVec.eq_of_toNat_eq hones, ?_⟩)
    exact fun hzero => hmantissa (congrArg BitVec.toNat hzero)
  rw [rank, show infiniteRank = 2047 * 2 ^ 52 from rfl]
  omega

theorem write_of_isNaN (h : x.isNaN = true) : write x = "NaN" := by
  rw [write, h]
  rfl

theorem write_of_not_isNegative (h : x.isNaN = false) (hsign : isNegative x = false) :
    write x = rankText (rank x) := by
  have hlt := lt_of_not_isNegative hsign
  rw [write, h, rank, Nat.mod_eq_of_lt hlt]
  exact if_pos hlt

theorem write_of_isNegative (h : x.isNaN = false) (hsign : isNegative x = true) :
    write x = "-" ++ rankText (rank x) := by
  have hle := isNegative_iff.1 hsign
  have hlt := x.toBits.toNat_lt
  have hrank : rank x = x.toBits.toNat - 2 ^ 63 := by
    rw [rank]
    omega
  rw [write, h, hrank]
  exact if_neg (Nat.not_lt.2 hle)

/-- A sign stands in the text of a negative number only. -/
theorem sign_mem_write_iff (h : x.isNaN = false) :
    '-' ∈ (write x).toList ↔ isNegative x = true := by
  cases hsign : isNegative x with
  | true =>
    rw [write_of_isNegative h hsign, String.toList_append]
    exact iff_of_true (List.mem_cons_self ..) rfl
  | false =>
    rw [write_of_not_isNegative h hsign]
    refine iff_of_false (fun hmem => ?_) Bool.false_ne_true
    exact absurd (isRankChar_of_mem hmem) (by decide)

/-- A character in the text of what is a number. -/
theorem isRankChar_or_of_mem_write (h : x.isNaN = false) {c : Char}
    (hc : c ∈ (write x).toList) : isRankChar c = true ∨ c = '-' := by
  cases hsign : isNegative x with
  | true =>
    rw [write_of_isNegative h hsign, String.toList_append] at hc
    obtain rfl | hrank := List.mem_cons.1 hc
    · exact .inr rfl
    · exact .inl (isRankChar_of_mem hrank)
  | false =>
    rw [write_of_not_isNegative h hsign] at hc
    exact .inl (isRankChar_of_mem hc)

/-- A character in the text of a number. -/
def isTextChar (c : Char) : Bool := isRankChar c || c == '-' || c == 'N' || c == 'a'

theorem isTextChar_of_mem_write {c : Char} (hc : c ∈ (write x).toList) : isTextChar c = true := by
  cases h : x.isNaN with
  | true =>
    have hletters : "NaN".toList.all isTextChar = true := by decide
    rw [write_of_isNaN h] at hc
    exact List.all_eq_true.1 hletters c hc
  | false =>
    obtain hrank | rfl := isRankChar_or_of_mem_write h hc
    · simp only [isTextChar, hrank, Bool.true_or]
    · rfl

private theorem write_ne_of_isNaN (hx : x.isNaN = true) (hy : y.isNaN = false) :
    write x ≠ write y := by
  intro heq
  rw [write_of_isNaN hx] at heq
  have hmem : 'N' ∈ (write y).toList := heq ▸ List.mem_cons_self ..
  obtain hrank | hsign := isRankChar_or_of_mem_write hy hmem
  · exact absurd hrank (by decide)
  · exact absurd hsign (by decide)

private theorem write_inj (hx : x.isNaN = false) (hy : y.isNaN = false) (h : write x = write y) :
    x = y := by
  have hsign : isNegative x = isNegative y := by
    rw [Bool.eq_iff_iff, ← sign_mem_write_iff hx, ← sign_mem_write_iff hy, h]
  refine eq_of_rank_eq hsign (rankText_inj (rank_le hx) (rank_le hy) ?_)
  cases hneg : isNegative x with
  | true =>
    rw [write_of_isNegative hx hneg, write_of_isNegative hy (hsign ▸ hneg)] at h
    exact (String.append_right_inj "-").1 h
  | false =>
    rwa [write_of_not_isNegative hx hneg, write_of_not_isNegative hy (hsign ▸ hneg)] at h

/-- The same number, where all that is no number counts as one. -/
def Same (x y : Float) : Prop := x = y ∨ x.isNaN = true ∧ y.isNaN = true

/-- Two texts are the same just if the numbers are. -/
theorem write_eq_iff : write x = write y ↔ Same x y := by
  constructor
  · intro h
    cases hx : x.isNaN with
    | true =>
      cases hy : y.isNaN with
      | true => exact .inr ⟨hx, hy⟩
      | false => exact absurd h (write_ne_of_isNaN hx hy)
    | false =>
      cases hy : y.isNaN with
      | true => exact absurd h.symm (write_ne_of_isNaN hy hx)
      | false => exact .inl (write_inj hx hy h)
  · rintro (rfl | ⟨hx, hy⟩)
    · rfl
    · rw [write_of_isNaN hx, write_of_isNaN hy]

end LineCalc.Number
