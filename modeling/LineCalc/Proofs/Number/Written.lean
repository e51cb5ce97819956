import LineCalc.Proofs.Grammar.Phrase
import LineCalc.Proofs.Number.Texts
import LineCalc.Proofs.Token.Names

namespace LineCalc

namespace Number

/-- A character of a numeral without an exponent is no white space. -/
theorem isBlank_of_isDigit_or {c : Char} (h : (c.isDigit || c == '.') = true) :
    Text.isBlank c = false := by
  refine Bool.eq_false_iff.2 fun hblank => ?_
  rw [Text.CharRanges.eq_false_of_codePoints (p := fun c => c.isDigit || c == '.')
    (by decide +kernel) hblank] at h
  cases h

namespace Plain

variable (p : Plain)

/-- A numeral that stands alone on a line is its only token. -/
theorem lex_ofList_chars : lex (String.ofList p.chars) = [String.ofList p.chars] := by
  obtain ⟨first, rest, hchars, -⟩ := p.exists_chars_eq_cons
  refine lex_eq_singleton ?_ ?_ ?_ <;> rw [String.toList_ofList]
  · rw [hchars]
    exact List.cons_ne_nil first rest
  · exact fun c hc => isBlank_of_isDigit_or (p.isDigit_or_of_mem hc)
  · exact fun c hc => not_isDelimiter_of_isDigit (p.isDigit_or_of_mem hc)

private theorem startsNumeral_ofList_chars :
    Token.startsNumeral (String.ofList p.chars) = true := by
  obtain ⟨first, rest, hchars, hfirst⟩ := p.exists_chars_eq_cons
  rw [Token.startsNumeral, String.toList_ofList, hchars]
  simp [hfirst]

end Plain

variable {x : Float}

/-- The text of a finite number without a sign is one token, and has its value. -/
theorem hasValue_write (table : Table) (h : x.isFinite = true) (hsign : isNegative x = false) :
    lex (write x) = [write x] ∧ Token.HasValue table (write x) x := by
  have hlt := lt_of_not_isNegative hsign
  obtain ⟨p, htext, hread⟩ := exists_rankText (toNat_toBits_lt h hlt)
  rw [UInt64.ofNat_toNat, ofBits_toBits h] at hread
  rw [write_of_not_isNegative (isNaN_of_isFinite h) hsign, rank, Nat.mod_eq_of_lt hlt]
  rw [htext] at hread ⊢
  exact ⟨p.lex_ofList_chars, .number p.startsNumeral_ofList_chars hread⟩

/-- A finite number with a sign is written as the sign before its negation. -/
theorem write_eq_sign_append (h : x.isFinite = true) (hsign : isNegative x = true) :
    isNegative (-x) = false ∧ write x = "-" ++ write (-x) := by
  have hbits := toNat_toBits_neg h (isNegative_iff.1 hsign)
  have hlt := x.toBits.toNat_lt
  have hpositive : isNegative (-x) = false := by
    refine Bool.eq_false_iff.2 fun hneg => ?_
    have hle := isNegative_iff.1 hneg
    omega
  have hrank : rank (-x) = rank x := by
    rw [rank, rank]
    omega
  refine ⟨hpositive, ?_⟩
  rw [write_of_isNegative (isNaN_of_isFinite h) hsign,
    write_of_not_isNegative (isNaN_of_isFinite (isFinite_neg h)) hpositive, hrank]

/-- The text of a finite number is a phrase with its value, two levels deep at most. -/
theorem exists_phrase_of_write (table : Table) (h : x.isFinite = true) :
    ∃ e : Phrase table .expression, lex (write x) = e.tokens ∧ e.value = x ∧ e.level ≤ 2 := by
  cases hsign : isNegative x with
  | false =>
    obtain ⟨hlex, hvalue⟩ := hasValue_write table h hsign
    exact ⟨.lone (.single (.atom _ x hvalue)), hlex, rfl, Nat.le_succ 1⟩
  | true =>
    obtain ⟨hpositive, htext⟩ := write_eq_sign_append h hsign
    obtain ⟨hlex, hvalue⟩ := hasValue_write table (isFinite_neg h) hpositive
    rw [htext]
    refine ⟨.lone (.single (.minus (.atom _ (-x) hvalue))), ?_, neg_neg_of_isFinite h, le_rfl⟩
    have hsplit := lex_append_delimiter (c := '-') (by decide) (by decide) (write (-x))
    rw [hlex] at hsplit
    exact hsplit

end Number

end LineCalc
