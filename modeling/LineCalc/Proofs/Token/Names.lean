import LineCalc.Proofs.Grammar.Role
import LineCalc.Proofs.Token.Lexing

namespace LineCalc

namespace Text.CharRanges

/-- The code points of a set, in ascending order. -/
def codePoints (ranges : CharRanges) : List Nat :=
  ranges.flatMap fun range => List.range' range.1 (range.2 + 1 - range.1)

private theorem mem_codePoints {ranges : CharRanges} {c : Char} (h : ranges.contains c = true) :
    c.toNat ∈ ranges.codePoints := by
  induction ranges with
  | nil => cases h
  | cons range later ih =>
    obtain ⟨first, last⟩ := range
    rw [codePoints, List.flatMap_cons, List.mem_append]
    rw [contains] at h
    split at h
    next hlast => exact .inr (ih h)
    next hlast =>
      have hfirst : first ≤ c.toNat := of_decide_eq_true h
      refine .inl (List.mem_range'_1.2 ⟨hfirst, ?_⟩)
      omega

/-- What holds of no code point of a set holds of none of its characters. -/
theorem eq_false_of_codePoints {ranges : CharRanges} {p : Char → Bool}
    (h : ranges.codePoints.all (fun n => !p (Char.ofNat n)) = true) {c : Char}
    (hc : ranges.contains c = true) : p c = false := by
  have hcode := List.all_eq_true.1 h c.toNat (mem_codePoints hc)
  rw [Char.ofNat_toNat] at hcode
  simpa using hcode

end Text.CharRanges

/-- A character that a name may hold. -/
def isNameChar (c : Char) : Bool := Text.isAlphanumeric c || c == '_'

private theorem isNameChar_of_isBlank {c : Char} (h : Text.isBlank c = true) :
    isNameChar c = false :=
  Text.CharRanges.eq_false_of_codePoints (by decide +kernel) h

private theorem isNameChar_of_isDelimiter {c : Char} (h : isDelimiter c = true) :
    isNameChar c = false :=
  eq_false_of_isDelimiter (by decide +kernel) h

/-- No name begins like a number. -/
theorem not_beginsName_of_isDigit {c : Char} (h : (c.isDigit || c == '.') = true) :
    (Text.isAlphabetic c || c == '_') = false := by
  have hcontains : Text.CharRanges.contains [(0x2e, 0x2e), (0x30, 0x39)] c = true := by
    simp only [Bool.or_eq_true, beq_iff_eq, Char.isDigit, Bool.and_eq_true, decide_eq_true_eq] at h
    obtain ⟨hfirst, hlast⟩ | rfl := h
    · exact Text.CharRanges.contains_of_mem_tail (Nat.lt_of_lt_of_le (by decide) hfirst)
        (Text.CharRanges.contains_of_mem_head hfirst hlast)
    · decide
  exact Text.CharRanges.eq_false_of_codePoints (p := fun c => Text.isAlphabetic c || c == '_')
    (by decide +kernel) hcontains

namespace Token

variable {t : Token}

/-- A name has a first character, and it is no number. -/
theorem exists_toList_eq_cons_of_isName (h : t.isName = true) :
    ∃ first rest, t.toList = first :: rest ∧
      (Text.isAlphabetic first || first == '_') = true ∧
      ∀ c ∈ rest, isNameChar c = true := by
  unfold isName at h
  cases hchars : t.toList with
  | nil => simp [hchars] at h
  | cons first rest =>
    simp only [hchars, Bool.and_eq_true, List.all_eq_true] at h
    exact ⟨first, rest, rfl, h.1, h.2⟩

theorem isNameChar_of_mem_of_isName (h : t.isName = true) {c : Char} (hc : c ∈ t.toList) :
    isNameChar c = true := by
  obtain ⟨first, rest, hchars, hfirst, hrest⟩ := exists_toList_eq_cons_of_isName h
  rw [hchars] at hc
  obtain rfl | hc := List.mem_cons.1 hc
  · simp only [Bool.or_eq_true] at hfirst
    simp only [isNameChar, Text.isAlphanumeric, Bool.or_eq_true]
    exact hfirst.imp_left .inl
  · exact hrest c hc

/-- What sets a character apart from those of names holds of no character of a name. -/
theorem eq_false_of_mem_of_isName {p : Char → Bool} (h : t.isName = true)
    (hp : ∀ c, p c = true → isNameChar c = false) {c : Char} (hc : c ∈ t.toList) :
    p c = false := by
  have hchar := isNameChar_of_mem_of_isName h hc
  refine Bool.eq_false_iff.2 fun hother => ?_
  rw [hp c hother] at hchar
  cases hchar

/-- A name that stands alone on a line is its only token. -/
theorem lex_of_isName (h : t.isName = true) : lex t = [t] := by
  obtain ⟨first, rest, hchars, -⟩ := exists_toList_eq_cons_of_isName h
  refine lex_eq_singleton ?_
    (fun _ => eq_false_of_mem_of_isName h fun _ => isNameChar_of_isBlank)
    (fun _ => eq_false_of_mem_of_isName h fun _ => isNameChar_of_isDelimiter)
  rw [hchars]
  exact List.cons_ne_nil first rest

/-- A name is no symbol: the end mark is no name, and the first character is no delimiter. -/
theorem isSymbol_of_isName (h : t.isName = true) : t.isSymbol = false := by
  obtain ⟨first, rest, hchars, -⟩ := exists_toList_eq_cons_of_isName h
  have hmark : t ≠ endMark := by
    rintro rfl
    revert h
    decide +kernel
  have hfirst : isDelimiter first = false :=
    eq_false_of_mem_of_isName h (fun _ => isNameChar_of_isDelimiter)
      (hchars ▸ List.mem_cons_self ..)
  simp [isSymbol, hmark, hchars, hfirst]

theorem startsNumeral_of_isName (h : t.isName = true) : t.startsNumeral = false := by
  obtain ⟨first, rest, hchars, hfirst, -⟩ := exists_toList_eq_cons_of_isName h
  simp only [startsNumeral, hchars]
  refine Bool.eq_false_iff.2 fun hnumeral => ?_
  rw [not_beginsName_of_isDigit hnumeral] at hfirst
  cases hfirst

end Token

end LineCalc
