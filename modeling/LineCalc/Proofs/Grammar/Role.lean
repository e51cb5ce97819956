import LineCalc.Rule.Statement

namespace LineCalc

/-- A token that is no symbol is none of the symbols. -/
theorem Token.ne_of_isSymbol {t s : Token} (ht : t.isSymbol = false) (hs : s.isSymbol = true) :
    t ≠ s := by
  rintro rfl
  rw [ht] at hs
  cases hs

/-- The token that stands for an operator. -/
def Operator.token : Operator → Token
  | add => "+"
  | sub => "-"
  | mul => "*"
  | div => "/"

@[simp] theorem Operator.ofToken?_token (op : Operator) : ofToken? op.token = some op := by
  cases op <;> rfl

theorem Operator.token_of_ofToken? {t : Token} {op : Operator} (h : ofToken? t = some op) :
    t = op.token := by
  unfold ofToken? at h
  split at h <;> cases h <;> rfl

@[simp] theorem Operator.isSymbol_token (op : Operator) : op.token.isSymbol = true := by
  cases op <;> decide

theorem Operator.token_ne_close (op : Operator) : op.token ≠ ")" := by
  cases op <;> decide

/-- The operator of a precedence that a token stands for. -/
theorem Operator.filter_ofToken?_eq_some {t : Token} {op : Operator} {wanted : Operator → Bool}
    (h : (ofToken? t).filter wanted = some op) : t = op.token ∧ wanted op = true := by
  obtain ⟨hop, hwanted⟩ := Option.filter_eq_some_iff.1 h
  exact ⟨token_of_ofToken? hop, hwanted⟩

@[simp] theorem Builtin.ofName?_name (f : Builtin) : ofName? f.name = some f := by
  cases f <;> rfl

theorem Builtin.name_of_ofName? {t : Token} {f : Builtin} (h : ofName? t = some f) :
    t = f.name := by
  unfold ofName? at h
  split at h <;> cases h <;> rfl

theorem Builtin.isName_name (f : Builtin) : Builtin.isName f.name = true := by
  simp [Builtin.isName]

private theorem Builtin.constant?_name (f : Builtin) : constant? f.name = none := by
  cases f <;> rfl

theorem Builtin.isSymbol_name (f : Builtin) : f.name.isSymbol = false := by
  cases f <;> decide

theorem Builtin.name_ne_of_isSymbol (f : Builtin) {s : Token} (h : s.isSymbol = true) :
    f.name ≠ s :=
  Token.ne_of_isSymbol f.isSymbol_name h

theorem Builtin.startsNumeral_name (f : Builtin) : f.name.startsNumeral = false := by
  cases f <;> decide

theorem constant?_eq_none {t : Token} (h : t ≠ "pi") : constant? t = none := by
  unfold constant?
  split
  · exact absurd rfl h
  · rfl

private theorem eq_pi_of_constant? {t : Token} {v : Float} (h : constant? t = some v) :
    t = "pi" ∧ v = pi := by
  unfold constant? at h
  split at h
  · exact ⟨rfl, (Option.some.inj h).symm⟩
  · cases h

/-- What holds of none of the seven delimiters holds of no character that is one. -/
theorem eq_false_of_isDelimiter {p : Char → Bool}
    (h : ['+', '-', '*', '/', '=', '(', ')'].all (fun c => !p c) = true) {c : Char}
    (hc : isDelimiter c = true) : p c = false := by
  have hmem : c ∈ ['+', '-', '*', '/', '=', '(', ')'] := by
    simpa [isDelimiter, isOperatorChar, isBracketChar, or_assoc] using hc
  simpa using List.all_eq_true.1 h c hmem

/-- A delimiter begins no number. -/
theorem not_isDelimiter_of_isDigit {c : Char} (h : (c.isDigit || c == '.') = true) :
    isDelimiter c = false := by
  refine Bool.eq_false_iff.2 fun hdelimiter => ?_
  rw [eq_false_of_isDelimiter (p := fun c => c.isDigit || c == '.') (by decide) hdelimiter] at h
  cases h

/-- A numeral is no symbol: its first character is neither a delimiter nor the end mark. -/
theorem Token.isSymbol_of_startsNumeral {t : Token} (h : t.startsNumeral = true) :
    t.isSymbol = false := by
  have hmark : t ≠ Token.endMark := by
    rintro rfl
    revert h
    decide
  unfold Token.startsNumeral at h
  cases hchars : t.toList with
  | nil => simp [hchars] at h
  | cons first rest =>
    simp only [hchars] at h
    simp [Token.isSymbol, hmark, hchars, not_isDelimiter_of_isDigit h]

/-- A token has a value of its own in a table: a number, the constant, or a bound name that is
neither. -/
inductive Token.HasValue (table : Table) : Token → Float → Prop
  | number {t : Token} {v : Float} (hstarts : t.startsNumeral = true)
      (hread : Number.read? t = some v) : HasValue table t v
  | constant : HasValue table "pi" pi
  | bound {t : Token} {v : Float} (hbound : table.get? t = some v) (hconstant : t ≠ "pi")
      (hsymbol : t.isSymbol = false) (hnumeral : t.startsNumeral = false) : HasValue table t v

theorem Token.HasValue.isSymbol {table : Table} {t : Token} {v : Float}
    (h : t.HasValue table v) : t.isSymbol = false := by
  cases h with
  | number hstarts hread => exact Token.isSymbol_of_startsNumeral hstarts
  | constant => decide
  | bound hbound hconstant hsymbol hnumeral => exact hsymbol

theorem Token.HasValue.ne_of_isSymbol {table : Table} {t s : Token} {v : Float}
    (h : t.HasValue table v) (hs : s.isSymbol = true) : t ≠ s :=
  Token.ne_of_isSymbol h.isSymbol hs

/-- What a token begins, with the whole of its reason. The three kinds of word that are refused are
told apart by what they lack. -/
inductive Operand.Begins (table : Table) (token next : Token) : Operand → Prop
  | value {v : Float} (hvalue : token.HasValue table v) : Begins table token next (.value v)
  | minus (htoken : token = "-") : Begins table token next .minus
  | group (htoken : token = "(") : Begins table token next .group
  | call (hunbound : table.get? token = none) (hconstant : token ≠ "pi")
      (hsymbol : token.isSymbol = false) (hnumeral : token.startsNumeral = false)
      (hcall : Builtin.isName token = true ∨ next = "(") : Begins table token next .call
  | symbol (hsymbol : token.isSymbol = true) (hminus : token ≠ "-") (hgroup : token ≠ "(") :
      Begins table token next (.refused (.operandExpected token))
  | malformed (hnumeral : token.startsNumeral = true) (hread : Number.read? token = none) :
      Begins table token next (.refused (.malformedNumber token))
  | unbound (hunbound : table.get? token = none) (hconstant : token ≠ "pi")
      (hsymbol : token.isSymbol = false) (hnumeral : token.startsNumeral = false)
      (hname : Builtin.isName token = false) (hnext : next ≠ "(") :
      Begins table token next (.refused (.unboundName token))

theorem Operand.begins_ofToken (table : Table) (token next : Token) :
    Begins table token next (ofToken table token next) := by
  unfold ofToken
  cases hconstant : constant? token with
  | some v =>
    obtain ⟨rfl, rfl⟩ := eq_pi_of_constant? hconstant
    exact .value .constant
  | none =>
    have hpi : token ≠ "pi" := by
      rintro rfl
      cases hconstant
    by_cases hminus : token = "-"
    · rw [if_pos hminus]
      exact .minus hminus
    by_cases hgroup : token = "("
    · rw [if_neg hminus, if_pos hgroup]
      exact .group hgroup
    simp only [if_neg hminus, if_neg hgroup]
    cases hsymbol : token.isSymbol with
    | true => exact .symbol hsymbol hminus hgroup
    | false =>
      cases hnumeral : token.startsNumeral with
      | true =>
        cases hread : Number.read? token with
        | some v => exact .value (.number hnumeral hread)
        | none => exact .malformed hnumeral hread
      | false =>
        cases hbound : table.get? token with
        | some v => exact .value (.bound hbound hpi hsymbol hnumeral)
        | none =>
          by_cases hcall : Builtin.isName token = true ∨ next = "("
          · simp only [Bool.false_eq_true, if_false, Bool.or_eq_true, beq_iff_eq, if_pos hcall]
            exact .call hbound hpi hsymbol hnumeral hcall
          · simp only [Bool.false_eq_true, if_false, Bool.or_eq_true, beq_iff_eq, if_neg hcall]
            obtain ⟨hname, hnext⟩ := not_or.1 hcall
            exact .unbound hbound hpi hsymbol hnumeral (Bool.eq_false_iff.2 hname) hnext

@[simp] theorem Operand.ofToken_minus (table : Table) (next : Token) :
    ofToken table "-" next = .minus := rfl

@[simp] theorem Operand.ofToken_group (table : Table) (next : Token) :
    ofToken table "(" next = .group := rfl

theorem Operand.ofToken_of_hasValue {table : Table} {token : Token} {v : Float}
    (h : token.HasValue table v) (next : Token) : ofToken table token next = .value v := by
  have hsymbol := h.isSymbol
  have hminus : token ≠ "-" := h.ne_of_isSymbol (by decide)
  have hgroup : token ≠ "(" := h.ne_of_isSymbol (by decide)
  cases h with
  | number hstarts hread =>
    have hpi : token ≠ "pi" := by
      rintro rfl
      revert hstarts
      decide
    simp [ofToken, constant?_eq_none hpi, hminus, hgroup, hsymbol, hstarts, hread]
  | constant => rfl
  | bound hbound hconstant hsymbol hnumeral =>
    simp [ofToken, constant?_eq_none hconstant, hminus, hgroup, hsymbol, hnumeral, hbound]

/-- The name of a function begins a call, unless it is bound. -/
theorem Operand.ofToken_name {table : Table} {f : Builtin} (h : table.get? f.name = none)
    (next : Token) : ofToken table f.name next = .call := by
  have hminus : f.name ≠ "-" := f.name_ne_of_isSymbol (by decide)
  have hgroup : f.name ≠ "(" := f.name_ne_of_isSymbol (by decide)
  simp [ofToken, f.constant?_name, hminus, hgroup, f.isSymbol_name, f.startsNumeral_name, h,
    f.isName_name]

end LineCalc
