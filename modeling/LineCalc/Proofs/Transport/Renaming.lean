import LineCalc.Table.Lookup
import LineCalc.Proofs.Token.Names

namespace LineCalc

/-- A renaming of names to names. Different names stay different, the constant and the names of
functions stay as they are, and so does every token that is no name. -/
structure Renaming where
  name : Token → Token
  isName_name {t : Token} (h : t.isName = true) : (name t).isName = true
  name_inj {t u : Token} (ht : t.isName = true) (hu : u.isName = true) (h : name t = name u) : t = u
  name_of_not_isName {t : Token} (h : t.isName = false) : name t = t
  name_pi : name "pi" = "pi"
  name_builtin (f : Builtin) : name f.name = f.name

namespace Renaming

instance : CoeFun Renaming fun _ => Token → Token := ⟨name⟩

/-- All names stay as they are. -/
def refl : Renaming where
  name t := t
  isName_name h := h
  name_inj _ _ h := h
  name_of_not_isName _ := rfl
  name_pi := rfl
  name_builtin _ := rfl

variable (ρ : Renaming)

/-- A token stays as it is, or a name becomes a name. -/
theorem apply_cases (t : Token) : ρ t = t ∨ t.isName = true ∧ (ρ t).isName = true := by
  cases hname : t.isName with
  | true => exact .inr ⟨rfl, ρ.isName_name hname⟩
  | false => exact .inl (ρ.name_of_not_isName hname)

@[simp] theorem isName_apply (t : Token) : (ρ t).isName = t.isName := by
  obtain h | ⟨ht, hρ⟩ := ρ.apply_cases t
  · rw [h]
  · rw [ht, hρ]

theorem injective : Function.Injective ρ := by
  intro t u h
  have hclass : t.isName = u.isName := by rw [← ρ.isName_apply t, h, ρ.isName_apply u]
  cases ht : t.isName with
  | true => exact ρ.name_inj ht (hclass ▸ ht) h
  | false =>
    have hu : u.isName = false := hclass ▸ ht
    rwa [ρ.name_of_not_isName ht, ρ.name_of_not_isName hu] at h

/-- Only a token that stays as it is is renamed to itself. -/
theorem apply_eq_iff {t s : Token} (hs : ρ s = s) : ρ t = s ↔ t = s := by
  rw [← ρ.injective.eq_iff (a := t), hs]

theorem apply_of_isSymbol {s : Token} (h : s.isSymbol = true) : ρ s = s := by
  obtain hs | ⟨hname, -⟩ := ρ.apply_cases s
  · exact hs
  · rw [Token.isSymbol_of_isName hname] at h
    cases h

@[simp] theorem apply_endMark : ρ Token.endMark = Token.endMark :=
  ρ.apply_of_isSymbol (by decide)

theorem apply_eq_iff_of_isSymbol {t s : Token} (h : s.isSymbol = true) : ρ t = s ↔ t = s :=
  ρ.apply_eq_iff (ρ.apply_of_isSymbol h)

@[simp] theorem isSymbol_apply (t : Token) : (ρ t).isSymbol = t.isSymbol := by
  obtain h | ⟨ht, hρ⟩ := ρ.apply_cases t
  · rw [h]
  · rw [Token.isSymbol_of_isName ht, Token.isSymbol_of_isName hρ]

@[simp] theorem startsNumeral_apply (t : Token) : (ρ t).startsNumeral = t.startsNumeral := by
  obtain h | ⟨ht, hρ⟩ := ρ.apply_cases t
  · rw [h]
  · rw [Token.startsNumeral_of_isName ht, Token.startsNumeral_of_isName hρ]

private theorem apply_of_startsNumeral {t : Token} (h : t.startsNumeral = true) : ρ t = t := by
  obtain ht | ⟨hname, -⟩ := ρ.apply_cases t
  · exact ht
  · rw [Token.startsNumeral_of_isName hname] at h
    cases h

@[simp] theorem constant?_apply (t : Token) : constant? (ρ t) = constant? t := by
  by_cases h : t = "pi"
  · rw [h, ρ.name_pi]
  · rw [constant?_eq_none h, constant?_eq_none fun hρ => h ((ρ.apply_eq_iff ρ.name_pi).1 hρ)]

@[simp] theorem ofName?_apply (t : Token) : Builtin.ofName? (ρ t) = Builtin.ofName? t := by
  refine Option.ext fun f => ⟨fun h => ?_, fun h => ?_⟩
  · have ht := (ρ.apply_eq_iff (ρ.name_builtin f)).1 (Builtin.name_of_ofName? h)
    rw [ht, Builtin.ofName?_name]
  · rw [Builtin.name_of_ofName? h, ρ.name_builtin, Builtin.ofName?_name]

@[simp] theorem isBuiltin_apply (t : Token) : Builtin.isName (ρ t) = Builtin.isName t := by
  rw [Builtin.isName, Builtin.isName, ofName?_apply]

@[simp] theorem ofToken?_apply (t : Token) : Operator.ofToken? (ρ t) = Operator.ofToken? t := by
  refine Option.ext fun op => ⟨fun h => ?_, fun h => ?_⟩
  · have ht := (ρ.apply_eq_iff_of_isSymbol op.isSymbol_token).1 (Operator.token_of_ofToken? h)
    rw [ht, Operator.ofToken?_token]
  · rw [Operator.token_of_ofToken? h, ρ.apply_of_isSymbol op.isSymbol_token,
      Operator.ofToken?_token]

@[simp] theorem isTarget_apply (t next : Token) : isTarget (ρ t) (ρ next) = isTarget t next := by
  have hsign := ρ.apply_eq_iff_of_isSymbol (t := next) (s := "=") (by decide)
  simp only [isTarget, isName_apply, constant?_apply, Bool.beq_eq_decide_eq, hsign]

end Renaming

/-- The fault with the token in it renamed. -/
def Fault.rename (ρ : Renaming) : Fault → Fault
  | unbalanced => unbalanced
  | operandExpected token => operandExpected (ρ token)
  | malformedNumber token => malformedNumber (ρ token)
  | unboundName token => unboundName (ρ token)
  | unknownFunction token => unknownFunction (ρ token)
  | argumentExpected token => argumentExpected (ρ token)
  | tooDeep levels => tooDeep levels
  | unexpectedToken token => unexpectedToken (ρ token)

@[simp] theorem Fault.rename_refl (fault : Fault) : fault.rename .refl = fault := by
  cases fault <;> rfl

/-- The operand with the token in its fault, if it is one, renamed. -/
def Operand.rename (ρ : Renaming) : Operand → Operand
  | refused fault => refused (fault.rename ρ)
  | operand => operand

section

variable {ρ : Renaming} {left right : Table} {t : Token}

theorem contains_apply (h : right.get? (ρ t) = left.get? t) :
    right.contains (ρ t) = left.contains t := by
  rw [Table.contains, Table.contains, h]

theorem beginsExpression_apply (h : right.get? (ρ t) = left.get? t) (next : Token) :
    beginsExpression right (ρ t) (ρ next) = beginsExpression left t next := by
  have hgroup := fun t => ρ.apply_eq_iff_of_isSymbol (t := t) (s := "(") (by decide)
  have hplus := ρ.apply_eq_iff_of_isSymbol (t := t) (s := "+") (by decide)
  have hminus := ρ.apply_eq_iff_of_isSymbol (t := t) (s := "-") (by decide)
  simp only [beginsExpression, Renaming.constant?_apply, Renaming.startsNumeral_apply,
    Renaming.isBuiltin_apply, Renaming.isName_apply, contains_apply h, Bool.beq_eq_decide_eq,
    hgroup, hplus, hminus]

/-- A renamed token begins what the token begins. -/
theorem Operand.ofToken_apply (h : right.get? (ρ t) = left.get? t) (next : Token) :
    ofToken right (ρ t) (ρ next) = (ofToken left t next).rename ρ := by
  have hgroup := fun t => ρ.apply_eq_iff_of_isSymbol (t := t) (s := "(") (by decide)
  have hminus := ρ.apply_eq_iff_of_isSymbol (t := t) (s := "-") (by decide)
  simp only [ofToken, Renaming.constant?_apply, Renaming.isSymbol_apply,
    Renaming.startsNumeral_apply, Renaming.isBuiltin_apply, Bool.beq_eq_decide_eq, hgroup, hminus,
    h]
  cases constant? t with
  | some v => rfl
  | none =>
    by_cases ht : t = "-"
    · simp only [if_pos ht]
      rfl
    by_cases ht' : t = "("
    · simp only [if_neg ht, if_pos ht']
      rfl
    simp only [if_neg ht, if_neg ht']
    cases t.isSymbol with
    | true => rfl
    | false =>
      cases hnumeral : t.startsNumeral with
      | true =>
        have hfixed : ρ t = t := ρ.apply_of_startsNumeral hnumeral
        cases hread : Number.read? t with
        | some v => simp [hfixed, hread, rename]
        | none => simp [hfixed, hread, rename, Fault.rename]
      | false =>
        cases left.get? t with
        | some v => rfl
        | none => cases Builtin.isName t || decide (next = "(") <;> rfl

end

end LineCalc
