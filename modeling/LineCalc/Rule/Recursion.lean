import LineCalc.Rule.Forward

namespace LineCalc.Rule

variable {α β : Type}

/-- Two rules that come to the same on every reading with fewer tokens left than `n`. -/
def AgreeBelow (n : Nat) (f g : Rule α) : Prop := ∀ r : Reading, r.left < n → f r = g r

/-- After a rule that moves forward, it is enough that the rest agrees on what is left then. -/
theorem bind_congr_left {f : Rule α} {g g' : α → Rule β} (hf : Forward f) {n : Nat}
    (hg : ∀ a, AgreeBelow n (g a) (g' a)) : AgreeBelow n (f >>= g) (f >>= g') := by
  intro r hr
  have hfr := hf r
  simp only [after] at hfr
  simp only [bind_apply]
  cases h : f r with
  | ok a r' =>
    simp only [h] at hfr
    exact hg a r' (Nat.lt_of_le_of_lt hfr hr)
  | error fault r' => rfl

theorem AgreeBelow.bind {f f' : Rule α} {g g' : α → Rule β} {n : Nat} (h : AgreeBelow n f f')
    (hf : Forward f) (hg : ∀ a, AgreeBelow n (g a) (g' a)) :
    AgreeBelow n (f >>= g) (f' >>= g') := by
  intro r hr
  rw [bind_congr_left hf hg r hr, bind_apply, bind_apply, h r hr]

theorem AgreeBelow.joinWithin {wanted : Operator → Bool} {f g : Rule Float} {n : Nat}
    (h : AgreeBelow n f g) (hf : Forward f) (bound : List Token) (value : Float) :
    AgreeBelow n (Rule.joinWithin wanted f bound value) (Rule.joinWithin wanted g bound value) := by
  induction bound generalizing value with
  | nil => exact fun _ _ => rfl
  | cons t later ih =>
    refine bind_congr_left closed_forward.current fun token => ?_
    cases (Operator.ofToken? token).filter wanted with
    | none => exact fun _ _ => rfl
    | some op => exact bind_congr_left forward_advance fun _ => h.bind hf fun right => ih _

theorem AgreeBelow.chain {wanted : Operator → Bool} {f g : Rule Float} {n : Nat}
    (h : AgreeBelow n f g) (hf : Forward f) :
    AgreeBelow n (Rule.chain wanted f) (Rule.chain wanted g) :=
  h.bind hf fun first => bind_congr_left closed_forward.unread fun _ => h.joinWithin hf _ first

/-- Where the end mark stands there is no operator. -/
theorem operator_ofToken?_endMark : Operator.ofToken? Token.endMark = none := rfl

/-- The operands after the first begin after an operator. -/
theorem joinOver_congr {wanted : Operator → Bool} {operand : Rule Float}
    {rest rest' : Float → Rule Float} {r : Reading} (hf : Forward operand)
    (h : ∀ value, AgreeBelow r.left (rest value) (rest' value)) (value : Float) :
    joinOver wanted operand rest value r = joinOver wanted operand rest' value r := by
  simp only [joinOver, bind_apply, current]
  cases hop : (Operator.ofToken? r.cursor.current).filter wanted with
  | none => rfl
  | some op =>
    have hr : r.cursor.current ≠ Token.endMark := by
      intro hend
      rw [hend, operator_ofToken?_endMark] at hop
      exact nomatch hop
    have hrest : AgreeBelow r.left (operand >>= fun right => rest (op.apply value right))
        (operand >>= fun right => rest' (op.apply value right)) :=
      bind_congr_left hf fun right => h _
    exact hrest _ (left_advance_lt hr)

private theorem joinOver_of_left_eq_zero {wanted : Operator → Bool} {operand : Rule Float}
    {rest : Float → Rule Float} {r : Reading} (h : r.left = 0) (value : Float) :
    joinOver wanted operand rest value r = .ok value r := by
  simp only [joinOver, bind_apply, current, current_of_left_eq_zero h]
  rfl

/-- A bound that covers the tokens left does not show. -/
theorem joinWithin_congr {wanted : Operator → Bool} {operand : Rule Float} (hf : Forward operand)
    {bound bound' : List Token} {value : Float} {r : Reading}
    (h : r.left ≤ bound.length) (h' : r.left ≤ bound'.length) :
    joinWithin wanted operand bound value r = joinWithin wanted operand bound' value r := by
  induction bound generalizing bound' value r with
  | nil =>
    cases bound' with
    | nil => rfl
    | cons t' later' => exact (joinOver_of_left_eq_zero (Nat.le_zero.1 h) value).symm
  | cons t later ih =>
    cases bound' with
    | nil => exact joinOver_of_left_eq_zero (Nat.le_zero.1 h') value
    | cons t' later' =>
      exact joinOver_congr hf (fun v s hs =>
        ih (Nat.le_of_lt_succ (Nat.lt_of_lt_of_le hs h))
          (Nat.le_of_lt_succ (Nat.lt_of_lt_of_le hs h'))) value

theorem joinAll_apply (wanted : Operator → Bool) (operand : Rule Float) (value : Float)
    (r : Reading) :
    joinAll wanted operand value r = joinWithin wanted operand r.cursor.unread value r := rfl

/-- Operands are joined one by one, with no bound to mind. -/
theorem joinAll_eq {wanted : Operator → Bool} {operand : Rule Float} (hf : Forward operand)
    (value : Float) :
    joinAll wanted operand value = joinOver wanted operand (joinAll wanted operand) value := by
  funext r
  have hbound : joinWithin wanted operand r.cursor.unread value r =
      joinWithin wanted operand (Token.endMark :: r.cursor.unread) value r :=
    joinWithin_congr hf (Nat.le_refl _) (Nat.le_succ _)
  rw [joinAll_apply, hbound]
  exact joinOver_congr hf
    (fun v s hs => joinWithin_congr hf (Nat.le_of_lt hs) (Nat.le_refl _)) value

theorem AgreeBelow.expressionOver {f g : Rule Float} {n : Nat} (h : AgreeBelow n f g)
    (hf : Forward f) : AgreeBelow n (Rule.expressionOver f) (Rule.expressionOver g) :=
  have hterm := closed_forward.termOver hf
  ((h.chain hf).chain hterm).bind (closed_forward.chain hterm) fun _ _ _ => rfl

theorem AgreeBelow.callOver {f g : Rule Float} {n : Nat} (h : AgreeBelow n f g) (hf : Forward f)
    (name : Token) : AgreeBelow n (Rule.callOver f name) (Rule.callOver g name) := by
  refine bind_congr_left closed_forward.current fun token => ?_
  split
  · exact bind_congr_left forward_advance fun _ =>
      bind_congr_left closed_forward.enterGroup fun _ =>
        (h.expressionOver hf).bind (closed_forward.expressionOver hf) fun _ _ _ => rfl
  · exact fun _ _ => rfl

theorem oneLevelDown_congr {f g : Rule α} {r : Reading}
    (h : f { r with level := r.level + 1 } = g { r with level := r.level + 1 }) :
    oneLevelDown f r = oneLevelDown g r := by
  simp only [oneLevelDown, h]

/-- Where the end mark stands no factor begins. -/
theorem ofToken_endMark (table : Table) (next : Token) :
    Operand.ofToken table Token.endMark next = .refused (.operandExpected Token.endMark) := rfl

/-- Factors inside a factor begin after its first token. -/
theorem operandOver_congr {f g : Rule Float} {r : Reading} (h : AgreeBelow r.left f g)
    (hf : Forward f) (hr : r.cursor.current ≠ Token.endMark) (token : Token) (operand : Operand) :
    operandOver f token operand r = operandOver g token operand r := by
  have later {k l : Rule Float} (hkl : AgreeBelow r.left k l) :
      (advance >>= fun _ => k) r = (advance >>= fun _ => l) r :=
    hkl _ (left_advance_lt hr)
  cases operand with
  | value v => rfl
  | minus => exact later (h.bind hf fun _ _ _ => rfl)
  | group => exact later (bind_congr_left closed_forward.enterGroup fun _ => h.expressionOver hf)
  | call => exact later (h.callOver hf token)
  | refused fault => rfl

theorem factorOver_congr {table : Table} {f g : Rule Float} {r : Reading}
    (h : AgreeBelow r.left f g) (hf : Forward f) :
    factorOver table f r = factorOver table g r := by
  simp only [factorOver, bind_apply, record, current, following]
  by_cases hr : r.cursor.current = Token.endMark
  · rw [hr]
    rfl
  · exact operandOver_congr (r := { r with events := .factor r.cursor r.level :: r.events })
      h hf hr _ _

/-- A bound that covers the tokens left does not show. -/
theorem factorWithin_congr {table : Table} {bound bound' : List Token} {r : Reading}
    (h : r.left ≤ bound.length) (h' : r.left ≤ bound'.length) :
    factorWithin table bound r = factorWithin table bound' r := by
  induction bound generalizing bound' r with
  | nil =>
    have hleft : r.left = 0 := Nat.le_zero.1 h
    have hnone {f g : Rule Float} : AgreeBelow r.left f g :=
      fun s hs => absurd hs (hleft ▸ Nat.not_lt_zero _)
    cases bound' with
    | nil => rfl
    | cons t' later' => exact oneLevelDown_congr (factorOver_congr hnone (closed_forward.throw _))
  | cons t later ih =>
    cases bound' with
    | nil =>
      have hleft : r.left = 0 := Nat.le_zero.1 h'
      exact oneLevelDown_congr (factorOver_congr
        (fun s hs => absurd hs (hleft ▸ Nat.not_lt_zero _))
        (closed_forward.factorWithin table later))
    | cons t' later' =>
      exact oneLevelDown_congr (factorOver_congr
        (fun s hs => ih (Nat.le_of_lt_succ (Nat.lt_of_lt_of_le hs h))
          (Nat.le_of_lt_succ (Nat.lt_of_lt_of_le hs h')))
        (closed_forward.factorWithin table later))

private theorem factor_apply (table : Table) (r : Reading) :
    factor table r = factorWithin table r.cursor.unread r := rfl

/-- A factor is read one level down, over the factors inside it. -/
theorem factor_eq (table : Table) :
    factor table = oneLevelDown (factorOver table (factor table)) := by
  funext r
  have hbound : factorWithin table r.cursor.unread r =
      factorWithin table (Token.endMark :: r.cursor.unread) r :=
    factorWithin_congr (Nat.le_refl _) (Nat.le_succ _)
  rw [factor_apply, hbound]
  refine oneLevelDown_congr (factorOver_congr (fun s hs => ?_) ?_)
  · exact factorWithin_congr (Nat.le_of_lt hs) (Nat.le_refl _)
  · exact closed_forward.factorWithin table _

end LineCalc.Rule
