import LineCalc.Rule.Recursion
import LineCalc.Proofs.Machine.Step

namespace LineCalc.Machine

open Rule

variable {table : Table} {s t : State} {leave leave' : Float → Reading → State}

/-- The machine comes to what a rule came to. A rule that fails goes back up to its own level, and
the machine stays where it failed, so that the readings may differ in the level. -/
def Reaches (table : Table) (s : State) (leave : Float → Reading → State) :
    EStateM.Result Fault Reading Float → Prop
  | .ok v r => Steps table s (leave v r)
  | .error fault r => ∃ level, Steps table s (.failed fault { r with level })

theorem Reaches.of_steps (h : Steps table s t) {result : EStateM.Result Fault Reading Float}
    (ht : Reaches table t leave result) : Reaches table s leave result := by
  cases result with
  | ok v r => exact h.trans ht
  | error fault r =>
    obtain ⟨level, hfailed⟩ := ht
    exact ⟨level, h.trans hfailed⟩

theorem Reaches.mono {result : EStateM.Result Fault Reading Float}
    (h : Reaches table s leave result) (hleave : ∀ v r, Steps table (leave v r) (leave' v r)) :
    Reaches table s leave' result := by
  cases result with
  | ok v r => exact Relation.ReflTransGen.trans h (hleave v r)
  | error fault r => exact h

theorem Reaches.bind {f : Rule Float} {g : Float → Rule Float} {r : Reading}
    (hf : Reaches table s leave (f r))
    (hg : ∀ v r', f r = .ok v r' → Reaches table (leave v r') leave' (g v r')) :
    Reaches table s leave' ((f >>= g) r) := by
  rw [bind_apply]
  cases hresult : f r with
  | ok v r' =>
    rw [hresult] at hf
    exact Reaches.of_steps hf (hg v r' hresult)
  | error fault r' =>
    rw [hresult] at hf
    exact hf

/-- What is one level down is taken back up as a factor ends. -/
theorem Reaches.oneLevelDown {rule : Rule Float} {r : Reading} (hlevel : r.level ≠ maxLevel)
    (h : Reaches table s (fun v r' => leave v r'.back) (rule { r with level := r.level + 1 })) :
    Reaches table s leave (oneLevelDown rule r) := by
  rw [Rule.oneLevelDown, if_neg hlevel]
  cases hresult : rule { r with level := r.level + 1 } with
  | ok v r' =>
    rw [hresult] at h
    exact h
  | error fault r' =>
    rw [hresult] at h
    exact h

/-- The reading after a rule that came to a value has no more tokens left. -/
theorem left_le_of_ok {rule : Rule Float} (h : Forward rule) {r r' : Reading} {v : Float}
    (hok : rule r = .ok v r') : r'.left ≤ r.left := by
  have hr := h r
  simpa only [after, hok] using hr

theorem left_advance_le (r : Reading) : r.advance.left ≤ r.left := forward_advance r

/-- If the machine takes one more operand, it takes all of them. -/
theorem reaches_joinAll (sofar : Float → Reading → State) {wanted : Operator → Bool}
    {operand : Rule Float} {n : Nat} (hforward : Forward operand)
    (hnext : ∀ v r op, r.left < n → r.operator? wanted = some op →
      Reaches table (sofar v r) (fun w => sofar (op.apply v w)) (operand r.advance))
    (v : Float) (r : Reading) (hr : r.left < n) :
    Reaches table (sofar v r) sofar (joinAll wanted operand v r) := by
  rw [joinAll_apply]
  generalize r.cursor.unread = bound
  induction bound generalizing v r with
  | nil => exact .refl
  | cons _ later ih =>
    simp only [joinWithin, joinOver, bind_apply, current]
    cases hop : (Operator.ofToken? r.cursor.current).filter wanted with
    | none => exact .refl
    | some op =>
      refine Reaches.bind (f := operand) (r := r.advance) (hnext v r op hr hop) ?_
      intro w r' hok
      refine ih (op.apply v w) r' ?_
      have hle := left_le_of_ok hforward hok
      have hadvance := left_advance_le r
      omega

/-- The machine reads the factors that begin with fewer tokens left than `n`. -/
def ReadsFactors (table : Table) (n : Nat) : Prop :=
  ∀ r, r.left < n → ∀ K : Context .factor,
    Reaches table (.read K r) (fun v r' => .value v K r') (factor table r)

theorem ReadsFactors.term {n : Nat} (h : ReadsFactors table n) {r : Reading} (hr : r.left < n)
    (K : Context .term) :
    Reaches table (.read K r) (fun v r' => .value v K r') (termOver (factor table) r) := by
  refine Reaches.of_steps (.single .term) (Reaches.bind (h r hr _) fun v r' hok => ?_)
  refine Reaches.of_steps (.single .joinFactor) ?_
  have hr' := left_le_of_ok (closed_forward.factor table) hok
  refine reaches_joinAll (n := n) (fun v r => .value v K r) (closed_forward.factor table) ?_ v r'
    (by omega)
  intro v r op hr hop
  have hadvance := left_advance_le r
  refine Reaches.of_steps (.single (.times hop)) ((h r.advance (by omega) _).mono ?_)
  exact fun w r' => .single .joinFactor

theorem forward_term (table : Table) : Forward (termOver (factor table)) :=
  closed_forward.term table

/-- Operands are joined until no wanted operator stands at the cursor. -/
theorem operator?_eq_none_of_joinWithin {wanted : Operator → Bool} {operand : Rule Float}
    (hforward : Forward operand) {bound : List Token} {v w : Float} {r r' : Reading}
    (hbound : r.left ≤ bound.length) (h : joinWithin wanted operand bound v r = .ok w r') :
    r'.operator? wanted = none := by
  induction bound generalizing v r with
  | nil =>
    cases h
    simp [Reading.operator?, current_of_left_eq_zero (Nat.le_zero.1 hbound),
      operator_ofToken?_endMark]
  | cons _ later ih =>
    simp only [joinWithin, joinOver, bind_apply, current] at h
    cases hop : (Operator.ofToken? r.cursor.current).filter wanted with
    | none =>
      rw [hop] at h
      cases h
      exact hop
    | some op =>
      have hend : r.cursor.current ≠ Token.endMark := by
        intro hend
        rw [hend, operator_ofToken?_endMark] at hop
        cases hop
      have hadvance : r.advance.left < r.left := left_advance_lt hend
      have hrest : (operand >>= fun right => joinWithin wanted operand later (op.apply v right))
          r.advance = .ok w r' := by
        rw [hop] at h
        exact h
      rw [bind_apply] at hrest
      cases hoperand : operand r.advance with
      | ok right r'' =>
        rw [hoperand] at hrest
        have hle := left_le_of_ok hforward hoperand
        simp only [List.length_cons] at hbound
        exact ih (by omega) hrest
      | error fault r'' =>
        rw [hoperand] at hrest
        cases hrest

private theorem operator?_eq_none_of_chain {wanted : Operator → Bool} {operand : Rule Float}
    (hforward : Forward operand) {w : Float} {r r' : Reading}
    (h : chain wanted operand r = .ok w r') : r'.operator? wanted = none := by
  simp only [chain, bind_apply] at h
  cases hoperand : operand r with
  | ok v r'' =>
    simp only [hoperand, joinAll_apply] at h
    exact operator?_eq_none_of_joinWithin hforward (Nat.le_refl _) h
  | error fault r'' => simp [hoperand] at h

theorem ReadsFactors.sum {n : Nat} (h : ReadsFactors table n) {r : Reading} (hr : r.left < n)
    (K : Context .expression) :
    Reaches table (.read K r) (fun v r' => .value v K r')
      (chain Operator.isAdditive (termOver (factor table)) r) := by
  have hend {v : Float} {r r' : Reading} (hok : termOver (factor table) r = .ok v r')
      (left : Option (Float × Operator)) :
      Steps table (.value v (.sum left K) r') (.value (join left v) K r') :=
    .single (.joinTerm (operator?_eq_none_of_chain (closed_forward.factor table) hok))
  refine Reaches.of_steps (.single .expression) (Reaches.bind (h.term hr _) fun v r' hok => ?_)
  refine Reaches.of_steps (hend hok none) ?_
  have hr' := left_le_of_ok (forward_term table) hok
  refine reaches_joinAll (n := n) (fun v r => .value v K r) (forward_term table) ?_ v r'
    (by omega)
  intro v r op hr hop
  have hadvance := left_advance_le r
  refine Reaches.of_steps (.single (.plus hop)) ?_
  have hterm := h.term (r := r.advance) (by omega) (.sum (some (v, op)) K)
  cases hresult : termOver (factor table) r.advance with
  | ok w r' =>
    rw [hresult] at hterm
    exact hterm.trans (hend hresult _)
  | error fault r' =>
    rw [hresult] at hterm
    exact hterm

/-- The parenthesis that closes an expression is read with it. -/
theorem reaches_closeGroup {K : Context .expression} {v : Float} {r : Reading}
    (hop : r.operator? Operator.isAdditive = none) :
    Reaches table (.value v K r) (fun v r' => .finished v K r')
      ((closeGroup >>= fun _ => pure v) r) := by
  by_cases hclose : r.cursor.current = ")"
  · cases hgroups : r.groups.canLeave with
    | true =>
      have hresult : (closeGroup >>= fun _ => pure v : Rule Float) r =
          .ok v r.advance.leave.closed := by
        simp only [closeGroup, bind_apply, current, if_pos hclose, Rule.advance, leaveGroup,
          hgroups]
        rfl
      rw [hresult]
      exact .single (.close hclose hgroups)
    | false =>
      have hresult : (closeGroup >>= fun _ => pure v : Rule Float) r =
          .error .unbalanced r.advance.leave := by
        simp only [closeGroup, bind_apply, current, if_pos hclose, Rule.advance, leaveGroup,
          hgroups]
        rfl
      rw [hresult]
      exact ⟨r.level, .single (.stray hclose hgroups)⟩
  · have hresult : (closeGroup >>= fun _ => pure v : Rule Float) r = .ok v r := by
      simp only [closeGroup, bind_apply, current, if_neg hclose]
      rfl
    rw [hresult]
    exact .single (.stop hop hclose)

theorem ReadsFactors.expression {n : Nat} (h : ReadsFactors table n) {r : Reading}
    (hr : r.left < n) (K : Context .expression) :
    Reaches table (.read K r) (fun v r' => .finished v K r')
      (expressionOver (factor table) r) :=
  Reaches.bind (h.sum hr K) fun _ _ hok =>
    reaches_closeGroup (operator?_eq_none_of_chain (forward_term table) hok)

theorem current_ne_endMark_of_operand {r : Reading} {operand : Operand}
    (h : r.operand table = operand) (hfault : operand ≠ .refused (.operandExpected Token.endMark)) :
    r.cursor.current ≠ Token.endMark := by
  intro hend
  rw [Reading.operand, hend, ofToken_endMark] at h
  exact hfault h.symm

/-- A function reads its argument as a group, and is looked up when the argument has a value. -/
theorem ReadsFactors.call {n : Nat} (h : ReadsFactors table n) {r : Reading}
    {K : Context .factor} (hlevel : r.level ≠ maxLevel) (hoperand : r.operand table = .call)
    (hr : r.begin.advance.left < n) :
    Reaches table (.read K r) (fun v r' => .value v K r'.back)
      (callOver (factor table) r.cursor.current r.begin.advance) := by
  by_cases hnext : r.advance.cursor.current = "("
  · have hresult : callOver (factor table) r.cursor.current r.begin.advance =
        (expressionOver (factor table) >>= applyNamed r.cursor.current)
          r.begin.advance.advance.enter := by
      have hnext' : r.begin.advance.cursor.current = "(" := hnext
      simp only [callOver, bind_apply, current, if_pos hnext']
      rfl
    rw [hresult]
    have hadvance := left_advance_le r.begin.advance
    have hleft : r.begin.advance.advance.enter.left < n := Nat.lt_of_le_of_lt hadvance hr
    refine Reaches.of_steps (.single (.call hlevel hoperand hnext))
      (Reaches.bind (h.expression hleft _) fun v r' hok => ?_)
    cases hname : Builtin.ofName? r.cursor.current with
    | some f =>
      simp only [applyNamed, hname]
      exact .single (.apply hname)
    | none =>
      simp only [applyNamed, hname]
      exact ⟨r'.level, .single (.unknown hname)⟩
  · have hresult : callOver (factor table) r.cursor.current r.begin.advance =
        .error (.argumentExpected r.cursor.current) r.begin.advance := by
      have hnext' : r.begin.advance.cursor.current ≠ "(" := hnext
      simp only [callOver, bind_apply, current, if_neg hnext']
      rfl
    rw [hresult]
    exact ⟨r.begin.advance.level, .single (.noArgument hlevel hoperand hnext)⟩

theorem ReadsFactors.operand {n : Nat} (h : ReadsFactors table n) {r : Reading}
    (K : Context .factor) (hlevel : r.level ≠ maxLevel) (hr : r.left < n + 1) :
    Reaches table (.read K r) (fun v r' => .value v K r'.back)
      (operandOver (factor table) r.cursor.current (r.operand table) r.begin) := by
  have hleft (hend : r.cursor.current ≠ Token.endMark) : r.begin.advance.left < n := by
    have hlt : r.begin.advance.left < r.begin.left := left_advance_lt (r := r.begin) hend
    have heq : r.begin.left = r.left := rfl
    omega
  cases hoperand : r.operand table with
  | value v => exact .single (.atom hlevel hoperand)
  | minus =>
    have hend := current_ne_endMark_of_operand hoperand nofun
    refine Reaches.of_steps (.single (.minus hlevel hoperand)) ?_
    exact Reaches.bind (f := factor table) (h _ (hleft hend) _) fun _ _ _ => .single .negate
  | group =>
    have hend := current_ne_endMark_of_operand hoperand nofun
    refine Reaches.of_steps (.single (.group hlevel hoperand)) ?_
    exact (h.expression (r := r.begin.advance.enter) (hleft hend) _).mono
      fun _ _ => .single .groupEnd
  | call =>
    have hend := current_ne_endMark_of_operand hoperand nofun
    exact h.call hlevel hoperand (hleft hend)
  | refused fault => exact ⟨r.begin.level, .single (.refused hlevel hoperand)⟩

/-- The rule for factors follows the machine. The induction is on a bound on the tokens left, since
a factor inside a factor begins at a later token. -/
theorem readsFactors (table : Table) (n : Nat) : ReadsFactors table n := by
  induction n with
  | zero => exact fun r hr => absurd hr (Nat.not_lt_zero _)
  | succ n ih =>
    intro r hr K
    rw [factor_eq]
    by_cases hlevel : r.level = maxLevel
    · rw [Rule.oneLevelDown, if_pos hlevel]
      exact ⟨r.level, .single (.tooDeep hlevel)⟩
    · exact Reaches.oneLevelDown hlevel (ih.operand K hlevel hr)

/-- The rule for expressions follows the machine. -/
theorem reaches_expression (table : Table) (K : Context .expression) (r : Reading) :
    Reaches table (.read K r) (fun v r' => .finished v K r') (expression table r) :=
  (readsFactors table (r.left + 1)).expression (Nat.lt_succ_self _) K

/-- An expression has a value just if the machine finishes with it. -/
theorem expression_eq_ok_iff {r r' : Reading} {v : Float} :
    expression table r = .ok v r' ↔ Steps table (.read .top r) (.finished v .top r') := by
  have hreaches := reaches_expression table .top r
  constructor
  · intro h
    rw [h] at hreaches
    exact hreaches
  · intro h
    cases hresult : expression table r with
    | ok w r'' =>
      rw [hresult] at hreaches
      cases Steps.unique hreaches h (halted_finished_top _ _) (halted_finished_top _ _)
      rfl
    | error fault r'' =>
      rw [hresult] at hreaches
      obtain ⟨level, hfailed⟩ := hreaches
      cases Steps.unique hfailed h (halted_failed _ _) (halted_finished_top _ _)

/-- An expression is refused for a fault just if the machine fails with it, at the same place. -/
theorem expression_eq_error_iff {r r' : Reading} {fault : Fault} :
    (∃ level, expression table r = .error fault { r' with level }) ↔
      ∃ level, Steps table (.read .top r) (.failed fault { r' with level }) := by
  have hreaches := reaches_expression table .top r
  constructor
  · rintro ⟨level, h⟩
    rw [h] at hreaches
    exact hreaches
  · rintro ⟨level, h⟩
    cases hresult : expression table r with
    | ok w r'' =>
      rw [hresult] at hreaches
      cases Steps.unique hreaches h (halted_finished_top _ _) (halted_failed _ _)
    | error fault' r'' =>
      rw [hresult] at hreaches
      obtain ⟨level', hfailed⟩ := hreaches
      have heq := Steps.unique hfailed h (halted_failed _ _) (halted_failed _ _)
      simp only [State.failed.injEq, Reading.mk.injEq] at heq
      obtain ⟨rfl, hcursor, hgroups, -, hevents⟩ := heq
      refine ⟨r''.level, ?_⟩
      rw [← hcursor, ← hgroups, ← hevents]

end LineCalc.Machine
