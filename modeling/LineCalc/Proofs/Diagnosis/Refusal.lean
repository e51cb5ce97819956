import LineCalc.Proofs.Grammar.Acceptance

namespace LineCalc

open Machine

variable {table : Table} {tokens : List Token} {fault : Fault} {r : Reading}

/-- The tokens of a statement, with the end mark, from where its expression begins. -/
theorem Opening.tokens_start (o : Opening) (tokens : List Token) :
    (o.start tokens).cursor.tokens = o.tokens ++ tokens ++ [Token.endMark] := by
  simp [start, Cursor.tokens, Cursor.read, Cursor.unread]

/-- While the expression is read, the tokens of the statement stay as they are. -/
theorem Opening.tokens_of_steps {o : Opening} {s : State}
    (h : Steps table (.read .top (o.start tokens)) s) :
    s.reading.cursor.tokens = o.tokens ++ tokens ++ [Token.endMark] :=
  h.tokens_eq.trans (o.tokens_start tokens)

/-- A group is open, or tokens are left, of which the first is the fault. -/
theorem remainingFault?_cases (h : remainingFault? table r = some fault) :
    (r.groups.opened ≠ 0 ∧ fault = .unbalanced) ∨
      (r.groups.opened = 0 ∧ r.cursor.ahead ≠ [] ∧
        (r.cursor.current.isName = true ∧ table.contains r.cursor.current = false ∧
          fault = .unboundName r.cursor.current ∨ fault = .unexpectedToken r.cursor.current)) := by
  simp only [remainingFault?, Groups.balanced, Cursor.atEnd] at h
  by_cases hopened : r.groups.opened = 0
  · right
    by_cases hahead : r.cursor.ahead = []
    · simp [hopened, hahead] at h
    · simp only [hopened, beq_self_eq_true, Bool.not_true, Bool.false_eq_true, if_false,
        List.isEmpty_iff, hahead, Bool.and_eq_true, Bool.not_eq_true'] at h
      refine ⟨hopened, hahead, ?_⟩
      split at h
      next hname => exact .inl ⟨hname.1, hname.2, (Option.some.inj h).symm⟩
      next => exact .inr (Option.some.inj h).symm
  · left
    simp only [beq_eq_false_iff_ne.2 hopened, Bool.not_false, if_true, Option.some.injEq] at h
    exact ⟨hopened, h.symm⟩

/-- A fault is that of some tokens, and is found at a cursor. -/
inductive Refusal (table : Table) (fault : Fault) : List Token → Cursor → Prop
  | failed {o : Opening} {tokens : List Token} {s : State} {r : Reading}
      (hfits : o.Fits table tokens)
      (hsteps : Steps table (.read .top (o.start tokens)) s)
      (hstep : Machine.Step table s (.failed fault r)) :
      Refusal table fault (o.tokens ++ tokens) r.cursor
  | remaining {o : Opening} {tokens : List Token} {v : Float} {r : Reading}
      (hfits : o.Fits table tokens)
      (hsteps : Steps table (.read .top (o.start tokens)) (.finished v .top r))
      (hremaining : remainingFault? table r = some fault) :
      Refusal table fault (o.tokens ++ tokens) r.cursor
  | nothing {tokens : List Token}
      (hbegins : beginsExpression table (Cursor.start tokens).current
        (Cursor.start tokens).following = false)
      (hremaining : remainingFault? table (Opening.none.start tokens) = some fault) :
      Refusal table fault tokens (.start tokens)

/-- The machine fails in its last step. -/
theorem refusal_of_failed {o : Opening} (hfits : o.Fits table tokens)
    (h : Steps table (.read .top (o.start tokens)) (.failed fault r)) :
    Refusal table fault (o.tokens ++ tokens) r.cursor := by
  obtain heq | ⟨s, hsteps, hstep⟩ := Relation.ReflTransGen.cases_tail h
  · cases heq
  · exact .failed hfits hsteps hstep

/-- Whatever is refused is refused in one of these ways, where reading stopped. -/
theorem refusal_of_evaluate (h : (evaluate table (.start tokens)).outcome = .refused fault) :
    Refusal table fault tokens (evaluate table (.start tokens)).cursor := by
  obtain ⟨o, rest, rfl, hfits⟩ | ⟨htarget, hbegins⟩ := exists_opening_or table tokens
  · obtain ⟨v, r, hsteps⟩ | ⟨other, r, hsteps⟩ := exists_halted table (o.start rest)
    · rw [evaluate_of_finished hfits hsteps] at h ⊢
      cases hremaining : remainingFault? table r with
      | some other =>
        rw [hremaining] at h
        obtain rfl := Outcome.refused.inj h
        exact .remaining hfits hsteps hremaining
      | none =>
        rw [hremaining] at h
        cases o <;> cases h
    · rw [evaluate_of_failed hfits hsteps] at h ⊢
      obtain rfl := Outcome.refused.inj h
      exact refusal_of_failed hfits hsteps
  · simp only [evaluate, statement_eq_empty htarget hbegins] at h ⊢
    cases hremaining : remainingFault? table (Opening.none.start tokens) with
    | some other =>
      rw [hremaining] at h
      obtain rfl := Outcome.refused.inj h
      exact .nothing hbegins hremaining
    | none =>
      rw [hremaining] at h
      cases h

end LineCalc
