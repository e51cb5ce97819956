import LineCalc.Proofs.Machine.Call
import LineCalc.Proofs.Transport.Lookahead

namespace LineCalc

/-- What a rule comes to, if it is not refused. -/
def Rule.value? {α : Type} (rule : Rule α) (r : Reading) : Option α :=
  match rule r with
  | .ok a _ => some a
  | .error .. => none

theorem Rule.eq_ok_of_value? {α : Type} {rule : Rule α} {r : Reading} {a : α}
    (h : rule.value? r = some a) : rule r = .ok a (rule.after r) := by
  unfold value? at h
  unfold after
  cases hresult : rule r with
  | ok b last =>
    rw [hresult] at h
    obtain rfl := Option.some.inj h
    rfl
  | error fault last =>
    rw [hresult] at h
    cases h

namespace Machine

open Rule

variable {table : Table} {s t : State} {k : Kind} {K : Context k} {r last : Reading}

theorem Step.position_le (h : Step table s t) :
    s.reading.cursor.position ≤ t.reading.cursor.position := by
  cases h with
  | atom | minus | group | noArgument | times | plus | close | stray =>
    exact Cursor.position_le_advance _
  | call => exact (Cursor.position_le_advance _).trans (Cursor.position_le_advance _)
  | _ => exact le_rfl

theorem Steps.position_le (h : Steps table s t) :
    s.reading.cursor.position ≤ t.reading.cursor.position := by
  induction h with
  | refl => exact le_rfl
  | tail _ hstep ih => exact ih.trans hstep.position_le

/-- A token that begins an operand is read. -/
theorem position_lt_advance {operand : Operand} (hoperand : r.operand table = operand)
    (hfault : operand ≠ .refused (.operandExpected Token.endMark)) :
    r.cursor.position < r.advance.cursor.position := by
  have hmark := current_ne_endMark_of_operand hoperand hfault
  have hnext : r.advance.cursor.position = r.cursor.position + 1 :=
    Cursor.position_advance_of_ne_endMark hmark
  rw [hnext]
  exact Nat.lt_succ_self _

/-- The first step into a phrase goes on to what the phrase begins with, or fails, or takes a
token. -/
theorem Step.begins (h : Step table (.read K r) t) :
    (∃ (j : Kind) (L : Context j), t = .read L r) ∨ (∃ fault r', t = .failed fault r') ∨
      r.cursor.position < t.reading.cursor.position := by
  cases h with
  | expression | term => exact .inl ⟨_, _, rfl⟩
  | tooDeep | noArgument | refused => exact .inr (.inl ⟨_, _, rfl⟩)
  | atom hlevel hoperand | minus hlevel hoperand | group hlevel hoperand =>
    exact .inr (.inr (position_lt_advance hoperand nofun))
  | call hlevel hoperand hnext =>
    have htaken := position_lt_advance hoperand nofun
    exact .inr (.inr (htaken.trans_le (Cursor.position_le_advance _)))

/-- A run into a phrase has got no further than its beginning, or it has failed, or it has taken a
token. -/
theorem Steps.begins (h : Steps table (.read K r) t) :
    (∃ (j : Kind) (L : Context j), t = .read L r) ∨ (∃ fault r', t = .failed fault r') ∨
      r.cursor.position < t.reading.cursor.position := by
  induction h with
  | refl => exact .inl ⟨k, K, rfl⟩
  | tail _ hstep ih =>
    obtain ⟨j, L, rfl⟩ | ⟨fault, r', rfl⟩ | hlt := ih
    · exact hstep.begins
    · exact absurd hstep (halted_failed _ _ _)
    · exact .inr (.inr (hlt.trans_le hstep.position_le))

private theorem Steps.position_lt_of_value {j : Kind} {L : Context j} {v : Float}
    (h : Steps table (.read K r) (.value v L last)) :
    r.cursor.position < last.cursor.position := by
  obtain ⟨_, _, heq⟩ | ⟨_, _, heq⟩ | hlt := h.begins
  · cases heq
  · cases heq
  · exact hlt

private theorem Steps.position_lt_of_finished {L : Context .expression} {v : Float}
    (h : Steps table (.read K r) (.finished v L last)) :
    r.cursor.position < last.cursor.position := by
  obtain ⟨_, _, heq⟩ | ⟨_, _, heq⟩ | hlt := h.begins
  · cases heq
  · cases heq
  · exact hlt

theorem position_lt_of_factor {v : Float} (h : factor table r = .ok v last) :
    r.cursor.position < last.cursor.position := by
  have hreads := readsFactors table (r.left + 1) r (Nat.lt_succ_self _)
    (.product none (.sum none .top))
  rw [h] at hreads
  exact Steps.position_lt_of_value hreads

theorem position_lt_of_term {v : Float} (h : term table r = .ok v last) :
    r.cursor.position < last.cursor.position := by
  have hreads := (readsFactors table (r.left + 1)).term (Nat.lt_succ_self r.left) (.sum none .top)
  rw [← term, h] at hreads
  exact Steps.position_lt_of_value hreads

theorem position_lt_of_expression {v : Float} (h : expression table r = .ok v last) :
    r.cursor.position < last.cursor.position :=
  Steps.position_lt_of_finished (expression_eq_ok_iff.1 h)

/-- A name and the sign of a binding are both tokens that are read. -/
theorem Lead.position_eq {o : Opening} {first : Reading} (h : Lead r o first) :
    first.cursor.position = r.cursor.position + o.tokens.length := by
  cases h with
  | none => rfl
  | target htarget =>
    simp only [isTarget, Bool.and_eq_true, beq_iff_eq] at htarget
    obtain ⟨⟨hname, -⟩, hsign⟩ := htarget
    have hfirst : r.cursor.current ≠ Token.endMark := by
      intro hmark
      rw [hmark, Token.isName_endMark] at hname
      cases hname
    have hsecond : r.cursor.advance.current ≠ Token.endMark := by
      rw [Cursor.current_advance, hsign]
      decide
    calc r.cursor.advance.advance.position
        = r.cursor.advance.position + 1 := Cursor.position_advance_of_ne_endMark hsecond
      _ = r.cursor.position + 2 := by rw [Cursor.position_advance_of_ne_endMark hfirst]

theorem Lead.tokens_eq {o : Opening} {first : Reading} (h : Lead r o first) :
    first.cursor.tokens = r.cursor.tokens := by
  cases h with
  | none => rfl
  | target htarget =>
    exact (Cursor.tokens_advance _).trans (Cursor.tokens_advance _)

/-- What a call of the statement rule comes to without a fault. -/
theorem cases_of_statement_eq_ok {statement : Statement}
    (h : Rule.statement table r = .ok statement last) :
    (∃ (o : Opening) (v : Float), statement = o.statement v ∧
      r.cursor.position + o.tokens.length < last.cursor.position) ∨
    statement = .empty ∧ last = r.noted ∧
      isTarget r.cursor.current r.cursor.following = false ∧
      beginsExpression table r.cursor.current r.cursor.following = false := by
  have hreturns := returns_statement table r
  rw [h] at hreturns
  generalize hresult : EStateM.Result.ok statement last = result at hreturns
  cases hreturns with
  | @finished o first _ v hlead hsteps =>
    cases hresult
    exact .inl ⟨o, v, rfl, hlead.position_eq ▸ hsteps.position_lt_of_finished⟩
  | failed => cases hresult
  | empty htarget hbegins =>
    cases hresult
    exact .inr ⟨rfl, rfl, htarget, hbegins⟩

end Machine

end LineCalc
