import LineCalc.Proofs.Machine.Statement

namespace LineCalc.Machine

open Rule

variable {table : Table} {r : Reading}

/-- What stands before the expression of a statement, and the reading in which that begins. -/
inductive Lead (r : Reading) : Opening → Reading → Prop
  | none : Lead r .none r.noted
  | target (htarget : isTarget r.cursor.current r.cursor.following = true) :
      Lead r (.target r.cursor.current) r.noted.advance.advance

/-- What a call comes to. An expression that fails goes back up to its own level, so the machine's
reading may differ in the level from the one that the call leaves. -/
inductive Returns (table : Table) (r : Reading) : EStateM.Result Fault Reading Statement → Prop
  | finished {o : Opening} {first last : Reading} {v : Float} (hlead : Lead r o first)
      (hsteps : Steps table (.read .top first) (.finished v .top last)) :
      Returns table r (.ok (o.statement v) last)
  | failed {o : Opening} {first last : Reading} {fault : Fault} {level : ℕ}
      (hlead : Lead r o first)
      (hsteps : Steps table (.read .top first) (.failed fault { last with level })) :
      Returns table r (.error fault last)
  | empty (htarget : isTarget r.cursor.current r.cursor.following = false)
      (hbegins : beginsExpression table r.cursor.current r.cursor.following = false) :
      Returns table r (.ok .empty r.noted)

private theorem returns_of_lead {o : Opening} {first : Reading} (hlead : Lead r o first)
    (h : Rule.statement table r = (expression table >>= fun v => pure (o.statement v)) first) :
    Returns table r (Rule.statement table r) := by
  have hreaches := reaches_expression table .top first
  rw [h, bind_apply]
  cases hresult : expression table first with
  | ok v last =>
    rw [hresult] at hreaches
    exact .finished hlead hreaches
  | error fault last =>
    rw [hresult] at hreaches
    obtain ⟨level, hsteps⟩ := hreaches
    exact .failed hlead hsteps

theorem returns_statement (table : Table) (r : Reading) :
    Returns table r (Rule.statement table r) := by
  cases htarget : isTarget r.cursor.current r.cursor.following with
  | true => exact returns_of_lead (.target htarget) (statement_of_target htarget)
  | false =>
    cases hbegins : beginsExpression table r.cursor.current r.cursor.following with
    | true => exact returns_of_lead .none (statement_of_begins htarget hbegins)
    | false =>
      rw [statement_of_neither htarget hbegins]
      exact .empty htarget hbegins

end LineCalc.Machine
