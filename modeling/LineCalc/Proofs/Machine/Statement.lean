import LineCalc.Evaluation
import LineCalc.Proofs.Machine.Rules

namespace LineCalc

/-- What stands before the expression of a statement: nothing, or a name and the sign that binds
it. -/
inductive Opening where
  | none
  | target (name : Token)
deriving DecidableEq

namespace Opening

/-- The tokens of an opening. -/
def tokens : Opening → List Token
  | none => []
  | target name => [name, "="]

/-- The statement that an expression makes after an opening. -/
def statement : Opening → Float → Statement
  | none => .value
  | target name => .binding name

/-- The statement rule takes these tokens for an expression after this opening. -/
def Fits (table : Table) : Opening → List Token → Prop
  | none, tokens =>
    isTarget (Cursor.start tokens).current (Cursor.start tokens).following = false ∧
      beginsExpression table (Cursor.start tokens).current (Cursor.start tokens).following = true
  | target name, _ => name.isName = true ∧ constant? name = Option.none

/-- The reading in which the expression after an opening begins. -/
def start (o : Opening) (tokens : List Token) : Reading :=
  ⟨⟨o.tokens.reverse, tokens⟩, .initial, 0, [.statement (Cursor.start (o.tokens ++ tokens))]⟩

end Opening

/-- A statement begins at the cursor, which is taken note of. -/
def Reading.noted (r : Reading) : Reading := { r with events := .statement r.cursor :: r.events }

namespace Machine

open Rule

variable {table : Table} {o : Opening} {tokens : List Token} {r : Reading} {v : Float}
  {fault : Fault}

/-- A name before the sign of a binding is read with the sign, and an expression after them. -/
theorem statement_of_target (h : isTarget r.cursor.current r.cursor.following = true) :
    Rule.statement table r =
      (expression table >>= fun v => pure (.binding r.cursor.current v))
        r.noted.advance.advance := by
  simp only [Rule.statement, bind_apply, current, following, record, h, if_true]
  rfl

/-- Where an expression begins and no binding, the expression is read. -/
theorem statement_of_begins (htarget : isTarget r.cursor.current r.cursor.following = false)
    (hbegins : beginsExpression table r.cursor.current r.cursor.following = true) :
    Rule.statement table r = (expression table >>= fun v => pure (.value v)) r.noted := by
  simp only [Rule.statement, bind_apply, current, following, record, htarget, hbegins,
    Bool.false_eq_true, if_false, if_true]
  rfl

/-- Where neither begins, nothing is read. -/
theorem statement_of_neither (htarget : isTarget r.cursor.current r.cursor.following = false)
    (hbegins : beginsExpression table r.cursor.current r.cursor.following = false) :
    Rule.statement table r = .ok .empty r.noted := by
  simp only [Rule.statement, bind_apply, current, following, record, htarget, hbegins,
    Bool.false_eq_true, if_false]
  rfl

theorem statement_eq (h : o.Fits table tokens) :
    Rule.statement table (.start (.start (o.tokens ++ tokens))) =
      (expression table >>= fun v => pure (o.statement v)) (o.start tokens) := by
  cases o with
  | none =>
    obtain ⟨htarget, hbegins⟩ := h
    exact statement_of_begins (r := .start (.start tokens)) htarget hbegins
  | target name =>
    obtain ⟨hname, hconstant⟩ := h
    have htarget : isTarget name "=" = true := by simp [isTarget, hname, hconstant]
    exact statement_of_target (r := .start (.start (name :: "=" :: tokens))) htarget

/-- Tokens are an expression after an opening, or no statement begins with them. -/
theorem exists_opening_or (table : Table) (tokens : List Token) :
    (∃ (o : Opening) (rest : List Token), tokens = o.tokens ++ rest ∧ o.Fits table rest) ∨
      isTarget (Cursor.start tokens).current (Cursor.start tokens).following = false ∧
      beginsExpression table (Cursor.start tokens).current (Cursor.start tokens).following =
        false := by
  cases htarget : isTarget (Cursor.start tokens).current (Cursor.start tokens).following with
  | true =>
    left
    simp only [isTarget, Bool.and_eq_true, Option.isNone_iff_eq_none, beq_iff_eq] at htarget
    obtain ⟨⟨hname, hconstant⟩, hsign⟩ := htarget
    match tokens with
    | [] => exact absurd (show Token.endMark = "=" from hsign) (by decide)
    | [_] => exact absurd (show Token.endMark = "=" from hsign) (by decide)
    | name :: next :: rest =>
      obtain rfl : next = "=" := hsign
      exact ⟨.target name, rest, rfl, hname, hconstant⟩
  | false =>
    cases hbegins : beginsExpression table (Cursor.start tokens).current
        (Cursor.start tokens).following with
    | true => exact .inl ⟨.none, tokens, rfl, htarget, hbegins⟩
    | false => exact .inr ⟨rfl, rfl⟩

/-- Where no statement begins nothing is read. -/
theorem statement_eq_empty
    (htarget : isTarget (Cursor.start tokens).current (Cursor.start tokens).following = false)
    (hbegins : beginsExpression table (Cursor.start tokens).current
      (Cursor.start tokens).following = false) :
    Rule.statement table (.start (.start tokens)) =
      .ok .empty (Opening.none.start tokens) :=
  statement_of_neither (r := .start (.start tokens)) htarget hbegins

/-- A statement for which the machine finishes is concluded, unless something remains. -/
theorem evaluate_of_finished (hfits : o.Fits table tokens)
    (h : Steps table (.read .top (o.start tokens)) (.finished v .top r)) :
    evaluate table (.start (o.tokens ++ tokens)) =
      match remainingFault? table r with
      | some fault => ⟨.refused fault, r.cursor, table, r.events.reverse⟩
      | none => conclude table r (o.statement v) := by
  have hok := expression_eq_ok_iff.2 h
  rw [evaluate, statement_eq hfits, bind_apply, hok]
  rfl

/-- A statement for which the machine fails is refused where it failed. -/
theorem evaluate_of_failed (hfits : o.Fits table tokens)
    (h : Steps table (.read .top (o.start tokens)) (.failed fault r)) :
    evaluate table (.start (o.tokens ++ tokens)) =
      ⟨.refused fault, r.cursor, table, r.events.reverse⟩ := by
  obtain ⟨level, herror⟩ := expression_eq_error_iff.2 ⟨r.level, h⟩
  rw [evaluate, statement_eq hfits, bind_apply, herror]

/-- The machine halts on every statement. -/
theorem exists_halted (table : Table) (r : Reading) :
    (∃ v r', Steps table (.read .top r) (.finished v .top r')) ∨
      ∃ fault r', Steps table (.read .top r) (.failed fault r') := by
  have hreaches := reaches_expression table .top r
  cases hresult : expression table r with
  | ok v r' =>
    rw [hresult] at hreaches
    exact .inl ⟨v, r', hreaches⟩
  | error fault r' =>
    rw [hresult] at hreaches
    obtain ⟨level, hfailed⟩ := hreaches
    exact .inr ⟨fault, _, hfailed⟩

end Machine

end LineCalc
