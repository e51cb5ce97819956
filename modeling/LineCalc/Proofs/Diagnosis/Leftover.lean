import LineCalc.Proofs.Session.ReadBack
import LineCalc.Proofs.Transport.Statement

namespace LineCalc

open Machine

variable {table : Table} {tokens : List Token} {t : Token}

/-- The tokens before a cursor are those that were read. -/
theorem Cursor.take_eq_read {c : Cursor} (h : c.tokens = tokens ++ [Token.endMark]) :
    tokens.take c.position = c.read := by
  have hsplit : c.read ++ c.unread = tokens := List.append_cancel_right h
  rw [← hsplit, position_eq_length_read, List.take_left]

/-- No step of the machine fails for a token that is left over. -/
theorem not_step_unexpectedToken {s : State} {r : Reading} :
    ¬ Machine.Step table s (.failed (.unexpectedToken t) r) := by
  intro h
  cases h with
  | refused hlevel hoperand => cases begins_of_operand hoperand

/-- A token is left over where nothing was read, or after a derivation within the levels. -/
theorem exists_phrase_of_unexpectedToken
    (h : (evaluate table (.start tokens)).outcome = .refused (.unexpectedToken t)) :
    (evaluate table (.start tokens)).cursor.position = 0 ∨
      ∃ (o : Opening) (e : Phrase table .expression), o.Valid ∧ e.level ≤ maxLevel ∧
        tokens.take (evaluate table (.start tokens)).cursor.position = o.tokens ++ e.tokens := by
  have hrefusal := refusal_of_evaluate h
  generalize (evaluate table (.start tokens)).cursor = c at hrefusal
  cases hrefusal with
  | failed hfits hsteps hstep => exact absurd hstep not_step_unexpectedToken
  | @remaining o rest v r hfits hsteps hremaining =>
    obtain ⟨-, hfault⟩ | ⟨hopened, -⟩ := remainingFault?_cases hremaining
    · cases hfault
    · obtain ⟨e, -, hlevel, hread⟩ := exists_phrase_of_steps hsteps hopened
      have htokens : r.cursor.tokens = o.tokens ++ rest ++ [Token.endMark] :=
        Opening.tokens_of_steps hsteps
      exact .inr ⟨o, e, Opening.valid_of_fits hfits, hlevel,
        (Cursor.take_eq_read htokens).trans hread⟩
  | nothing hbegins hremaining => exact .inl rfl

/-- Where there is no token there is no statement, unless the end mark is bound. -/
theorem evaluate_nil (hmark : table.contains Token.endMark = false) :
    evaluate table (.start []) =
      ⟨.done, .start [], table, (Opening.none.start []).events.reverse⟩ := by
  have htarget : isTarget (Cursor.start []).current (Cursor.start []).following = false :=
    isTarget_endMark _
  have hbegins : beginsExpression table (Cursor.start []).current (Cursor.start []).following =
      false := (beginsExpression_endMark table _).trans hmark
  exact evaluate_of_stops (.empty htarget hbegins)

namespace Session

/-- A session never binds the end mark, which is no name. -/
theorem contains_endMark_feedAll (lines : List String) :
    (new.feedAll lines).table.contains Token.endMark = false := by
  refine Bool.eq_false_iff.2 fun hmark => ?_
  have hname := (bindsNames_feedAll lines Token.endMark hmark).1
  rw [Token.isName_endMark] at hname
  cases hname

end Session

/-- The tokens before one that is left over are a whole statement: where none is left before it,
the empty one, and otherwise an expression or a binding. They are accepted and read to their end.
This holds in every table that does not bind the end mark, and no session binds it. -/
theorem evaluate_take_of_leftover :
    (∀ (table : Table) (tokens : List Token) (t : Token),
      table.contains Token.endMark = false →
      (evaluate table (.start tokens)).outcome = .refused (.unexpectedToken t) →
      let p := (evaluate table (.start tokens)).cursor.position
      let d := evaluate table (.start (tokens.take p))
      d.cursor.read = tokens.take p ∧ d.cursor.unread = [] ∧
        (p = 0 ∧ d.outcome = .done ∧ d.table = table ∨
          (∃ v, d.outcome = .value v ∧ d.table = table) ∨
          ∃ name rest v, tokens.take p = name :: "=" :: rest ∧
            (evaluate table (.start rest)).outcome = .value v ∧
            d.outcome = .done ∧ d.table = table.insert name v ∧
            ∀ other, d.table.get? other = if other = name then some v else table.get? other)) ∧
    ∀ lines : List String, (Session.new.feedAll lines).table.contains Token.endMark = false := by
  refine ⟨fun table tokens t hmark h => ?_, Session.contains_endMark_feedAll⟩
  intro p d
  obtain hp | ⟨o, e, hvalid, hlevel, htokens⟩ := exists_phrase_of_unexpectedToken h
  · have hd : d = _ := (congrArg (fun n => evaluate table (.start (tokens.take n))) hp).trans
      (evaluate_nil hmark)
    rw [hd, show p = 0 from hp]
    exact ⟨rfl, rfl, .inl ⟨rfl, rfl, rfl⟩⟩
  · obtain ⟨r, hcursor, heq⟩ := evaluate_of_phrase hvalid e hlevel
    have hd : d = conclude table r (o.statement e.value) := by
      rw [← heq, ← htokens]
    have hread : r.cursor.read = tokens.take p := by
      rw [hcursor, show tokens.take p = _ from htokens]
      exact List.reverse_reverse _
    have hunread : r.cursor.unread = [] := by rw [hcursor, Cursor.unread]
    rw [hd]
    cases o with
    | none => exact ⟨hread, hunread, .inr (.inl ⟨e.value, rfl, rfl⟩)⟩
    | target name =>
      obtain ⟨r', -, hvalue⟩ := evaluate_of_phrase (o := .none) trivial e hlevel
      refine ⟨hread, hunread, .inr (.inr ⟨name, e.tokens, e.value, htokens,
        congrArg Evaluation.outcome hvalue, rfl, rfl, ?_⟩)⟩
      exact Table.get?_insert table name e.value

/-- A second sign of a binding is left over, and the binding before it is accepted on its own. -/
theorem evaluate_take_of_leftover_sign :
    let tokens := ["x", "=", "pi", "=", "y"]
    let d := evaluate .empty (.start ["x", "=", "pi"])
    Table.empty.contains Token.endMark = false ∧
      (evaluate .empty (.start tokens)).outcome = .refused (.unexpectedToken "=") ∧
      d.cursor.read = ["x", "=", "pi"] ∧ d.outcome = .done ∧
      ∃ v, (evaluate .empty (.start ["pi"])).outcome = .value v ∧
        d.table = Table.empty.insert "x" v ∧ d.table.get? "x" = some v := by
  intro tokens d
  have hmark : Table.empty.contains Token.endMark = false := rfl
  have hfault : (evaluate .empty (.start tokens)).outcome = .refused (.unexpectedToken "=") := by
    decide +kernel
  have hposition : (evaluate .empty (.start tokens)).cursor.position = 3 := by decide +kernel
  have houtcome : d.outcome = .done := by decide +kernel
  obtain ⟨hread, -, haccepted⟩ := evaluate_take_of_leftover.1 .empty tokens "=" hmark hfault
  rw [hposition] at hread haccepted
  refine ⟨hmark, hfault, hread, houtcome, ?_⟩
  obtain ⟨hzero, -⟩ | ⟨v, hvalue, -⟩ | ⟨name, rest, v, htokens, hvalue, -, htable, hget⟩ :=
    haccepted
  · cases hzero
  · cases houtcome.symm.trans hvalue
  · cases htokens
    exact ⟨v, hvalue, htable, (hget "x").trans (if_pos rfl)⟩

end LineCalc
