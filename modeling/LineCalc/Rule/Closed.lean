import LineCalc.Rule.Statement

namespace LineCalc.Rule

/-- A property that holds of the steps of the rules, and of what is made of rules that have it. Only
three kinds of events are taken down by the rules. -/
structure Closed (P : ∀ {α : Type}, Rule α → Prop) : Prop where
  pure {α : Type} (a : α) : P (Pure.pure a : Rule α)
  throw {α : Type} (fault : Fault) : P (MonadExcept.throw fault : Rule α)
  bind {α β : Type} {f : Rule α} {g : α → Rule β} (hf : P f) (hg : ∀ a, P (g a)) : P (f >>= g)
  current : P current
  following : P following
  unread : P unread
  advance : P advance
  enterGroup : P enterGroup
  leaveGroup : P leaveGroup
  statementNoted : P (record fun r => .statement r.cursor)
  factorNoted : P (record fun r => .factor r.cursor r.level)
  groupNoted : P (record fun r => .groupClosed r.groups.opened)
  oneLevelDown {α : Type} {f : Rule α} (hf : P f) : P (oneLevelDown f)

namespace Closed

variable {P : ∀ {α : Type}, Rule α → Prop} {wanted : Operator → Bool} {operand inner : Rule Float}

theorem joinOver (h : Closed P) (hoperand : P operand) {rest : Float → Rule Float}
    (hrest : ∀ value, P (rest value)) (value : Float) :
    P (joinOver wanted operand rest value) := by
  refine h.bind h.current fun token => ?_
  cases (Operator.ofToken? token).filter wanted with
  | none => exact h.pure value
  | some op => exact h.bind h.advance fun _ => h.bind hoperand fun right => hrest _

theorem joinWithin (h : Closed P) (hoperand : P operand) (bound : List Token) (value : Float) :
    P (joinWithin wanted operand bound value) := by
  induction bound generalizing value with
  | nil => exact h.pure value
  | cons t later ih => exact h.joinOver hoperand ih value

theorem chain (h : Closed P) (hoperand : P operand) : P (chain wanted operand) :=
  h.bind hoperand fun first => h.bind h.unread fun bound => h.joinWithin hoperand bound first

theorem closeGroup (h : Closed P) : P closeGroup := by
  refine h.bind h.current fun token => ?_
  split
  · exact h.bind h.advance fun _ => h.bind h.leaveGroup fun _ => h.groupNoted
  · exact h.pure ()

theorem termOver (h : Closed P) (hinner : P inner) : P (termOver inner) := h.chain hinner

theorem expressionOver (h : Closed P) (hinner : P inner) : P (expressionOver inner) :=
  h.bind (h.chain (h.termOver hinner)) fun value =>
    h.bind h.closeGroup fun _ => h.pure value

theorem applyNamed (h : Closed P) (name : Token) (argument : Float) :
    P (applyNamed name argument) := by
  simp only [Rule.applyNamed]
  cases Builtin.ofName? name with
  | some f => exact h.pure _
  | none => exact h.throw _

theorem callOver (h : Closed P) (hinner : P inner) (name : Token) : P (callOver inner name) := by
  refine h.bind h.current fun token => ?_
  split
  · exact h.bind h.advance fun _ => h.bind h.enterGroup fun _ =>
      h.bind (h.expressionOver hinner) fun argument => h.applyNamed name argument
  · exact h.throw _

theorem operandOver (h : Closed P) (hinner : P inner) (token : Token) (operand : Operand) :
    P (operandOver inner token operand) := by
  cases operand with
  | value v => exact h.bind h.advance fun _ => h.pure v
  | minus => exact h.bind h.advance fun _ => h.bind hinner fun v => h.pure _
  | group =>
    exact h.bind h.advance fun _ => h.bind h.enterGroup fun _ => h.expressionOver hinner
  | call => exact h.bind h.advance fun _ => h.callOver hinner token
  | refused fault => exact h.throw fault

theorem factorOver (h : Closed P) (hinner : P inner) (table : Table) :
    P (factorOver table inner) :=
  h.bind h.factorNoted fun _ => h.bind h.current fun token =>
    h.bind h.following fun _ => h.operandOver hinner token _

theorem factorWithin (h : Closed P) (table : Table) (bound : List Token) :
    P (factorWithin table bound) := by
  induction bound with
  | nil => exact h.oneLevelDown (h.factorOver (h.throw _) table)
  | cons t later ih => exact h.oneLevelDown (h.factorOver ih table)

theorem factor (h : Closed P) (table : Table) : P (factor table) :=
  h.bind h.unread fun bound => h.factorWithin table bound

theorem term (h : Closed P) (table : Table) : P (term table) := h.termOver (h.factor table)

theorem expression (h : Closed P) (table : Table) : P (expression table) :=
  h.expressionOver (h.factor table)

theorem call (h : Closed P) (table : Table) (name : Token) :
    P (Rule.callOver (Rule.factor table) name) :=
  h.callOver (h.factor table) name

theorem statement (h : Closed P) (table : Table) : P (statement table) := by
  refine h.bind h.current fun token => h.bind h.following fun next =>
    h.bind h.statementNoted fun _ => ?_
  split
  · exact h.bind h.advance fun _ => h.bind h.advance fun _ =>
      h.bind (h.expression table) fun value => h.pure _
  · split
    · exact h.bind (h.expression table) fun value => h.pure _
    · exact h.pure _

end Closed

end LineCalc.Rule
