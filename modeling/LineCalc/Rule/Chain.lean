import LineCalc.Operation
import LineCalc.Rule.Basic

namespace LineCalc.Rule

/-- Joins one more operand to a value and goes on with the result, if the token at the cursor is an
operator of the wanted kind. -/
@[inline] def joinOver (wanted : Operator → Bool) (operand : Rule Float)
    (rest : Float → Rule Float) (value : Float) : Rule Float := do
  match (Operator.ofToken? (← current)).filter wanted with
  | none => pure value
  | some op => do
    advance
    let right ← operand
    rest (op.apply value right)

/-- Joins operands to a value, given tokens at least as many as are left. Each operand takes an
operator, and so a token. -/
def joinWithin (wanted : Operator → Bool) (operand : Rule Float) :
    List Token → Float → Rule Float
  | [], value => pure value
  | _ :: later, value => joinOver wanted operand (joinWithin wanted operand later) value

/-- Joins operands to a value until no wanted operator is at the cursor. -/
def joinAll (wanted : Operator → Bool) (operand : Rule Float) (value : Float) : Rule Float := do
  joinWithin wanted operand (← unread) value

/-- `operand {operator operand}`, with the value folded from the left. -/
def chain (wanted : Operator → Bool) (operand : Rule Float) : Rule Float := do
  let first ← operand
  joinAll wanted operand first

end LineCalc.Rule
