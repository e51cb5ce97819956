import LineCalc.Token.Basic

namespace LineCalc

/-- The causes for which a statement is refused. A token that a cause names is the one at fault. -/
inductive Fault where
  | unbalanced
  | operandExpected (token : Token)
  | malformedNumber (token : Token)
  | unboundName (token : Token)
  | unknownFunction (token : Token)
  | argumentExpected (token : Token)
  | tooDeep (levels : Nat)
  | unexpectedToken (token : Token)
deriving DecidableEq, Repr

/-- The sentence that tells the user; tokens stand in it as they are. -/
def Fault.message : Fault → String
  | unbalanced => "unbalanced parentheses"
  | operandExpected token => s!"number expected, found '{token}'"
  | malformedNumber token => s!"'{token}' is not a valid number"
  | unboundName token => s!"identifier, '{token}', is not defined"
  | unknownFunction token => s!"'{token}' is not a known function"
  | argumentExpected token => s!"expected '(' after '{token}'"
  | tooDeep levels => s!"expression nested deeper than {levels} levels"
  | unexpectedToken token => s!"did not expect '{token}'"

end LineCalc
