import LineCalc.Rule.Expression

namespace LineCalc

/-- What a statement comes to, before it is known whether all of it can be read. -/
inductive Statement where
  | value (value : Float)
  | binding (name : Token) (value : Float)
  | empty
deriving DecidableEq

/-- A name that may be bound, with the sign of a binding after it. -/
def isTarget (token next : Token) : Bool :=
  token.isName && (constant? token).isNone && next == "="

/-- A token at which an expression may begin, in view of the token after it. A leading `+` is let
through here and refused as an operand. -/
def beginsExpression (table : Table) (token next : Token) : Bool :=
  (constant? token).isSome || token == "(" || token == "+" || token == "-" ||
    token.startsNumeral || Builtin.isName token || table.contains token ||
    (token.isName && next == "(")

/-- A statement. Where neither a binding nor an expression begins, the statement is empty and reads
nothing. -/
def Rule.statement (table : Table) : Rule Statement := do
  let token ← current
  let next ← following
  record fun r => .statement r.cursor
  if isTarget token next then
    advance
    advance
    let value ← expression table
    pure (.binding token value)
  else if beginsExpression table token next then
    let value ← expression table
    pure (.value value)
  else pure .empty

end LineCalc
