import LineCalc.Rule.Chain
import LineCalc.Table

namespace LineCalc

/-- What a factor can begin with. -/
inductive Operand where
  /-- One token that has a value. -/
  | value (value : Float)
  /-- The sign before a factor. -/
  | minus
  /-- The parenthesis before an expression. -/
  | group
  /-- The name of a function, to be followed by its argument in parentheses. -/
  | call
  /-- No factor begins here. -/
  | refused (fault : Fault)
deriving DecidableEq

namespace Operand

/-- What a token begins, in view of the token after it. A bound name is a value even if a function
has the same name, and what is neither bound nor a function is taken for one where a parenthesis
follows. -/
def ofToken (table : Table) (token next : Token) : Operand :=
  match constant? token with
  | some v => value v
  | none =>
    if token = "-" then minus
    else if token = "(" then group
    else if token.isSymbol then refused (.operandExpected token)
    else if token.startsNumeral then
      match Number.read? token with
      | some v => value v
      | none => refused (.malformedNumber token)
    else
      match table.get? token with
      | some v => value v
      | none =>
        if Builtin.isName token || next == "(" then call
        else refused (.unboundName token)

end Operand

namespace Rule

/-- Reads a closing parenthesis, if one stands at the cursor. -/
def closeGroup : Rule Unit := do
  if (← current) = ")" then
    advance
    leaveGroup
    record fun r => .groupClosed r.groups.opened

/-- A product of factors. -/
def termOver (factor : Rule Float) : Rule Float := chain Operator.isMultiplicative factor

/-- A sum of terms, with the parenthesis that closes it. -/
def expressionOver (factor : Rule Float) : Rule Float := do
  let value ← chain Operator.isAdditive (termOver factor)
  closeGroup
  pure value

/-- The value of a named function, if there is one. -/
def applyNamed (name : Token) (argument : Float) : Rule Float :=
  match Builtin.ofName? name with
  | some f => pure (f.apply argument)
  | none => throw (.unknownFunction name)

/-- A function's argument and value; its name has been read. Whether there is a function of that
name is asked only when the argument has been computed. -/
def callOver (factor : Rule Float) (name : Token) : Rule Float := do
  if (← current) = "(" then
    advance
    enterGroup
    let argument ← expressionOver factor
    applyNamed name argument
  else throw (.argumentExpected name)

/-- A factor that begins with a certain operand at the cursor. -/
def operandOver (factor : Rule Float) (token : Token) : Operand → Rule Float
  | .value v => do
    advance
    pure v
  | .minus => do
    advance
    let v ← factor
    pure (-v)
  | .group => do
    advance
    enterGroup
    expressionOver factor
  | .call => do
    advance
    callOver factor token
  | .refused fault => throw fault

/-- A factor at the level it is read on, over a rule for the factors inside it. -/
def factorOver (table : Table) (factor : Rule Float) : Rule Float := do
  record fun r => .factor r.cursor r.level
  let token ← current
  operandOver factor token (Operand.ofToken table token (← following))

/-- A factor, given tokens at least as many as are left. A factor inside a factor begins at a later
token, and at the end mark none begins. -/
def factorWithin (table : Table) : List Token → Rule Float
  | [] => oneLevelDown (factorOver table (throw (.operandExpected Token.endMark)))
  | _ :: later => oneLevelDown (factorOver table (factorWithin table later))

/-- A number, a name, a negated factor, a group or a call. -/
def factor (table : Table) : Rule Float := do factorWithin table (← unread)

/-- A product of factors. -/
def term (table : Table) : Rule Float := termOver (factor table)

/-- A sum of terms, with the parenthesis that closes it, if one does. It is computed as it is read:

* expression → term {(`+` | `-`) term}
* term → factor {(`*` | `/`) factor}
* factor → number | `pi` | name | `-` factor | `(` expression `)` | function `(` expression `)`

An expression inside parentheses that ends without the closing one leaves its group open, which is
found out when the statement has ended. -/
def expression (table : Table) : Rule Float := expressionOver (factor table)

end Rule

end LineCalc
