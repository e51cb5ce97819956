import LineCalc.Token.Basic

namespace LineCalc

/-- The operators that join two operands. -/
inductive Operator where
  | add
  | sub
  | mul
  | div
deriving DecidableEq, Repr

namespace Operator

/-- The operator that a token stands for. -/
def ofToken? : Token → Option Operator
  | "+" => some add
  | "-" => some sub
  | "*" => some mul
  | "/" => some div
  | _ => none

/-- The result, rounded to the nearest number. Dividing by zero is not a fault; it gives an infinity
or a NaN. -/
def apply (op : Operator) (left right : Float) : Float :=
  match op with
  | add => left + right
  | sub => left - right
  | mul => left * right
  | div => left / right

/-- The operators of a sum. -/
def isAdditive : Operator → Bool
  | add | sub => true
  | mul | div => false

/-- The operators of a product. -/
def isMultiplicative (op : Operator) : Bool := !op.isAdditive

end Operator

/-- The functions that have a name of their own. Angles are in radians. -/
inductive Builtin where
  | sin
  | cos
  | tan
  | exp
  | sqrt
  | abs
deriving DecidableEq, Repr

namespace Builtin

/-- The function of a name. -/
def ofName? : Token → Option Builtin
  | "sin" => some sin
  | "cos" => some cos
  | "tan" => some tan
  | "exp" => some exp
  | "sqrt" => some sqrt
  | "abs" => some abs
  | _ => none

/-- The name by which a function is called. -/
def name : Builtin → Token
  | sin => "sin"
  | cos => "cos"
  | tan => "tan"
  | exp => "exp"
  | sqrt => "sqrt"
  | abs => "abs"

/-- Some function has this name. -/
def isName (t : Token) : Bool := (ofName? t).isSome

/-- The value of a function at an argument. -/
def apply (f : Builtin) (x : Float) : Float :=
  match f with
  | sin => x.sin
  | cos => x.cos
  | tan => x.tan
  | exp => x.exp
  | sqrt => x.sqrt
  | abs => x.abs

end Builtin

/-- The number nearest to π. -/
def pi : Float := Float.ofBits 0x400921fb54442d18

/-- The value of a name that no statement can bind. -/
def constant? : Token → Option Float
  | "pi" => some pi
  | _ => none

end LineCalc
