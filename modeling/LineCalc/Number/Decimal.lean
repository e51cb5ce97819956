import LineCalc.Number.Rank

namespace LineCalc.Number

/-- The number `digits · 10 ^ exponent`. -/
structure Decimal where
  digits : Nat
  exponent : Int
deriving DecidableEq, Repr

namespace Decimal

/-- The rank of the binary64 number nearest to a decimal.

Ten is more than eight and `2 ^ log2 digits` is at most `digits`, so the two bounds on the exponent
tell numbers from `2 ^ 1024` on and numbers below `2 ^ (-1076)` without a large power of ten. -/
def nearestRank (x : Decimal) : Nat :=
  if x.digits = 0 then 0
  else
    match x.exponent with
    | .ofNat e =>
      if 1024 ≤ x.digits.log2 + 3 * e then infiniteRank
      else Number.nearestRank (x.digits * Nat.pow 10 e) 1
    | .negSucc e =>
      if x.digits.log2 + 1077 ≤ 3 * (e + 1) then 0
      else Number.nearestRank x.digits (Nat.pow 10 (e + 1))

/-- The digits after the point, to the given number of places, with no zeros at the end. -/
def fraction (places : Nat) (digits : Nat) : List Char :=
  let written := Nat.toDigits 10 digits
  let padded := List.replicate (places - written.length) '0' ++ written
  (padded.reverse.dropWhile (· == '0')).reverse

/-- Positional notation: all digits, never an exponent, and a point only before a digit. -/
def positional (x : Decimal) : String :=
  match x.exponent with
  | .ofNat e => toString (x.digits * Nat.pow 10 e)
  | .negSucc e =>
    let scale := Nat.pow 10 (e + 1)
    let whole := toString (x.digits / scale)
    match fraction (e + 1) (x.digits % scale) with
    | [] => whole
    | after => whole ++ "." ++ String.ofList after

end Decimal

end LineCalc.Number
