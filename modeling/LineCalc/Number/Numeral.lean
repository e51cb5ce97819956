import LineCalc.Number.Shortest

namespace LineCalc.Number

/-- The integer that a run of digits spells. -/
def digitsValue (digits : List Char) : Nat :=
  digits.foldl (fun value c => 10 * value + (c.toNat - '0'.toNat)) 0

/-- The size of an exponent. Its digits stop counting at 65536: from there on only a numeral with as
many digits as that could still be a finite number other than zero. -/
def exponentValue (digits : List Char) : Nat :=
  digits.foldl
    (fun value c => if value < 65536 then 10 * value + (c.toNat - '0'.toNat) else value) 0

/-- The size of an exponent, if the text is digits, at least one, and nothing else. -/
def readExponentValue? (text : List Char) : Option Nat :=
  if text ≠ [] ∧ text.all Char.isDigit then some (exponentValue text) else none

/-- The exponent at the end of a numeral: nothing, or `e` or `E`, an optional sign, and digits. -/
def readExponent? : List Char → Option Int
  | [] => some 0
  | mark :: rest =>
    if mark = 'e' ∨ mark = 'E' then
      match rest with
      | '-' :: digits => (readExponentValue? digits).map fun n => -(n : Int)
      | '+' :: digits => (readExponentValue? digits).map fun n => (n : Int)
      | digits => (readExponentValue? digits).map fun n => (n : Int)
    else none

/-- The digits after a point, and what follows them; no point, no digits. -/
def splitFraction : List Char → List Char × List Char
  | '.' :: rest => (rest.takeWhile Char.isDigit, rest.dropWhile Char.isDigit)
  | rest => ([], rest)

/-- The decimal that a numeral spells. A digit is required on one side of the point. -/
def readDecimal? (numeral : List Char) : Option Decimal :=
  let whole := numeral.takeWhile Char.isDigit
  let (fraction, rest) := splitFraction (numeral.dropWhile Char.isDigit)
  if whole = [] ∧ fraction = [] then none
  else
    (readExponent? rest).map fun exponent =>
      ⟨digitsValue (whole ++ fraction), exponent - fraction.length⟩

/-- The number nearest to a numeral's decimal, or `none` if the text is not a numeral. -/
def read? (text : String) : Option Float :=
  (readDecimal? text.toList).map fun x => Float.ofBits (UInt64.ofNat x.nearestRank)

/-- The text of the non-negative number of a rank. -/
def rankText (rank : Nat) : String :=
  if rank = infiniteRank then "inf" else (shortestDecimal rank).positional

/-- The text of a number: its sign, zero's too, and its shortest decimal. -/
def write (x : Float) : String :=
  if x.isNaN then "NaN"
  else
    let bits := x.toBits.toNat
    if bits < Nat.pow 2 63 then rankText bits else "-" ++ rankText (bits - Nat.pow 2 63)

end LineCalc.Number
