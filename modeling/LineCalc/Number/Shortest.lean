import LineCalc.Number.Decimal

namespace LineCalc.Number

/-- The point of the grid `10 ^ e` that reads back as the number of the given rank, if there is
one. Of two such points the nearer is taken, and the greater if both are equally near. -/
def pointOn (rank : Nat) (e : Int) : Option Decimal :=
  let n := units rank * Nat.pow 10 (-e).toNat
  let d := Nat.pow 2 1074 * Nat.pow 10 e.toNat
  let below : Decimal := ⟨n / d, e⟩
  let above : Decimal := ⟨n / d + 1, e⟩
  if below.nearestRank = rank then
    if above.nearestRank = rank ∧ d ≤ 2 * (n % d) then some above else some below
  else if above.nearestRank = rank then some above
  else none

/-- Tries the grids `10 ^ e`, `10 ^ (e - 1)`, … in turn, as many as asked. -/
def coarsestPoint (rank : Nat) : Nat → Int → Option Decimal
  | 0, _ => none
  | grids + 1, e => (pointOn rank e).or (coarsestPoint rank grids (e - 1))

/-- An exponent that is at least the decimal logarithm of a positive number, and at most two
more. -/
def startExponent (rank : Nat) : Int :=
  ((units rank).log2 - 1073 : Int) * 30103 / 100000 + 1

/-- All digits of a number: `u · 2⁻¹⁰⁷⁴` is `u · 5¹⁰⁷⁴ · 10⁻¹⁰⁷⁴`. -/
def exactDecimal (rank : Nat) : Decimal := ⟨units rank * Nat.pow 5 1074, -1074⟩

/-- The shortest decimal that reads back as the number of the given rank.

Decimals with few digits are the points of a coarse grid, and the grids are nested, so the first
grid from a coarse one down that has a point which reads back has the answer. On a grid only the two
neighbours of the number need a trial, since the decimals that read back as it are an interval
around it. Seventeen digits are always enough, and twenty grids reach them; past these all digits
would be given. -/
def shortestDecimal (rank : Nat) : Decimal :=
  if rank = 0 then ⟨0, 0⟩
  else (coarsestPoint rank 20 (startExponent rank)).getD (exactDecimal rank)

end LineCalc.Number
