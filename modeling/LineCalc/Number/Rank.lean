namespace LineCalc.Number

/-- The rank of infinity. The rank of a non-negative binary64 number is its place among them in
ascending order, which is also the integer that its bits spell. -/
def infiniteRank : Nat := 2047 * Nat.pow 2 52

/-- The number of a finite rank, counted in units of 2⁻¹⁰⁷⁴, the least positive number. Infinity
counts as 2¹⁰²⁴ here, the number that would follow. -/
def units (rank : Nat) : Nat :=
  if rank < Nat.pow 2 53 then rank
  else (Nat.pow 2 52 + rank % Nat.pow 2 52) * Nat.pow 2 (rank / Nat.pow 2 52 - 1)

/-- The integer nearest to `n / d`; a half goes to the even neighbour. -/
def roundHalfEven (n d : Nat) : Nat :=
  let q := n / d
  let r := 2 * (n % d)
  if r < d then q else if d < r then q + 1 else q + q % 2

/-- The rank of the number nearest to `n / d`; a half goes to the number with an even last bit,
and what is too large goes to infinity.

Numbers of 53 bits or fewer are spaced by one unit, and each further bit doubles the spacing. With
a spacing of `2 ^ s` units the rank grows by `2 ^ 52` for each doubling, so a mantissa that rounds
up to the next power of two needs no case of its own. -/
def nearestRank (n d : Nat) : Nat :=
  let scaled := n * Nat.pow 2 1074
  let s := (scaled / d).log2 + 1 - 53
  min (s * Nat.pow 2 52 + roundHalfEven scaled (d * Nat.pow 2 s)) infiniteRank

end LineCalc.Number
