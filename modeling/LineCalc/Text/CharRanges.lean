namespace LineCalc.Text

/-- A set of characters, as the first and last code points of its ranges, in ascending order. -/
abbrev CharRanges := List (Nat × Nat)

namespace CharRanges

/-- A character is in the set if the first range that ends at or after its code point has begun. -/
def contains : CharRanges → Char → Bool
  | [], _ => false
  | (first, last) :: later, c =>
    if last < c.toNat then contains later c else first ≤ c.toNat

theorem contains_of_mem_head {first last : Nat} {later : CharRanges} {c : Char}
    (hfirst : first ≤ c.toNat) (hlast : c.toNat ≤ last) :
    contains ((first, last) :: later) c = true := by
  rw [contains, if_neg (Nat.not_lt.2 hlast)]
  exact decide_eq_true hfirst

theorem contains_of_mem_tail {first last : Nat} {later : CharRanges} {c : Char}
    (hlast : last < c.toNat) (h : contains later c = true) :
    contains ((first, last) :: later) c = true := by
  rw [contains, if_pos hlast]
  exact h

end CharRanges

end LineCalc.Text
