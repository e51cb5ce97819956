import LineCalc.Fault

namespace LineCalc

/-- The number of groups that are open, and a mark: what that number was just before the latest
group was entered, or just after the latest was left. -/
structure Groups where
  opened : Int
  mark : Int
deriving DecidableEq, Repr

namespace Groups

/-- No group has been entered. -/
def initial : Groups := ⟨0, 0⟩

/-- Enters a group. -/
def enter (g : Groups) : Groups := ⟨g.opened + 1, g.opened⟩

/-- A group can be left if that takes the count down to the mark or below it, and not below zero. -/
def canLeave (g : Groups) : Bool := g.opened - 1 ≤ g.mark && 0 ≤ g.opened - 1

/-- Leaves a group. The count goes down in any case; the mark follows it only if the group could be
left. -/
def leave (g : Groups) : Groups :=
  if g.canLeave then ⟨g.opened - 1, g.opened - 1⟩ else ⟨g.opened - 1, g.mark⟩

/-- Every group that was entered has been left. -/
def balanced (g : Groups) : Bool := g.opened == 0

end Groups

end LineCalc
