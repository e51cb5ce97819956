import LineCalc.Groups

namespace LineCalc.Groups

/-- The mark is at least the count of the groups around the innermost one. -/
def Marked (g : Groups) : Prop := g.opened - 1 ≤ g.mark

theorem marked_initial : initial.Marked := by
  change (0 : Int) - 1 ≤ 0
  omega

theorem marked_enter (g : Groups) : g.enter.Marked := by
  change g.opened + 1 - 1 ≤ g.opened
  omega

/-- Leaving a group keeps the mark high enough, also when there was none to leave. -/
theorem Marked.leave {g : Groups} (h : g.Marked) : g.leave.Marked := by
  unfold Marked at h ⊢
  unfold Groups.leave
  split
  · change g.opened - 1 - 1 ≤ g.opened - 1
    omega
  · change g.opened - 1 - 1 ≤ g.mark
    omega

@[simp] theorem opened_enter (g : Groups) : g.enter.opened = g.opened + 1 := rfl

@[simp] theorem opened_leave (g : Groups) : g.leave.opened = g.opened - 1 := by
  unfold leave
  split <;> rfl

theorem Marked.canLeave_iff {g : Groups} (h : g.Marked) : g.canLeave = true ↔ 0 < g.opened := by
  unfold Marked at h
  simp only [canLeave, Bool.and_eq_true, decide_eq_true_eq]
  omega

end LineCalc.Groups
