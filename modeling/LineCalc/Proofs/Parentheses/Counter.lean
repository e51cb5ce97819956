import Mathlib.Data.List.Induction
import LineCalc.Proofs.Groups
import LineCalc.Proofs.Machine.Step
import LineCalc.Rule.Forward

namespace LineCalc

/-- A call on the groups of a reading. -/
inductive Groups.Call where
  | enter
  | leave
deriving DecidableEq

/-- The rule that is called. -/
def Groups.Call.rule : Call → Rule Unit
  | enter => Rule.enterGroup
  | leave => Rule.leaveGroup

open Groups (Call)

namespace Reading

/-- The reading after a call, which may have been refused. -/
def call (r : Reading) (c : Call) : Reading := Rule.after c.rule r

/-- The reading after several calls, one by one. -/
def calls (r : Reading) (cs : List Call) : Reading := cs.foldl call r

@[simp] theorem calls_concat (r : Reading) (cs : List Call) (c : Call) :
    r.calls (cs ++ [c]) = (r.calls cs).call c :=
  List.foldl_append ..

private theorem call_enter (r : Reading) : r.call .enter = r.enter := rfl

private theorem call_leave (r : Reading) : r.call .leave = r.leave := Rule.after_leaveGroup r

end Reading

namespace Groups

/-- What holds of the groups after calls. -/
structure Counts (cs : List Call) (g : Groups) : Prop where
  opened : g.opened = cs.count .enter - cs.count .leave
  marked : g.Marked
  mark_le : g.mark.natAbs ≤ cs.length

namespace Counts

variable {cs : List Call} {g : Groups}

theorem initial : Groups.initial.Counts [] := ⟨rfl, marked_initial, le_rfl⟩

/-- The count is never further from zero than there were calls. -/
theorem opened_le (h : g.Counts cs) : g.opened.natAbs ≤ cs.length := by
  have hopened := h.opened
  have henter : cs.count .enter ≤ cs.length := List.count_le_length
  have hleave : cs.count .leave ≤ cs.length := List.count_le_length
  omega

theorem enter (h : g.Counts cs) : g.enter.Counts (cs ++ [.enter]) where
  opened := by
    have henter : [Call.enter].count .enter = 1 ∧ [Call.enter].count .leave = 0 := ⟨rfl, rfl⟩
    rw [List.count_append, List.count_append, henter.1, henter.2, opened_enter, h.opened]
    omega
  marked := marked_enter g
  mark_le := h.opened_le.trans (by simp)

theorem leave (h : g.Counts cs) : g.leave.Counts (cs ++ [.leave]) where
  opened := by
    have hleave : [Call.leave].count .enter = 0 ∧ [Call.leave].count .leave = 1 := ⟨rfl, rfl⟩
    rw [List.count_append, List.count_append, hleave.1, hleave.2, opened_leave, h.opened]
    omega
  marked := h.marked.leave
  mark_le := by
    have hopened := h.opened_le
    have hmark := h.mark_le
    rw [List.length_append, List.length_singleton]
    unfold Groups.leave
    split
    · change (g.opened - 1).natAbs ≤ cs.length + 1
      omega
    · change g.mark.natAbs ≤ cs.length + 1
      omega

end Counts

end Groups

/-- The run lemma. The last call is made on groups of which all is known. -/
theorem counts_calls (c : Cursor) (cs : List Call) :
    ((Reading.start c).calls cs).groups.Counts cs := by
  induction cs using List.reverseRecOn with
  | nil => exact .initial
  | append_singleton cs a ih =>
    rw [Reading.calls_concat]
    cases a with
    | enter =>
      rw [Reading.call_enter]
      exact ih.enter
    | leave =>
      rw [Reading.call_leave]
      exact ih.leave

/-- After any calls, refused ones included, the count is the number of groups that were entered less
the number of calls to leave one. The mark is at least one less than the count, so comparing the two
does not decide whether a group can be left: it can, unless the count is zero or less, and then the
parentheses are unbalanced. Neither counter gets further from zero than there were calls. -/
theorem groups_count_calls (c : Cursor) (cs : List Call) :
    let r := (Reading.start c).calls cs
    r.groups.opened = cs.count .enter - cs.count .leave ∧
    r.groups.opened - 1 ≤ r.groups.mark ∧
    r.groups.canLeave = decide (0 ≤ r.groups.opened - 1) ∧
    (Rule.leaveGroup r =
      if 0 < r.groups.opened then .ok () r.leave else .error .unbalanced r.leave) ∧
    (r.groups.balanced = true ↔ cs.count .enter = cs.count .leave) ∧
    r.groups.opened.natAbs ≤ cs.length ∧ r.groups.mark.natAbs ≤ cs.length := by
  intro r
  have hcounts : r.groups.Counts cs := counts_calls c cs
  have hcan := hcounts.marked.canLeave_iff
  refine ⟨hcounts.opened, hcounts.marked, ?_, ?_, ?_, hcounts.opened_le, hcounts.mark_le⟩
  · rw [Bool.eq_iff_iff, hcan, decide_eq_true_iff, Int.sub_nonneg]
    rfl
  · simp only [Rule.leaveGroup, hcan]
    rfl
  · rw [Groups.balanced, beq_iff_eq, hcounts.opened]
    omega

/-- The count may be negative, and a group that is entered then is left below zero. -/
example (c : Cursor) :
    ((Reading.start c).calls [.leave, .leave, .enter]).groups = ⟨-1, -2⟩ := rfl

end LineCalc
