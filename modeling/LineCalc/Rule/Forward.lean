import LineCalc.Rule.Closed

namespace LineCalc

/-- How many tokens are left to read. -/
def Reading.left (r : Reading) : Nat := r.cursor.unread.length

namespace Rule

variable {α β : Type}

/-- The reading as a rule leaves it. -/
def after (rule : Rule α) (r : Reading) : Reading :=
  match rule r with
  | .ok _ r => r
  | .error _ r => r

/-- A rule that never has more tokens left after it than before it. -/
def Forward (rule : Rule α) : Prop := ∀ r, (after rule r).left ≤ r.left

theorem bind_apply (f : Rule α) (g : α → Rule β) (r : Reading) :
    (f >>= g) r =
      match f r with
      | .ok a r => g a r
      | .error fault r => .error fault r := by
  cases h : f r <;> simp [Bind.bind, EStateM.bind, h]

/-- A transitive relation that holds from before to after each of two rules holds over both. -/
theorem after_bind {R : Reading → Reading → Prop} (htrans : ∀ {r s t}, R r s → R s t → R r t)
    {f : Rule α} {g : α → Rule β} (hf : ∀ r, R r (after f r)) (hg : ∀ a r, R r (after (g a) r))
    (r : Reading) : R r (after (f >>= g) r) := by
  have hfr := hf r
  simp only [after, bind_apply] at hfr ⊢
  cases h : f r with
  | ok a s =>
    rw [h] at hfr
    exact htrans hfr (hg a s)
  | error fault s =>
    rw [h] at hfr
    exact hfr

/-- The groups are the same whether there was one to leave or not. -/
theorem after_leaveGroup (r : Reading) :
    after leaveGroup r = { r with groups := r.groups.leave } := by
  simp only [after, leaveGroup]
  cases r.groups.canLeave <;> rfl

/-- Whatever the rule one level down comes to, the level is counted up again. -/
theorem after_oneLevelDown (rule : Rule α) {r : Reading} (hlevel : r.level ≠ maxLevel) :
    after (oneLevelDown rule) r =
      let s := after rule { r with level := r.level + 1 }
      { s with level := s.level - 1 } := by
  simp only [after, oneLevelDown, if_neg hlevel]
  cases rule { r with level := r.level + 1 } <;> rfl

/-- On the last level nothing is read. -/
theorem after_oneLevelDown_of_maxLevel (rule : Rule α) {r : Reading} (hlevel : r.level = maxLevel) :
    after (oneLevelDown rule) r = r := by
  simp only [after, oneLevelDown, if_pos hlevel]

private theorem forward_leaveGroup : Forward leaveGroup := by
  intro r
  calc (after leaveGroup r).left
      = { r with groups := r.groups.leave : Reading }.left :=
        congrArg Reading.left (after_leaveGroup r)
    _ ≤ r.left := Nat.le_refl _

theorem forward_advance : Forward advance := by
  rintro ⟨⟨behind, ahead⟩, _, _, _⟩
  cases ahead with
  | nil => exact Nat.le_refl _
  | cons t later => exact Nat.le_succ _

/-- Moving over a token that is not the end mark leaves one token less. -/
theorem left_advance_lt {r : Reading} (h : r.cursor.current ≠ Token.endMark) :
    (after advance r).left < r.left := by
  obtain ⟨⟨behind, ahead⟩, _, _, _⟩ := r
  cases ahead with
  | nil => exact absurd rfl h
  | cons t later => exact Nat.lt_succ_self _

theorem current_of_left_eq_zero {r : Reading} (h : r.left = 0) :
    r.cursor.current = Token.endMark := by
  obtain ⟨⟨behind, ahead⟩, _, _, _⟩ := r
  cases ahead with
  | nil => rfl
  | cons t later => exact absurd h (Nat.succ_ne_zero _)

theorem Forward.oneLevelDown {rule : Rule α} (h : Forward rule) : Forward (oneLevelDown rule) := by
  intro r
  by_cases hlevel : r.level = maxLevel
  · exact Nat.le_of_eq (congrArg Reading.left (after_oneLevelDown_of_maxLevel rule hlevel))
  · rw [after_oneLevelDown rule hlevel]
    exact h { r with level := r.level + 1 }

/-- The rules of the grammar move the cursor forward. -/
theorem closed_forward : Closed Forward where
  pure _ _ := Nat.le_refl _
  throw _ _ := Nat.le_refl _
  bind hf hg :=
    after_bind (R := fun r s => s.left ≤ r.left) (fun hrs hst => Nat.le_trans hst hrs) hf hg
  current _ := Nat.le_refl _
  following _ := Nat.le_refl _
  unread _ := Nat.le_refl _
  advance := forward_advance
  enterGroup _ := Nat.le_refl _
  leaveGroup := forward_leaveGroup
  statementNoted _ := Nat.le_refl _
  factorNoted _ := Nat.le_refl _
  groupNoted _ := Nat.le_refl _
  oneLevelDown hf := hf.oneLevelDown

end Rule

end LineCalc
