import LineCalc.Proofs.Progress.Position

namespace LineCalc

open Machine

namespace Reading

/-- How a rule leaves a reading: on the same level, and with the factors that have begun since on
levels from there to the last. -/
structure Restored (r s : Reading) : Prop where
  level : s.level = r.level
  factors : ∃ since, s.events = since ++ r.events ∧
    ∀ c level, Event.factor c level ∈ since → r.level ≤ level ∧ level ≤ maxLevel

/-- The tokens are read on with the same groups open, but nothing else is kept. -/
def anew (r : Reading) : Reading := { start r.cursor with groups := r.groups }

/-- The reading with a log from before. -/
def loggedAfter (earlier : List Event) (r : Reading) : Reading :=
  { r with events := r.events ++ earlier }

namespace Restored

variable {r s t : Reading}

/-- Nothing has been taken down. -/
theorem of_events_eq (hlevel : s.level = r.level) (hevents : s.events = r.events) : r.Restored s :=
  ⟨hlevel, [], hevents, nofun⟩

theorem refl (r : Reading) : r.Restored r := of_events_eq rfl rfl

/-- One event has been taken down, which tells of no factor or of one on an allowed level. -/
theorem of_event {e : Event}
    (h : ∀ c level, e = .factor c level → r.level ≤ level ∧ level ≤ maxLevel) :
    r.Restored { r with events := e :: r.events } := by
  refine ⟨rfl, [e], rfl, fun c level hmem => ?_⟩
  exact h c level (List.mem_singleton.1 hmem).symm

theorem trans (hrs : r.Restored s) (hst : s.Restored t) : r.Restored t := by
  obtain ⟨hs, first, hfirst, hwithin⟩ := hrs
  obtain ⟨ht, second, hsecond, hwithin'⟩ := hst
  refine ⟨ht.trans hs, second ++ first, ?_, fun c level hmem => ?_⟩
  · rw [hsecond, hfirst, List.append_assoc]
  · obtain hmem | hmem := List.mem_append.1 hmem
    · exact hs ▸ hwithin' c level hmem
    · exact hwithin c level hmem

/-- What happens one level down is within the levels seen from above. -/
theorem up (h : { r with level := r.level + 1 }.Restored s) :
    r.Restored { s with level := s.level - 1 } := by
  obtain ⟨hs, since, hsince, hwithin⟩ := h
  refine ⟨?_, since, hsince, fun c level hmem => ?_⟩
  · exact (congrArg (· - 1) hs).trans (Nat.add_sub_cancel ..)
  · obtain ⟨hle, hlast⟩ := hwithin c level hmem
    exact ⟨(Nat.le_succ _).trans hle, hlast⟩

end Restored

end Reading

namespace Rule

variable {α : Type}

/-- A rule that comes back to its level, whatever it comes to. -/
def Restores (rule : Rule α) : Prop :=
  ∀ r : Reading, r.level ≤ maxLevel → r.Restored (after rule r)

theorem Restores.oneLevelDown {rule : Rule α} (h : Restores rule) :
    Restores (oneLevelDown rule) := by
  intro r hr
  by_cases hlevel : r.level = maxLevel
  · rw [after_oneLevelDown_of_maxLevel rule hlevel]
    exact .refl r
  · rw [after_oneLevelDown rule hlevel]
    exact (h { r with level := r.level + 1 } (Nat.lt_of_le_of_ne hr hlevel)).up

private theorem restores_leaveGroup : Restores leaveGroup := by
  intro r _
  rw [after_leaveGroup]
  exact .of_events_eq rfl rfl

/-- The rules of the grammar come back to their level. -/
theorem closed_restores : Closed Restores where
  pure _ r _ := .refl r
  throw _ r _ := .refl r
  bind hf hg :=
    after_bind (R := fun r s => r.level ≤ maxLevel → r.Restored s)
      (fun hrs hst hr => (hrs hr).trans (hst ((hrs hr).level ▸ hr))) hf hg
  current r _ := .refl r
  following r _ := .refl r
  unread r _ := .refl r
  advance _ _ := .of_events_eq rfl rfl
  enterGroup _ _ := .of_events_eq rfl rfl
  leaveGroup := restores_leaveGroup
  statementNoted _ _ := .of_event nofun
  factorNoted r hr := .of_event fun _ _ h => by cases h; exact ⟨le_rfl, hr⟩
  groupNoted _ _ := .of_event nofun
  oneLevelDown hf := hf.oneLevelDown

/-- What a rule comes to, with a log from before. -/
def loggedAfter (earlier : List Event) :
    EStateM.Result Fault Reading α → EStateM.Result Fault Reading α
  | .ok a r => .ok a (r.loggedAfter earlier)
  | .error fault r => .error fault (r.loggedAfter earlier)

/-- A rule that does the same whatever the log holds. -/
def IgnoresLog (rule : Rule α) : Prop :=
  ∀ earlier r, rule (r.loggedAfter earlier) = loggedAfter earlier (rule r)

theorem IgnoresLog.bind {β : Type} {f : Rule α} {g : α → Rule β} (hf : IgnoresLog f)
    (hg : ∀ a, IgnoresLog (g a)) : IgnoresLog (f >>= g) := by
  intro earlier r
  rw [bind_apply, bind_apply, hf]
  cases f r with
  | ok a s => exact hg a earlier s
  | error fault s => rfl

private theorem ignoresLog_leaveGroup : IgnoresLog leaveGroup := by
  intro earlier r
  have hgroups : (r.loggedAfter earlier).groups.canLeave = r.groups.canLeave := rfl
  simp only [leaveGroup]
  rw [hgroups]
  cases r.groups.canLeave <;> rfl

theorem IgnoresLog.oneLevelDown {rule : Rule α} (h : IgnoresLog rule) :
    IgnoresLog (oneLevelDown rule) := by
  intro earlier r
  let s := r.loggedAfter earlier
  have hdown : rule { s with level := s.level + 1 } =
      loggedAfter earlier (rule { r with level := r.level + 1 }) :=
    h earlier { r with level := r.level + 1 }
  rw [Rule.oneLevelDown, Rule.oneLevelDown]
  by_cases hlevel : r.level = maxLevel
  · have hlevel' : s.level = maxLevel := hlevel
    rw [if_pos hlevel, if_pos hlevel']
    rfl
  · have hlevel' : s.level ≠ maxLevel := hlevel
    rw [if_neg hlevel, if_neg hlevel', hdown]
    cases rule { r with level := r.level + 1 } <;> rfl

/-- The rules of the grammar write the log and never read it. -/
theorem closed_ignoresLog : Closed IgnoresLog where
  pure _ _ _ := rfl
  throw _ _ _ := rfl
  bind hf hg := hf.bind hg
  current _ _ := rfl
  following _ _ := rfl
  unread _ _ := rfl
  advance _ _ := rfl
  enterGroup _ _ := rfl
  leaveGroup := ignoresLog_leaveGroup
  statementNoted _ _ := rfl
  factorNoted _ _ := rfl
  groupNoted _ _ := rfl
  oneLevelDown hf := hf.oneLevelDown

end Rule

namespace Machine

variable {table : Table} {s t : State}

/-- The step lemma. A factor begins only where there is a level left. -/
theorem Step.level_le (hs : s.reading.level ≤ maxLevel) (h : Step table s t) :
    t.reading.level ≤ maxLevel := by
  cases h with
  | minus hlevel | group hlevel | call hlevel | noArgument hlevel | refused hlevel =>
    exact Nat.lt_of_le_of_ne hs hlevel
  | negate | groupEnd | apply => exact (Nat.sub_le ..).trans hs
  | _ => exact hs

/-- The run lemma. -/
theorem Steps.level_le (h : Steps table s t) (hs : s.reading.level ≤ maxLevel) :
    t.reading.level ≤ maxLevel :=
  h.keep Step.level_le hs

end Machine

/-- On the first level nothing but the log tells a reading from a new one at the same place. -/
theorem Reading.loggedAfter_anew {r : Reading} (h : r.level = 0) :
    r.anew.loggedAfter r.events = r := by
  obtain ⟨cursor, groups, level, events⟩ := r
  obtain rfl : level = 0 := h
  rfl

private theorem level_after_statements (table : Table) (r : Reading) (n : ℕ) :
    ((Rule.after (Rule.statement table))^[n] r.anew).level = 0 := by
  induction n with
  | zero => rfl
  | succ n ih =>
    rw [Function.iterate_succ_apply']
    have hrestored := Rule.closed_restores.statement table _ (ih.trans_le (Nat.zero_le _))
    exact hrestored.level.trans ih

/-- Whatever a rule is called on and whatever it comes to, it ends on the level on which it began.
On the way no factor begins beyond level 256, and no state of the machine is deeper. So the
statement rule may be called again and again on one reading, whether the calls before were refused
or not: each comes to what it would come to on a new reading at the same place with the same groups
open, and adds the same to the log. -/
theorem level_restored (table : Table) (r : Reading) (hlevel : r.level ≤ 256) :
    (r.Restored (Rule.after (Rule.factor table) r) ∧
      r.Restored (Rule.after (Rule.term table) r) ∧
      r.Restored (Rule.after (Rule.expression table) r) ∧
      (∀ name, r.Restored (Rule.after (Rule.callOver (Rule.factor table) name) r)) ∧
      r.Restored (Rule.after (Rule.statement table) r)) ∧
    (∀ (k : Kind) (K : Context k) (s : State),
      Steps table (.read K r) s → s.reading.level ≤ 256) ∧
    ∀ n : ℕ, let again := (Rule.after (Rule.statement table))^[n] r.anew
      again.level = 0 ∧
        Rule.statement table again =
          Rule.loggedAfter again.events (Rule.statement table again.anew) := by
  have hrestores := Rule.closed_restores
  refine ⟨⟨hrestores.factor table r hlevel, hrestores.term table r hlevel,
    hrestores.expression table r hlevel, fun name => hrestores.call table name r hlevel,
    hrestores.statement table r hlevel⟩, fun k K s hsteps => hsteps.level_le hlevel, fun n => ?_⟩
  intro again
  have hagain : again.level = 0 := level_after_statements table r n
  have hlog := Rule.closed_ignoresLog.statement table again.events again.anew
  rw [Reading.loggedAfter_anew hagain] at hlog
  exact ⟨hagain, hlog⟩

/-- With too many signs a statement is refused on the last level, and the next call reads on from
there. A factor that begins on the last level but one is refused after one sign, and is back. -/
theorem level_restored_too_deep :
    let r := Reading.start (.start (List.replicate 257 "-" ++ ["pi"]))
    let deep : Reading := { r with level := 255 }
    let K : Context .factor := .product none (.sum none .top)
    let again := Rule.after (Rule.statement .empty) r.anew
    deep.level ≤ 256 ∧ (Rule.after (Rule.factor .empty) deep).cursor.position = 1 ∧
      (Rule.after (Rule.factor .empty) deep).level = 255 ∧
      Steps .empty (.read K deep) (.read (.minus K) deep.begin.advance) ∧
      deep.begin.advance.level ≤ 256 ∧
      (evaluate .empty r.cursor).outcome = .refused (.tooDeep 256) ∧ again.level = 0 ∧
      Rule.statement .empty again =
        Rule.loggedAfter again.events (Rule.statement .empty again.anew) ∧
      (Rule.statement .empty).value? again = some (.value (-pi)) := by
  intro r deep K again
  have hdeep : deep.level ≤ 256 := by decide
  have hsteps : Steps .empty (.read K deep) (.read (.minus K) deep.begin.advance) :=
    .single (.minus (by decide) (by decide +kernel))
  obtain ⟨⟨hfactor, -⟩, hwithin, -⟩ := level_restored .empty deep hdeep
  obtain ⟨-, -, hcalls⟩ := level_restored .empty r (by decide)
  obtain ⟨hagain, hsame⟩ := hcalls 1
  exact ⟨hdeep, by decide +kernel, hfactor.level, hsteps, hwithin _ K _ hsteps, by decide +kernel,
    hagain, hsame, by decide +kernel⟩

end LineCalc
