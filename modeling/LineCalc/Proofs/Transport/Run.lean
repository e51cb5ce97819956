import LineCalc.Proofs.Diagnosis.Refusal
import LineCalc.Proofs.Transport.Renaming

namespace LineCalc

section

variable (ρ : Renaming) (m : Cursor → Cursor)

/-- The event with its tokens renamed, at the cursor that it is moved to. -/
def Event.carry : Event → Event
  | tokenized tokens => tokenized (tokens.map ρ)
  | statement cursor => statement (m cursor)
  | factor cursor level => factor (m cursor) level
  | groupClosed opened => groupClosed opened
  | binding name value => binding (ρ name) value
  | notFinite line value => notFinite line value
  | failed position fault => failed position (fault.rename ρ)

/-- The reading at the cursor that it is moved to. -/
def Reading.carry (r : Reading) : Reading :=
  ⟨m r.cursor, r.groups, r.level, r.events.map (Event.carry ρ m)⟩

/-- The opening with its name renamed. -/
def Opening.rename : Opening → Opening
  | none => none
  | target name => target (ρ name)

/-- The statement with the name that it binds renamed. -/
def Statement.rename : Statement → Statement
  | .value v => .value v
  | .binding name v => .binding (ρ name) v
  | .empty => .empty

@[simp] theorem Event.carry_refl (e : Event) : e.carry .refl id = e := by
  cases e with
  | tokenized tokens => exact congrArg tokenized (List.map_id'' (fun _ => rfl) tokens)
  | failed position fault => exact congrArg (failed position) fault.rename_refl
  | _ => rfl

@[simp] theorem Reading.carry_refl (r : Reading) : r.carry .refl id = r :=
  congrArg (Reading.mk r.cursor r.groups r.level) (List.map_id'' Event.carry_refl r.events)

@[simp] theorem Statement.rename_refl (s : Statement) : s.rename .refl = s := by
  cases s <;> rfl

namespace Machine

/-- The context with the functions that are to be called renamed. -/
def Context.rename {k : Kind} : Context k → Context k
  | top => top
  | product left outer => product left outer.rename
  | sum left outer => sum left outer.rename
  | minus outer => minus outer.rename
  | group outer => group outer.rename
  | call name outer => call (ρ name) outer.rename

/-- The state with its names renamed, at the cursor that it is moved to. -/
def State.carry : State → State
  | read K r => read (K.rename ρ) (r.carry ρ m)
  | value v K r => value v (K.rename ρ) (r.carry ρ m)
  | finished v K r => finished v (K.rename ρ) (r.carry ρ m)
  | failed fault r => failed (fault.rename ρ) (r.carry ρ m)

end Machine

end

/-- A renaming and a map of cursors carry what one table shows to what another shows, at the
cursors that are seen, which are those to which a run comes. Nothing is asked about what follows the
end mark. -/
structure Carries (ρ : Renaming) (m : Cursor → Cursor) (left right : Table)
    (Seen : Cursor → Prop) : Prop where
  seen_of_advance {c : Cursor} (h : Seen c.advance) : Seen c
  current {c : Cursor} (h : Seen c) : (m c).current = ρ c.current
  get? {c : Cursor} (h : Seen c) : right.get? (ρ c.current) = left.get? c.current
  following {c : Cursor} (h : Seen c) (hmark : c.current ≠ Token.endMark) :
    (m c).following = ρ c.following
  advance {c : Cursor} (h : Seen c) (hmark : c.current ≠ Token.endMark) :
    m c.advance = (m c).advance

theorem Token.isName_endMark : isName endMark = false := by decide +kernel

/-- No statement binds the end mark, whatever follows it. -/
theorem isTarget_endMark (next : Token) : isTarget Token.endMark next = false := by
  rw [isTarget, Token.isName_endMark, Bool.false_and, Bool.false_and]

/-- An expression begins at the end mark only if that is a bound name, whatever follows it. -/
theorem beginsExpression_endMark (table : Table) (next : Token) :
    beginsExpression table Token.endMark next = table.contains Token.endMark := by
  have hnumeral : Token.startsNumeral Token.endMark = false := by decide
  rw [beginsExpression, Token.isName_endMark, hnumeral, Bool.false_and, Bool.or_false]
  rfl

namespace Carries

open Machine

variable {ρ : Renaming} {m : Cursor → Cursor} {left right : Table} {Seen : Cursor → Prop}
  {r : Reading} {c : Cursor}

theorem operator?_eq (h : Carries ρ m left right Seen) (hseen : Seen r.cursor)
    (wanted : Operator → Bool) : (r.carry ρ m).operator? wanted = r.operator? wanted := by
  rw [Reading.operator?, Reading.operator?, Reading.carry, h.current hseen,
    Renaming.ofToken?_apply]

private theorem operand_eq (h : Carries ρ m left right Seen) (hseen : Seen r.cursor) :
    (r.carry ρ m).operand right = (r.operand left).rename ρ := by
  have hcurrent : (m r.cursor).current = ρ r.cursor.current := h.current hseen
  rw [Reading.operand, Reading.operand, Reading.carry, hcurrent]
  by_cases hmark : r.cursor.current = Token.endMark
  · simp [hmark, Rule.ofToken_endMark, Operand.rename, Fault.rename]
  · rw [h.following hseen hmark, Operand.ofToken_apply (h.get? hseen)]

theorem isTarget_eq (h : Carries ρ m left right Seen) (hseen : Seen c) :
    isTarget (m c).current (m c).following = isTarget c.current c.following := by
  rw [h.current hseen]
  by_cases hmark : c.current = Token.endMark
  · rw [hmark, ρ.apply_endMark, isTarget_endMark, isTarget_endMark]
  · rw [h.following hseen hmark, ρ.isTarget_apply]

theorem beginsExpression_eq (h : Carries ρ m left right Seen) (hseen : Seen c) :
    beginsExpression right (m c).current (m c).following =
      beginsExpression left c.current c.following := by
  have hget := h.get? hseen
  rw [h.current hseen]
  by_cases hmark : c.current = Token.endMark
  · rw [hmark, ρ.apply_endMark, beginsExpression_endMark, beginsExpression_endMark]
    rw [hmark, ρ.apply_endMark] at hget
    rw [Table.contains, Table.contains, hget]
  · rw [h.following hseen hmark, beginsExpression_apply hget]

/-- What remains is the same, if the end is reached alike wherever no group is open. -/
theorem remainingFault?_eq (h : Carries ρ m left right Seen) (hseen : Seen r.cursor)
    (hend : r.groups.balanced = true → (m r.cursor).atEnd = r.cursor.atEnd) :
    remainingFault? right (r.carry ρ m) = (remainingFault? left r).map (·.rename ρ) := by
  have hcurrent : (m r.cursor).current = ρ r.cursor.current := h.current hseen
  rw [remainingFault?, remainingFault?]
  simp only [Reading.carry, hcurrent, ρ.isName_apply, contains_apply (h.get? hseen)]
  cases hbalanced : r.groups.balanced with
  | false => rfl
  | true =>
    rw [hend hbalanced]
    simp only [Bool.not_true, Bool.false_eq_true, if_false]
    split
    · rfl
    · split <;> rfl

theorem current_eq_iff (h : Carries ρ m left right Seen) (hseen : Seen c) {s : Token}
    (hs : s.isSymbol = true) : (m c).current = s ↔ c.current = s := by
  rw [h.current hseen, ρ.apply_eq_iff_of_isSymbol hs]

/-- A token that is not the end mark is read. -/
theorem reading_advance (h : Carries ρ m left right Seen) (hseen : Seen r.cursor)
    (hmark : r.cursor.current ≠ Token.endMark) :
    r.advance.carry ρ m = (r.carry ρ m).advance := by
  simp only [Reading.carry, Reading.advance, h.advance hseen hmark]

/-- An operator is read. -/
theorem advance_of_operator? (h : Carries ρ m left right Seen) (hseen : Seen r.cursor)
    {wanted : Operator → Bool} {op : Operator} (hop : r.operator? wanted = some op) :
    (r.carry ρ m).operator? wanted = some op ∧ r.advance.carry ρ m = (r.carry ρ m).advance := by
  refine ⟨(h.operator?_eq hseen wanted).trans hop, h.reading_advance hseen fun hmark => ?_⟩
  rw [Reading.operator?, hmark] at hop
  cases hop

/-- The first token of an operand is read. -/
theorem advance_of_operand (h : Carries ρ m left right Seen) (hseen : Seen r.cursor)
    {operand : Operand} (hoperand : r.operand left = operand)
    (hfault : operand ≠ .refused (.operandExpected Token.endMark)) :
    (r.carry ρ m).operand right = operand.rename ρ ∧
      r.begin.advance.carry ρ m = (r.carry ρ m).begin.advance :=
  ⟨(h.operand_eq hseen).trans (congrArg (·.rename ρ) hoperand),
    h.reading_advance (r := r.begin) hseen (current_ne_endMark_of_operand hoperand hfault)⟩

/-- A closing parenthesis is read. -/
theorem advance_of_close (h : Carries ρ m left right Seen) (hseen : Seen r.cursor)
    (hclose : r.cursor.current = ")") :
    (r.carry ρ m).cursor.current = ")" ∧ r.advance.carry ρ m = (r.carry ρ m).advance := by
  refine ⟨(h.current_eq_iff hseen (by decide)).2 hclose, h.reading_advance hseen ?_⟩
  rw [hclose]
  decide

end Carries

namespace Machine

variable {ρ : Renaming} {m : Cursor → Cursor} {left right : Table} {Seen : Cursor → Prop}
  {s t : State}

/-- What is seen after a step was seen before it: the cursor has moved over a token or two at most,
or not at all. -/
theorem Step.seen (h : Carries ρ m left right Seen) (hstep : Step left s t)
    (hseen : Seen t.reading.cursor) : Seen s.reading.cursor := by
  cases hstep with
  | times | plus | atom | minus | group | noArgument | close | stray =>
    exact h.seen_of_advance hseen
  | call => exact h.seen_of_advance (h.seen_of_advance hseen)
  | _ => exact hseen

/-- A step is carried along if it comes to a place that is seen. -/
theorem Step.carry (h : Carries ρ m left right Seen) (hstep : Step left s t)
    (hseen : Seen t.reading.cursor) : Step right (s.carry ρ m) (t.carry ρ m) := by
  have hseen' : Seen s.reading.cursor := hstep.seen h hseen
  cases hstep with
  | expression => exact .expression
  | term => exact .term
  | tooDeep hlevel => exact .tooDeep hlevel
  | @atom K r v hlevel hoperand =>
    obtain ⟨hoperand', hadvance⟩ := h.advance_of_operand hseen' hoperand nofun
    have hback : r.begin.advance.back.carry ρ m = (r.carry ρ m).begin.advance.back :=
      congrArg Reading.back hadvance
    rw [State.carry, State.carry, hback]
    exact .atom hlevel hoperand'
  | @minus K r hlevel hoperand =>
    obtain ⟨hoperand', hadvance⟩ := h.advance_of_operand (r := r) hseen' hoperand nofun
    rw [State.carry, State.carry, hadvance]
    exact .minus hlevel hoperand'
  | @group K r hlevel hoperand =>
    obtain ⟨hoperand', hadvance⟩ := h.advance_of_operand hseen' hoperand nofun
    have henter : r.begin.advance.enter.carry ρ m = (r.carry ρ m).begin.advance.enter :=
      congrArg Reading.enter hadvance
    rw [State.carry, State.carry, henter]
    exact .group hlevel hoperand'
  | @call K r hlevel hoperand hnext =>
    have hseenName : Seen r.advance.cursor := h.seen_of_advance hseen
    obtain ⟨hoperand', hadvance⟩ := h.advance_of_operand (r := r) hseen' hoperand nofun
    have hname : (r.carry ρ m).cursor.current = ρ r.cursor.current := h.current hseen'
    have hnext' : (r.carry ρ m).begin.advance.cursor.current = "(" := by
      rw [← hadvance]
      exact (h.current_eq_iff hseenName (by decide)).2 hnext
    have hparen : r.begin.advance.advance.carry ρ m = (r.carry ρ m).begin.advance.advance := by
      have hmark : r.advance.cursor.current ≠ Token.endMark := by
        rw [hnext]
        decide
      rw [← hadvance]
      exact h.reading_advance (r := r.begin.advance) hseenName hmark
    have henter : r.begin.advance.advance.enter.carry ρ m =
        (r.carry ρ m).begin.advance.advance.enter := congrArg Reading.enter hparen
    rw [State.carry, State.carry, henter, Context.rename, ← hname]
    exact .call hlevel hoperand' hnext'
  | @noArgument K r hlevel hoperand hnext =>
    obtain ⟨hoperand', hadvance⟩ := h.advance_of_operand (r := r) hseen' hoperand nofun
    have hname : (r.carry ρ m).cursor.current = ρ r.cursor.current := h.current hseen'
    have hnext' : (r.carry ρ m).begin.advance.cursor.current ≠ "(" := by
      rw [← hadvance]
      exact fun hparen => hnext ((h.current_eq_iff hseen (by decide)).1 hparen)
    rw [State.carry, State.carry, hadvance, Fault.rename, ← hname]
    exact .noArgument hlevel hoperand' hnext'
  | refused hlevel hoperand =>
    exact .refused hlevel ((h.operand_eq hseen').trans (congrArg (·.rename ρ) hoperand))
  | negate => exact .negate
  | joinFactor => exact .joinFactor
  | @times K r v op hop =>
    obtain ⟨hop', hadvance⟩ := h.advance_of_operator? (r := r) hseen' hop
    rw [State.carry, State.carry, hadvance]
    exact .times hop'
  | joinTerm hop => exact .joinTerm ((h.operator?_eq hseen _).trans hop)
  | @plus K r v op hop =>
    obtain ⟨hop', hadvance⟩ := h.advance_of_operator? (r := r) hseen' hop
    rw [State.carry, State.carry, hadvance]
    exact .plus hop'
  | stop hop hclose =>
    exact .stop ((h.operator?_eq hseen _).trans hop) fun hclose' =>
      hclose ((h.current_eq_iff hseen (by decide)).1 hclose')
  | @close K r v hclose hgroups =>
    obtain ⟨hclose', hadvance⟩ := h.advance_of_close hseen' hclose
    have hclosed : r.advance.leave.closed.carry ρ m = (r.carry ρ m).advance.leave.closed :=
      congrArg (fun r => r.leave.closed) hadvance
    rw [State.carry, State.carry, hclosed]
    exact .close hclose' hgroups
  | @stray K r v hclose hgroups =>
    obtain ⟨hclose', hadvance⟩ := h.advance_of_close hseen' hclose
    have hleft : r.advance.leave.carry ρ m = (r.carry ρ m).advance.leave :=
      congrArg Reading.leave hadvance
    rw [State.carry, State.carry, hleft]
    exact .stray hclose' hgroups
  | groupEnd => exact .groupEnd
  | apply hname => exact .apply ((ρ.ofName?_apply _).trans hname)
  | unknown hname => exact .unknown ((ρ.ofName?_apply _).trans hname)

/-- A run is carried along if it comes to a place that is seen, and the place where it begins is
then seen too. -/
theorem Steps.carry (h : Carries ρ m left right Seen) (hsteps : Steps left s t)
    (hseen : Seen t.reading.cursor) :
    Seen s.reading.cursor ∧ Steps right (s.carry ρ m) (t.carry ρ m) := by
  induction hsteps with
  | refl => exact ⟨hseen, .refl⟩
  | tail _ hstep ih =>
    obtain ⟨hseenStart, hbefore⟩ := ih (hstep.seen h hseen)
    exact ⟨hseenStart, hbefore.tail (hstep.carry h hseen)⟩

end Machine

end LineCalc
