import LineCalc.Evaluation
import LineCalc.Rule.Forward

namespace LineCalc

/-- A relation between numbers that every operation keeps. -/
structure Congruent (V : Float → Float → Prop) : Prop where
  refl (v : Float) : V v v
  neg {v w : Float} (h : V v w) : V (-v) (-w)
  operator (op : Operator) {v w v' w' : Float} (hleft : V v w) (hright : V v' w') :
    V (op.apply v v') (op.apply w w')
  builtin (f : Builtin) {v w : Float} (h : V v w) : V (f.apply v) (f.apply w)

/-- With any two values related only the course of a run is compared. -/
theorem congruent_any : Congruent fun _ _ => True :=
  ⟨fun _ => trivial, fun _ => trivial, fun _ _ _ _ _ _ _ => trivial, fun _ _ _ _ => trivial⟩

theorem congruent_eq : Congruent Eq where
  refl _ := rfl
  neg h := congrArg _ h
  operator op _ _ _ _ hleft hright := by rw [hleft, hright]
  builtin f _ _ h := congrArg f.apply h

/-- Two tables bind the same names, to values that are related. -/
def Table.Matches (V : Float → Float → Prop) (left right : Table) : Prop :=
  ∀ name, Option.Rel V (left.get? name) (right.get? name)

/-- The second reading is as far as the first, with more tokens behind it. What was taken note of
may differ. -/
structure Reading.Tracks (more : List Token) (r s : Reading) : Prop where
  cursor : s.cursor = ⟨r.cursor.behind ++ more, r.cursor.ahead⟩
  groups : s.groups = r.groups
  level : s.level = r.level

/-- What a token begins in one table and in the other. -/
inductive Operand.Matches (V : Float → Float → Prop) : Operand → Operand → Prop
  | value {v w : Float} (h : V v w) : Matches V (.value v) (.value w)
  | minus : Matches V .minus .minus
  | group : Matches V .group .group
  | call : Matches V .call .call
  | refused (fault : Fault) : Matches V (.refused fault) (.refused fault)

/-- What a statement comes to in one run and in the other. -/
inductive Statement.Matches (V : Float → Float → Prop) : Statement → Statement → Prop
  | value {v w : Float} (h : V v w) : Matches V (.value v) (.value w)
  | binding (name : Token) {v w : Float} (h : V v w) :
      Matches V (.binding name v) (.binding name w)
  | empty : Matches V .empty .empty

section

variable {V : Float → Float → Prop} {left right : Table} {more : List Token} {r s : Reading}

theorem Table.Matches.contains (h : left.Matches V right) (name : String) :
    left.contains name = right.contains name := by
  have hname := h name
  rw [Table.contains, Table.contains]
  generalize left.get? name = v at hname
  generalize right.get? name = w at hname
  cases hname <;> rfl

theorem Reading.Tracks.current (h : r.Tracks more s) : s.cursor.current = r.cursor.current := by
  rw [h.cursor]
  rfl

theorem Reading.Tracks.following (h : r.Tracks more s) :
    s.cursor.following = r.cursor.following := by
  rw [h.cursor]
  rfl

theorem Reading.Tracks.unread (h : r.Tracks more s) : s.cursor.unread = r.cursor.unread := by
  rw [h.cursor]
  rfl

theorem Reading.Tracks.position (h : r.Tracks more s) :
    s.cursor.position = r.cursor.position + more.length := by
  rw [h.cursor]
  exact List.length_append

private theorem Operand.matches_ofToken (hV : Congruent V) (h : left.Matches V right)
    (token next : Token) : (ofToken left token next).Matches V (ofToken right token next) := by
  unfold ofToken
  cases constant? token with
  | some v => exact .value (hV.refl v)
  | none =>
    by_cases hminus : token = "-"
    · simp only [if_pos hminus]
      exact .minus
    by_cases hgroup : token = "("
    · simp only [if_neg hminus, if_pos hgroup]
      exact .group
    simp only [if_neg hminus, if_neg hgroup]
    cases token.isSymbol with
    | true => exact .refused _
    | false =>
      cases token.startsNumeral with
      | true =>
        cases Number.read? token with
        | some v => exact .value (hV.refl v)
        | none => exact .refused _
      | false =>
        have hname := h token
        generalize left.get? token = v at hname
        generalize right.get? token = w at hname
        cases hname with
        | some hvalue => exact .value hvalue
        | none =>
          cases Builtin.isName token || next == "(" with
          | true => exact .call
          | false => exact .refused _

private theorem beginsExpression_eq_of_matches (h : left.Matches V right) (token next : Token) :
    beginsExpression left token next = beginsExpression right token next := by
  rw [beginsExpression, beginsExpression, h.contains]

end

namespace Rule

/-- What two rules come to: related values or the same fault, in readings that are as far. -/
inductive Agree {α β : Type} (V : α → β → Prop) (more : List Token) :
    EStateM.Result Fault Reading α → EStateM.Result Fault Reading β → Prop
  | ok {a : α} {b : β} {r s : Reading} (hvalue : V a b) (hr : r.Tracks more s) :
      Agree V more (.ok a r) (.ok b s)
  | error {fault : Fault} {r s : Reading} (hr : r.Tracks more s) :
      Agree V more (.error fault r) (.error fault s)

/-- A rule does the same as another, from readings that are as far. -/
def Tracks {α β : Type} (V : α → β → Prop) (more : List Token) (f : Rule α) (g : Rule β) : Prop :=
  ∀ r s, r.Tracks more s → Agree V more (f r) (g s)

variable {α β γ δ : Type} {more : List Token}

theorem tracks_pure {V : α → β → Prop} {a : α} {b : β} (h : V a b) :
    Tracks V more (pure a) (pure b) :=
  fun _ _ hr => .ok h hr

theorem tracks_throw {V : α → β → Prop} (fault : Fault) :
    Tracks V more (throw fault) (throw fault) :=
  fun _ _ hr => .error hr

theorem Tracks.bind {V : α → β → Prop} {W : γ → δ → Prop} {f : Rule α} {g : Rule β}
    {k : α → Rule γ} {l : β → Rule δ} (h : Tracks V more f g)
    (hrest : ∀ a b, V a b → Tracks W more (k a) (l b)) :
    Tracks W more (f >>= k) (g >>= l) := by
  intro r s hr
  have hagree := h r s hr
  rw [bind_apply, bind_apply]
  generalize f r = x at hagree
  generalize g s = y at hagree
  cases hagree with
  | ok hvalue hr => exact hrest _ _ hvalue _ _ hr
  | error hr => exact .error hr

/-- What both runs see alike can be taken for one thing. -/
theorem Tracks.bind_eq {W : γ → δ → Prop} {f g : Rule α} {k : α → Rule γ} {l : α → Rule δ}
    (h : Tracks Eq more f g) (hrest : ∀ a, Tracks W more (k a) (l a)) :
    Tracks W more (f >>= k) (g >>= l) := by
  refine h.bind fun a b hab => ?_
  subst hab
  exact hrest a

theorem tracks_current : Tracks Eq more current current :=
  fun _ _ hr => .ok hr.current.symm hr

private theorem tracks_following : Tracks Eq more following following :=
  fun _ _ hr => .ok hr.following.symm hr

private theorem tracks_unread : Tracks Eq more unread unread :=
  fun _ _ hr => .ok hr.unread.symm hr

theorem tracks_record (event event' : Reading → Event) :
    Tracks Eq more (record event) (record event') :=
  fun _ _ hr => .ok rfl ⟨hr.cursor, hr.groups, hr.level⟩

theorem tracks_advance : Tracks Eq more advance advance := by
  intro r s hr
  refine .ok rfl ⟨?_, hr.groups, hr.level⟩
  simp only [hr.cursor, Cursor.advance]
  cases hahead : r.cursor.ahead with
  | nil => simp only [hahead]
  | cons t later => rfl

private theorem tracks_enterGroup : Tracks Eq more enterGroup enterGroup :=
  fun _ _ hr => .ok rfl ⟨hr.cursor, congrArg Groups.enter hr.groups, hr.level⟩

private theorem tracks_leaveGroup : Tracks Eq more leaveGroup leaveGroup := by
  intro r s hr
  have hleft : Reading.Tracks more { r with groups := r.groups.leave }
      { s with groups := s.groups.leave } :=
    ⟨hr.cursor, congrArg Groups.leave hr.groups, hr.level⟩
  simp only [leaveGroup]
  rw [show s.groups.canLeave = r.groups.canLeave from congrArg Groups.canLeave hr.groups]
  cases r.groups.canLeave with
  | true => exact .ok rfl hleft
  | false => exact .error hleft

theorem Tracks.oneLevelDown {V : α → β → Prop} {f : Rule α} {g : Rule β}
    (h : Tracks V more f g) : Tracks V more (oneLevelDown f) (oneLevelDown g) := by
  intro r s hr
  have hdown : Reading.Tracks more { r with level := r.level + 1 }
      { s with level := s.level + 1 } :=
    ⟨hr.cursor, hr.groups, congrArg (· + 1) hr.level⟩
  have hup {r s : Reading} (hr : r.Tracks more s) :
      Reading.Tracks more { r with level := r.level - 1 } { s with level := s.level - 1 } :=
    ⟨hr.cursor, hr.groups, congrArg (· - 1) hr.level⟩
  have hagree := h _ _ hdown
  rw [Rule.oneLevelDown, Rule.oneLevelDown]
  by_cases hlevel : r.level = maxLevel
  · rw [if_pos hlevel, if_pos (hr.level.trans hlevel)]
    exact .error hr
  · have hlevel' : s.level ≠ maxLevel := hr.level ▸ hlevel
    rw [if_neg hlevel, if_neg hlevel']
    generalize f { r with level := r.level + 1 } = x at hagree
    generalize g { s with level := s.level + 1 } = y at hagree
    cases hagree with
    | ok hvalue hr => exact .ok hvalue (hup hr)
    | error hr => exact .error (hup hr)

variable {V : Float → Float → Prop} {left right : Table} {f g : Rule Float}

theorem Tracks.joinWithin (hV : Congruent V) (wanted : Operator → Bool) (h : Tracks V more f g)
    (bound : List Token) {v w : Float} (hvalue : V v w) :
    Tracks V more (joinWithin wanted f bound v) (joinWithin wanted g bound w) := by
  induction bound generalizing v w with
  | nil => exact tracks_pure hvalue
  | cons t later ih =>
    refine tracks_current.bind_eq fun token => ?_
    cases (Operator.ofToken? token).filter wanted with
    | none => exact tracks_pure hvalue
    | some op =>
      exact tracks_advance.bind_eq fun _ => h.bind fun _ _ hright =>
        ih (hV.operator op hvalue hright)

theorem Tracks.chain (hV : Congruent V) (wanted : Operator → Bool) (h : Tracks V more f g) :
    Tracks V more (chain wanted f) (chain wanted g) :=
  h.bind fun _ _ hfirst => tracks_unread.bind_eq fun bound => h.joinWithin hV wanted bound hfirst

private theorem tracks_closeGroup : Tracks Eq more closeGroup closeGroup := by
  refine tracks_current.bind_eq fun token => ?_
  split
  · exact tracks_advance.bind_eq fun _ => tracks_leaveGroup.bind_eq fun _ => tracks_record _ _
  · exact tracks_pure rfl

theorem Tracks.expressionOver (hV : Congruent V) (h : Tracks V more f g) :
    Tracks V more (expressionOver f) (expressionOver g) :=
  ((h.chain hV _).chain hV _).bind fun _ _ hvalue =>
    tracks_closeGroup.bind_eq fun _ => tracks_pure hvalue

private theorem tracks_applyNamed (hV : Congruent V) (name : Token) {v w : Float} (hvalue : V v w) :
    Tracks V more (applyNamed name v) (applyNamed name w) := by
  simp only [applyNamed]
  cases Builtin.ofName? name with
  | some f => exact tracks_pure (hV.builtin f hvalue)
  | none => exact tracks_throw _

theorem Tracks.callOver (hV : Congruent V) (h : Tracks V more f g) (name : Token) :
    Tracks V more (callOver f name) (callOver g name) := by
  refine tracks_current.bind_eq fun token => ?_
  split
  · exact tracks_advance.bind_eq fun _ => tracks_enterGroup.bind_eq fun _ =>
      (h.expressionOver hV).bind fun _ _ hvalue => tracks_applyNamed hV name hvalue
  · exact tracks_throw _

theorem Tracks.operandOver (hV : Congruent V) (h : Tracks V more f g) (token : Token)
    {a b : Operand} (hoperand : a.Matches V b) :
    Tracks V more (operandOver f token a) (operandOver g token b) := by
  cases hoperand with
  | value hvalue => exact tracks_advance.bind_eq fun _ => tracks_pure hvalue
  | minus =>
    exact tracks_advance.bind_eq fun _ => h.bind fun _ _ hvalue => tracks_pure (hV.neg hvalue)
  | group =>
    exact tracks_advance.bind_eq fun _ => tracks_enterGroup.bind_eq fun _ => h.expressionOver hV
  | call => exact tracks_advance.bind_eq fun _ => h.callOver hV token
  | refused fault => exact tracks_throw fault

theorem Tracks.factorOver (hV : Congruent V) (htable : left.Matches V right)
    (h : Tracks V more f g) : Tracks V more (factorOver left f) (factorOver right g) :=
  (tracks_record _ _).bind_eq fun _ => tracks_current.bind_eq fun token =>
    tracks_following.bind_eq fun next =>
      h.operandOver hV token (Operand.matches_ofToken hV htable token next)

private theorem tracks_factorWithin (hV : Congruent V) (htable : left.Matches V right)
    (bound : List Token) :
    Tracks V more (factorWithin left bound) (factorWithin right bound) := by
  induction bound with
  | nil => exact ((tracks_throw _).factorOver hV htable).oneLevelDown
  | cons t later ih => exact (ih.factorOver hV htable).oneLevelDown

/-- An expression does the same in both runs. -/
theorem tracks_expression (hV : Congruent V) (htable : left.Matches V right) :
    Tracks V more (expression left) (expression right) :=
  Tracks.expressionOver hV <|
    tracks_unread.bind_eq fun bound => tracks_factorWithin hV htable bound

/-- A statement does the same in both runs. -/
theorem tracks_statement (hV : Congruent V) (htable : left.Matches V right) :
    Tracks (Statement.Matches V) more (statement left) (statement right) := by
  refine tracks_current.bind_eq fun token => tracks_following.bind_eq fun next =>
    (tracks_record _ _).bind_eq fun _ => ?_
  rw [beginsExpression_eq_of_matches htable]
  split
  · exact tracks_advance.bind_eq fun _ => tracks_advance.bind_eq fun _ =>
      (tracks_expression hV htable).bind fun _ _ hvalue => tracks_pure (.binding token hvalue)
  · split
    · exact (tracks_expression hV htable).bind fun _ _ hvalue => tracks_pure (.value hvalue)
    · exact tracks_pure .empty

end Rule

/-- Tables that bind the same names show the same faults at the end of a statement. -/
theorem Reading.Tracks.remainingFault?_eq {left right : Table} {more : List Token} {r s : Reading}
    (h : r.Tracks more s) (hnames : ∀ name, left.contains name = right.contains name) :
    remainingFault? right s = remainingFault? left r := by
  have hend : s.cursor.atEnd = r.cursor.atEnd := by
    rw [h.cursor]
    rfl
  rw [remainingFault?, remainingFault?, h.groups, h.current, hend, hnames]

end LineCalc
