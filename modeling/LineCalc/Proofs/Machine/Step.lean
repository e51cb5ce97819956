import Mathlib.Logic.Relation
import LineCalc.Proofs.Grammar.Phrase

namespace LineCalc

namespace Reading

/-- A factor begins: it is one level down, and is taken note of. -/
def begin (r : Reading) : Reading :=
  { r with level := r.level + 1, events := .factor r.cursor (r.level + 1) :: r.events }

/-- The token at the cursor has been read. -/
def advance (r : Reading) : Reading := { r with cursor := r.cursor.advance }

/-- A group is entered. -/
def enter (r : Reading) : Reading := { r with groups := r.groups.enter }

/-- A group is left, if there is one. -/
def leave (r : Reading) : Reading := { r with groups := r.groups.leave }

/-- A group has been left, which is taken note of. -/
def closed (r : Reading) : Reading := { r with events := .groupClosed r.groups.opened :: r.events }

/-- A factor has ended. -/
def back (r : Reading) : Reading := { r with level := r.level - 1 }

/-- The operator of a precedence at the cursor. -/
def operator? (r : Reading) (wanted : Operator → Bool) : Option Operator :=
  (Operator.ofToken? r.cursor.current).filter wanted

/-- What begins at the cursor. -/
def operand (r : Reading) (table : Table) : Operand :=
  Operand.ofToken table r.cursor.current r.cursor.following

end Reading

namespace Machine

/-- What a rule has still to do when it calls another, the innermost first. A product or a sum that
is under way keeps its value and the operator after it. -/
inductive Context : Kind → Type where
  | top : Context .expression
  | product (left : Option (Float × Operator)) (outer : Context .term) : Context .factor
  | sum (left : Option (Float × Operator)) (outer : Context .expression) : Context .term
  | minus (outer : Context .factor) : Context .factor
  | group (outer : Context .factor) : Context .expression
  | call (name : Token) (outer : Context .factor) : Context .expression

/-- A value on the right of what is under way, if anything is. -/
def join (left : Option (Float × Operator)) (right : Float) : Float :=
  match left with
  | none => right
  | some (value, op) => op.apply value right

/-- A state of the machine. A term or an expression that has a value may still go on with one more
operand; an expression that is finished may not. -/
inductive State where
  | read {k : Kind} (context : Context k) (r : Reading)
  | value {k : Kind} (value : Float) (context : Context k) (r : Reading)
  | finished (value : Float) (context : Context .expression) (r : Reading)
  | failed (fault : Fault) (r : Reading)

/-- How far a state has read. -/
def State.reading : State → Reading
  | read _ r => r
  | value _ _ r => r
  | finished _ _ r => r
  | failed _ r => r

/-- The steps of the machine. -/
inductive Step (table : Table) : State → State → Prop
  | expression {K : Context .expression} {r : Reading} :
      Step table (.read K r) (.read (.sum none K) r)
  | term {K : Context .term} {r : Reading} :
      Step table (.read K r) (.read (.product none K) r)
  | tooDeep {K : Context .factor} {r : Reading} (hlevel : r.level = maxLevel) :
      Step table (.read K r) (.failed (.tooDeep maxLevel) r)
  | atom {K : Context .factor} {r : Reading} {v : Float} (hlevel : r.level ≠ maxLevel)
      (hoperand : r.operand table = .value v) :
      Step table (.read K r) (.value v K r.begin.advance.back)
  | minus {K : Context .factor} {r : Reading} (hlevel : r.level ≠ maxLevel)
      (hoperand : r.operand table = .minus) :
      Step table (.read K r) (.read (.minus K) r.begin.advance)
  | group {K : Context .factor} {r : Reading} (hlevel : r.level ≠ maxLevel)
      (hoperand : r.operand table = .group) :
      Step table (.read K r) (.read (.group K) r.begin.advance.enter)
  | call {K : Context .factor} {r : Reading} (hlevel : r.level ≠ maxLevel)
      (hoperand : r.operand table = .call) (hnext : r.advance.cursor.current = "(") :
      Step table (.read K r)
        (.read (.call r.cursor.current K) r.begin.advance.advance.enter)
  | noArgument {K : Context .factor} {r : Reading} (hlevel : r.level ≠ maxLevel)
      (hoperand : r.operand table = .call) (hnext : r.advance.cursor.current ≠ "(") :
      Step table (.read K r) (.failed (.argumentExpected r.cursor.current) r.begin.advance)
  | refused {K : Context .factor} {r : Reading} {fault : Fault} (hlevel : r.level ≠ maxLevel)
      (hoperand : r.operand table = .refused fault) :
      Step table (.read K r) (.failed fault r.begin)
  | negate {K : Context .factor} {r : Reading} {v : Float} :
      Step table (.value v (.minus K) r) (.value (-v) K r.back)
  | joinFactor {left : Option (Float × Operator)} {K : Context .term} {r : Reading} {v : Float} :
      Step table (.value v (.product left K) r) (.value (join left v) K r)
  | times {K : Context .term} {r : Reading} {v : Float} {op : Operator}
      (hop : r.operator? Operator.isMultiplicative = some op) :
      Step table (.value v K r) (.read (.product (some (v, op)) K) r.advance)
  | joinTerm {left : Option (Float × Operator)} {K : Context .expression} {r : Reading}
      {v : Float} (hop : r.operator? Operator.isMultiplicative = none) :
      Step table (.value v (.sum left K) r) (.value (join left v) K r)
  | plus {K : Context .expression} {r : Reading} {v : Float} {op : Operator}
      (hop : r.operator? Operator.isAdditive = some op) :
      Step table (.value v K r) (.read (.sum (some (v, op)) K) r.advance)
  | stop {K : Context .expression} {r : Reading} {v : Float}
      (hop : r.operator? Operator.isAdditive = none) (hclose : r.cursor.current ≠ ")") :
      Step table (.value v K r) (.finished v K r)
  | close {K : Context .expression} {r : Reading} {v : Float}
      (hclose : r.cursor.current = ")") (hgroups : r.groups.canLeave = true) :
      Step table (.value v K r) (.finished v K r.advance.leave.closed)
  | stray {K : Context .expression} {r : Reading} {v : Float}
      (hclose : r.cursor.current = ")") (hgroups : r.groups.canLeave = false) :
      Step table (.value v K r) (.failed .unbalanced r.advance.leave)
  | groupEnd {K : Context .factor} {r : Reading} {v : Float} :
      Step table (.finished v (.group K) r) (.value v K r.back)
  | apply {name : Token} {K : Context .factor} {r : Reading} {v : Float} {f : Builtin}
      (hname : Builtin.ofName? name = some f) :
      Step table (.finished v (.call name K) r) (.value (f.apply v) K r.back)
  | unknown {name : Token} {K : Context .factor} {r : Reading} {v : Float}
      (hname : Builtin.ofName? name = none) :
      Step table (.finished v (.call name K) r) (.failed (.unknownFunction name) r)

/-- Any number of steps. -/
abbrev Steps (table : Table) : State → State → Prop := Relation.ReflTransGen (Step table)

variable {table : Table} {s t u : State}

/-- What holds of a state and is kept by each step holds of all states that follow. -/
theorem Steps.keep {P : State → Prop} (hstep : ∀ {s t}, P s → Step table s t → P t)
    (h : Steps table s t) (hs : P s) : P t := by
  induction h with
  | refl => exact hs
  | tail _ hlast ih => exact hstep ih hlast

/-- No operator is a closing parenthesis. -/
theorem operator?_eq_none_of_close {r : Reading} (h : r.cursor.current = ")")
    (wanted : Operator → Bool) : r.operator? wanted = none := by
  simp [Reading.operator?, h, Operator.ofToken?]

/-- The machine has no choice: two rules for one state have conditions that exclude each other. -/
theorem Step.unique (h : Step table s t) (h' : Step table s u) : t = u := by
  -- Most pairs of rules have different states on the left; the others have conditions that clash.
  cases h <;> cases h' <;> simp_all [operator?_eq_none_of_close]

/-- No step goes on from a state. -/
def Halted (table : Table) (s : State) : Prop := ∀ t, ¬ Step table s t

theorem halted_failed (fault : Fault) (r : Reading) : Halted table (.failed fault r) := by
  intro t h
  cases h

theorem halted_finished_top (v : Float) (r : Reading) : Halted table (.finished v .top r) := by
  intro t h
  cases h

private theorem Halted.eq_of_steps (hs : Halted table s) (h : Steps table s t) : t = s := by
  cases h using Relation.ReflTransGen.head_induction_on with
  | refl => rfl
  | head hstep _ => exact absurd hstep (hs _)

/-- A run that halts can halt in one state only. -/
theorem Steps.unique (h : Steps table s t) (h' : Steps table s u) (ht : Halted table t)
    (hu : Halted table u) : t = u := by
  have hunique : Relator.RightUnique (Step table) := fun _ _ _ => Step.unique
  obtain htu | hut := Relation.ReflTransGen.total_of_right_unique hunique h h'
  · exact (ht.eq_of_steps htu).symm
  · exact hu.eq_of_steps hut

/-- The tokens stay as they are; steps only move the cursor among them. -/
theorem Step.tokens_eq (h : Step table s t) :
    t.reading.cursor.tokens = s.reading.cursor.tokens := by
  cases h with
  | times | plus | atom | minus | group | noArgument | close | stray =>
    exact Cursor.tokens_advance _
  | call => exact (Cursor.tokens_advance _).trans (Cursor.tokens_advance _)
  | _ => rfl

theorem Steps.tokens_eq (h : Steps table s t) :
    t.reading.cursor.tokens = s.reading.cursor.tokens := by
  induction h with
  | refl => rfl
  | tail _ hstep ih => exact hstep.tokens_eq.trans ih

end Machine

end LineCalc
