import LineCalc.Rule.Statement

namespace LineCalc

/-- What came of a statement. -/
inductive Outcome where
  /-- It has a value. -/
  | value (value : Float)
  /-- It has no value: it bound a name, or it was empty. -/
  | done
  /-- It was refused. -/
  | refused (fault : Fault)
deriving DecidableEq

/-- The end of an evaluation: the outcome, the cursor where reading stopped, the table, and what
happened, in order. -/
structure Evaluation where
  outcome : Outcome
  cursor : Cursor
  table : Table
  events : List Event
deriving DecidableEq

/-- What is wrong with a statement that was read as far as it goes: a group is open, or tokens are
left. -/
def remainingFault? (table : Table) (r : Reading) : Option Fault :=
  let token := r.cursor.current
  if !r.groups.balanced then some .unbalanced
  else if r.cursor.atEnd then none
  else if token.isName && !table.contains token then some (.unboundName token)
  else some (.unexpectedToken token)

/-- The effect of a statement that has nothing wrong with it. -/
def conclude (table : Table) (r : Reading) : Statement → Evaluation
  | .value value => ⟨.value value, r.cursor, table, r.events.reverse⟩
  | .binding name value =>
    ⟨.done, r.cursor, table.insert name value, (.binding name value :: r.events).reverse⟩
  | .empty => ⟨.done, r.cursor, table, r.events.reverse⟩

/-- Evaluates the statement at a cursor. It has to be read to its end with all groups closed, and
only then it binds its name; a statement with a fault leaves the table as it was. -/
def evaluate (table : Table) (cursor : Cursor) : Evaluation :=
  match Rule.statement table (.start cursor) with
  | .error fault r => ⟨.refused fault, r.cursor, table, r.events.reverse⟩
  | .ok statement r =>
    match remainingFault? table r with
    | some fault => ⟨.refused fault, r.cursor, table, r.events.reverse⟩
    | none => conclude table r statement

end LineCalc
