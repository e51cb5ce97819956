import LineCalc.Event
import LineCalc.Groups

namespace LineCalc

/-- How far a statement has been read: the cursor, the groups around it, how many factors are being
read, and what has happened, the latest first. -/
structure Reading where
  cursor : Cursor
  groups : Groups
  level : Nat
  events : List Event
deriving DecidableEq

namespace Reading

/-- Before the first token of a statement. -/
def start (cursor : Cursor) : Reading := ⟨cursor, .initial, 0, []⟩

end Reading

/-- Factors may be nested to this depth. -/
def maxLevel : Nat := 256

/-- A rule of the grammar for things with values of type `α`. It reads tokens from the cursor on and
comes to a value or to a fault; in both cases it leaves the reading at the place it came to. -/
abbrev Rule (α : Type) := EStateM Fault Reading α

namespace Rule

variable {α : Type}

/-- The token at the cursor. -/
def current : Rule Token := fun r => .ok r.cursor.current r

/-- The token after the one at the cursor. -/
def following : Rule Token := fun r => .ok r.cursor.following r

/-- The tokens that are left to read. -/
def unread : Rule (List Token) := fun r => .ok r.cursor.unread r

/-- Moves over the token at the cursor. -/
def advance : Rule Unit := fun r => .ok () { r with cursor := r.cursor.advance }

/-- Takes down an event. -/
def record (event : Reading → Event) : Rule Unit :=
  fun r => .ok () { r with events := event r :: r.events }

/-- Enters a group whose opening parenthesis has been read. -/
def enterGroup : Rule Unit := fun r => .ok () { r with groups := r.groups.enter }

/-- Leaves a group whose closing parenthesis has been read; there must be one to leave. -/
def leaveGroup : Rule Unit := fun r =>
  let left := { r with groups := r.groups.leave }
  if r.groups.canLeave then .ok () left else .error .unbalanced left

/-- Reads one level down, if there is one left, and comes back up whatever the rule comes to. -/
def oneLevelDown (rule : Rule α) : Rule α := fun r =>
  if r.level = maxLevel then .error (.tooDeep maxLevel) r
  else
    match rule { r with level := r.level + 1 } with
    | .ok value r => .ok value { r with level := r.level - 1 }
    | .error fault r => .error fault { r with level := r.level - 1 }

end Rule

end LineCalc
