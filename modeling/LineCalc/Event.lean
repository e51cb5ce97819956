import LineCalc.Number.Numeral
import LineCalc.Text.Quoted
import LineCalc.Token.Cursor
import LineCalc.Fault

namespace LineCalc

/-- How much an event matters, the gravest first. -/
inductive Severity where
  | error
  | warn
  | info
  | debug
  | trace
deriving DecidableEq, Repr

namespace Severity

/-- The place in the order of gravity. -/
def rank : Severity → Nat
  | error => 0
  | warn => 1
  | info => 2
  | debug => 3
  | trace => 4

/-- The name that opens a line of the log. -/
def name : Severity → String
  | error => "ERROR"
  | warn => "WARN"
  | info => "INFO"
  | debug => "DEBUG"
  | trace => "TRACE"

end Severity

/-- What can happen while a line is evaluated. -/
inductive Event where
  /-- The line was cut into these tokens, the last of them the end mark. -/
  | tokenized (tokens : List Token)
  /-- A statement begins at the cursor. -/
  | statement (cursor : Cursor)
  /-- A factor begins at the cursor, and with it so many factors are being read. -/
  | factor (cursor : Cursor) (level : Nat)
  /-- A group was left, and so many are still open. -/
  | groupClosed (opened : Int)
  /-- A name is about to be bound. -/
  | binding (name : Token) (value : Float)
  /-- The value of a line is an infinity or a NaN. -/
  | notFinite (line : String) (value : Float)
  /-- A statement was refused, with so many tokens read. -/
  | failed (position : Nat) (fault : Fault)
deriving DecidableEq

namespace Event

/-- Only values that are not finite call for attention. -/
def severity : Event → Severity
  | tokenized _ | binding .. | failed .. => .debug
  | statement _ | factor .. | groupClosed _ => .trace
  | notFinite .. => .warn

/-- The event in words; tokens and lines stand in it as they are. -/
def message : Event → String
  | tokenized tokens => "token stream: " ++ Text.quoteList tokens
  | statement cursor => s!"statement at '{cursor.current}'"
  | factor cursor _ => s!"factor at '{cursor.current}'"
  | groupClosed opened => s!"closed group, depth {opened}"
  | binding name value => s!"binding {name} = {Number.write value}"
  | notFinite line value => s!"'{line}' evaluated to {Number.write value}"
  | failed position fault => s!"statement failed at token {position}: {fault.message}"

/-- The event as a line of the log. -/
def text (e : Event) : String := e.severity.name ++ " " ++ e.message

end Event

/-- The lines of the log for the events of a severity and of the graver ones. -/
def logLines (least : Severity) (events : List Event) : List String :=
  (events.filter fun e => e.severity.rank ≤ least.rank).map Event.text

end LineCalc
