import LineCalc.Report
import LineCalc.Token.Lexer

namespace LineCalc

/-- All that a session keeps from one line to the next. -/
structure Session where
  table : Table
deriving DecidableEq

/-- What feeding a line gives: the report on it, the session after it, and what happened. -/
structure Step where
  report : Report
  session : Session
  events : List Event
deriving DecidableEq

namespace Session

/-- Nothing is bound yet. -/
def new : Session := ⟨.empty⟩

/-- What the log says about an outcome after the evaluation. -/
def closingEvents (line : String) (e : Evaluation) : List Event :=
  match e.outcome with
  | .value value => if value.isFinite then [] else [.notFinite (Text.trim line) value]
  | .done => []
  | .refused fault => [.failed e.cursor.position fault]

/-- Evaluates the statement on a line. -/
def feed (s : Session) (line : String) : Step :=
  let cursor := Cursor.start (lex line)
  let e := evaluate s.table cursor
  { report := ⟨e.cursor.tokens, e.cursor.read, e.cursor.unread, e.outcome⟩
    session := ⟨e.table⟩
    events := .tokenized cursor.tokens :: e.events ++ closingEvents line e }

end Session

end LineCalc
