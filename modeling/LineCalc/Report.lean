import LineCalc.Evaluation

namespace LineCalc

/-- A line that was evaluated: its tokens with the end mark, those that were read and those that
were not, and what came of it. -/
structure Report where
  tokens : List Token
  read : List Token
  unread : List Token
  outcome : Outcome
deriving DecidableEq

namespace Report

/-- The line about the outcome. -/
def outcomeLine : Outcome → String
  | .value value => "Value: " ++ Number.write value
  | .done => "Statement successfully assigned"
  | .refused fault => "parse error: " ++ fault.message

/-- The report in two lines, or three if tokens were left over; the last is not ended. -/
def text (r : Report) : String :=
  outcomeLine r.outcome ++ "\n" ++ (if r.unread.isEmpty then "" else "Syntax error:\n") ++
    "read | un-read: " ++ " ".intercalate r.read ++ " | " ++ " ".intercalate r.unread

end Report

end LineCalc
