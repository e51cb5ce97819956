import LineCalc.Text.Blank
import LineCalc.Token.Basic

namespace LineCalc

/-- A delimiter gets a space on either side. -/
def spaceOut (c : Char) : List Char := if isDelimiter c then [' ', c, ' '] else [c]

/-- The tokens of a line, without the end mark. -/
def lex (line : String) : List Token :=
  (Text.words (line.toList.flatMap spaceOut)).map String.ofList

end LineCalc
