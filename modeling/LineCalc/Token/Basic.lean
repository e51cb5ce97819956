import LineCalc.Text.Alphanumeric

namespace LineCalc

/-- The unit in which a statement is read. -/
abbrev Token := String

/-- `+`, `-`, `*`, `/` and `=`. -/
def isOperatorChar (c : Char) : Bool := c ∈ ['+', '-', '*', '/', '=']

/-- `(` and `)`. -/
def isBracketChar (c : Char) : Bool := c ∈ ['(', ')']

/-- A character that is a token of its own wherever it stands in a line. -/
def isDelimiter (c : Char) : Bool := isOperatorChar c || isBracketChar c

namespace Token

/-- The token that stands after the last token of every statement. A statement may hold the same
text as an ordinary token. -/
def endMark : Token := "$"

/-- Made of delimiters only, or the end mark: such a token is never an operand. The empty token is
one of them. -/
def isSymbol (t : Token) : Bool := t == endMark || t.toList.all isDelimiter

/-- A letter or an underscore, and then letters, numbers and underscores. -/
def isName (t : Token) : Bool :=
  match t.toList with
  | [] => false
  | first :: rest =>
    (Text.isAlphabetic first || first == '_') &&
      rest.all fun c => Text.isAlphanumeric c || c == '_'

/-- Begins with an ASCII digit or a point, and so is read as a number or not at all. -/
def startsNumeral (t : Token) : Bool :=
  match t.toList with
  | [] => false
  | first :: _ => first.isDigit || first == '.'

end Token

end LineCalc
