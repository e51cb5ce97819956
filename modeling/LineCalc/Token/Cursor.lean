import LineCalc.Token.Basic

namespace LineCalc

/-- The tokens that have been read, the latest first, and the tokens that have not. The end mark
after them is not kept: it is never read. -/
structure Cursor where
  behind : List Token
  ahead : List Token
deriving DecidableEq, Repr

namespace Cursor

/-- The place before the first token. -/
def start (tokens : List Token) : Cursor := ⟨[], tokens⟩

/-- The token at the cursor, which after the last token is the end mark. -/
def current (c : Cursor) : Token := c.ahead.headD Token.endMark

/-- The token after the current one; past the end mark only end marks are seen. -/
def following (c : Cursor) : Token := c.ahead.tail.headD Token.endMark

/-- Moves over the current token, unless that is the end mark. -/
def advance (c : Cursor) : Cursor :=
  match c.ahead with
  | [] => c
  | t :: rest => ⟨t :: c.behind, rest⟩

/-- All tokens have been read. A token that only looks like the end mark is not the end. -/
def atEnd (c : Cursor) : Bool := c.ahead.isEmpty

/-- How many tokens have been read. -/
def position (c : Cursor) : Nat := c.behind.length

/-- The tokens that have been read, in order. -/
def read (c : Cursor) : List Token := c.behind.reverse

/-- The tokens that have not been read, in order, without the end mark. -/
def unread (c : Cursor) : List Token := c.ahead

/-- All tokens in order, with the end mark. -/
def tokens (c : Cursor) : List Token := c.read ++ c.unread ++ [Token.endMark]

@[simp] theorem tokens_start (tokens : List Token) :
    (start tokens).tokens = tokens ++ [Token.endMark] := rfl

@[simp] theorem tokens_advance (c : Cursor) : c.advance.tokens = c.tokens := by
  obtain ⟨behind, ahead⟩ := c
  cases ahead with
  | nil => rfl
  | cons t rest => simp [advance, tokens, read, unread]

theorem position_eq_length_read (c : Cursor) : c.position = c.read.length := by
  simp [position, read]

end Cursor

end LineCalc
