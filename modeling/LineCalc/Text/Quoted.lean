import LineCalc.Text.Printable

namespace LineCalc.Text

/-- The code point in lower-case hexadecimal digits, between braces. -/
def codePointEscape (c : Char) : String :=
  "\\u\x7b" ++ String.ofList (Nat.toDigits 16 c.toNat) ++ "\x7d"

/-- The quotation mark, the backslash and four controls have escapes of two characters; of the
rest, what cannot be shown is given by its code point. -/
def escape (c : Char) : String :=
  match c with
  | '"' => "\\\""
  | '\\' => "\\\\"
  | '\x00' => "\\0"
  | '\t' => "\\t"
  | '\n' => "\\n"
  | '\r' => "\\r"
  | c => if isPrintable c then c.toString else codePointEscape c

/-- The text between quotation marks, escaped. -/
def quote (text : String) : String :=
  "\"" ++ String.join (text.toList.map escape) ++ "\""

/-- A list of texts, each quoted, between brackets. -/
def quoteList (texts : List String) : String :=
  "[" ++ ", ".intercalate (texts.map quote) ++ "]"

end LineCalc.Text
