namespace LineCalc.Console

/-- Cuts bytes after each line feed, which stays with the line that it ends. What follows the last
one is a line too, if there is anything. -/
def splitLines (bytes : List UInt8) : List (List UInt8) :=
  bytes.foldr
    (fun byte lines =>
      if byte = 10 then [byte] :: lines
      else
        match lines with
        | [] => [[byte]]
        | line :: later => (byte :: line) :: later)
    []

/-- What a line holds before its ending: a line feed, or a carriage return and a line feed. Where no
line feed ends the line, a carriage return is part of it. -/
def content (line : List UInt8) : List UInt8 :=
  if line.getLast? = some 10 then
    let ended := line.dropLast
    if ended.getLast? = some 13 then ended.dropLast else ended
  else line

/-- The text of a line in UTF-8, or `none` if it is not UTF-8. -/
def decodeLine (line : List UInt8) : Option String :=
  String.fromUTF8? (content line).toByteArray

end LineCalc.Console
