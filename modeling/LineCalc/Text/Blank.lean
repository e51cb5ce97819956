import LineCalc.Text.CharRanges

namespace LineCalc.Text

/-- The characters with the property `White_Space`. -/
def blanks : CharRanges :=
  [(0x9, 0xd), (0x20, 0x20), (0x85, 0x85), (0xa0, 0xa0), (0x1680, 0x1680), (0x2000, 0x200a),
  (0x2028, 0x2029), (0x202f, 0x202f), (0x205f, 0x205f), (0x3000, 0x3000)]

/-- White space in the sense of Unicode, which is more than the ASCII blanks. -/
def isBlank (c : Char) : Bool := blanks.contains c

theorem isBlank_of_isWhitespace {c : Char} (h : c.isWhitespace = true) : isBlank c = true := by
  simp only [Char.isWhitespace, Bool.or_eq_true, decide_eq_true_eq] at h
  rcases h with ((rfl | rfl) | rfl) | rfl <;> rfl

/-- A text of white space only; the empty text is one. -/
def isBlankText (text : String) : Bool := text.toList.all isBlank

/-- Drops the white space at both ends. -/
def trim (text : String) : String :=
  String.ofList ((text.toList.dropWhile isBlank).reverse.dropWhile isBlank).reverse

/-- Words being gathered from the right: the word that the next character may extend, and the
finished words after it. -/
structure Gathering where
  word : List Char
  finished : List (List Char)

namespace Gathering

/-- The open word is counted only if it has a character. -/
def words (g : Gathering) : List (List Char) :=
  if g.word.isEmpty then g.finished else g.word :: g.finished

/-- White space closes the open word; any other character extends it at its front. -/
def add (c : Char) (g : Gathering) : Gathering :=
  if isBlank c then ⟨[], g.words⟩ else ⟨c :: g.word, g.finished⟩

end Gathering

/-- The maximal runs of characters that are not white space, in order. -/
def words (text : List Char) : List (List Char) :=
  (text.foldr Gathering.add ⟨[], []⟩).words

@[simp] theorem words_nil : words [] = [] := rfl

/-- White space before a text belongs to no word. -/
theorem words_cons_of_isBlank {c : Char} (h : isBlank c = true) (text : List Char) :
    words (c :: text) = words text := by
  simp only [words, List.foldr_cons, Gathering.add, if_pos h]
  rfl

end LineCalc.Text
