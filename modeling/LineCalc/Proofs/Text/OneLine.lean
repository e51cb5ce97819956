import LineCalc.Proofs.Number.Texts
import LineCalc.Proofs.Token.Names
import LineCalc.Proofs.Token.Runs

namespace LineCalc

namespace Text

/-- The code points that end a line: line feed, vertical tab, form feed, carriage return, next line,
and the separators of lines and of paragraphs. -/
def lineBreaks : CharRanges := [(0xa, 0xd), (0x85, 0x85), (0x2028, 0x2029)]

/-- The character ends a line. -/
def isLineBreak (c : Char) : Bool := lineBreaks.contains c

private theorem isBlank_of_isLineBreak {c : Char} (h : isLineBreak c = true) :
    isBlank c = true := by
  have hblank := CharRanges.eq_false_of_codePoints (p := fun c => !isBlank c) (by decide +kernel) h
  simpa using hblank

/-- No character of the text ends a line. -/
def OneLine (text : String) : Prop := ∀ c ∈ text.toList, isLineBreak c = false

instance (text : String) : Decidable (OneLine text) :=
  List.decidableBAll (fun c => isLineBreak c = false) text.toList

/-- A text of characters of a class is on one line if the class holds no line break. -/
theorem OneLine.of_class {p : Char → Bool} {text : String}
    (hp : lineBreaks.codePoints.all (fun n => !p (Char.ofNat n)) = true)
    (h : ∀ c ∈ text.toList, p c = true) : OneLine text := by
  intro c hc
  refine Bool.eq_false_iff.2 fun hbreak => ?_
  have hnot := CharRanges.eq_false_of_codePoints hp hbreak
  rw [h c hc] at hnot
  cases hnot

namespace OneLine

variable {left right separator : String} {texts : List String}

theorem append (hleft : OneLine left) (hright : OneLine right) : OneLine (left ++ right) := by
  intro c hc
  rw [String.toList_append, List.mem_append] at hc
  exact hc.elim (hleft c) (hright c)

theorem intercalate (hseparator : OneLine separator) (h : ∀ text ∈ texts, OneLine text) :
    OneLine (separator.intercalate texts) := by
  induction texts with
  | nil => exact List.forall_mem_nil _
  | cons text later ih =>
    obtain ⟨htext, hlater⟩ := List.forall_mem_cons.1 h
    by_cases hnil : later = []
    · rw [hnil, String.intercalate_singleton]
      exact htext
    · rw [String.intercalate_cons_of_ne_nil hnil]
      exact (htext.append hseparator).append (ih hlater)

end OneLine

end Text

open Text

theorem Token.WellFormed.oneLine {t : Token} (h : t.WellFormed) : OneLine t := by
  intro c hc
  refine Bool.eq_false_iff.2 fun hbreak => ?_
  have hblank := h.chars.2.1 c hc
  rw [isBlank_of_isLineBreak hbreak] at hblank
  cases hblank

theorem Token.oneLine_of_isName {t : Token} (h : t.isName = true) : OneLine t :=
  .of_class (by decide +kernel) fun _ => isNameChar_of_mem_of_isName h

theorem Number.oneLine_write (x : Float) : OneLine (write x) :=
  .of_class (by decide +kernel) fun _ => isTextChar_of_mem_write

theorem Table.oneLine_text {t : Table} (h : ∀ b ∈ t.bindings, OneLine b.1) : OneLine t.text := by
  have hbindings : ∀ text ∈ t.bindings.map Binding.text, OneLine text := by
    intro text htext
    obtain ⟨b, hb, rfl⟩ := List.mem_map.1 htext
    exact ((h b hb).append (by decide)).append (Number.oneLine_write b.2)
  exact (OneLine.append (by decide) (.intercalate (by decide) hbindings)).append (by decide)

/-- The token that a fault names. -/
def Fault.token? : Fault → Option Token
  | unbalanced | tooDeep _ => none
  | operandExpected t | malformedNumber t | unboundName t | unknownFunction t | argumentExpected t
  | unexpectedToken t => some t

theorem Fault.oneLine_message {fault : Fault} (h : ∀ t, fault.token? = some t → OneLine t) :
    OneLine fault.message := by
  cases fault with
  | unbalanced => exact show OneLine "unbalanced parentheses" by decide
  | tooDeep levels =>
    have hlevels : OneLine (toString levels) := by
      refine .of_class (p := Char.isDigit) (by decide +kernel) ?_
      rw [Nat.toString_eq_ofList_toDigits, String.toList_ofList]
      exact Number.isDigit_toDigits levels
    exact (OneLine.append (by decide) hlevels).append (by decide)
  | operandExpected t | malformedNumber t | unboundName t | unknownFunction t | argumentExpected t
  | unexpectedToken t => exact (OneLine.append (by decide) (h t rfl)).append (by decide)

namespace Text

/-- The texts one after another, each ended by a line feed. -/
def endedLines (texts : List String) : String := String.join (texts.map (· ++ "\n"))

@[simp] theorem endedLines_nil : endedLines [] = "" := rfl

@[simp] theorem endedLines_cons (text : String) (later : List String) :
    endedLines (text :: later) = text ++ "\n" ++ endedLines later :=
  String.join_cons

theorem endedLines_append (texts later : List String) :
    endedLines (texts ++ later) = endedLines texts ++ endedLines later := by
  rw [endedLines, List.map_append, String.join_append]
  rfl

/-- The lines that are ended for several texts each are ended one after another. -/
theorem endedLines_flatMap {α : Type} (f : α → List String) (items : List α) :
    endedLines (items.flatMap f) = String.join (items.map fun item => endedLines (f item)) := by
  induction items with
  | nil => rfl
  | cons item later ih =>
    rw [List.flatMap_cons, endedLines_append, ih, List.map_cons, String.join_cons]

private theorem toList_endedLines (texts : List String) :
    (endedLines texts).toList = ['\n'].intercalate (texts.map String.toList ++ [[]]) := by
  induction texts with
  | nil => rfl
  | cons text later ih =>
    have hne : later.map String.toList ++ [[]] ≠ [] := List.append_ne_nil_of_right_ne_nil _ nofun
    rw [List.map_cons, List.cons_append, List.intercalate_cons_of_ne_nil hne, ← ih,
      endedLines_cons, String.toList_append, String.toList_append]
    rfl

/-- Cut at its line feeds, what ends texts on one line each gives these texts, and nothing after the
last line feed. -/
theorem splitOn_endedLines {texts : List String} (h : ∀ text ∈ texts, OneLine text) :
    (endedLines texts).toList.splitOn '\n' = texts.map String.toList ++ [[]] := by
  rw [toList_endedLines]
  refine List.splitOn_intercalate '\n' (fun chars hchars hmem => ?_)
    (List.append_ne_nil_of_right_ne_nil _ nofun)
  obtain hshown | hnil := List.mem_append.1 hchars
  · obtain ⟨text, htext, rfl⟩ := List.mem_map.1 hshown
    exact absurd (h text htext _ hmem) (by decide)
  · rw [List.mem_singleton.1 hnil] at hmem
    cases hmem

end Text

end LineCalc
