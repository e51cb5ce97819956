import LineCalc.Token.Lexer

namespace LineCalc

namespace Text

variable {text : List Char}

/-- A character that is not white space is the first of a word. -/
theorem words_cons_of_not_isBlank {c : Char} (h : isBlank c = false) (text : List Char) :
    ∃ word later, words (c :: text) = (c :: word) :: later := by
  let g := text.foldr Gathering.add ⟨[], []⟩
  refine ⟨g.word, g.finished, ?_⟩
  rw [words, List.foldr_cons, Gathering.add, if_neg (Bool.eq_false_iff.1 h)]
  rfl

/-- A text has no word just if it is white space throughout. -/
theorem words_eq_nil_iff : words text = [] ↔ ∀ c ∈ text, isBlank c = true := by
  induction text with
  | nil => simp
  | cons c text ih =>
    rw [List.forall_mem_cons]
    cases hblank : isBlank c with
    | true => rw [words_cons_of_isBlank hblank, ih, and_iff_right rfl]
    | false =>
      obtain ⟨word, later, hwords⟩ := words_cons_of_not_isBlank hblank text
      simp [hwords]

/-- A text is a run of characters of a class, and what follows such a run, in one way. -/
theorem eq_of_append {p : Char → Bool} {run rest run' rest' : List Char}
    (hrun : ∀ c ∈ run, p c = true) (hrest : ∀ c ∈ rest.head?, p c = false)
    (hrun' : ∀ c ∈ run', p c = true) (hrest' : ∀ c ∈ rest'.head?, p c = false)
    (h : run ++ rest = run' ++ rest') : run = run' ∧ rest = rest' := by
  have htake {run rest : List Char} (hrun : ∀ c ∈ run, p c = true)
      (hrest : ∀ c ∈ rest.head?, p c = false) : (run ++ rest).takeWhile p = run := by
    rw [List.takeWhile_append_of_pos hrun]
    cases rest with
    | nil => rw [List.takeWhile_nil, List.append_nil]
    | cons c rest =>
      rw [List.takeWhile_cons_of_neg (Bool.eq_false_iff.1 (hrest c rfl)), List.append_nil]
  have heq : run = run' := by
    rw [← htake hrun hrest, h, htake hrun' hrest']
  subst heq
  exact ⟨rfl, List.append_cancel_left h⟩

/-- Without white space all characters are gathered into the open word. -/
theorem gathering_of_not_isBlank (h : ∀ c ∈ text, isBlank c = false) :
    text.foldr Gathering.add ⟨[], []⟩ = ⟨text, []⟩ := by
  induction text with
  | nil => rfl
  | cons c text ih =>
    obtain ⟨hc, htext⟩ := List.forall_mem_cons.1 h
    rw [List.foldr_cons, ih htext, Gathering.add, if_neg (Bool.eq_false_iff.1 hc)]

/-- A text that is not empty and has no white space in it is one word. -/
theorem words_of_not_isBlank (hne : text ≠ []) (h : ∀ c ∈ text, isBlank c = false) :
    words text = [text] := by
  rw [words, gathering_of_not_isBlank h, Gathering.words, if_neg]
  rwa [List.isEmpty_iff]

private theorem Gathering.words_append (g : Gathering) (later : List (List Char)) :
    (⟨g.word, g.finished ++ later⟩ : Gathering).words = g.words ++ later := by
  rw [Gathering.words, Gathering.words]
  split <;> rfl

/-- What is gathered before white space does not see what was finished after it. -/
theorem gathering_append_of_isBlank {c : Char} (h : isBlank c = true) (text later : List Char) :
    (text ++ c :: later).foldr Gathering.add ⟨[], []⟩ =
      ⟨(text.foldr Gathering.add ⟨[], []⟩).word,
        (text.foldr Gathering.add ⟨[], []⟩).finished ++ words later⟩ := by
  induction text with
  | nil =>
    rw [List.nil_append, List.foldr_cons, Gathering.add, if_pos h]
    rfl
  | cons d text ih =>
    rw [List.cons_append, List.foldr_cons, ih, List.foldr_cons, Gathering.add, Gathering.add]
    split
    · rw [Gathering.words_append]
    · rfl

/-- White space cuts a text into two, the words of which are those of the whole. -/
theorem words_append_of_isBlank {c : Char} (h : isBlank c = true) (text later : List Char) :
    words (text ++ c :: later) = words text ++ words later := by
  rw [words, gathering_append_of_isBlank h, Gathering.words_append]
  rfl

end Text

/-- Setting a character apart brings in nothing but white space. -/
theorem forall_mem_spaceOut_isBlank_iff {c : Char} :
    (∀ d ∈ spaceOut c, Text.isBlank d = true) ↔ Text.isBlank c = true := by
  have hspace : Text.isBlank ' ' = true := by decide
  unfold spaceOut
  split <;> simp [hspace]

/-- A line has no token just if it is white space throughout. -/
theorem lex_eq_nil_iff {line : String} : lex line = [] ↔ Text.isBlankText line = true := by
  rw [lex, List.map_eq_nil_iff, Text.words_eq_nil_iff, Text.isBlankText, List.all_eq_true,
    List.forall_mem_flatMap]
  simp only [forall_mem_spaceOut_isBlank_iff]

/-- Where no delimiter stands nothing is set apart. -/
theorem flatMap_spaceOut_of_not_isDelimiter {text : List Char}
    (h : ∀ c ∈ text, isDelimiter c = false) : text.flatMap spaceOut = text := by
  induction text with
  | nil => rfl
  | cons c text ih =>
    obtain ⟨hc, htext⟩ := List.forall_mem_cons.1 h
    rw [List.flatMap_cons, ih htext, spaceOut, if_neg (Bool.eq_false_iff.1 hc),
      List.singleton_append]

/-- A line that is not empty, with neither white space nor a delimiter in it, is one token. -/
theorem lex_eq_singleton {line : String} (hne : line.toList ≠ [])
    (hblank : ∀ c ∈ line.toList, Text.isBlank c = false)
    (hdelimiter : ∀ c ∈ line.toList, isDelimiter c = false) : lex line = [line] := by
  rw [lex, flatMap_spaceOut_of_not_isDelimiter hdelimiter, Text.words_of_not_isBlank hne hblank,
    List.map_singleton, String.ofList_toList]

/-- A space cuts a line into two. -/
theorem lex_append_space (line later : String) :
    lex (line ++ " " ++ later) = lex line ++ lex later := by
  have hchars : (line ++ " " ++ later).toList.flatMap spaceOut =
      line.toList.flatMap spaceOut ++ ' ' :: later.toList.flatMap spaceOut := by
    simp [spaceOut, isDelimiter, isOperatorChar, isBracketChar]
  rw [lex, hchars, Text.words_append_of_isBlank (by decide), List.map_append]
  rfl

/-- A delimiter at the beginning of a line is a token of its own. -/
theorem lex_append_delimiter {c : Char} (h : isDelimiter c = true) (hblank : Text.isBlank c = false)
    (later : String) : lex (String.singleton c ++ later) = String.singleton c :: lex later := by
  have hchars : (String.singleton c ++ later).toList.flatMap spaceOut =
      ' ' :: ([c] ++ ' ' :: later.toList.flatMap spaceOut) := by
    simp [spaceOut, h]
  have hword : Text.words [c] = [[c]] :=
    Text.words_of_not_isBlank (List.cons_ne_nil c []) (by simpa using hblank)
  rw [lex, hchars, Text.words_cons_of_isBlank (by decide),
    Text.words_append_of_isBlank (by decide), hword]
  rfl

end LineCalc
