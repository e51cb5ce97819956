import LineCalc.Proofs.Grammar.Role
import LineCalc.Proofs.Token.Lexing

namespace LineCalc

open Text

/-- A character that goes on in a token with others: neither white space nor a delimiter. -/
def isPlain (c : Char) : Bool := !isBlank c && !isDelimiter c

namespace Token

/-- A delimiter as a token. -/
def StandsAlone (t : Token) : Prop := ∃ c, isDelimiter c = true ∧ t = String.singleton c

/-- What a line can be cut into: a delimiter, or a run of characters that are neither white space
nor delimiters. -/
def WellFormed (t : Token) : Prop := t.StandsAlone ∨ t ≠ "" ∧ ∀ c ∈ t.toList, isPlain c = true

end Token

/-- No run goes on into a text. -/
def EndsRun (text : List Char) : Prop := ∀ c ∈ text.head?, isPlain c = false

/-- The tokens of characters. -/
def cut (text : List Char) : List Token := (words (text.flatMap spaceOut)).map String.ofList

/-- The token of a run, if the run has a character. -/
def runToken (run : List Char) : List Token := if run.isEmpty then [] else [String.ofList run]

section

variable {text run : List Char} {c : Char}

theorem lex_eq_cut (line : String) : lex line = cut line.toList := rfl

theorem isPlain_iff : isPlain c = true ↔ isBlank c = false ∧ isDelimiter c = false := by
  simp [isPlain]

/-- No delimiter is white space. -/
theorem isBlank_of_isDelimiter (h : isDelimiter c = true) : isBlank c = false :=
  eq_false_of_isDelimiter (p := isBlank) (by decide) h

theorem Token.WellFormed.chars {t : Token} (h : t.WellFormed) :
    t ≠ "" ∧ (∀ c ∈ t.toList, isBlank c = false) ∧
      (2 ≤ t.length → ∀ c ∈ t.toList, isDelimiter c = false) := by
  obtain ⟨c, hc, rfl⟩ | ⟨hne, hplain⟩ := h
  · refine ⟨by simp, ?_, fun hlength => ?_⟩
    · simpa using isBlank_of_isDelimiter hc
    · simp at hlength
  · exact ⟨hne, fun c hc => (isPlain_iff.1 (hplain c hc)).1, fun _ c hc =>
      (isPlain_iff.1 (hplain c hc)).2⟩

@[simp] theorem cut_nil : cut [] = [] := rfl

theorem isDelimiter_of_isBlank (h : isBlank c = true) : isDelimiter c = false := by
  refine Bool.eq_false_iff.2 fun hdelimiter => ?_
  rw [isBlank_of_isDelimiter hdelimiter] at h
  cases h

theorem runToken_of_ne_nil (h : run ≠ []) : runToken run = [String.ofList run] := by
  rw [runToken, if_neg]
  rwa [List.isEmpty_iff]

theorem cut_cons_of_isBlank (h : isBlank c = true) (text : List Char) :
    cut (c :: text) = cut text := by
  have hspace : spaceOut c = [c] := by
    rw [spaceOut, if_neg (Bool.eq_false_iff.1 (isDelimiter_of_isBlank h))]
  rw [cut, List.flatMap_cons, hspace, List.singleton_append, words_cons_of_isBlank h, cut]

theorem cut_cons_of_isDelimiter (h : isDelimiter c = true) (text : List Char) :
    cut (c :: text) = String.singleton c :: cut text := by
  have hlex := lex_append_delimiter h (isBlank_of_isDelimiter h) (String.ofList text)
  rw [lex_eq_cut, lex_eq_cut, String.toList_append, String.toList_singleton,
    String.toList_ofList] at hlex
  exact hlex

/-- Where a run ends the text begins with white space, once the delimiters are set apart. -/
theorem EndsRun.exists_blank (h : EndsRun (c :: text)) :
    ∃ d later, isBlank d = true ∧ (c :: text).flatMap spaceOut = d :: later := by
  have hc : isPlain c = false := h c rfl
  cases hdelimiter : isDelimiter c with
  | true =>
    refine ⟨' ', [c, ' '] ++ text.flatMap spaceOut, by decide, ?_⟩
    rw [List.flatMap_cons, spaceOut, if_pos hdelimiter]
    rfl
  | false =>
    refine ⟨c, text.flatMap spaceOut, by simpa [isPlain, hdelimiter] using hc, ?_⟩
    rw [List.flatMap_cons, spaceOut, if_neg (Bool.eq_false_iff.1 hdelimiter)]
    rfl

private theorem cut_run (hrun : ∀ c ∈ run, isPlain c = true) : cut run = runToken run := by
  by_cases hne : run = []
  · rw [hne]
    rfl
  · rw [cut, flatMap_spaceOut_of_not_isDelimiter fun c hc => (isPlain_iff.1 (hrun c hc)).2,
      words_of_not_isBlank hne fun c hc => (isPlain_iff.1 (hrun c hc)).1, runToken_of_ne_nil hne]
    rfl

/-- A run that has ended is a token. -/
theorem cut_run_append (hrun : ∀ c ∈ run, isPlain c = true) (hend : EndsRun text) :
    cut (run ++ text) = runToken run ++ cut text := by
  rw [← cut_run hrun]
  cases text with
  | nil => rw [List.append_nil, cut_nil, List.append_nil]
  | cons c text =>
    obtain ⟨d, later, hd, hlater⟩ := hend.exists_blank
    rw [cut, cut, cut, List.flatMap_append, hlater, words_append_of_isBlank hd,
      words_cons_of_isBlank hd, List.map_append]

end

/-- A line that has been read up to some place: the tokens that are finished, the latest first, and
the characters of the run that is open, also the latest first. -/
structure Scanner where
  finished : List Token
  run : List Char

namespace Scanner

/-- The run that is open ends. -/
def close (s : Scanner) : List Token := runToken s.run.reverse ++ s.finished

/-- One more character is read. -/
def read (s : Scanner) (c : Char) : Scanner :=
  if isDelimiter c then ⟨String.singleton c :: s.close, []⟩
  else if isBlank c then ⟨s.close, []⟩
  else ⟨s.finished, c :: s.run⟩

theorem reverse_close (s : Scanner) :
    s.close.reverse = s.finished.reverse ++ runToken s.run.reverse := by
  rw [close, List.reverse_append, runToken]
  split <;> rfl

/-- What is read after some place is cut together with the run that is open there. -/
theorem reverse_close_foldl (text : List Char) (s : Scanner)
    (hrun : ∀ c ∈ s.run.reverse, isPlain c = true) :
    (text.foldl read s).close.reverse = s.finished.reverse ++ cut (s.run.reverse ++ text) := by
  induction text generalizing s with
  | nil => rw [List.foldl_nil, reverse_close, List.append_nil, cut_run hrun]
  | cons c text ih =>
    rw [List.foldl_cons]
    cases hdelimiter : isDelimiter c with
    | true =>
      have hend : EndsRun (c :: text) := by simp [EndsRun, isPlain, hdelimiter]
      rw [read, if_pos hdelimiter, ih ⟨_, []⟩ (List.forall_mem_nil _), List.reverse_cons,
        reverse_close, cut_run_append hrun hend, cut_cons_of_isDelimiter hdelimiter]
      simp
    | false =>
      cases hblank : isBlank c with
      | true =>
        have hend : EndsRun (c :: text) := by simp [EndsRun, isPlain, hblank]
        rw [read, if_neg (Bool.eq_false_iff.1 hdelimiter), if_pos hblank,
          ih ⟨_, []⟩ (List.forall_mem_nil _), reverse_close, cut_run_append hrun hend,
          cut_cons_of_isBlank hblank]
        simp
      | false =>
        have hplain : isPlain c = true := isPlain_iff.2 ⟨hblank, hdelimiter⟩
        rw [read, if_neg (Bool.eq_false_iff.1 hdelimiter), if_neg (Bool.eq_false_iff.1 hblank), ih]
        · rw [List.reverse_cons, List.append_assoc, List.singleton_append]
        · rw [List.reverse_cons]
          exact List.forall_mem_append.2 ⟨hrun, by simpa using hplain⟩

end Scanner

/-- The tokens of a line, read once from left to right. -/
def scan (line : String) : List Token := (line.toList.foldl Scanner.read ⟨[], []⟩).close.reverse

private theorem lex_eq_scan (line : String) : lex line = scan line := by
  rw [scan, Scanner.reverse_close_foldl _ _ (List.forall_mem_nil _)]
  rfl

/-- How characters are cut, piece after piece: white space is passed over, a delimiter is a token,
and so is a run that goes as far as it can. -/
inductive Cuts : List Char → List Token → Prop
  | nil : Cuts [] []
  | blank {c : Char} {text : List Char} {tokens : List Token} (hc : isBlank c = true)
      (h : Cuts text tokens) : Cuts (c :: text) tokens
  | delimiter {c : Char} {text : List Char} {tokens : List Token} (hc : isDelimiter c = true)
      (h : Cuts text tokens) : Cuts (c :: text) (String.singleton c :: tokens)
  | run {run text : List Char} {tokens : List Token} (hne : run ≠ [])
      (hrun : ∀ c ∈ run, isPlain c = true) (hend : EndsRun text) (h : Cuts text tokens) :
      Cuts (run ++ text) (String.ofList run :: tokens)

/-- A run may be empty here. -/
theorem Cuts.append_run {run text : List Char} {tokens : List Token}
    (hrun : ∀ c ∈ run, isPlain c = true) (hend : EndsRun text) (h : Cuts text tokens) :
    Cuts (run ++ text) (runToken run ++ tokens) := by
  by_cases hne : run = []
  · rw [hne]
    exact h
  · rw [runToken_of_ne_nil hne]
    exact .run hne hrun hend h

/-- All characters can be cut so, and the lexer does it. The induction is on the characters after
a run that is still open. -/
theorem cuts_append (text run : List Char) (hrun : ∀ c ∈ run, isPlain c = true) :
    Cuts (run ++ text) (cut (run ++ text)) := by
  induction text generalizing run with
  | nil =>
    have hend : EndsRun [] := nofun
    rw [cut_run_append hrun hend]
    exact .append_run hrun hend .nil
  | cons c text ih =>
    have hrest : Cuts text (cut text) := ih [] (List.forall_mem_nil _)
    cases hplain : isPlain c with
    | true =>
      rw [List.append_cons]
      exact ih _ (List.forall_mem_append.2 ⟨hrun, by simpa using hplain⟩)
    | false =>
      have hend : EndsRun (c :: text) := by simp [EndsRun, hplain]
      rw [cut_run_append hrun hend]
      refine .append_run hrun hend ?_
      cases hdelimiter : isDelimiter c with
      | true =>
        rw [cut_cons_of_isDelimiter hdelimiter]
        exact .delimiter hdelimiter hrest
      | false =>
        have hblank : isBlank c = true := by simpa [isPlain, hdelimiter] using hplain
        rw [cut_cons_of_isBlank hblank]
        exact .blank hblank hrest

theorem cuts_lex (line : String) : Cuts line.toList (lex line) :=
  cuts_append line.toList [] (List.forall_mem_nil _)

namespace Cuts

variable {text : List Char} {tokens : List Token}

theorem wellFormed (h : Cuts text tokens) : ∀ t ∈ tokens, t.WellFormed := by
  induction h with
  | nil => exact List.forall_mem_nil _
  | blank hc h ih => exact ih
  | @delimiter c _ _ hc h ih => exact List.forall_mem_cons.2 ⟨.inl ⟨c, hc, rfl⟩, ih⟩
  | @run run _ _ hne hrun hend h ih =>
    refine List.forall_mem_cons.2 ⟨.inr ⟨?_, ?_⟩, ih⟩
    · rwa [Ne, String.ofList_eq_empty_iff]
    · rwa [String.toList_ofList]

/-- Nothing is lost but the white space. -/
theorem flatMap_toList (h : Cuts text tokens) :
    tokens.flatMap String.toList = text.filter (!isBlank ·) := by
  induction h with
  | nil => rfl
  | blank hc h ih => rw [ih, List.filter_cons_of_neg (by simpa using hc)]
  | @delimiter c _ _ hc h ih =>
    have hblank := isBlank_of_isDelimiter hc
    rw [List.flatMap_cons, ih, List.filter_cons_of_pos (by simpa using hblank),
      String.toList_singleton, List.singleton_append]
  | @run run _ _ hne hrun hend h ih =>
    have hall : run.filter (!isBlank ·) = run :=
      List.filter_eq_self.2 fun c hc => by simp [(isPlain_iff.1 (hrun c hc)).1]
    rw [List.flatMap_cons, ih, List.filter_append, hall, String.toList_ofList]

end Cuts

/-- A token between what stands before and after it: a delimiter, or a run of characters that goes
on neither to the left nor to the right. -/
inductive IsLexeme : List Char → Token → List Char → Prop
  | delimiter {before after : List Char} {c : Char} (hc : isDelimiter c = true) :
      IsLexeme before (String.singleton c) after
  | run {before run after : List Char} (hne : run ≠ []) (hrun : ∀ c ∈ run, isPlain c = true)
      (hbefore : ∀ c ∈ before.getLast?, isPlain c = false) (hafter : EndsRun after) :
      IsLexeme before (String.ofList run) after

/-- A token stands in a text after some of it. -/
def StandsAfter (text before : List Char) (t : Token) : Prop :=
  ∃ after, text = before ++ t.toList ++ after ∧ IsLexeme before t after

/-- The tokens that begin in a stretch of a text, in order, each with what stands before it. -/
structure Lists (text : List Char) (start stop : Nat) (places : List (List Char × Token)) :
    Prop where
  ascending : places.Pairwise fun p q => p.1.length < q.1.length
  mem_iff : ∀ p, p ∈ places ↔
    (start ≤ p.1.length ∧ p.1.length < stop) ∧ StandsAfter text p.1 p.2

section

variable {text before after run rest : List Char} {t : Token} {c : Char}

/-- What a token begins with is no white space, and only one token begins with a delimiter. -/
theorem IsLexeme.exists_cons (h : IsLexeme before t after) :
    ∃ c later, t.toList = c :: later ∧ isBlank c = false ∧
      (isDelimiter c = true → t = String.singleton c) := by
  cases h with
  | @delimiter _ c hc =>
    exact ⟨c, [], String.toList_singleton c, isBlank_of_isDelimiter hc, fun _ => rfl⟩
  | @run run _ hne hrun hbefore hafter =>
    obtain ⟨c, later, rfl⟩ := List.exists_cons_of_ne_nil hne
    obtain ⟨hblank, hdelimiter⟩ := isPlain_iff.1 (hrun c (List.mem_cons_self ..))
    refine ⟨c, later, String.toList_ofList, hblank, fun h => ?_⟩
    rw [hdelimiter] at h
    cases h

/-- A token that begins no earlier than a place stands in the text after that place. -/
theorem StandsAfter.exists_append {place : List Char} (h : StandsAfter (before ++ text) place t)
    (hplace : before.length ≤ place.length) :
    ∃ m after, place = before ++ m ∧ text = m ++ t.toList ++ after ∧ IsLexeme place t after := by
  obtain ⟨after, heq, hlexeme⟩ := h
  have hsplit : place <+: before ++ text := ⟨t.toList ++ after, by rw [heq, List.append_assoc]⟩
  obtain ⟨m, rfl⟩ := List.prefix_of_prefix_length_le (List.prefix_append before text) hsplit hplace
  rw [List.append_assoc, List.append_assoc] at heq
  exact ⟨m, after, rfl, (List.append_cancel_left heq).trans (List.append_assoc ..).symm, hlexeme⟩

/-- What begins at a character begins with it. -/
theorem StandsAfter.eq_of_cons {place : List Char} (h : StandsAfter (before ++ c :: text) place t)
    (hstart : before.length ≤ place.length) (hstop : place.length < before.length + 1) :
    place = before ∧ isBlank c = false ∧ (isDelimiter c = true → t = String.singleton c) := by
  obtain ⟨m, after, rfl, heq, hlexeme⟩ := h.exists_append hstart
  obtain ⟨d, later, htoken, hfirst⟩ := hlexeme.exists_cons
  obtain rfl : m = [] := by
    rw [List.length_append] at hstop
    exact List.length_eq_zero_iff.1 (by omega)
  rw [htoken] at heq
  obtain ⟨rfl, -⟩ := List.cons.inj heq
  exact ⟨List.append_nil before, hfirst⟩

/-- No token begins with white space. -/
theorem lists_blank (hc : isBlank c = true) (before text : List Char) :
    Lists (before ++ c :: text) before.length (before.length + 1) [] := by
  refine ⟨.nil, fun p => ⟨nofun, fun ⟨⟨hstart, hstop⟩, hstands⟩ => ?_⟩⟩
  obtain ⟨-, hblank, -⟩ := hstands.eq_of_cons hstart hstop
  rw [hc] at hblank
  cases hblank

/-- One token begins with a delimiter. -/
theorem lists_delimiter (hc : isDelimiter c = true) (before text : List Char) :
    Lists (before ++ c :: text) before.length (before.length + 1)
      [(before, String.singleton c)] := by
  refine ⟨List.pairwise_singleton .., fun p => ?_⟩
  rw [List.mem_singleton]
  constructor
  · rintro rfl
    refine ⟨⟨Nat.le_refl _, Nat.lt_succ_self _⟩, text, ?_, .delimiter hc⟩
    rw [String.toList_singleton, List.append_assoc, List.singleton_append]
  · rintro ⟨⟨hstart, hstop⟩, hstands⟩
    obtain ⟨hplace, -, hdelimiter⟩ := hstands.eq_of_cons hstart hstop
    exact Prod.ext hplace (hdelimiter hc)

/-- A token that begins inside a run that has ended is the whole run: what stands before it there
would be plain, and so would a delimiter. -/
theorem IsLexeme.eq_of_run {m later : List Char} (h : IsLexeme (before ++ m) t after)
    (hm : ∀ c ∈ m, isPlain c = true) (hlater : ∀ c ∈ later, isPlain c = true) (hne : later ≠ [])
    (hend : EndsRun rest) (heq : later ++ rest = t.toList ++ after) :
    m = [] ∧ t = String.ofList later := by
  cases h with
  | @delimiter _ c hc =>
    obtain ⟨d, later, rfl⟩ := List.exists_cons_of_ne_nil hne
    rw [String.toList_singleton] at heq
    obtain ⟨rfl, -⟩ := List.cons.inj heq
    rw [(isPlain_iff.1 (hlater d (List.mem_cons_self ..))).2] at hc
    cases hc
  | @run run' _ hne' hrun' hbefore' hafter =>
    rw [String.toList_ofList] at heq
    refine ⟨?_, congrArg _ (Text.eq_of_append hrun' hafter hlater hend heq.symm).1⟩
    obtain rfl | ⟨m', d, rfl⟩ := List.eq_nil_or_concat m
    · rfl
    · have hfree := hbefore' d (by simp)
      rw [hm d (by simp)] at hfree
      cases hfree

/-- One token begins in a run that goes as far as it can, and it is the whole run. -/
theorem lists_run (hne : run ≠ []) (hrun : ∀ c ∈ run, isPlain c = true)
    (hbefore : ∀ c ∈ before.getLast?, isPlain c = false) (hend : EndsRun rest) :
    Lists (before ++ (run ++ rest)) before.length (before.length + run.length)
      [(before, String.ofList run)] := by
  refine ⟨List.pairwise_singleton .., fun p => ?_⟩
  rw [List.mem_singleton]
  constructor
  · rintro rfl
    refine ⟨⟨Nat.le_refl _, ?_⟩, rest, ?_, .run hne hrun hbefore hend⟩
    · exact Nat.lt_add_of_pos_right (List.length_pos_iff.2 hne)
    · rw [String.toList_ofList, List.append_assoc]
  · rintro ⟨⟨hstart, hstop⟩, hstands⟩
    obtain ⟨place, t⟩ := p
    obtain ⟨m, after, rfl, heq, hlexeme⟩ := hstands.exists_append hstart
    obtain ⟨later, rfl⟩ : m <+: run := by
      refine List.prefix_of_prefix_length_le ⟨t.toList ++ after, ?_⟩
        (List.prefix_append run rest) ?_
      · rw [heq, List.append_assoc]
      · rw [List.length_append] at hstop
        omega
    rw [List.append_assoc, List.append_assoc] at heq
    have hlater := List.append_cancel_left heq
    obtain ⟨hm, hplain⟩ := List.forall_mem_append.1 hrun
    have hne' : later ≠ [] := by
      rintro rfl
      simp at hstop
    obtain ⟨rfl, rfl⟩ := hlexeme.eq_of_run hm hplain hne' hend hlater
    rw [List.append_nil, List.nil_append]

/-- The tokens of one stretch and those of the next are the tokens of both. -/
theorem Lists.append {start middle stop : Nat} {places places' : List (List Char × Token)}
    (h : Lists text start middle places) (h' : Lists text middle stop places')
    (hstart : start ≤ middle) (hstop : middle ≤ stop) :
    Lists text start stop (places ++ places') := by
  refine ⟨List.pairwise_append.2 ⟨h.ascending, h'.ascending, fun p hp q hq => ?_⟩, fun p => ?_⟩
  · have hp := ((h.mem_iff p).1 hp).1
    have hq := ((h'.mem_iff q).1 hq).1
    omega
  · rw [List.mem_append, h.mem_iff, h'.mem_iff, ← or_and_right]
    refine and_congr_left fun _ => ?_
    omega

/-- No token begins at the end. -/
theorem lists_nil (before : List Char) : Lists before before.length before.length [] := by
  refine ⟨.nil, fun p => ⟨nofun, fun ⟨⟨hstart, hstop⟩, _⟩ => ?_⟩⟩
  omega

/-- The pieces into which characters are cut are the tokens that stand there, also after other
characters, unless a run goes on from those. -/
theorem Cuts.exists_places {tokens : List Token} (h : Cuts text tokens) (before : List Char)
    (hbetween : EndsRun text ∨ ∀ c ∈ before.getLast?, isPlain c = false) :
    ∃ places : List (List Char × Token), places.map Prod.snd = tokens ∧
      Lists (before ++ text) before.length (before ++ text).length places := by
  induction h generalizing before with
  | nil =>
    rw [List.append_nil]
    exact ⟨[], rfl, lists_nil before⟩
  | @blank c text tokens hc h ih =>
    obtain ⟨places, htokens, hlists⟩ := ih (before ++ [c]) (.inr (by simp [isPlain, hc]))
    rw [List.append_assoc, List.singleton_append, List.length_append] at hlists
    exact ⟨places, htokens, (lists_blank hc before text).append hlists (by omega) (by simp)⟩
  | @delimiter c text tokens hc h ih =>
    obtain ⟨places, htokens, hlists⟩ := ih (before ++ [c]) (.inr (by simp [isPlain, hc]))
    rw [List.append_assoc, List.singleton_append, List.length_append] at hlists
    exact ⟨(before, String.singleton c) :: places, congrArg _ htokens,
      (lists_delimiter hc before text).append hlists (by omega) (by simp)⟩
  | @run run text tokens hne hrun hend h ih =>
    obtain ⟨places, htokens, hlists⟩ := ih (before ++ run) (.inl hend)
    obtain ⟨c, later, rfl⟩ := List.exists_cons_of_ne_nil hne
    have hbefore : ∀ d ∈ before.getLast?, isPlain d = false := by
      refine hbetween.resolve_left fun hends => ?_
      have hc := hrun c (List.mem_cons_self ..)
      rw [hends c rfl] at hc
      cases hc
    rw [List.append_assoc, List.length_append] at hlists
    exact ⟨(before, String.ofList (c :: later)) :: places, congrArg _ htokens,
      (lists_run hne hrun hbefore hend).append hlists (by omega) (by simp)⟩

end

/-- Setting the delimiters apart and cutting at white space comes to the same as one pass over the
line. The tokens are, in order, each delimiter and each maximal run of characters that are neither
white space nor delimiters. None of them is empty or holds white space, only those of one character
hold delimiters, and together they are the line without its white space. -/
theorem lex_eq_scan_and_runs (line : String) :
    lex line = scan line ∧
      (∃ places : List (List Char × Token), places.map Prod.snd = lex line ∧
        (places.Pairwise fun p q => p.1.length < q.1.length) ∧
        ∀ before t, (before, t) ∈ places ↔
          ∃ after, line.toList = before ++ t.toList ++ after ∧ IsLexeme before t after) ∧
      (∀ t ∈ lex line, t ≠ "" ∧ (∀ c ∈ t.toList, isBlank c = false) ∧
        (2 ≤ t.length → ∀ c ∈ t.toList, isDelimiter c = false)) ∧
      String.join (lex line) = String.ofList (line.toList.filter (!isBlank ·)) := by
  have hcuts := cuts_lex line
  refine ⟨lex_eq_scan line, ?_, fun t ht => ?_, ?_⟩
  · obtain ⟨places, htokens, hlists⟩ := hcuts.exists_places [] (.inr nofun)
    refine ⟨places, htokens, hlists.ascending, fun before t => ?_⟩
    rw [hlists.mem_iff]
    refine ⟨And.right, fun hstands => ⟨⟨Nat.zero_le _, ?_⟩, hstands⟩⟩
    obtain ⟨after, heq, hlexeme⟩ := hstands
    obtain ⟨c, later, htoken, -⟩ := hlexeme.exists_cons
    rw [List.nil_append, heq, htoken]
    simp
  · exact (hcuts.wellFormed t ht).chars
  · rw [← hcuts.flatMap_toList, ← String.toList_join, String.ofList_toList]

/-- A sum of two names, with white space before the second. -/
theorem lex_eq_scan_and_runs_sum :
    scan "ab+ c" = ["ab", "+", "c"] ∧
      (∃ places : List (List Char × Token), places.map Prod.snd = ["ab", "+", "c"] ∧
        ("ab".toList, "+") ∈ places) ∧
      (∀ c ∈ "ab".toList, isDelimiter c = false) ∧ String.join ["ab", "+", "c"] = "ab+c" := by
  have hlex : lex "ab+ c" = ["ab", "+", "c"] := by decide +kernel
  obtain ⟨hscan, ⟨places, htokens, -, hplaces⟩, hchars, hjoin⟩ := lex_eq_scan_and_runs "ab+ c"
  rw [hlex] at hscan htokens hchars hjoin
  have hsign : ("ab".toList, "+") ∈ places :=
    (hplaces _ _).2 ⟨" c".toList, by decide, .delimiter (c := '+') rfl⟩
  obtain ⟨-, -, hdelimiters⟩ := hchars "ab" (by decide)
  exact ⟨hscan.symm, ⟨places, htokens, hsign⟩, hdelimiters (by decide), hjoin.trans (by decide)⟩

end LineCalc
