import Mathlib.Data.List.Chain
import LineCalc.Proofs.Token.Runs

namespace LineCalc

open Text

variable {blank : List Char} {t : Token}

theorem wellFormed_lex (line : String) : ∀ t ∈ lex line, t.WellFormed := (cuts_lex line).wellFormed

/-- White space before a text is passed over. -/
theorem cut_blank_append (hblank : ∀ c ∈ blank, isBlank c = true) (text : List Char) :
    cut (blank ++ text) = cut text := by
  induction blank with
  | nil => rfl
  | cons c blank ih =>
    obtain ⟨hc, hblank⟩ := List.forall_mem_cons.1 hblank
    rw [List.cons_append, cut_cons_of_isBlank hc, ih hblank]

/-- White space after a text is passed over. -/
theorem cut_append_blank (hblank : ∀ c ∈ blank, isBlank c = true) (text : List Char) :
    cut (text ++ blank) = cut text := by
  have hspaces : blank.flatMap spaceOut = blank :=
    flatMap_spaceOut_of_not_isDelimiter fun c hc => isDelimiter_of_isBlank (hblank c hc)
  cases blank with
  | nil => rw [List.append_nil]
  | cons c blank =>
    obtain ⟨hc, hrest⟩ := List.forall_mem_cons.1 hblank
    rw [cut, List.flatMap_append, hspaces, words_append_of_isBlank hc, words_eq_nil_iff.2 hrest,
      List.append_nil, cut]

/-- White space may be widened, each character of it on its own. -/
theorem cut_flatMap {widen : Char → List Char}
    (hblank : ∀ c, isBlank c = true → widen c ≠ [] ∧ ∀ d ∈ widen c, isBlank d = true)
    (hother : ∀ c, isBlank c = false → widen c = [c]) (text : List Char) :
    cut (text.flatMap widen) = cut text := by
  have hcuts : Cuts text (cut text) := cuts_append text [] (List.forall_mem_nil _)
  generalize cut text = tokens at hcuts
  induction hcuts with
  | nil => rfl
  | blank hc h ih => rw [List.flatMap_cons, cut_blank_append (hblank _ hc).2, ih]
  | delimiter hc h ih =>
    rw [List.flatMap_cons, hother _ (isBlank_of_isDelimiter hc), List.singleton_append,
      cut_cons_of_isDelimiter hc, ih]
  | @run run text tokens hne hrun hend h ih =>
    have hsame : run.flatMap widen = run := by
      have hmap : run.flatMap widen = run.flatMap fun c => [c] :=
        List.flatMap_congr fun c hc => hother c (isPlain_iff.1 (hrun c hc)).1
      rw [hmap, List.flatMap_singleton']
    have hends : EndsRun (text.flatMap widen) := by
      cases text with
      | nil => nofun
      | cons c text =>
        intro d hd
        cases hc : isBlank c with
        | true =>
          obtain ⟨hne, hall⟩ := hblank c hc
          obtain ⟨e, later, heq⟩ := List.exists_cons_of_ne_nil hne
          rw [List.flatMap_cons, heq] at hd
          obtain rfl := Option.some.inj hd
          simp [isPlain, hall e (heq ▸ List.mem_cons_self ..)]
        | false =>
          rw [List.flatMap_cons, hother c hc] at hd
          obtain rfl := Option.some.inj hd
          exact hend c rfl
    rw [List.flatMap_append, hsame, cut_run_append hrun hends, runToken_of_ne_nil hne, ih]
    rfl

/-- Tokens written out, each with the white space after it. -/
def written (pieces : List (Token × String)) : List Char :=
  pieces.flatMap fun p => p.1.toList ++ p.2.toList

/-- Two tokens may stand side by side without white space if one of them is a delimiter. -/
def MayAbut (p q : Token × String) : Prop := p.2 = "" → p.1.StandsAlone ∨ q.1.StandsAlone

private theorem Token.not_standsAlone_of_isPlain (h : ∀ c ∈ t.toList, isPlain c = true) :
    ¬ t.StandsAlone := by
  rintro ⟨c, hc, rfl⟩
  have hplain := h c (by simp)
  rw [(isPlain_iff.1 hplain).2] at hc
  cases hc

/-- A run is over where the white space after it begins, or the delimiter after it. -/
theorem endsRun_written {pieces : List (Token × String)} {p : Token × String}
    (hgap : ∀ c ∈ p.2.toList, isBlank c = true) (hrun : ∀ c ∈ p.1.toList, isPlain c = true)
    (habut : (p :: pieces).IsChain MayAbut) : EndsRun (p.2.toList ++ written pieces) := by
  intro c hc
  cases hspace : p.2.toList with
  | cons d later =>
    rw [hspace] at hgap hc
    obtain rfl := Option.some.inj hc
    simp [isPlain, hgap d (List.mem_cons_self ..)]
  | nil =>
    rw [hspace, List.nil_append] at hc
    cases pieces with
    | nil => cases hc
    | cons q pieces =>
      have hempty : p.2 = "" := String.toList_eq_nil_iff.1 hspace
      obtain hp | ⟨d, hd, hq⟩ := (List.isChain_cons_cons.1 habut).1 hempty
      · exact absurd hp (Token.not_standsAlone_of_isPlain hrun)
      · rw [written, List.flatMap_cons, hq, String.toList_singleton] at hc
        obtain rfl := Option.some.inj hc
        simp [isPlain, hd]

private theorem cut_written {pieces : List (Token × String)}
    (htokens : ∀ p ∈ pieces, p.1.WellFormed)
    (hgaps : ∀ p ∈ pieces, ∀ c ∈ p.2.toList, isBlank c = true)
    (habut : pieces.IsChain MayAbut) : cut (written pieces) = pieces.map Prod.fst := by
  induction pieces with
  | nil => rfl
  | cons p pieces ih =>
    obtain ⟨htoken, htokens⟩ := List.forall_mem_cons.1 htokens
    obtain ⟨hgap, hgaps⟩ := List.forall_mem_cons.1 hgaps
    have hrest : cut (p.2.toList ++ written pieces) = pieces.map Prod.fst :=
      (cut_blank_append hgap _).trans (ih htokens hgaps habut.tail)
    have hcons : written (p :: pieces) = p.1.toList ++ (p.2.toList ++ written pieces) := by
      rw [written, List.flatMap_cons, List.append_assoc, written]
    rw [hcons, List.map_cons, ← hrest]
    obtain ⟨c, hc, htoken⟩ | ⟨hne, hrun⟩ := htoken
    · rw [htoken, String.toList_singleton, List.singleton_append, cut_cons_of_isDelimiter hc]
    · have hne' : p.1.toList ≠ [] := mt String.toList_eq_nil_iff.1 hne
      rw [cut_run_append hrun (endsRun_written hgap hrun habut), runToken_of_ne_nil hne',
        String.ofList_toList]
      rfl

/-- Tokens written out in any layout are read back. -/
theorem lex_written (lead : String) (pieces : List (Token × String))
    (hlead : isBlankText lead = true) (htokens : ∀ p ∈ pieces, p.1.WellFormed)
    (hgaps : ∀ p ∈ pieces, isBlankText p.2 = true) (habut : pieces.IsChain MayAbut) :
    lex (lead ++ String.join (pieces.map fun p => p.1 ++ p.2)) = pieces.map Prod.fst := by
  have hchars : (lead ++ String.join (pieces.map fun p => p.1 ++ p.2)).toList =
      lead.toList ++ written pieces := by
    simp [written, List.flatMap_map]
  rw [lex_eq_cut, hchars, cut_blank_append (List.all_eq_true.1 hlead),
    cut_written htokens (fun p hp => List.all_eq_true.1 (hgaps p hp)) habut]

/-- A token on its own is read back. -/
theorem Token.WellFormed.lex_eq (h : t.WellFormed) : lex t = [t] := by
  have hpiece := lex_written "" [(t, "")] rfl (by simpa using h) (by simp [isBlankText])
    (List.isChain_singleton _)
  simpa using hpiece

/-- Tokens written out with a space between any two are read back. -/
theorem lex_intercalate {tokens : List Token} (h : ∀ t ∈ tokens, t.WellFormed) :
    lex (" ".intercalate tokens) = tokens := by
  induction tokens with
  | nil => rfl
  | cons t tokens ih =>
    obtain ⟨ht, htokens⟩ := List.forall_mem_cons.1 h
    by_cases hne : tokens = []
    · rw [hne, String.intercalate_singleton, ht.lex_eq]
    · rw [String.intercalate_cons_of_ne_nil hne, lex_append_space, ht.lex_eq, ih htokens]
      rfl

/-- White space at the end of a line makes no difference. -/
theorem lex_append_blank {later : String} (h : isBlankText later = true) (line : String) :
    lex (line ++ later) = lex line := by
  rw [lex_eq_cut, String.toList_append, cut_append_blank (List.all_eq_true.1 h), lex_eq_cut]

end LineCalc
