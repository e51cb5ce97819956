import LineCalc.Proofs.Console.Fold
import LineCalc.Proofs.Text.Encoding
import LineCalc.Proofs.Token.Layout
import LineCalc.Proofs.Transport.Lookahead

namespace LineCalc

open Text

/-- The tokens stay as they are while a statement is evaluated. -/
theorem tokens_evaluate (table : Table) (tokens : List Token) :
    (evaluate table (.start tokens)).cursor.tokens = tokens ++ [Token.endMark] := by
  obtain ⟨stop, hstops⟩ := exists_stops table tokens
  rw [evaluate_of_stops hstops, Stop.cursor_evaluation, hstops.tokens_eq]

namespace Session

/-- A report splits the tokens of a line into those that were read and the others. -/
theorem read_append_unread (s : Session) (line : String) :
    (s.feed line).report.read ++ (s.feed line).report.unread = lex line :=
  List.append_cancel_right (tokens_evaluate s.table (lex line))

/-- A line counts for a session by its tokens alone. -/
theorem feed_congr (s : Session) {line line' : String} (h : lex line = lex line') :
    (s.feed line).report = (s.feed line').report ∧
      (s.feed line).session = (s.feed line').session := by
  simp only [feed, h, and_self]

/-- A line may be replaced by the tokens that the report on it names. -/
theorem feed_written (s : Session) (line : String) :
    let r := (s.feed line).report
    let again := s.feed (" ".intercalate (r.read ++ r.unread))
    again.report = r ∧ again.session = (s.feed line).session := by
  intro r again
  refine s.feed_congr ?_
  rw [read_append_unread, lex_intercalate (wellFormed_lex line)]

end Session

namespace Console

variable {o : Options} {s : Session}

/-- A run goes on from a line as its tokens have it, if the line is a text. -/
theorem transcriptFrom_congr {lines lines' : List (Option String)}
    (h : lines.map (Option.map lex) = lines'.map (Option.map lex)) (shown : String) :
    transcriptFrom o s shown lines = transcriptFrom o s shown lines' := by
  induction lines generalizing lines' s shown with
  | nil =>
    obtain rfl : lines' = [] := List.map_eq_nil_iff.1 h.symm
    rfl
  | cons line later ih =>
    obtain ⟨line', later', rfl, hline, hlater⟩ := List.map_eq_cons_iff.1 h.symm
    cases line with
    | none =>
      obtain rfl : line' = none := Option.map_eq_none_iff.1 hline
      rw [transcriptFrom_of_heads .undecodable, transcriptFrom_of_heads .undecodable]
    | some line =>
      obtain ⟨line', rfl, hlex⟩ := Option.map_eq_some_iff.1 hline
      have hblank : isBlankText line' = isBlankText line := by
        rw [Bool.eq_iff_iff, ← lex_eq_nil_iff, ← lex_eq_nil_iff, hlex]
      cases hline : isBlankText line with
      | true =>
        rw [transcriptFrom_of_heads (.blankLine hline),
          transcriptFrom_of_heads (.blankLine (hblank.trans hline))]
      | false =>
        obtain ⟨hreport, hsession⟩ := s.feed_congr hlex
        have hanswer : answer o (s.feed line') = answer o (s.feed line) := by
          simp only [answer, hreport, hsession]
        rw [transcriptFrom_cons hline, transcriptFrom_cons (hblank.trans hline), hanswer, hsession]
        exact ih hlater.symm _

/-- A carriage return is a text on its own, and so it does not matter to a text before it. -/
theorem isValidUTF8_return_iff (bytes : List UInt8) :
    (bytes ++ [13]).toByteArray.IsValidUTF8 ↔ bytes.toByteArray.IsValidUTF8 := by
  have happend : (bytes ++ [13]).toByteArray = bytes.toByteArray ++ [13].toByteArray :=
    List.toByteArray_append
  constructor
  · intro h
    let text : String := ⟨_, h⟩
    have hlt : (⟨bytes.length⟩ : String.Pos.Raw) < text.rawEndPos := by
      change bytes.length < (bytes ++ [13]).toByteArray.size
      rw [List.size_toByteArray, List.length_append]
      exact Nat.lt_succ_self _
    have hbyte : text.getUTF8Byte ⟨bytes.length⟩ hlt = 13 := by
      simp only [String.getUTF8Byte, text, List.getElem_toByteArray, List.getElem_concat_length]
    have hvalid : String.Pos.Raw.IsValid text ⟨bytes.length⟩ := by
      refine String.Pos.Raw.isValid_iff_isUTF8FirstByte.2 (.inr ⟨hlt, ?_⟩)
      rw [hbyte]
      exact .inl rfl
    have hextract := (String.Pos.Raw.isValid_iff_isValidUTF8_extract_zero.1 hvalid).2
    have hbytes : (bytes ++ [13]).toByteArray.extract 0 bytes.length = bytes.toByteArray := by
      rw [happend, ByteArray.extract_append_eq_left List.size_toByteArray.symm]
    rwa [← hbytes]
  · intro h
    rw [happend]
    exact h.append "\r".isValidUTF8

private theorem fromUTF8?_return (bytes : List UInt8) :
    String.fromUTF8? (bytes ++ [13]).toByteArray =
      (String.fromUTF8? bytes.toByteArray).map (· ++ "\r") := by
  unfold String.fromUTF8?
  by_cases h : bytes.toByteArray.IsValidUTF8
  · rw [dif_pos h, dif_pos ((isValidUTF8_return_iff bytes).2 h), Option.map_some, Option.some_inj,
      ← String.toByteArray_inj, String.toByteArray_append]
    exact List.toByteArray_append
  · rw [dif_neg h, dif_neg (mt (isValidUTF8_return_iff bytes).1 h)]
    rfl

private theorem content_of_feed (bytes : List UInt8) :
    content (bytes ++ [10]) = if bytes.getLast? = some 13 then bytes.dropLast else bytes := by
  rw [content, List.getLast?_concat, if_pos rfl, List.dropLast_concat]

private theorem content_of_return_feed (bytes : List UInt8) :
    content (bytes ++ [13, 10]) = bytes := by
  have hfeed : bytes ++ [13, 10] = bytes ++ [13] ++ [10] := by simp
  rw [hfeed, content_of_feed, List.getLast?_concat, if_pos rfl, List.dropLast_concat]

/-- One more carriage return at the end of a line makes no difference. -/
theorem decodeLine_return (bytes : List UInt8) :
    (decodeLine (bytes ++ [13, 10])).map lex = (decodeLine (bytes ++ [10])).map lex := by
  rw [decodeLine, decodeLine, content_of_return_feed, content_of_feed]
  by_cases hlast : bytes.getLast? = some 13
  · rw [if_pos hlast]
    obtain ⟨before, rfl⟩ := List.getLast?_eq_some_iff.1 hlast
    rw [List.dropLast_concat, fromUTF8?_return, Option.map_map]
    congr 1
    funext line
    exact lex_append_blank (by decide) line
  · rw [if_neg hlast]

/-- The input with a carriage return before each line feed. -/
def withReturns (input : List UInt8) : List UInt8 :=
  input.flatMap fun byte => if byte = 10 then [13, 10] else [byte]

/-- A line as it was, or with a carriage return before its line feed. -/
def MayReturn (line' line : List UInt8) : Prop :=
  line' = line ∨ ∃ bytes, line' = bytes ++ [13, 10] ∧ line = bytes ++ [10]

theorem MayReturn.cons {line' line : List UInt8} (h : MayReturn line' line) (byte : UInt8) :
    MayReturn (byte :: line') (byte :: line) := by
  obtain rfl | ⟨bytes, rfl, rfl⟩ := h
  · exact .inl rfl
  · exact .inr ⟨byte :: bytes, rfl, rfl⟩

private theorem MayReturn.map_lex {line' line : List UInt8} (h : MayReturn line' line) :
    (decodeLine line').map lex = (decodeLine line).map lex := by
  obtain rfl | ⟨bytes, rfl, rfl⟩ := h
  · rfl
  · exact decodeLine_return bytes

theorem splitLines_cons_of_ne {byte : UInt8} (h : byte ≠ 10) (input : List UInt8) :
    splitLines (byte :: input) =
      match splitLines input with
      | [] => [[byte]]
      | line :: later => (byte :: line) :: later := by
  rw [splitLines, List.foldr_cons, if_neg h]
  rfl

private theorem splitLines_withReturns (input : List UInt8) :
    List.Forall₂ MayReturn (splitLines (withReturns input)) (splitLines input) := by
  induction input with
  | nil => exact .nil
  | cons byte input ih =>
    by_cases hfeed : byte = 10
    · subst hfeed
      exact .cons (.inr ⟨[], rfl, rfl⟩) ih
    · have hbyte : withReturns (byte :: input) = byte :: withReturns input := by
        rw [withReturns, List.flatMap_cons, if_neg hfeed]
        rfl
      rw [hbyte, splitLines_cons_of_ne hfeed, splitLines_cons_of_ne hfeed]
      generalize splitLines (withReturns input) = lines', splitLines input = lines at ih
      cases ih with
      | nil => exact .cons (.inl rfl) .nil
      | cons hline hlater => exact .cons (hline.cons byte) hlater

/-- An input may end its lines either way. -/
theorem run_withReturns (o : Options) (input : List UInt8) :
    run o (withReturns input) = run o input := by
  have hsplit := splitLines_withReturns input
  refine transcriptFrom_congr ?_ _
  rw [List.map_map, List.map_map]
  generalize splitLines (withReturns input) = lines', splitLines input = lines at hsplit
  induction hsplit with
  | nil => rfl
  | cons hline hlater ih =>
    rw [List.map_cons, List.map_cons, ih]
    exact congrArg (· :: _) hline.map_lex

/-- The bytes of some lines, each with an ending. -/
def encodeLines (ending : List UInt8) (lines : List String) : List UInt8 :=
  lines.flatMap fun line => utf8 line ++ ending

private theorem splitLines_append_feed {bytes : List UInt8} (h : 10 ∉ bytes) (later : List UInt8) :
    splitLines (bytes ++ 10 :: later) = (bytes ++ [10]) :: splitLines later := by
  induction bytes with
  | nil => rfl
  | cons byte bytes ih =>
    rw [List.mem_cons, not_or] at h
    obtain ⟨hbyte, hbytes⟩ := h
    rw [List.cons_append, splitLines_cons_of_ne (Ne.symm hbyte), ih hbytes, List.cons_append]

/-- Lines that are written with carriage returns and line feeds are read back. -/
theorem map_decodeLine_encodeLines {lines : List String} (h : ∀ line ∈ lines, '\n' ∉ line.toList) :
    (splitLines (encodeLines [13, 10] lines)).map decodeLine = lines.map some := by
  induction lines with
  | nil => rfl
  | cons line later ih =>
    obtain ⟨hline, hlater⟩ := List.forall_mem_cons.1 h
    have hfeed : 10 ∉ utf8 line ++ [13] := by
      have hutf8 := mt feed_mem_utf8_iff.1 hline
      simpa using hutf8
    have hbytes : encodeLines [13, 10] (line :: later) =
        (utf8 line ++ [13]) ++ 10 :: encodeLines [13, 10] later := by
      simp [encodeLines]
    have hreturn : utf8 line ++ [13] ++ [10] = utf8 line ++ [13, 10] := by simp
    rw [hbytes, splitLines_append_feed hfeed, List.map_cons, ih hlater, hreturn, decodeLine,
      content_of_return_feed, fromUTF8?_utf8, List.map_cons]

private theorem withReturns_encodeLines {lines : List String}
    (h : ∀ line ∈ lines, '\n' ∉ line.toList) :
    withReturns (encodeLines [10] lines) = encodeLines [13, 10] lines := by
  rw [withReturns, encodeLines, encodeLines, List.flatMap_assoc]
  refine List.flatMap_congr fun line hline => ?_
  have hbytes : ∀ byte ∈ utf8 line, (if byte = 10 then [13, 10] else [byte]) = [byte] := by
    intro byte hbyte
    refine if_neg fun hfeed => h line hline (feed_mem_utf8_iff.1 ?_)
    rwa [← hfeed]
  rw [List.flatMap_append, List.flatMap_congr hbytes, List.flatMap_singleton']
  rfl

/-- Lines are fed as they are, whichever ending they are written with. -/
theorem run_encodeLines (o : Options) {lines : List String}
    (h : ∀ line ∈ lines, '\n' ∉ line.toList) :
    run o (encodeLines [13, 10] lines) = transcript o (lines.map some) ∧
      run o (encodeLines [10] lines) = transcript o (lines.map some) := by
  have hreturns : run o (encodeLines [13, 10] lines) = transcript o (lines.map some) := by
    rw [run, map_decodeLine_encodeLines h]
  refine ⟨hreturns, ?_⟩
  rw [← run_withReturns, withReturns_encodeLines h, hreturns]

end Console

/-- Layout makes no difference. Well-formed tokens that are written out with white space around
them, and between two of them at least where neither is a delimiter, are the tokens of what is
written. So a session takes the tokens that a report names, with a space between any two, for the
line that the report is on, and takes a line in which each line feed has a carriage return before
it for the line without these. A run shows the same for an input with either ending of lines, and
what is written with either is fed line by line as it was. -/
theorem layout_irrelevant :
    (∀ (lead : String) (pieces : List (Token × String)), isBlankText lead = true →
      (∀ p ∈ pieces, p.1.WellFormed) → (∀ p ∈ pieces, isBlankText p.2 = true) →
      (pieces.IsChain fun p q => p.2 = "" → p.1.StandsAlone ∨ q.1.StandsAlone) →
      lex (lead ++ String.join (pieces.map fun p => p.1 ++ p.2)) = pieces.map Prod.fst) ∧
    (∀ (s : Session) (line : String),
      let r := (s.feed line).report
      let again := s.feed (" ".intercalate (r.read ++ r.unread))
      again.report = r ∧ again.session = (s.feed line).session) ∧
    (∀ (s : Session) (line : String),
      let returned := String.ofList
        (line.toList.flatMap fun c => if c = '\n' then ['\r', '\n'] else [c])
      (s.feed returned).report = (s.feed line).report ∧
        (s.feed returned).session = (s.feed line).session) ∧
    (∀ (o : Console.Options) (input : List UInt8),
      Console.run o (input.flatMap fun byte => if byte = 10 then [13, 10] else [byte]) =
        Console.run o input) ∧
    ∀ (o : Console.Options) (lines : List String), (∀ line ∈ lines, '\n' ∉ line.toList) →
      let t := Console.transcript o (lines.map some)
      Console.run o (lines.flatMap fun line => utf8 line ++ [13, 10]) = t ∧
        Console.run o (lines.flatMap fun line => utf8 line ++ [10]) = t := by
  refine ⟨fun lead pieces => lex_written lead pieces, fun s line => s.feed_written line,
    fun s line => s.feed_congr ?_, Console.run_withReturns,
    fun o lines => Console.run_encodeLines o⟩
  rw [lex_eq_cut, String.toList_ofList, lex_eq_cut]
  refine cut_flatMap (fun c hc => ?_) (fun c hc => ?_) line.toList
  · split
    · exact ⟨List.cons_ne_nil _ _, List.all_eq_true.1 (by decide)⟩
    · exact ⟨List.cons_ne_nil _ _, by simpa using hc⟩
  · rw [if_neg]
    rintro rfl
    cases hc

/-- No white space is needed next to the sign of a binding, and any will do elsewhere. As a line of
an input the binding is fed without the ending. -/
theorem layout_irrelevant_binding :
    let pieces : List (Token × String) :=
      [("x", ""), ("=", ""), ("ab", "\t"), ("*", " "), ("y", "\r")]
    let line := " " ++ String.join (pieces.map fun p => p.1 ++ p.2)
    (∀ p ∈ pieces, p.1.WellFormed) ∧ (∀ p ∈ pieces, isBlankText p.2 = true) ∧
      (pieces.IsChain fun p q => p.2 = "" → p.1.StandsAlone ∨ q.1.StandsAlone) ∧
      lex line = ["x", "=", "ab", "*", "y"] ∧ '\n' ∉ line.toList ∧
      Console.run .default (utf8 line ++ [13, 10]) = Console.transcript .default [some line] := by
  intro pieces line
  have hsign : Token.StandsAlone "=" := ⟨'=', rfl, rfl⟩
  have htokens : ∀ p ∈ pieces, p.1.WellFormed := by
    simp only [pieces, List.forall_mem_cons]
    have hname {t : Token} (hne : t ≠ "") (hplain : t.toList.all isPlain = true) : t.WellFormed :=
      .inr ⟨hne, List.all_eq_true.1 hplain⟩
    exact ⟨hname (by decide) (by decide), .inl hsign, hname (by decide) (by decide),
      .inl ⟨'*', rfl, rfl⟩, hname (by decide) (by decide), List.forall_mem_nil _⟩
  have hgaps : ∀ p ∈ pieces, isBlankText p.2 = true := List.all_eq_true.1 (by decide)
  have habut : pieces.IsChain fun p q => p.2 = "" → p.1.StandsAlone ∨ q.1.StandsAlone := by
    simp only [pieces, List.isChain_cons_cons]
    exact ⟨fun _ => .inr hsign, fun _ => .inl hsign, nofun, nofun, List.isChain_singleton _⟩
  have hfeed : '\n' ∉ line.toList := by decide
  obtain ⟨hlex, -, -, -, hrun⟩ := layout_irrelevant
  have hfed := (hrun .default [line] (List.forall_mem_singleton.2 hfeed)).1
  rw [List.flatMap_singleton] at hfed
  exact ⟨htokens, hgaps, habut, hlex " " pieces rfl htokens hgaps habut, hfeed, hfed⟩

end LineCalc
