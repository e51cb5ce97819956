import LineCalc.Proofs.Console.Fold
import LineCalc.Proofs.Console.Layout
import LineCalc.Proofs.Diagnosis.Place
import LineCalc.Proofs.Session.Printed
import LineCalc.Proofs.Session.ReadBack
import LineCalc.Proofs.Text.OneLine

namespace LineCalc

open Text (OneLine endedLines)

variable {table : Table} {tokens : List Token} {fault : Fault}

/-- A fault that points at a place names a token of the statement. -/
theorem Fault.PointsAt.token?_mem {stream : List Token} {p : ℕ} {t : Token}
    (h : fault.PointsAt table stream p) (ht : fault.token? = some t) : t ∈ stream := by
  cases fault with
  | unbalanced | tooDeep => cases ht
  | operandExpected | malformedNumber | unboundName | unexpectedToken =>
    obtain rfl := Option.some.inj ht
    exact List.mem_of_getElem? h
  | argumentExpected =>
    obtain rfl := Option.some.inj ht
    exact List.mem_of_getElem? h.2.1
  | unknownFunction =>
    obtain rfl := Option.some.inj ht
    obtain ⟨⟨i, -, hi, -⟩, -⟩ := h
    exact List.mem_of_getElem? hi

/-- A fault in what remains names the first token that is left over. -/
theorem token?_of_remainingFault? {r : Reading} {t : Token}
    (h : remainingFault? table r = some fault) (ht : fault.token? = some t) :
    t = r.cursor.current := by
  obtain ⟨-, rfl⟩ | ⟨-, -, ⟨-, -, rfl⟩ | rfl⟩ := remainingFault?_cases h
  · cases ht
  · exact (Option.some.inj ht).symm
  · exact (Option.some.inj ht).symm

/-- The token that a fault names is one of the statement, or the end mark. -/
theorem token?_mem_of_refused {t : Token}
    (h : (evaluate table (.start tokens)).outcome = .refused fault) (ht : fault.token? = some t) :
    t ∈ tokens ++ [Token.endMark] := by
  have hrefusal := refusal_of_evaluate h
  generalize (evaluate table (.start tokens)).cursor = c at hrefusal
  cases hrefusal with
  | failed hfits hsteps hstep =>
    rw [← Opening.tokens_of_steps (hsteps.tail hstep)]
    exact ((Machine.placed_of_steps hfits hsteps).pointsAt hstep).token?_mem ht
  | remaining hfits hsteps hremaining =>
    rw [← Opening.tokens_of_steps hsteps, token?_of_remainingFault? hremaining ht]
    exact List.mem_of_getElem? (Cursor.getElem?_position _)
  | nothing hbegins hremaining =>
    rw [token?_of_remainingFault? hremaining ht]
    exact List.mem_of_getElem? (Cursor.getElem?_position (.start tokens))

/-- Nothing that a line has put into its report and its session goes on in another line: no token,
no token that a fault names, and no name that is bound. -/
structure Step.Unbroken (e : Step) : Prop where
  tokens : ∀ t ∈ e.report.tokens, OneLine t
  read : ∀ t ∈ e.report.read, OneLine t
  unread : ∀ t ∈ e.report.unread, OneLine t
  fault : ∀ fault t, e.report.outcome = .refused fault → fault.token? = some t → OneLine t
  names : ∀ b ∈ e.session.table.bindings, OneLine b.1

namespace Session

variable {s : Session} {line : String}

theorem oneLine_of_mem_tokens {t : Token} (h : t ∈ lex line ++ [Token.endMark]) : OneLine t := by
  obtain htoken | hmark := List.mem_append.1 h
  · exact (wellFormed_lex line t htoken).oneLine
  · rw [List.mem_singleton.1 hmark]
    decide

private theorem oneLine_of_mem_bindings (h : s.table.BindsNames) :
    ∀ b ∈ s.table.bindings, OneLine b.1 := by
  intro b hb
  have hbound : s.table.contains b.1 = true :=
    Table.contains_eq_true_iff.2 ⟨b.2, Table.mem_bindings_iff.1 hb⟩
  exact Token.oneLine_of_isName (h b.1 hbound).1

/-- A session that binds names only is fed no line that breaks what is shown. -/
theorem unbroken_feed (h : s.table.BindsNames) (line : String) : (s.feed line).Unbroken where
  tokens t ht := by
    have htokens : (s.feed line).report.tokens = lex line ++ [Token.endMark] :=
      tokens_evaluate s.table (lex line)
    rw [htokens] at ht
    exact oneLine_of_mem_tokens ht
  read t ht := by
    have hmem : t ∈ lex line := read_append_unread s line ▸ List.mem_append_left _ ht
    exact oneLine_of_mem_tokens (List.mem_append_left _ hmem)
  unread t ht := by
    have hmem : t ∈ lex line := read_append_unread s line ▸ List.mem_append_right _ ht
    exact oneLine_of_mem_tokens (List.mem_append_left _ hmem)
  fault fault t hrefused ht := oneLine_of_mem_tokens (token?_mem_of_refused hrefused ht)
  names := oneLine_of_mem_bindings (bindsNames_feed line h)

/-- Tokens are left unread by refused lines only. -/
theorem refused_of_unread (h : (s.feed line).report.unread ≠ []) :
    ∃ fault, (s.feed line).report.outcome = .refused fault := by
  have heffect := effect_evaluate s.table (lex line)
  simp only [feed] at h ⊢
  generalize evaluate s.table (.start (lex line)) = d at heffect h
  cases heffect with
  | refused fault => exact ⟨fault, rfl⟩
  | empty | value | binding => exact absurd rfl h

/-- The lines of a run are fed to sessions that come of earlier lines. -/
theorem exists_feed_of_mem_steps {lines : List String} {e : Step}
    (h : e ∈ new.steps lines) :
    ∃ before line, line ∈ lines ∧ e = (new.feedAll before).feed line := by
  obtain ⟨i, hi⟩ := List.getElem?_of_mem h
  obtain ⟨hlt, -⟩ := List.getElem?_eq_some_iff.1 hi
  rw [length_steps] at hlt
  have hline : lines[i]? = some lines[i] := List.getElem?_eq_getElem hlt
  rw [getElem?_steps hline] at hi
  exact ⟨lines.take i, lines[i], List.getElem_mem hlt, (Option.some.inj hi).symm⟩

end Session

namespace Console

variable {o : Options}

/-- The lines about tokens that were left over. -/
def leftoverTexts (r : Report) : List String := if r.unread = [] then [] else ["Syntax error:"]

/-- The lines that are shown of a line. -/
def answerTexts (o : Options) (e : Step) : List String :=
  if o.echo then
    ["Token Stream: " ++ "  ".intercalate e.report.tokens, Report.outcomeLine e.report.outcome] ++
      leftoverTexts e.report ++
      ["read | un-read: " ++ " ".intercalate e.report.read ++ " | " ++
        " ".intercalate e.report.unread, "Symbol table contains " ++ e.session.table.text]
  else
    match e.report.outcome with
    | .value value => [Number.write value]
    | .done => []
    | .refused fault => ["Error, " ++ fault.message]

/-- What is shown of a line are these lines, each ended by a line feed. -/
theorem answer_eq (o : Options) (e : Step) : answer o e = endedLines (answerTexts o e) := by
  have hleftover : (if e.report.unread.isEmpty then "" else "Syntax error:\n") =
      endedLines (leftoverTexts e.report) := by
    rw [leftoverTexts]
    cases e.report.unread <;> rfl
  rw [answer, answerTexts]
  split
  · rw [Report.text, hleftover, Text.endedLines_append, Text.endedLines_append]
    simp only [Text.endedLines_cons, Text.endedLines_nil, String.append_empty, String.append_assoc]
  · cases e.report.outcome with
    | value value => rw [Text.endedLines_cons, Text.endedLines_nil, String.append_empty]
    | done => rfl
    | refused fault => rw [Text.endedLines_cons, Text.endedLines_nil, String.append_empty]

/-- What begins in another way is another text. -/
theorem append_ne {start text : String} (h : ¬ start.toList <+: text.toList) (rest : String) :
    text ≠ start ++ rest := by
  rintro rfl
  exact h ⟨rest.toList, String.toList_append.symm⟩

private theorem outcomeLine_ne (outcome : Outcome) :
    "Syntax error:" ≠ Report.outcomeLine outcome := by
  cases outcome with
  | value | refused => exact append_ne (by decide) _
  | done => decide

/-- A line tells of tokens that were left over just if there are some. -/
theorem syntaxError_mem_iff {e : Step} (hecho : o.echo = true) :
    "Syntax error:" ∈ answerTexts o e ↔ e.report.unread ≠ [] := by
  rw [answerTexts, if_pos hecho, leftoverTexts]
  constructor
  · intro hmem hunread
    rw [if_pos hunread] at hmem
    simp only [List.append_nil, List.mem_append, List.mem_cons, List.not_mem_nil, or_false] at hmem
    obtain (h | h) | h | h := hmem
    · exact append_ne (by decide) _ h
    · exact outcomeLine_ne _ h
    · rw [String.append_assoc, String.append_assoc] at h
      exact append_ne (by decide) _ h
    · exact append_ne (by decide) _ h
  · intro hunread
    rw [if_neg hunread]
    exact List.mem_append_left _ (List.mem_append_right _ (List.mem_cons_self ..))

private theorem length_answerTexts (o : Options) (e : Step) :
    (answerTexts o e).length =
      if o.echo then if e.report.unread = [] then 4 else 5
      else if e.report.outcome = .done then 0 else 1 := by
  rw [answerTexts]
  by_cases hecho : o.echo = true
  · rw [if_pos hecho, if_pos hecho, leftoverTexts]
    by_cases hunread : e.report.unread = []
    · rw [if_pos hunread, if_pos hunread]
      rfl
    · rw [if_neg hunread, if_neg hunread]
      rfl
  · rw [if_neg hecho, if_neg hecho]
    cases e.report.outcome with
    | value | refused => rw [if_neg nofun]; rfl
    | done => rw [if_pos rfl]; rfl

/-- The lines about a line that were not broken by it are one line each. -/
theorem oneLine_answerTexts {e : Step} (h : e.Unbroken) :
    ∀ text ∈ answerTexts o e, OneLine text := by
  have hleftover : ∀ text ∈ leftoverTexts e.report, OneLine text := by
    rw [leftoverTexts]
    split
    · exact List.forall_mem_nil _
    · exact List.forall_mem_singleton.2 (by decide)
  rw [answerTexts]
  split
  · have houtcome : OneLine (Report.outcomeLine e.report.outcome) := by
      cases houtcome : e.report.outcome with
      | value v => exact .append (by decide) (Number.oneLine_write v)
      | done => exact show OneLine "Statement successfully assigned" by decide
      | refused fault =>
        exact .append (by decide) (Fault.oneLine_message fun t => h.fault fault t houtcome)
    have htokens : OneLine ("Token Stream: " ++ "  ".intercalate e.report.tokens) :=
      .append (by decide) (.intercalate (by decide) h.tokens)
    have hplace : OneLine ("read | un-read: " ++ " ".intercalate e.report.read ++ " | " ++
        " ".intercalate e.report.unread) :=
      .append (.append (.append (by decide) (.intercalate (by decide) h.read)) (by decide))
        (.intercalate (by decide) h.unread)
    have htable : OneLine ("Symbol table contains " ++ e.session.table.text) :=
      .append (by decide) (Table.oneLine_text h.names)
    refine List.forall_mem_append.2 ⟨List.forall_mem_append.2 ⟨?_, hleftover⟩, ?_⟩
    · exact List.forall_mem_cons.2 ⟨htokens, List.forall_mem_singleton.2 houtcome⟩
    · exact List.forall_mem_cons.2 ⟨hplace, List.forall_mem_singleton.2 htable⟩
  · cases houtcome : e.report.outcome with
    | value v => exact List.forall_mem_singleton.2 (Number.oneLine_write v)
    | done => exact List.forall_mem_nil _
    | refused fault =>
      refine List.forall_mem_singleton.2 (.append (by decide) ?_)
      exact Fault.oneLine_message fun t => h.fault fault t houtcome

/-- What is fed cannot break up what is shown of it. A run without prompts shows texts on one line
each, ended by line feeds, so that they are got back by cutting at the line feeds. Without echo one
such line is shown for each fed line that has a value or is refused, and none for a binding. With
echo four are shown for each fed line, and a fifth which tells of tokens that were left unread just
if there are such tokens, which is only if the line is refused. No token of a report, no token that
a fault names and no bound name holds a line break. -/
theorem transcript_framed (o : Options) (lines : List (Option String)) (fed : List String)
    (ending : Ending) (hquiet : o.quiet = true) (hcourse : Course lines fed ending) :
    let steps := Session.new.steps fed
    let texts := steps.flatMap (answerTexts o)
    let output := (transcript o lines).output
    output = endedLines texts ∧
    output.toList.splitOn '\n' = texts.map String.toList ++ [[]] ∧
    (∀ text ∈ texts, OneLine text) ∧
    steps.length = fed.length ∧
    ∀ e ∈ steps,
      answer o e = endedLines (answerTexts o e) ∧
      (answerTexts o e).length =
        (if o.echo then if e.report.unread = [] then 4 else 5
         else if e.report.outcome = .done then 0 else 1) ∧
      (e.report.outcome = .done → ∃ name tokens, e.report.Binds name tokens) ∧
      (o.echo = true → ("Syntax error:" ∈ answerTexts o e ↔ e.report.unread ≠ [])) ∧
      (e.report.unread ≠ [] → ∃ fault, e.report.outcome = .refused fault) ∧
      e.Unbroken := by
  intro steps texts output
  have hstep : ∀ e ∈ steps, ∃ before line, Text.isBlankText line = false ∧
      e = (Session.new.feedAll before).feed line := by
    intro e he
    obtain ⟨before, line, hline, rfl⟩ := Session.exists_feed_of_mem_steps he
    obtain ⟨-, -, hfed, -⟩ := hcourse
    exact ⟨before, line, hfed line hline, rfl⟩
  have hunbroken : ∀ e ∈ steps, e.Unbroken := by
    intro e he
    obtain ⟨before, line, -, rfl⟩ := hstep e he
    exact Session.unbroken_feed (Session.bindsNames_feedAll before) line
  have houtput : output = endedLines texts := by
    rw [Text.endedLines_flatMap, ← List.map_congr_left fun e _ => answer_eq o e]
    exact congrArg Transcript.output (transcript_of_quiet hquiet hcourse)
  have htexts : ∀ text ∈ texts, OneLine text := by
    intro text htext
    obtain ⟨e, he, hmem⟩ := List.mem_flatMap.1 htext
    exact oneLine_answerTexts (hunbroken e he) text hmem
  refine ⟨houtput, houtput ▸ Text.splitOn_endedLines htexts, htexts, Session.length_steps _ _,
    fun e he => ?_⟩
  refine ⟨answer_eq o e, length_answerTexts o e, fun hdone => ?_, syntaxError_mem_iff,
    fun hunread => ?_, hunbroken e he⟩
  · obtain ⟨before, line, hblank, rfl⟩ := hstep e he
    obtain ⟨name, tokens, -, hbinds, -⟩ := Session.feed_of_done hblank hdone
    exact ⟨name, tokens, hbinds⟩
  · obtain ⟨before, line, -, rfl⟩ := hstep e he
    exact Session.refused_of_unread hunread

/-- A binding is fed, and then two names with a line break of Unicode between them, of which the
second is left unread. -/
theorem transcript_framed_unread :
    let o : Options := ⟨none, true, true⟩
    let fed := ["x = 2", "x\u0085y"]
    let bound := Session.new.feed "x = 2"
    let refused := bound.session.feed "x\u0085y"
    Course (fed.map some) fed .endOfInput ∧
      (transcript o (fed.map some)).output =
        endedLines (answerTexts o bound ++ answerTexts o refused) ∧
      (∃ name tokens, bound.report.Binds name tokens) ∧
      (answerTexts o bound).length = 4 ∧ (answerTexts o refused).length = 5 ∧
      "Syntax error:" ∈ answerTexts o refused ∧ OneLine "y" := by
  intro o fed bound refused
  have hcourse : Course (fed.map some) fed .endOfInput :=
    ⟨[], rfl, by decide +kernel, .endOfInput⟩
  have hdone : bound.report.outcome = .done := by decide +kernel
  have hread : bound.report.unread = [] := by decide +kernel
  have hunread : refused.report.unread ≠ [] := by decide +kernel
  have hrefused : refused.report.outcome = .refused (.unboundName "y") := by decide +kernel
  obtain ⟨houtput, -, -, -, hsteps⟩ :=
    transcript_framed o (fed.map some) fed .endOfInput rfl hcourse
  obtain ⟨-, hlength, hbinds, -⟩ := hsteps bound (List.mem_cons_self ..)
  obtain ⟨-, hlength', -, hleftover, -, hunbroken⟩ :=
    hsteps refused (List.mem_cons_of_mem _ (List.mem_cons_self ..))
  rw [hread] at hlength
  rw [if_pos rfl, if_neg hunread] at hlength'
  exact ⟨hcourse, houtput, hbinds hdone, hlength, hlength', (hleftover rfl).2 hunread,
    hunbroken.fault _ _ hrefused rfl⟩

end Console

end LineCalc
