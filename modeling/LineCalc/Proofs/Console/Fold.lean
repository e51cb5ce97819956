import LineCalc.Console.Run
import LineCalc.Proofs.Session.History
import LineCalc.Proofs.Token.Lexing

namespace LineCalc

namespace Session

/-- What feeding some lines gives, line by line. -/
def steps (s : Session) : List String → List Step
  | [] => []
  | line :: later => s.feed line :: (s.feed line).session.steps later

theorem length_steps (s : Session) (lines : List String) :
    (s.steps lines).length = lines.length := by
  induction lines generalizing s with
  | nil => rfl
  | cons line later ih => rw [steps, List.length_cons, ih, List.length_cons]

/-- Each line is fed to the session that the lines before it have left. -/
theorem getElem?_steps {s : Session} {lines : List String} {i : ℕ} {line : String}
    (h : lines[i]? = some line) :
    (s.steps lines)[i]? = some ((s.feedAll (lines.take i)).feed line) := by
  induction lines generalizing s i with
  | nil => cases h
  | cons first later ih =>
    cases i with
    | zero =>
      obtain rfl := Option.some.inj h
      rfl
    | succ i =>
      rw [steps, List.getElem?_cons_succ, List.take_succ_cons, feedAll_cons]
      exact ih h

variable {s : Session} {line : String}

/-- An accepted line is read to its end. -/
theorem read_of_done (h : (s.feed line).report.outcome = .done) :
    (s.feed line).report.read = lex line := by
  have heffect := effect_evaluate s.table (lex line)
  simp only [feed] at h ⊢
  generalize evaluate s.table (.start (lex line)) = d at heffect h
  cases heffect with
  | refused | value => cases h
  | empty events htokens => exact htokens.symm
  | binding => exact List.reverse_reverse _

/-- A line that is accepted without a value has bound a name, unless it is blank. -/
theorem feed_of_done (hblank : Text.isBlankText line = false)
    (h : (s.feed line).report.outcome = .done) :
    ∃ name tokens v, (s.feed line).report.Binds name tokens ∧ lex line = name :: "=" :: tokens ∧
      (evaluate s.table (.start tokens)).outcome = .value v ∧
      (s.feed line).session = ⟨s.table.insert name v⟩ := by
  obtain ⟨hpasses, -⟩ | ⟨name, tokens, v, hbinds, hline, -, hvalue, hsession⟩ := feed_cases s line
  · rw [Report.Passes, h] at hpasses
    have htokens : lex line = [] := (read_of_done h).symm.trans hpasses
    rw [lex_eq_nil_iff.1 htokens] at hblank
    cases hblank
  · exact ⟨name, tokens, v, hbinds, hline, hvalue, hsession⟩

end Session

namespace Console

/-- What ends a run. -/
inductive Ending where
  | blankLine
  | undecodable
  | endOfInput
deriving DecidableEq

/-- What ends a run stands first among the lines that have not been fed. -/
inductive Ending.Heads : Ending → List (Option String) → Prop
  | blankLine {line : String} {later : List (Option String)}
      (hblank : Text.isBlankText line = true) : Heads .blankLine (some line :: later)
  | undecodable {later : List (Option String)} : Heads .undecodable (none :: later)
  | endOfInput : Heads .endOfInput []

/-- The lines that are fed are those before the first that ends the run. -/
def Course (lines : List (Option String)) (fed : List String) (ending : Ending) : Prop :=
  ∃ rest, lines = fed.map some ++ rest ∧ (∀ line ∈ fed, Text.isBlankText line = false) ∧
    ending.Heads rest

/-- The text that is shown of a line. -/
inductive Shows (o : Options) (e : Step) : String → Prop
  | value {v : Float} (hecho : o.echo = false) (houtcome : e.report.outcome = .value v) :
      Shows o e (Number.write v ++ "\n")
  | nothing (hecho : o.echo = false) (houtcome : e.report.outcome = .done) : Shows o e ""
  | fault {fault : Fault} (hecho : o.echo = false) (houtcome : e.report.outcome = .refused fault) :
      Shows o e ("Error, " ++ fault.message ++ "\n")
  | echo (hecho : o.echo = true) :
      Shows o e ("Token Stream: " ++ "  ".intercalate e.report.tokens ++ "\n" ++
        e.report.text ++ "\n" ++ "Symbol table contains " ++ e.session.table.text ++ "\n")

private theorem shows_answer (o : Options) (e : Step) : Shows o e (answer o e) := by
  unfold answer
  cases hecho : o.echo with
  | true =>
    rw [if_pos rfl]
    exact .echo hecho
  | false =>
    rw [if_neg Bool.false_ne_true]
    cases houtcome : e.report.outcome with
    | value v => exact .value hecho houtcome
    | done => exact .nothing hecho houtcome
    | refused fault => exact .fault hecho houtcome

private theorem exists_course (lines : List (Option String)) :
    ∃ fed ending, Course lines fed ending := by
  induction lines with
  | nil => exact ⟨[], .endOfInput, [], rfl, nofun, .endOfInput⟩
  | cons line later ih =>
    cases line with
    | none => exact ⟨[], .undecodable, _, rfl, nofun, .undecodable⟩
    | some line =>
      cases hblank : Text.isBlankText line with
      | true => exact ⟨[], .blankLine, _, rfl, nofun, .blankLine hblank⟩
      | false =>
        obtain ⟨fed, ending, rest, rfl, hfed, hending⟩ := ih
        exact ⟨line :: fed, ending, rest, rfl, List.forall_mem_cons.2 ⟨hblank, hfed⟩, hending⟩

/-- The exit code for what ends a run. -/
def Ending.exitCode : Ending → Nat
  | undecodable => 1
  | blankLine | endOfInput => 0

variable {o : Options} {s : Session}

theorem transcriptFrom_of_heads {ending : Ending} {rest : List (Option String)}
    (h : ending.Heads rest) (shown : String) :
    transcriptFrom o s shown rest = ⟨shown, ending.exitCode⟩ := by
  cases h with
  | blankLine hblank =>
    rw [transcriptFrom, respond, if_pos hblank]
    rfl
  | undecodable => rfl
  | endOfInput => rfl

theorem transcriptFrom_cons {line : String} (hblank : Text.isBlankText line = false)
    (shown : String) (later : List (Option String)) :
    transcriptFrom o s shown (some line :: later) =
      transcriptFrom o (s.feed line).session (shown ++ (answer o (s.feed line) ++ o.promptText))
        later := by
  rw [transcriptFrom, respond, if_neg (Bool.eq_false_iff.1 hblank)]

/-- The rest of a run shows the answers to the lines that are fed, each with a prompt after it. -/
theorem transcriptFrom_eq {ending : Ending} {rest : List (Option String)}
    (h : ending.Heads rest) {fed : List String}
    (hfed : ∀ line ∈ fed, Text.isBlankText line = false) (shown : String) :
    transcriptFrom o s shown (fed.map some ++ rest) =
      ⟨shown ++ String.join (((s.steps fed).map (answer o)).map (· ++ o.promptText)),
        ending.exitCode⟩ := by
  induction fed generalizing s shown with
  | nil =>
    rw [List.map_nil, List.nil_append, transcriptFrom_of_heads h, Session.steps, List.map_nil,
      List.map_nil, String.join_nil, String.append_empty]
  | cons line later ih =>
    obtain ⟨hline, hlater⟩ := List.forall_mem_cons.1 hfed
    rw [List.map_cons, List.cons_append, transcriptFrom_cons hline, ih hlater, Session.steps,
      List.map_cons, List.map_cons, String.join_cons, String.append_assoc]

/-- A prompt that has not been set is set to any text. -/
theorem requestFrom_prompt (h : o.prompt = none) (text : String) (rest : List String) :
    requestFrom o (("--prompt=" ++ text) :: rest) =
      requestFrom { o with prompt := some text } rest := by
  have hchars : ("--prompt=" ++ text).toList =
      '-' :: '-' :: 'p' :: 'r' :: 'o' :: 'm' :: 'p' :: 't' :: '=' :: text.toList :=
    String.toList_append
  rw [requestFrom.eq_def]
  simp only [hchars, Options.setPrompt, h, String.ofList_toList]

/-- All options can be asked for on the command line. -/
theorem exists_arguments (o : Options) :
    ∃ arguments, ∀ input, command arguments input = run o input := by
  obtain ⟨prompt, echo, quiet⟩ := o
  have hswitches : ∀ prompt, requestFrom ⟨prompt, false, false⟩
      ((if echo then ["--echo"] else []) ++ if quiet then ["--quiet"] else []) =
        .run ⟨prompt, echo, quiet⟩ := by
    intro prompt
    cases echo <;> cases quiet <;> rfl
  have hcommand {arguments : List String}
      (h : Request.ofArguments arguments = .run ⟨prompt, echo, quiet⟩) :
      ∃ arguments, ∀ input, command arguments input = run ⟨prompt, echo, quiet⟩ input := by
    refine ⟨arguments, fun input => ?_⟩
    rw [command, h]
  cases prompt with
  | none => exact hcommand (hswitches none)
  | some text => exact hcommand ((requestFrom_prompt rfl text _).trans (hswitches (some text)))

/-- A run shows the prompt, and then for each line before the one that ends it what is to be shown
of the line, and the prompt again. The lines are fed in order to one session that was new, and one
that is accepted without a value has bound a name. The exit code tells whether a line without a text
has ended the run, and nothing after the line that ends it has any effect. -/
theorem transcript_eq_fold (o : Options) (lines : List (Option String)) :
    (∃ fed ending, Course lines fed ending) ∧
    (∀ fed ending, Course lines fed ending →
      let prompt := if o.quiet then "" else o.prompt.getD "> "
      let t := transcript o lines
      (∃ texts, List.Forall₂ (Shows o) (Session.new.steps fed) texts ∧
        texts.length = fed.length ∧ t.output = prompt ++ String.join (texts.map (· ++ prompt))) ∧
      t.exitCode = (if ending = .undecodable then 1 else 0) ∧
      (∀ rest, ending.Heads rest → transcript o (fed.map some ++ rest) = t) ∧
      ∀ i line, fed[i]? = some line →
        let s := Session.new.feedAll (fed.take i)
        let e := s.feed line
        (Session.new.steps fed)[i]? = some e ∧
        (e.report.outcome = .done →
          ∃ name tokens v, e.report.Binds name tokens ∧ lex line = name :: "=" :: tokens ∧
            (evaluate s.table (.start tokens)).outcome = .value v ∧
            e.session = ⟨s.table.insert name v⟩ ∧
            ∀ other, e.session.table.get? other =
              if other = name then some v else s.table.get? other)) ∧
    ∀ input, (splitLines input).map decodeLine = lines → run o input = transcript o lines := by
  refine ⟨exists_course lines, ?_, ?_⟩
  · rintro fed ending ⟨rest, rfl, hfed, hending⟩ prompt t
    have htranscript : ∀ rest, ending.Heads rest → transcript o (fed.map some ++ rest) =
        ⟨prompt ++ String.join (((Session.new.steps fed).map (answer o)).map (· ++ prompt)),
          ending.exitCode⟩ :=
      fun rest hrest => transcriptFrom_eq hrest hfed o.promptText
    have ht := htranscript rest hending
    refine ⟨⟨(Session.new.steps fed).map (answer o), ?_, ?_, congrArg Transcript.output ht⟩, ?_, ?_,
      ?_⟩
    · exact List.forall₂_map_right_iff.2 (List.forall₂_same.2 fun e _ => shows_answer o e)
    · rw [List.length_map, Session.length_steps]
    · rw [show t = _ from ht]
      cases ending <;> rfl
    · intro other hother
      exact (htranscript other hother).trans ht.symm
    · intro i line hline s e
      refine ⟨Session.getElem?_steps hline, fun hdone => ?_⟩
      obtain ⟨name, tokens, v, hbinds, htokens, hvalue, hsession⟩ :=
        Session.feed_of_done (hfed line (List.mem_of_getElem? hline)) hdone
      exact ⟨name, tokens, v, hbinds, htokens, hvalue, hsession,
        Session.get?_of_eq_insert hsession⟩
  · intro input hlines
    rw [run, hlines]

/-- A binding is fed, and the second line is not UTF-8. -/
theorem transcript_eq_fold_undecodable :
    let o : Options := ⟨some "? ", false, true⟩
    let lines := [some "x = pi", none, some "y"]
    let input : List UInt8 := [120, 32, 61, 32, 112, 105, 13, 10, 255, 10, 121]
    let e := Session.new.feed "x = pi"
    (Course lines ["x = pi"] .undecodable ∧ (transcript o lines).exitCode = 1 ∧
      transcript o [some "x = pi", none] = transcript o lines) ∧
    (e.report.outcome = .done ∧ ∃ name tokens v, e.report.Binds name tokens ∧
      lex "x = pi" = name :: "=" :: tokens ∧ e.session.table.get? name = some v) ∧
    (splitLines input).map decodeLine = lines ∧ run o input = transcript o lines := by
  intro o lines input e
  have hcourse : Course lines ["x = pi"] .undecodable :=
    ⟨[none, some "y"], rfl, by decide +kernel, .undecodable⟩
  have hdone : e.report.outcome = .done := by decide +kernel
  have hlines : (splitLines input).map decodeLine = lines := by decide +kernel
  obtain ⟨-, hfold, hrun⟩ := transcript_eq_fold o lines
  obtain ⟨-, hexit, hlater, hfed⟩ := hfold ["x = pi"] .undecodable hcourse
  obtain ⟨name, tokens, v, hbinds, htokens, -, -, hget⟩ := (hfed 0 "x = pi" rfl).2 hdone
  exact ⟨⟨hcourse, hexit, hlater [none] .undecodable⟩,
    ⟨hdone, name, tokens, v, hbinds, htokens, (hget name).trans (if_pos rfl)⟩, hlines,
    hrun input hlines⟩

end Console

end LineCalc
