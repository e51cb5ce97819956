import LineCalc.Proofs.Console.Fold
import LineCalc.Proofs.Number.Written

namespace LineCalc

open Number

/-- The tokens of a line that binds a name. -/
theorem lex_binding {name : Token} (hname : name.isName = true) (text : String) :
    lex (name ++ " = " ++ text) = name :: "=" :: lex text := by
  have hline : name ++ " = " ++ text =
      name ++ " " ++ (String.singleton '=' ++ ("" ++ " " ++ text)) := by
    simp [← String.toList_inj]
  rw [hline, lex_append_space, Token.lex_of_isName hname,
    lex_append_delimiter (by decide) (by decide), lex_append_space]
  rfl

/-- The value, if there is one. -/
def Outcome.value? : Outcome → Option Float
  | value v => some v
  | done => none
  | refused _ => none

private theorem Outcome.value?_eq_some_iff {outcome : Outcome} {v : Float} :
    outcome.value? = some v ↔ outcome = value v := by
  cases outcome <;> simp [value?]

/-- The value of a line, if it has one that is finite. -/
def Step.finiteValue? (e : Step) : Option Float := e.report.outcome.value?.filter Float.isFinite

private theorem Step.finiteValue?_eq_some_iff {e : Step} {v : Float} :
    e.finiteValue? = some v ↔ e.report.outcome = .value v ∧ v.isFinite = true := by
  rw [finiteValue?, Option.filter_eq_some_iff, Outcome.value?_eq_some_iff]

theorem evaluate_write (table : Table) {v : Float} (h : v.isFinite = true) :
    (evaluate table (.start (lex (write v)))).outcome = .value v ∧
      (evaluate table (.start (lex (write v)))).table = table := by
  obtain ⟨e, htokens, rfl, hlevel⟩ := exists_phrase_of_write table h
  obtain ⟨r, -, heq⟩ := evaluate_of_phrase (o := .none) trivial e (hlevel.trans (by decide))
  rw [htokens]
  exact ⟨congrArg Evaluation.outcome heq, congrArg Evaluation.table heq⟩

namespace Session

variable {v : Float} {name : Token}

/-- The text of a finite number has that number for its value, and changes nothing. -/
theorem feed_write (s : Session) (h : v.isFinite = true) :
    (s.feed (write v)).report.outcome = .value v ∧ (s.feed (write v)).session = s := by
  obtain ⟨houtcome, htable⟩ := evaluate_write s.table h
  rw [outcome_feed, session_feed, htable]
  exact ⟨houtcome, rfl⟩

/-- A name is bound to a finite number by its text. -/
theorem feed_binding_write (s : Session) (h : v.isFinite = true) (hname : name.isName = true)
    (hconstant : name ≠ "pi") :
    let e := s.feed (name ++ " = " ++ write v)
    e.report.Binds name (lex (write v)) ∧ e.session = ⟨s.table.insert name v⟩ := by
  intro e
  obtain ⟨hvalue, -⟩ := evaluate_write s.table h
  have hbinds : e.report.Binds name (lex (write v)) :=
    binds_iff.2 ⟨lex_binding hname (write v), ⟨hname, hconstant⟩, v, hvalue⟩
  obtain ⟨w, hw, hsession⟩ := feed_of_binds hbinds
  obtain rfl := Outcome.value.inj (hvalue.symm.trans hw)
  exact ⟨hbinds, hsession⟩

end Session

namespace Console

variable {o : Options} {v : Float} {values : List Float}

/-- The text of a finite number is not a blank line. -/
theorem isBlankText_write (h : v.isFinite = true) : Text.isBlankText (write v) = false := by
  obtain ⟨e, htokens, -⟩ := exists_phrase_of_write .empty h
  obtain ⟨first, rest, hcons, -⟩ := e.exists_tokens_eq_cons
  refine Bool.eq_false_iff.2 fun hblank => ?_
  have hnil := lex_eq_nil_iff.2 hblank
  rw [htokens, hcons] at hnil
  cases hnil

private theorem answer_of_value {e : Step} (hecho : o.echo = false)
    (h : e.report.outcome = .value v) : answer o e = write v ++ "\n" := by
  rw [answer, if_neg (Bool.eq_false_iff.1 hecho), h]

/-- What is shown of the texts of finite numbers. -/
theorem map_answer_steps_write (hecho : o.echo = false) (h : ∀ v ∈ values, v.isFinite = true)
    (s : Session) :
    (s.steps (values.map write)).map (answer o) = values.map fun v => write v ++ "\n" := by
  induction values with
  | nil => rfl
  | cons v later ih =>
    obtain ⟨hv, hlater⟩ := List.forall_mem_cons.1 h
    obtain ⟨houtcome, hsession⟩ := s.feed_write hv
    rw [List.map_cons, Session.steps, List.map_cons, answer_of_value hecho houtcome, hsession,
      ih hlater, List.map_cons]

/-- What is shown of the lines with a finite value, among all lines. -/
theorem map_answer_filter (hecho : o.echo = false) (steps : List Step) :
    (steps.filter fun e => e.finiteValue?.isSome).map (answer o) =
      (steps.filterMap Step.finiteValue?).map fun v => write v ++ "\n" := by
  induction steps with
  | nil => rfl
  | cons e later ih =>
    cases hvalue : e.finiteValue? with
    | none => simp [hvalue, ih]
    | some v =>
      have houtcome := (Step.finiteValue?_eq_some_iff.1 hvalue).1
      simp [hvalue, ih, answer_of_value hecho houtcome]

private theorem promptText_of_quiet (h : o.quiet = true) : o.promptText = "" := by
  rw [Options.promptText, if_pos h]

/-- Without prompts a run shows what is to be shown of the lines, and nothing else. -/
theorem transcript_of_quiet (hquiet : o.quiet = true) {lines : List (Option String)}
    {fed : List String} {ending : Ending} (h : Course lines fed ending) :
    transcript o lines =
      ⟨String.join ((Session.new.steps fed).map (answer o)), ending.exitCode⟩ := by
  obtain ⟨rest, rfl, hfed, hending⟩ := h
  have hid : ∀ texts : List String, texts.map (· ++ "") = texts := by simp
  rw [transcript, transcriptFrom_eq hending hfed, promptText_of_quiet hquiet, String.empty_append,
    hid]

/-- The texts of finite numbers are printed again. -/
theorem transcript_of_values (hecho : o.echo = false) (hquiet : o.quiet = true)
    (h : ∀ v ∈ values, v.isFinite = true) :
    transcript o (values.map fun v => some (write v)) =
      ⟨String.join (values.map fun v => write v ++ "\n"), 0⟩ := by
  have hcourse : Course (values.map fun v => some (write v)) (values.map write) .endOfInput := by
    refine ⟨[], ?_, ?_, .endOfInput⟩
    · rw [List.append_nil, List.map_map]
      rfl
    · intro line hline
      obtain ⟨v, hv, rfl⟩ := List.mem_map.1 hline
      exact isBlankText_write (h v hv)
  rw [transcript_of_quiet hquiet hcourse, map_answer_steps_write hecho h]
  rfl

/-- What the calculator prints it can read. In any session the text of a finite number, with the
sign of zero too, has just that number for its value and changes nothing, and any name that can be
bound is bound to just that number by it. So when a run without prompts that shows values alone has
printed some finite numbers, a new run that is fed the texts of these prints the same lines. -/
theorem printed_read_back :
    (∀ (s : Session) (v : Float), v.isFinite = true →
      (s.feed (write v)).report.outcome = .value v ∧ (s.feed (write v)).session = s ∧
      ∀ name : Token, name.isName = true → name ≠ "pi" →
        let line := name ++ " = " ++ write v
        let e := s.feed line
        lex line = name :: "=" :: lex (write v) ∧ e.report.Binds name (lex (write v)) ∧
          e.session = ⟨s.table.insert name v⟩ ∧
          ∀ other, e.session.table.get? other =
            if other = name then some v else s.table.get? other) ∧
    ∀ (o : Options) (lines : List (Option String)) (fed : List String) (ending : Ending),
      o.echo = false → o.quiet = true → Course lines fed ending →
      let steps := Session.new.steps fed
      let printed := (steps.filter fun e => e.finiteValue?.isSome).map (answer o)
      let values := steps.filterMap Step.finiteValue?
      (transcript o lines).output = String.join (steps.map (answer o)) ∧
      printed = (values.map fun v => write v ++ "\n") ∧
      transcript o (values.map fun v => some (write v)) = ⟨String.join printed, 0⟩ := by
  refine ⟨fun s v hv => ?_, fun o lines fed ending hecho hquiet hcourse => ?_⟩
  · obtain ⟨houtcome, hsession⟩ := s.feed_write hv
    refine ⟨houtcome, hsession, fun name hname hconstant => ?_⟩
    intro line e
    have hline : lex line = name :: "=" :: lex (write v) := lex_binding hname (write v)
    obtain ⟨hbinds, hbound⟩ : e.report.Binds name (lex (write v)) ∧
        e.session = ⟨s.table.insert name v⟩ := s.feed_binding_write hv hname hconstant
    exact ⟨hline, hbinds, hbound, Session.get?_of_eq_insert hbound⟩
  · intro steps printed values
    have hprinted : printed = values.map fun v => write v ++ "\n" := map_answer_filter hecho steps
    have hfinite : ∀ v ∈ values, v.isFinite = true := by
      intro v hv
      obtain ⟨e, -, he⟩ := List.mem_filterMap.1 hv
      exact (Step.finiteValue?_eq_some_iff.1 he).2
    refine ⟨congrArg Transcript.output (transcript_of_quiet hquiet hcourse), hprinted, ?_⟩
    rw [hprinted]
    exact transcript_of_values hecho hquiet hfinite

/-- Zero with a sign and a number with a fraction are printed, a fault is printed between them, and
only the two numbers are fed again. -/
theorem printed_read_back_negative_zero :
    let zero := Float.ofBits 0x8000000000000000
    (Session.new.feed "-0").report.outcome = .value zero ∧
      (Session.new.feed "x = -0").session = ⟨Table.empty.insert "x" zero⟩ ∧
      (Session.new.feed "x = -0").session.table.get? "x" = some zero ∧
      transcript ⟨none, false, true⟩ [some "-0", some "0.5"] = ⟨"-0\n0.5\n", 0⟩ := by
  intro zero
  have hfinite : zero.isFinite = true := by decide +kernel
  have htext : write zero = "-0" := by decide +kernel
  have hname : Token.isName "x" = true := by decide +kernel
  have hcourse : Course [some "-0", some "x", some "1 / 2"] ["-0", "x", "1 / 2"] .endOfInput :=
    ⟨[], rfl, by decide +kernel, .endOfInput⟩
  obtain ⟨hline, hrun⟩ := printed_read_back
  obtain ⟨houtcome, -, hbinding⟩ := hline Session.new zero hfinite
  obtain ⟨-, -, hsession, hget⟩ := hbinding "x" hname (by decide)
  obtain ⟨-, -, htranscript⟩ := hrun ⟨none, false, true⟩ _ _ _ rfl rfl hcourse
  have hvalues : ((Session.new.steps ["-0", "x", "1 / 2"]).filterMap Step.finiteValue?).map
      (fun v => some (write v)) = [some "-0", some "0.5"] := by decide +kernel
  have hprinted : String.join (((Session.new.steps ["-0", "x", "1 / 2"]).filter fun e =>
      e.finiteValue?.isSome).map (answer ⟨none, false, true⟩)) = "-0\n0.5\n" := by decide +kernel
  rw [htext] at houtcome hsession hget
  rw [hvalues, hprinted] at htranscript
  exact ⟨houtcome, hsession, (hget "x").trans (if_pos rfl), htranscript⟩

end Console

end LineCalc
