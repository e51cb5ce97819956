import LineCalc.Proofs.Progress.Position

namespace LineCalc

open Machine

namespace Reading

/-- What may be done with a reading between two looks at its cursor. -/
inductive Act where
  /-- The cursor is moved over a token. -/
  | advance
  /-- A statement is read. -/
  | statement (table : Table)
  /-- The same tokens are read on, but nothing else is kept. -/
  | restart

/-- The reading after something has been done with it, which may have been refused. -/
def act (r : Reading) : Act → Reading
  | .advance => r.advance
  | .statement table => Rule.after (Rule.statement table) r
  | .restart => start r.cursor

/-- The reading after several things have been done with it, one by one. -/
def acts (r : Reading) (acts : List Act) : Reading := acts.foldl act r

@[simp] theorem acts_nil (r : Reading) : r.acts [] = r := rfl

@[simp] theorem acts_cons (r : Reading) (a : Act) (later : List Act) :
    r.acts (a :: later) = (r.act a).acts later := rfl

end Reading

variable {table : Table} {r first : Reading} {o : Opening}

/-- Within a call, too, the cursor moves forward among the same tokens. -/
theorem Machine.Lead.keeps {s : State} (hlead : Lead r o first)
    (hsteps : Steps table (.read .top first) s) :
    s.reading.cursor.tokens = r.cursor.tokens ∧ r.cursor.position ≤ s.reading.cursor.position := by
  have hposition : r.cursor.position ≤ first.cursor.position := by
    rw [hlead.position_eq]
    exact Nat.le_add_right ..
  exact ⟨hsteps.tokens_eq.trans hlead.tokens_eq, hposition.trans hsteps.position_le⟩

theorem keeps_after_statement (table : Table) (r : Reading) :
    let r' := Rule.after (Rule.statement table) r
    r'.cursor.tokens = r.cursor.tokens ∧ r.cursor.position ≤ r'.cursor.position := by
  have hreturns := returns_statement table r
  simp only [Rule.after]
  generalize Rule.statement table r = result at hreturns
  cases hreturns with
  | finished hlead hsteps | failed hlead hsteps => exact hlead.keeps hsteps
  | empty => exact ⟨rfl, le_rfl⟩

/-- Where no statement begins none begins however often the rule is called. -/
theorem cursor_of_neither (htarget : isTarget r.cursor.current r.cursor.following = false)
    (hbegins : beginsExpression table r.cursor.current r.cursor.following = false) (n : ℕ) :
    ((Rule.after (Rule.statement table))^[n] r).cursor = r.cursor := by
  induction n with
  | zero => rfl
  | succ n ih =>
    rw [Function.iterate_succ_apply']
    generalize (Rule.after (Rule.statement table))^[n] r = later at ih
    rw [← ih] at htarget hbegins
    rw [Rule.after, statement_of_neither htarget hbegins]
    exact ih

private theorem statement_again (htarget : isTarget r.cursor.current r.cursor.following = false)
    (hbegins : beginsExpression table r.cursor.current r.cursor.following = false) (n : ℕ) :
    ∃ again, Rule.statement table ((Rule.after (Rule.statement table))^[n] r) = .ok .empty again ∧
      again.cursor = r.cursor := by
  have hcursor := cursor_of_neither htarget hbegins n
  generalize (Rule.after (Rule.statement table))^[n] r = later at hcursor
  rw [← hcursor] at htarget hbegins
  exact ⟨later.noted, statement_of_neither htarget hbegins, hcursor⟩

/-- The step lemma. -/
theorem Reading.keeps_act (r : Reading) (a : Act) :
    (r.act a).cursor.tokens = r.cursor.tokens ∧ r.cursor.position ≤ (r.act a).cursor.position := by
  cases a with
  | advance => exact ⟨Cursor.tokens_advance _, Cursor.position_le_advance _⟩
  | statement table => exact keeps_after_statement table r
  | restart => exact ⟨rfl, le_rfl⟩

/-- The run lemma. -/
theorem Reading.keeps_acts (r : Reading) (acts : List Act) :
    (r.acts acts).cursor.tokens = r.cursor.tokens ∧
      r.cursor.position ≤ (r.acts acts).cursor.position := by
  induction acts generalizing r with
  | nil => exact ⟨rfl, le_rfl⟩
  | cons a later ih =>
    obtain ⟨htokens, hposition⟩ := r.keeps_act a
    obtain ⟨htokens', hposition'⟩ := ih (r.act a)
    rw [acts_cons]
    exact ⟨htokens'.trans htokens, hposition.trans hposition'⟩

/-- The cursor moves over one token, unless all have been read. -/
theorem Cursor.position_advance {c : Cursor} {tokens : List Token}
    (h : c.tokens = tokens ++ [Token.endMark]) :
    c.advance.position = min (c.position + 1) tokens.length := by
  have hle := position_le (c.tokens_advance.trans h)
  obtain ⟨behind, ahead⟩ := c
  cases ahead with
  | nil =>
    have hend : behind.length = tokens.length := by
      simpa [Cursor.tokens, read, unread] using congrArg List.length h
    simp [advance, position, hend]
  | cons t rest =>
    simp only [advance, position, List.length_cons] at hle ⊢
    omega

private theorem Cursor.atEnd_iff {c : Cursor} {tokens : List Token}
    (h : c.tokens = tokens ++ [Token.endMark]) : c.atEnd = true ↔ c.position = tokens.length := by
  have hlength := congrArg List.length h
  simp only [Cursor.tokens, List.length_append, ← position_eq_length_read] at hlength
  rw [atEnd, List.isEmpty_iff, ← List.length_eq_zero_iff, ← unread]
  omega

/-- The token after the one at the cursor; after the end mark there are end marks only. -/
theorem Cursor.getElem?_following (c : Cursor) :
    (c.tokens[c.position + 1]?).getD Token.endMark = c.following := by
  rw [tokens, position_eq_length_read, List.append_assoc,
    List.getElem?_append_right (Nat.le_add_right ..), Nat.add_sub_cancel_left, unread, following]
  cases c.ahead with
  | nil => rfl
  | cons t rest => cases rest <;> rfl

/-- The cursor moves forward only, and splits the tokens into those that were read and the others.
This holds after anything that has been done with a reading. The cursor never leaves the tokens and
the end mark after them, so what is looked at is there; it is moved over one token, unless it is at
the end mark, and within a call it does not move back either. A statement that has a value has taken
a token at least, and one that binds a name has taken three. One that is empty has taken none, and
then every further call with the same table finds an empty statement as well. -/
theorem cursor_moves_forward (tokens : List Token) (acts : List Reading.Act) :
    let stream := tokens ++ [Token.endMark]
    let r := (Reading.start (.start tokens)).acts acts
    let c := r.cursor
    (c.tokens = stream ∧ c.read ++ c.unread ++ [Token.endMark] = stream ∧
      c.read = stream.take c.position) ∧
    (c.position < stream.length ∧ stream[c.position]? = some c.current ∧
      (stream[c.position + 1]?).getD Token.endMark = c.following ∧
      (c.atEnd = true ↔ c.position = tokens.length) ∧
      c.advance.position = min (c.position + 1) tokens.length) ∧
    (∀ later, c.position ≤ (r.acts later).cursor.position) ∧
    (∀ table o first s, Lead r o first → Steps table (.read .top first) s →
      s.reading.cursor.tokens = stream ∧ c.position ≤ s.reading.cursor.position) ∧
    ∀ table statement last, Rule.statement table r = .ok statement last →
      match statement with
      | .value _ => c.position + 1 ≤ last.cursor.position
      | .binding .. => c.position + 3 ≤ last.cursor.position
      | .empty => last.cursor = c ∧ ∀ n : ℕ, ∃ again,
          Rule.statement table ((Rule.after (Rule.statement table))^[n] last) = .ok .empty again ∧
            again.cursor = c := by
  intro stream r c
  have htokens : c.tokens = stream := (Reading.start (.start tokens)).keeps_acts acts |>.1
  have hlt : c.position < stream.length := by
    rw [List.length_append]
    exact Nat.lt_succ_of_le (Cursor.position_le htokens)
  refine ⟨⟨htokens, htokens, ?_⟩, ⟨hlt, ?_, ?_, Cursor.atEnd_iff htokens,
    Cursor.position_advance htokens⟩, fun later => (r.keeps_acts later).2, ?_, ?_⟩
  · rw [← htokens, Cursor.take_position]
  · rw [← htokens, Cursor.getElem?_position]
  · rw [← htokens, Cursor.getElem?_following]
  · intro table o first s hlead hsteps
    obtain ⟨hsame, hposition⟩ := hlead.keeps hsteps
    exact ⟨hsame.trans htokens, hposition⟩
  · intro table statement last hok
    obtain ⟨o, v, rfl, htaken⟩ | ⟨rfl, rfl, htarget, hbegins⟩ := cases_of_statement_eq_ok hok
    · cases o with
      | none => exact htaken
      | target name => exact htaken
    · exact ⟨rfl, fun n => statement_again (r := r.noted) htarget hbegins n⟩

/-- A binding takes three tokens, and at a token that looks like the end mark no statement begins.
-/
theorem cursor_moves_forward_binding :
    let r := Reading.start (.start ["x", "=", "pi", "$", "*"])
    let bound := r.act (.statement .empty)
    let stopped := bound.act (.statement .empty)
    Lead r (.target "x") r.noted.advance.advance ∧
      r.noted.advance.advance.cursor.tokens = ["x", "=", "pi", "$", "*", "$"] ∧
      Rule.statement .empty r = .ok (.binding "x" pi) bound ∧ 3 ≤ bound.cursor.position ∧
      Rule.statement .empty bound = .ok .empty stopped ∧ stopped.cursor = bound.cursor ∧
      ∃ again, Rule.statement .empty ((Rule.after (Rule.statement .empty))^[5] stopped) =
        .ok .empty again ∧ again.cursor = bound.cursor := by
  intro r bound stopped
  have hlead : Lead r (.target "x") r.noted.advance.advance := .target (by decide +kernel)
  have hbinding : Rule.statement .empty r = .ok (.binding "x" pi) bound :=
    Rule.eq_ok_of_value? (by decide +kernel)
  have hempty : Rule.statement .empty bound = .ok .empty stopped :=
    Rule.eq_ok_of_value? (by decide +kernel)
  obtain ⟨-, -, -, hwithin, hfirst⟩ := cursor_moves_forward ["x", "=", "pi", "$", "*"] []
  obtain ⟨-, -, -, -, hsecond⟩ :=
    cursor_moves_forward ["x", "=", "pi", "$", "*"] [.statement .empty]
  rw [Reading.acts_cons, Reading.acts_nil] at hsecond
  obtain ⟨hstays, hagain⟩ := hsecond .empty .empty stopped hempty
  exact ⟨hlead, (hwithin .empty (.target "x") _ _ hlead .refl).1, hbinding,
    hfirst .empty _ _ hbinding, hempty, hstays, hagain 5⟩

end LineCalc
