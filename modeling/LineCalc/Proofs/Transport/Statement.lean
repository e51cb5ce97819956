import LineCalc.Proofs.Transport.Run

namespace LineCalc

open Machine

/-- The reading of a statement stops at a fault, or it comes to a statement that may have tokens
left after it. -/
inductive Stop where
  | failed (fault : Fault) (r : Reading)
  | read (statement : Statement) (r : Reading)

namespace Stop

/-- How far the statement has been read. -/
def reading : Stop → Reading
  | failed _ r => r
  | read _ r => r

/-- What the statement comes to in a table. -/
def evaluation (table : Table) : Stop → Evaluation
  | failed fault r => ⟨.refused fault, r.cursor, table, r.events.reverse⟩
  | read statement r =>
    match remainingFault? table r with
    | some fault => ⟨.refused fault, r.cursor, table, r.events.reverse⟩
    | none => conclude table r statement

/-- The stop with its names renamed, at the cursor that it is moved to. -/
def carry (ρ : Renaming) (m : Cursor → Cursor) : Stop → Stop
  | failed fault r => .failed (fault.rename ρ) (r.carry ρ m)
  | read statement r => .read (statement.rename ρ) (r.carry ρ m)

@[simp] theorem carry_refl (stop : Stop) : stop.carry .refl id = stop := by
  cases stop <;> simp [carry]

end Stop

/-- The statement that tokens make is read up to a stop. -/
inductive Stops (table : Table) : List Token → Stop → Prop
  | failed {o : Opening} {tokens : List Token} {fault : Fault} {r : Reading}
      (hfits : o.Fits table tokens)
      (hsteps : Steps table (.read .top (o.start tokens)) (.failed fault r)) :
      Stops table (o.tokens ++ tokens) (.failed fault r)
  | finished {o : Opening} {tokens : List Token} {v : Float} {r : Reading}
      (hfits : o.Fits table tokens)
      (hsteps : Steps table (.read .top (o.start tokens)) (.finished v .top r)) :
      Stops table (o.tokens ++ tokens) (.read (o.statement v) r)
  | empty {tokens : List Token}
      (htarget : isTarget (Cursor.start tokens).current (Cursor.start tokens).following = false)
      (hbegins : beginsExpression table (Cursor.start tokens).current
        (Cursor.start tokens).following = false) :
      Stops table tokens (.read .empty (Opening.none.start tokens))

theorem exists_stops (table : Table) (tokens : List Token) :
    ∃ stop, Stops table tokens stop := by
  obtain ⟨o, rest, rfl, hfits⟩ | ⟨htarget, hbegins⟩ := exists_opening_or table tokens
  · obtain ⟨v, r, hsteps⟩ | ⟨fault, r, hsteps⟩ := exists_halted table (o.start rest)
    · exact ⟨_, .finished hfits hsteps⟩
    · exact ⟨_, .failed hfits hsteps⟩
  · exact ⟨_, .empty htarget hbegins⟩

theorem evaluate_of_stops {table : Table} {tokens : List Token} {stop : Stop}
    (h : Stops table tokens stop) : evaluate table (.start tokens) = stop.evaluation table := by
  cases h with
  | failed hfits hsteps => exact evaluate_of_failed hfits hsteps
  | finished hfits hsteps => exact evaluate_of_finished hfits hsteps
  | empty htarget hbegins =>
    rw [evaluate, statement_eq_empty htarget hbegins]
    rfl

/-- While a statement is read its tokens stay as they are. -/
theorem Stops.tokens_eq {table : Table} {tokens : List Token} {stop : Stop}
    (h : Stops table tokens stop) : stop.reading.cursor.tokens = tokens ++ [Token.endMark] := by
  cases h with
  | failed hfits hsteps => exact Opening.tokens_of_steps hsteps
  | finished hfits hsteps => exact Opening.tokens_of_steps hsteps
  | empty htarget hbegins => rfl

variable {ρ : Renaming} {m : Cursor → Cursor} {left right : Table} {Seen : Cursor → Prop}
  {tokens tokens' : List Token} {o : Opening} {stop : Stop}

/-- The place before the first token is carried along. -/
theorem carry_start (hstart : m (.start tokens) = .start tokens') :
    (Opening.none.start tokens).carry ρ m = Opening.none.start tokens' := by
  change Reading.mk (m (.start tokens)) _ _ [.statement (m (.start tokens))] = _
  rw [hstart]
  rfl

/-- The opening of a binding is carried along, with the place after it. -/
theorem Carries.exists_target (h : Carries ρ m left right Seen) {name : Token}
    (hstart : m (.start (name :: "=" :: tokens)) = .start tokens')
    (hseen : Seen ((Opening.target name).start tokens).cursor) (hname : name.isName = true) :
    ∃ rest, tokens' = ρ name :: "=" :: rest ∧
      ((Opening.target name).start tokens).carry ρ m = (Opening.target (ρ name)).start rest := by
  have hseenSign : Seen (Cursor.start (name :: "=" :: tokens)).advance := h.seen_of_advance hseen
  have hseenName : Seen (.start (name :: "=" :: tokens)) := h.seen_of_advance hseenSign
  have hmark : name ≠ Token.endMark := by
    rintro rfl
    rw [Token.isName_endMark] at hname
    cases hname
  have hfirst := h.current hseenName
  have hsecond := h.following hseenName hmark
  rw [hstart] at hfirst hsecond
  rw [show (Cursor.start (name :: "=" :: tokens)).following = "=" from rfl,
    ρ.apply_of_isSymbol (by decide)] at hsecond
  have hmarkName : Token.endMark ≠ ρ name := fun heq =>
    hmark ((ρ.apply_eq_iff ρ.apply_endMark).1 heq.symm)
  match tokens' with
  | [] => exact absurd hfirst hmarkName
  | [_] => exact absurd (show Token.endMark = "=" from hsecond) (by decide)
  | t :: u :: rest =>
    obtain rfl : t = ρ name := hfirst
    obtain rfl : u = "=" := hsecond
    have hsign : (Cursor.start (name :: "=" :: tokens)).advance.current ≠ Token.endMark :=
      show "=" ≠ Token.endMark by decide
    have hplace : m ⟨["=", name], tokens⟩ = ⟨["=", ρ name], rest⟩ := by
      have htwo := h.advance hseenSign hsign
      rw [h.advance hseenName hmark, hstart] at htwo
      exact htwo
    refine ⟨rest, rfl, ?_⟩
    change Reading.mk (m ⟨["=", name], tokens⟩) _ _
      [.statement (m (.start (name :: "=" :: tokens)))] = _
    rw [hplace, hstart]
    rfl

/-- A statement begins as it begins at the place before the first token. -/
theorem Carries.begins_start (h : Carries ρ m left right Seen)
    (hstart : m (.start tokens) = .start tokens') (hseen : Seen (.start tokens)) :
    isTarget (Cursor.start tokens').current (Cursor.start tokens').following =
        isTarget (Cursor.start tokens).current (Cursor.start tokens).following ∧
      beginsExpression right (Cursor.start tokens').current (Cursor.start tokens').following =
        beginsExpression left (Cursor.start tokens).current
          (Cursor.start tokens).following := by
  rw [← hstart]
  exact ⟨h.isTarget_eq hseen, h.beginsExpression_eq hseen⟩

/-- An opening and what fits after it are carried along. -/
theorem Carries.exists_opening (h : Carries ρ m left right Seen)
    (hstart : m (.start (o.tokens ++ tokens)) = .start tokens')
    (hseen : Seen (o.start tokens).cursor) (hfits : o.Fits left tokens) :
    ∃ rest, tokens' = (o.rename ρ).tokens ++ rest ∧ (o.rename ρ).Fits right rest ∧
      (o.start tokens).carry ρ m = (o.rename ρ).start rest := by
  cases o with
  | none =>
    obtain ⟨htarget, hbegins⟩ := h.begins_start hstart hseen
    exact ⟨tokens', rfl, ⟨htarget.trans hfits.1, hbegins.trans hfits.2⟩, carry_start hstart⟩
  | target name =>
    obtain ⟨rest, htokens, hcarry⟩ := h.exists_target hstart hseen hfits.1
    exact ⟨rest, htokens, ⟨ρ.isName_name hfits.1, (ρ.constant?_apply name).trans hfits.2⟩, hcarry⟩

/-- A statement is read up to the stop that is carried along, if that is at a place that is seen. -/
theorem Stops.carry (h : Carries ρ m left right Seen) (hstart : m (.start tokens) = .start tokens')
    (hstops : Stops left tokens stop) (hseen : Seen stop.reading.cursor) :
    Stops right tokens' (stop.carry ρ m) := by
  cases hstops with
  | failed hfits hsteps =>
    obtain ⟨hseenStart, hsteps'⟩ := hsteps.carry h hseen
    obtain ⟨rest, rfl, hfits', hcarry⟩ := h.exists_opening hstart hseenStart hfits
    rw [State.carry, hcarry] at hsteps'
    exact .failed hfits' hsteps'
  | @finished o rest v r hfits hsteps =>
    obtain ⟨hseenStart, hsteps'⟩ := hsteps.carry h hseen
    obtain ⟨rest, rfl, hfits', hcarry⟩ := h.exists_opening hstart hseenStart hfits
    have hstatement : (o.statement v).rename ρ = (o.rename ρ).statement v := by cases o <;> rfl
    rw [State.carry, hcarry] at hsteps'
    rw [Stop.carry, hstatement]
    exact .finished hfits' hsteps'
  | empty htarget hbegins =>
    obtain ⟨htarget', hbegins'⟩ := h.begins_start hstart hseen
    rw [Stop.carry, carry_start hstart]
    exact .empty (htarget'.trans htarget) (hbegins'.trans hbegins)

end LineCalc
