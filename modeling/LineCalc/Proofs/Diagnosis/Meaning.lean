import LineCalc.Proofs.Diagnosis.Refusal
import LineCalc.Proofs.Session.History

namespace LineCalc

open Machine

variable {table : Table} {o : Opening} {tokens : List Token} {t : Token}

/-- A name has no meaning in a table: it is not bound, and neither the constant nor a function has
it. -/
structure Token.Meaningless (table : Table) (t : Token) : Prop where
  unbound : table.contains t = false
  constant : t ≠ "pi"
  function : Builtin.isName t = false

/-- A token that is the name of the constant or of a function. -/
def Token.IsReserved (t : Token) : Prop := t = "pi" ∨ Builtin.isName t = true

/-- A whole statement stands before an unbound name that is reserved. -/
def Overruns (table : Table) (tokens : List Token) (t : Token) : Prop :=
  ∃ (o : Opening) (e : Phrase table .expression) (rest : List Token),
    o.Valid ∧ e.level ≤ 256 ∧ tokens = o.tokens ++ (e.tokens ++ t :: rest) ∧
      t.IsReserved ∧ table.contains t = false

private theorem Token.meaningless_of_not_isReserved (hbound : table.contains t = false)
    (h : ¬ t.IsReserved) : t.Meaningless table := by
  obtain ⟨hpi, hname⟩ := not_or.1 h
  exact ⟨hbound, hpi, Bool.eq_false_iff.2 hname⟩

private theorem Token.Meaningless.not_isReserved (h : t.Meaningless table) : ¬ t.IsReserved :=
  not_or.2 ⟨h.constant, Bool.eq_false_iff.1 h.function⟩

namespace Token.IsReserved

/-- Functions and the constant are named by names that stand for nothing else. -/
theorem eq_pi_or_name (h : t.IsReserved) : t = "pi" ∨ ∃ f : Builtin, t = f.name := by
  refine h.imp_right fun hname => ?_
  obtain ⟨f, hf⟩ := Option.isSome_iff_exists.1 hname
  exact ⟨f, Builtin.name_of_ofName? hf⟩

theorem isName (h : t.IsReserved) : t.isName = true := by
  obtain rfl | ⟨f, rfl⟩ := h.eq_pi_or_name
  · decide
  · cases f <;> decide

theorem ne_of_isSymbol (h : t.IsReserved) {s : Token} (hs : s.isSymbol = true) : t ≠ s := by
  obtain rfl | ⟨f, rfl⟩ := h.eq_pi_or_name
  · rintro rfl
    exact absurd hs (by decide)
  · exact f.name_ne_of_isSymbol hs

/-- A statement may begin with a reserved name. -/
theorem beginsExpression (h : t.IsReserved) (next : Token) :
    beginsExpression table t next = true := by
  obtain rfl | hname := h
  · rfl
  · simp [LineCalc.beginsExpression, hname]

end Token.IsReserved

/-- What follows an expression does not change how the statement begins, unless it makes a binding
of it. -/
theorem Opening.fits_of_phrase_append (h : o.Valid) (e : Phrase table .expression)
    {rest : List Token} (hrest : rest.headD Token.endMark ≠ "=") :
    o.Fits table (e.tokens ++ rest) := by
  cases o with
  | target name => exact ⟨h.1, constant?_eq_none h.2⟩
  | none =>
    obtain ⟨first, later, htokens, hbegins⟩ := e.exists_tokens_eq_cons
    have hbinding := e.binding_not_mem_tokens
    rw [htokens] at hbinding ⊢
    have hnext : (Cursor.start (first :: later ++ rest)).following ≠ "=" := by
      cases later with
      | nil => exact hrest
      | cons next _ =>
        rintro (rfl : next = "=")
        simp at hbinding
    refine ⟨?_, hbegins _⟩
    rw [isTarget, beq_eq_false_iff_ne.2 hnext, Bool.and_false]

/-- The statement before the name is read to its end, and the name is left over. -/
theorem evaluate_of_overruns (h : Overruns table tokens t) :
    (evaluate table (.start tokens)).outcome = .refused (.unboundName t) := by
  obtain ⟨o, e, rest, hopening, hlevel, rfl, ht, hbound⟩ := h
  have hoperator (wanted : Operator → Bool) : (Operator.ofToken? t).filter wanted = none := by
    cases hop : Operator.ofToken? t with
    | none => rfl
    | some op => exact absurd (Operator.token_of_ofToken? hop) (ht.ne_of_isSymbol op.isSymbol_token)
  have hfits : o.Fits table (e.tokens ++ t :: rest) :=
    Opening.fits_of_phrase_append hopening e (ht.ne_of_isSymbol (by decide))
  have hfaces : Faces (o.start (e.tokens ++ t :: rest)) e (t :: rest) :=
    ⟨⟨rfl, Int.le_refl 0, Groups.marked_initial⟩, fun _ => hoperator _⟩
  have hstart : (o.start (e.tokens ++ t :: rest)).level = 0 := rfl
  obtain ⟨r, hsteps, hpasses⟩ := steps_of_phrase e .top hfaces
    (by rw [hstart, Nat.zero_add]; exact hlevel)
  have hahead : r.cursor.ahead = t :: rest := by rw [hpasses.cursor]
  have hcurrent := current_of_ahead hahead
  have hopened : r.groups.opened = 0 := hpasses.opened
  have hstop : Machine.Step table (.value e.value .top r) (.finished e.value .top r) := by
    refine .stop (hpasses.ends (hoperator _)) ?_
    rw [hcurrent]
    exact ht.ne_of_isSymbol (by decide)
  have hremaining : remainingFault? table r = some (.unboundName t) := by
    simp [remainingFault?, Groups.balanced, Cursor.atEnd, hopened, hahead, hcurrent, ht.isName,
      hbound]
  rw [evaluate_of_finished hfits (hsteps.tail hstop), hremaining]

/-- The machine fails for a name only if it has no meaning. -/
theorem meaningless_of_step {s : State} {r : Reading}
    (h : Machine.Step table s (.failed (.unboundName t) r)) : t.Meaningless table := by
  cases h with
  | @refused _ r _ hlevel hoperand =>
    cases begins_of_operand hoperand with
    | unbound hunbound hconstant hsymbol hnumeral hname hnext =>
      exact ⟨by simp [Table.contains, hunbound], hconstant, hname⟩

/-- A name that is reported as unbound has no meaning, or a whole statement stands before it. -/
theorem meaningless_or_overruns
    (h : (evaluate table (.start tokens)).outcome = .refused (.unboundName t)) :
    t.Meaningless table ∨ Overruns table tokens t := by
  have hrefusal := refusal_of_evaluate h
  generalize (evaluate table (.start tokens)).cursor = c at hrefusal
  cases hrefusal with
  | failed hfits hsteps hstep => exact .inl (meaningless_of_step hstep)
  | @remaining o rest v r hfits hsteps hremaining =>
    obtain ⟨-, hfault⟩ | ⟨hopened, hahead, ⟨-, hbound, hfault⟩ | hfault⟩ :=
      remainingFault?_cases hremaining
    · cases hfault
    · obtain rfl := Fault.unboundName.inj hfault
      by_cases hreserved : r.cursor.current.IsReserved
      · obtain ⟨e, -, hlevel, hread⟩ := exists_phrase_of_steps hsteps hopened
        have htokens : r.cursor.tokens = o.tokens ++ rest ++ [Token.endMark] :=
          Opening.tokens_of_steps hsteps
        obtain ⟨first, later, hcons⟩ := List.exists_cons_of_ne_nil hahead
        rw [Cursor.tokens, hread, Cursor.unread, hcons] at htokens
        refine .inr ⟨o, e, later, Opening.valid_of_fits hfits, hlevel, ?_, hreserved, hbound⟩
        rw [current_of_ahead hcons, ← List.append_assoc]
        exact (List.append_cancel_right htokens).symm
      · exact .inl (Token.meaningless_of_not_isReserved hbound hreserved)
    · cases hfault
  | nothing hbegins hremaining =>
    obtain ⟨-, hfault⟩ | ⟨-, -, ⟨-, hbound, hfault⟩ | hfault⟩ := remainingFault?_cases hremaining
    · cases hfault
    · obtain rfl := Fault.unboundName.inj hfault
      refine .inl (Token.meaningless_of_not_isReserved hbound fun hreserved => ?_)
      exact Bool.false_ne_true (hbegins.symm.trans (hreserved.beginsExpression _))
    · cases hfault

namespace Session

/-- Every name for which a line is refused as unbound has no meaning, unless the line is a whole
statement and then a reserved name that is not bound. -/
theorem unboundName_meaningless_iff (s : Session) (line : String) :
    (∀ t, (s.feed line).report.outcome = .refused (.unboundName t) → t.Meaningless s.table) ↔
      ¬ ∃ t, Overruns s.table (lex line) t := by
  constructor
  · rintro h ⟨t, hoverruns⟩
    have hmeaningless := h t (evaluate_of_overruns hoverruns)
    obtain ⟨-, -, -, -, -, -, hreserved, -⟩ := hoverruns
    exact hmeaningless.not_isReserved hreserved
  · intro h t houtcome
    exact (meaningless_or_overruns houtcome).resolve_right fun hoverruns => h ⟨t, hoverruns⟩

/-- The constant after a number is reported as unbound. -/
theorem unboundName_pi :
    ¬ ∀ (lines : List String) (line : String) (t : Token),
      ((new.feedAll lines).feed line).report.outcome = .refused (.unboundName t) →
        t.Meaningless (new.feedAll lines).table := by
  intro h
  have houtcome : ((new.feedAll []).feed "3 pi").report.outcome = .refused (.unboundName "pi") := by
    decide +kernel
  exact (h [] "3 pi" "pi" houtcome).constant rfl

end Session

end LineCalc
