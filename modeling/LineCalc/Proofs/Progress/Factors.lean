import LineCalc.Session
import LineCalc.Proofs.Progress.Cursor

namespace LineCalc

open Machine

/-- The place at which a factor began, if the event tells of one. -/
def Event.factorCursor? : Event → Option Cursor
  | factor c _ => some c
  | _ => none

namespace Reading

variable (r : Reading)

/-- The places at which factors have begun so far, in order. -/
def factorCursors : List Cursor := r.events.reverse.filterMap Event.factorCursor?

@[simp] theorem factorCursors_begin : r.begin.factorCursors = r.factorCursors ++ [r.cursor] := by
  simp [factorCursors, begin, Event.factorCursor?]

@[simp] theorem factorCursors_closed : r.closed.factorCursors = r.factorCursors := by
  simp [factorCursors, closed, Event.factorCursor?]

@[simp] theorem factorCursors_noted : r.noted.factorCursors = r.factorCursors := by
  simp [factorCursors, noted, Event.factorCursor?]

end Reading

/-- Places among tokens, one after the other and all before a limit. What they show is found among
the tokens in the same order. -/
structure InOrder (stream : List Token) (limit : ℕ) (places : List Cursor) : Prop where
  increasing : (places.map Cursor.position).Pairwise (· < ·)
  tokens : ∀ c ∈ places, c.tokens = stream
  before : ∀ c ∈ places, c.position < limit
  shown : (places.map Cursor.current).Sublist (stream.take limit)

namespace InOrder

variable {stream : List Token} {limit limit' : ℕ} {places : List Cursor} {c : Cursor}

theorem nil (stream : List Token) (limit : ℕ) : InOrder stream limit [] :=
  ⟨.nil, nofun, nofun, List.nil_sublist _⟩

theorem mono (h : InOrder stream limit places) (hle : limit ≤ limit') :
    InOrder stream limit' places where
  increasing := h.increasing
  tokens := h.tokens
  before c hc := (h.before c hc).trans_le hle
  shown := h.shown.trans (List.take_sublist_take_left hle)

/-- One more place follows, at the limit or beyond it. -/
theorem concat (h : InOrder stream limit places) (hc : c.tokens = stream)
    (hle : limit ≤ c.position) : InOrder stream (c.position + 1) (places ++ [c]) := by
  have hbefore := h.mono hle
  have htoken : stream[c.position]? = some c.current := by
    rw [← hc]
    exact c.getElem?_position
  obtain ⟨hlt, hcurrent⟩ := List.getElem?_eq_some_iff.1 htoken
  refine ⟨?_, ?_, ?_, ?_⟩
  · rw [List.map_append, List.pairwise_append]
    refine ⟨h.increasing, List.pairwise_singleton _ _, ?_⟩
    intro i hi j hj
    obtain ⟨d, hd, rfl⟩ := List.mem_map.1 hi
    obtain rfl := List.mem_singleton.1 hj
    exact hbefore.before d hd
  · intro d hd
    obtain hd | hd := List.mem_append.1 hd
    · exact h.tokens d hd
    · rwa [List.mem_singleton.1 hd]
  · intro d hd
    obtain hd | hd := List.mem_append.1 hd
    · exact Nat.lt_succ_of_lt (hbefore.before d hd)
    · rw [List.mem_singleton.1 hd]
      exact Nat.lt_succ_self _
  · rw [List.map_append, List.take_succ_eq_append_getElem hlt, hcurrent]
    exact hbefore.shown.append (List.Sublist.refl _)

end InOrder

namespace Machine

variable {table : Table} {s t : State} {r r' : Reading}

/-- The factors that have begun are in order, and the next will begin further on. -/
def InOrder (r : Reading) : Prop :=
  LineCalc.InOrder r.cursor.tokens r.cursor.position r.factorCursors

/-- What holds of every state on the way. Where the machine fails a factor may have begun at the
cursor itself. -/
def State.InOrder : State → Prop
  | failed _ r => LineCalc.InOrder r.cursor.tokens (r.cursor.position + 1) r.factorCursors
  | s => Machine.InOrder s.reading

namespace InOrder

/-- No factor begins, and the cursor may move on. -/
theorem go_on (h : InOrder r) (htokens : r'.cursor.tokens = r.cursor.tokens)
    (hposition : r.cursor.position ≤ r'.cursor.position)
    (hfactors : r'.factorCursors = r.factorCursors) : InOrder r' := by
  rw [InOrder, htokens, hfactors]
  exact h.mono hposition

/-- A factor begins at the cursor, and the cursor moves on. -/
theorem begin (h : InOrder r) (htokens : r'.cursor.tokens = r.cursor.tokens)
    (hposition : r.cursor.position < r'.cursor.position)
    (hfactors : r'.factorCursors = r.begin.factorCursors) : InOrder r' := by
  rw [InOrder, htokens, hfactors, Reading.factorCursors_begin]
  exact (h.concat rfl le_rfl).mono hposition

/-- Nothing has to begin after the place where the machine fails. -/
theorem fail (h : InOrder r) (fault : Fault) : (State.failed fault r).InOrder :=
  h.mono (Nat.le_succ _)

/-- A factor has begun at the cursor, where the machine fails. -/
theorem fail_begin (h : InOrder r) (fault : Fault) : (State.failed fault r.begin).InOrder := by
  rw [State.InOrder, Reading.factorCursors_begin]
  exact h.concat rfl le_rfl

end InOrder

/-- The step lemma. -/
theorem State.InOrder.step (h : s.InOrder) (hstep : Step table s t) : t.InOrder := by
  have htokens := hstep.tokens_eq
  have hposition := hstep.position_le
  cases hstep with
  | expression | term | negate | joinFactor | joinTerm | stop | groupEnd | apply
  | times | plus =>
    exact InOrder.go_on h htokens hposition rfl
  | close => exact InOrder.go_on h htokens hposition (Reading.factorCursors_closed _)
  | atom hlevel hoperand | minus hlevel hoperand | group hlevel hoperand =>
    exact InOrder.begin h htokens (position_lt_advance hoperand nofun) rfl
  | call hlevel hoperand hnext =>
    have htaken := position_lt_advance hoperand nofun
    exact InOrder.begin h htokens (htaken.trans_le (Cursor.position_le_advance _)) rfl
  | tooDeep | unknown => exact InOrder.fail h _
  | stray => exact (InOrder.go_on h htokens hposition rfl).fail _
  | refused => exact InOrder.fail_begin h _
  | noArgument hlevel hoperand =>
    exact (InOrder.begin h htokens (position_lt_advance hoperand nofun) rfl).fail _

/-- The run lemma. -/
theorem State.InOrder.steps (h : s.InOrder) (hsteps : Steps table s t) : t.InOrder :=
  hsteps.keep State.InOrder.step h

end Machine

/-- A statement leaves its factors in order, whatever it comes to. -/
theorem inOrder_after_statement {r : Reading} (table : Table) (h : Machine.InOrder r) :
    let r' := Rule.after (Rule.statement table) r
    InOrder r'.cursor.tokens (r'.cursor.position + 1) r'.factorCursors := by
  have hlead {o : Opening} {first : Reading} (hlead : Lead r o first) : Machine.InOrder first := by
    have hposition := hlead.position_eq
    have htokens := hlead.tokens_eq
    cases hlead with
    | none | target => exact h.go_on htokens (by omega) (Reading.factorCursors_noted r)
  have hreturns := returns_statement table r
  simp only [Rule.after]
  generalize Rule.statement table r = result at hreturns
  cases hreturns with
  | finished hl hsteps =>
    have hfinished := State.InOrder.steps (s := .read .top _) (hlead hl) hsteps
    exact LineCalc.InOrder.mono hfinished (Nat.le_succ _)
  | failed hl hsteps => exact State.InOrder.steps (s := .read .top _) (hlead hl) hsteps
  | empty =>
    have hnoted : Machine.InOrder r.noted := h.go_on rfl le_rfl (Reading.factorCursors_noted r)
    exact LineCalc.InOrder.mono hnoted (Nat.le_succ _)

/-- No factor begins after the reading of a statement has stopped. -/
theorem filterMap_events_evaluate (table : Table) (c : Cursor) :
    (evaluate table c).events.filterMap Event.factorCursor? =
      (Rule.after (Rule.statement table) (.start c)).factorCursors := by
  unfold evaluate Rule.after
  cases Rule.statement table (.start c) with
  | error fault r => rfl
  | ok statement r =>
    cases hremaining : remainingFault? table r with
    | some fault => simp [hremaining, Reading.factorCursors]
    | none =>
      cases statement with
      | value | empty => simp [hremaining, conclude, Reading.factorCursors]
      | binding name v =>
        simp [hremaining, conclude, Reading.factorCursors, Event.factorCursor?]

/-- The factors of a statement begin in order, among its tokens and the end mark. -/
theorem inOrder_evaluate (table : Table) (c : Cursor) :
    InOrder c.tokens c.tokens.length ((evaluate table c).events.filterMap Event.factorCursor?) := by
  have hstart : Machine.InOrder (.start c) := .nil _ _
  have hlast := inOrder_after_statement table hstart
  rw [filterMap_events_evaluate]
  obtain ⟨htokens, -⟩ := keeps_after_statement table (.start c)
  generalize Rule.after (Rule.statement table) (.start c) = r at hlast htokens
  change r.cursor.tokens = c.tokens at htokens
  rw [← htokens]
  refine hlast.mono ?_
  obtain ⟨hlt, -⟩ := List.getElem?_eq_some_iff.1 r.cursor.getElem?_position
  exact hlt

/-- What a line tells of its factors is what its statement tells of them. -/
theorem filter_events_feed (s : Session) (line : String) :
    (s.feed line).events.filter (fun e => e.factorCursor?.isSome) =
      (evaluate s.table (.start (lex line))).events.filter fun e => e.factorCursor?.isSome := by
  have hclosing (e : Evaluation) :
      (Session.closingEvents line e).filter (fun e => e.factorCursor?.isSome) = [] := by
    unfold Session.closingEvents
    split
    · split <;> rfl
    · rfl
    · rfl
  rw [Session.feed, List.filter_append, hclosing, List.append_nil]
  rfl

private theorem map_message_filter (events : List Event) :
    (events.filter fun e => e.factorCursor?.isSome).map Event.message =
      (events.filterMap Event.factorCursor?).map fun c => "factor at '" ++ c.current ++ "'" := by
  induction events with
  | nil => rfl
  | cons e later ih =>
    cases hplace : e.factorCursor? with
    | none => simp [hplace, ih]
    | some c =>
      have hmessage : e.message = "factor at '" ++ c.current ++ "'" := by
        cases e with
        | factor d level =>
          obtain rfl := Option.some.inj hplace
          rfl
        | _ => cases hplace
      simp [hplace, hmessage, ih]

/-- Every rule that has a value makes progress, and the work is linear. A factor, a term or an
expression that is read leaves the cursor further on. While a statement is evaluated, each factor
begins further on than the one before it, so that the tokens at which factors begin stand among
those of the statement in the same order, and are no more than there are with the end mark. The log
of a line names just these tokens. -/
theorem factors_begin_in_order :
    (∀ (table : Table) (r last : Reading) (v : Float),
      Rule.factor table r = .ok v last ∨ Rule.term table r = .ok v last ∨
        Rule.expression table r = .ok v last → r.cursor.position < last.cursor.position) ∧
    (∀ (table : Table) (c : Cursor),
      let begun := (evaluate table c).events.filterMap Event.factorCursor?
      (begun.map Cursor.position).Pairwise (· < ·) ∧
      (∀ d ∈ begun, c.tokens[d.position]? = some d.current) ∧
      (begun.map Cursor.current).Sublist c.tokens ∧
      begun.length ≤ (c.read ++ c.unread).length + 1) ∧
    ∀ (s : Session) (line : String),
      let begun := (evaluate s.table (.start (lex line))).events.filterMap Event.factorCursor?
      ((s.feed line).events.filter fun e => e.factorCursor?.isSome).map Event.message =
        begun.map fun d => "factor at '" ++ d.current ++ "'" := by
  refine ⟨?_, fun table c => ?_, fun s line => ?_⟩
  · rintro table r last v (hfactor | hterm | hexpression)
    · exact position_lt_of_factor hfactor
    · exact position_lt_of_term hterm
    · exact position_lt_of_expression hexpression
  · intro begun
    have horder : InOrder c.tokens c.tokens.length begun := inOrder_evaluate table c
    have hshown : (begun.map Cursor.current).Sublist c.tokens := by
      have h := horder.shown
      rwa [List.take_length] at h
    refine ⟨horder.increasing, fun d hd => ?_, hshown, ?_⟩
    · rw [← horder.tokens d hd]
      exact d.getElem?_position
    · have hlength := hshown.length_le
      rwa [List.length_map, Cursor.tokens, List.length_append] at hlength
  · rw [filter_events_feed, map_message_filter]

/-- In a group that breaks off the last factor begins, and fails, at the parenthesis. -/
theorem factors_begin_in_order_group :
    let r := Reading.start (.start ["-", "(", "pi", ")"])
    let last := Rule.after (Rule.factor .empty) r
    let begun := (evaluate .empty (.start ["-", "(", "pi", "*", ")"])).events.filterMap
      Event.factorCursor?
    Rule.factor .empty r = .ok (-pi) last ∧ 0 < last.cursor.position ∧
      begun.map Cursor.current = ["-", "(", "pi", ")"] ∧
      ["-", "(", "pi", ")"].Sublist ["-", "(", "pi", "*", ")", "$"] := by
  intro r last begun
  have hfactor : Rule.factor .empty r = .ok (-pi) last := Rule.eq_ok_of_value? (by decide +kernel)
  have hbegun : begun.map Cursor.current = ["-", "(", "pi", ")"] := by decide +kernel
  obtain ⟨hprogress, horder, -⟩ := factors_begin_in_order
  obtain ⟨-, -, hshown, -⟩ := horder .empty (.start ["-", "(", "pi", "*", ")"])
  refine ⟨hfactor, hprogress .empty r last _ (.inl hfactor), hbegun, ?_⟩
  rw [← hbegun]
  exact hshown

end LineCalc
