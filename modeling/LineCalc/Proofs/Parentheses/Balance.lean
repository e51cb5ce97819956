import Mathlib.Data.List.Infix
import LineCalc.Proofs.Diagnosis.Place
import LineCalc.Proofs.Grammar.Soundness
import LineCalc.Proofs.Machine.Call
import LineCalc.Proofs.Token.Names

namespace LineCalc

open Machine

/-- How many more parentheses are opened than closed. -/
def balance (tokens : List Token) : ℤ := tokens.count "(" - tokens.count ")"

/-- The balance after each closing parenthesis, in order. -/
def closings (tokens : List Token) : List ℤ :=
  (tokens.inits.filter fun before => before.getLast? = some ")").map balance

/-- No token is a parenthesis. -/
def Unparenthesized (tokens : List Token) : Prop := ∀ t ∈ tokens, t ≠ "(" ∧ t ≠ ")"

section

variable {tokens more l : List Token} {t : Token}

@[simp] theorem balance_nil : balance [] = 0 := rfl

@[simp] theorem balance_append (tokens more : List Token) :
    balance (tokens ++ more) = balance tokens + balance more := by
  simp only [balance, List.count_append]
  omega

@[simp] theorem balance_open : balance ["("] = 1 := rfl

@[simp] theorem balance_close : balance [")"] = -1 := rfl

theorem closings_concat (tokens : List Token) (t : Token) :
    closings (tokens ++ [t]) =
      closings tokens ++ if t = ")" then [balance (tokens ++ [t])] else [] := by
  have hinits : (tokens ++ [t]).inits = tokens.inits ++ [tokens ++ [t]] := by
    simp [List.inits_append]
  rw [closings, hinits, List.filter_append, List.map_append]
  split
  next h => simp [closings, h]
  next h => simp [closings, h]

theorem unparenthesized_singleton (hopen : t ≠ "(") (hclose : t ≠ ")") : Unparenthesized [t] := by
  simp [Unparenthesized, hopen, hclose]

/-- Symbols apart, no token is a parenthesis. -/
theorem unparenthesized_of_isSymbol (h : t.isSymbol = false) : Unparenthesized [t] := by
  exact unparenthesized_singleton (Token.ne_of_isSymbol h (by decide))
    (Token.ne_of_isSymbol h (by decide))

namespace Unparenthesized

theorem mono (h : Unparenthesized more) (hl : l <+: more) : Unparenthesized l :=
  fun t ht => h t (hl.subset ht)

theorem balance_eq (h : Unparenthesized tokens) : balance tokens = 0 := by
  have hopen : tokens.count "(" = 0 := List.count_eq_zero.2 fun hmem => (h _ hmem).1 rfl
  have hclose : tokens.count ")" = 0 := List.count_eq_zero.2 fun hmem => (h _ hmem).2 rfl
  simp [balance, hopen, hclose]

theorem closings_append (h : Unparenthesized more) (tokens : List Token) :
    closings (tokens ++ more) = closings tokens := by
  induction more generalizing tokens with
  | nil => rw [List.append_nil]
  | cons t rest ih =>
    obtain ⟨ht, hrest⟩ := List.forall_mem_cons.1 h
    rw [List.append_cons, ih hrest, closings_concat, if_neg ht.2, List.append_nil]

end Unparenthesized

/-- A prefix of two lists in a row ends in the first or in the second. -/
theorem prefix_append_cases (h : l <+: tokens ++ more) :
    l <+: tokens ∨ ∃ m, m <+: more ∧ l = tokens ++ m := by
  obtain ⟨rest, heq⟩ := h
  obtain ⟨m, htokens, -⟩ | ⟨m, hl, hmore⟩ := List.append_eq_append_iff.1 heq
  · exact .inl ⟨m, htokens.symm⟩
  · exact .inr ⟨m, ⟨rest, hmore.symm⟩, hl⟩

end

/-- The depth that the log tells of a group that was closed. -/
def Event.closedDepth? : Event → Option ℤ
  | groupClosed opened => some opened
  | _ => none

/-- The depths that have been told so far, in order. -/
def Reading.closedDepths (r : Reading) : List ℤ := r.events.reverse.filterMap Event.closedDepth?

namespace Reading

@[simp] theorem closedDepths_begin (r : Reading) : r.begin.closedDepths = r.closedDepths := by
  simp [closedDepths, begin, Event.closedDepth?]

@[simp] theorem closedDepths_closed (r : Reading) :
    r.closed.closedDepths = r.closedDepths ++ [r.groups.opened] := by
  simp [closedDepths, closed, Event.closedDepth?]

end Reading

namespace Machine

variable {table : Table} {s t : State} {r : Reading}

/-- What a step does to the groups, with what it reads. -/
inductive Moves (r : Reading) : State → Prop
  /-- No parenthesis is read. -/
  | passes {t : State} (plain : List Token) (hplain : Unparenthesized plain)
      (hread : t.reading.cursor.read = r.cursor.read ++ plain)
      (hgroups : t.reading.groups = r.groups)
      (hclosed : t.reading.closedDepths = r.closedDepths) : Moves r t
  /-- A parenthesis is read that opens a group, perhaps with a name before it. -/
  | enters {k : Kind} {K : Context k} {r' : Reading} (plain : List Token)
      (hplain : Unparenthesized plain)
      (hread : r'.cursor.read = r.cursor.read ++ plain ++ ["("])
      (hgroups : r'.groups = r.groups.enter)
      (hclosed : r'.closedDepths = r.closedDepths) : Moves r (.read K r')
  /-- A parenthesis is read that closes a group. -/
  | leaves {t : State} (hcan : r.groups.canLeave = true)
      (hread : t.reading.cursor.read = r.cursor.read ++ [")"])
      (hgroups : t.reading.groups = r.groups.leave)
      (hclosed : t.reading.closedDepths = r.closedDepths ++ [t.reading.groups.opened]) : Moves r t
  /-- A parenthesis is read that has no group to close. -/
  | strays {r' : Reading} (hcan : r.groups.canLeave = false)
      (hread : r'.cursor.read = r.cursor.read ++ [")"])
      (hgroups : r'.groups = r.groups.leave)
      (hclosed : r'.closedDepths = r.closedDepths) : Moves r (.failed .unbalanced r')

/-- Nothing is read. -/
theorem Moves.stays (hread : t.reading.cursor.read = r.cursor.read)
    (hgroups : t.reading.groups = r.groups)
    (hclosed : t.reading.closedDepths = r.closedDepths) : Moves r t :=
  .passes [] nofun (hread.trans (List.append_nil _).symm) hgroups hclosed

theorem Step.moves (h : Step table s t) : Moves s.reading t := by
  cases h with
  | expression | term | tooDeep | negate | joinFactor | joinTerm | stop | groupEnd | apply
  | unknown => exact .stays rfl rfl rfl
  | refused => exact .stays rfl rfl (Reading.closedDepths_begin _)
  | @atom K r v hlevel hoperand =>
    cases begins_of_operand hoperand with
    | value hvalue =>
      exact .passes [r.cursor.current] (unparenthesized_of_isSymbol hvalue.isSymbol)
        (read_advance rfl (hvalue.ne_of_isSymbol (by decide))) rfl (Reading.closedDepths_begin _)
  | @minus K r hlevel hoperand =>
    cases begins_of_operand hoperand with
    | minus htoken =>
      exact .passes ["-"] (unparenthesized_singleton (by decide) (by decide))
        (read_advance htoken (by decide)) rfl (Reading.closedDepths_begin _)
  | @group K r hlevel hoperand =>
    cases begins_of_operand hoperand with
    | group htoken =>
      refine .enters [] nofun ?_ rfl (Reading.closedDepths_begin _)
      rw [List.append_nil]
      exact read_advance htoken (by decide)
  | @call K r hlevel hoperand hnext =>
    cases begins_of_operand hoperand with
    | call hunbound hconstant hsymbol hnumeral hcall =>
      have hname : r.advance.cursor.read = r.cursor.read ++ [r.cursor.current] :=
        read_advance rfl (Token.ne_of_isSymbol hsymbol (by decide))
      have hopen := read_advance (r := r.advance) hnext (by decide)
      rw [hname] at hopen
      exact .enters [r.cursor.current] (unparenthesized_of_isSymbol hsymbol) hopen rfl
        (Reading.closedDepths_begin _)
  | @noArgument K r hlevel hoperand hnext =>
    cases begins_of_operand hoperand with
    | call hunbound hconstant hsymbol hnumeral hcall =>
      exact .passes [r.cursor.current] (unparenthesized_of_isSymbol hsymbol)
        (read_advance rfl (Token.ne_of_isSymbol hsymbol (by decide))) rfl
        (Reading.closedDepths_begin _)
  | @times _ _ _ op hop | @plus _ _ _ op hop =>
    obtain ⟨hcurrent, -, hmark⟩ := current_of_operator? hop
    have hopen : op.token ≠ "(" := by cases op <;> decide
    exact .passes [op.token] (unparenthesized_singleton hopen op.token_ne_close)
      (read_advance hcurrent hmark) rfl rfl
  | close hclose hgroups =>
    exact .leaves hgroups (read_advance hclose (by decide)) rfl (Reading.closedDepths_closed _)
  | stray hclose hgroups => exact .strays hgroups (read_advance hclose (by decide)) rfl rfl

/-- The groups that are open and the parentheses read change alike. -/
theorem Moves.opened_sub_balance (h : Moves r t) :
    t.reading.groups.opened - balance t.reading.cursor.read =
      r.groups.opened - balance r.cursor.read := by
  cases h with
  | passes plain hplain hread hgroups =>
    rw [hread, hgroups, balance_append, hplain.balance_eq]
    omega
  | @enters k K r' plain hplain hread hgroups =>
    have henter : r'.groups.opened = r.groups.opened + 1 := congrArg Groups.opened hgroups
    simp only [State.reading, hread, henter, balance_append, hplain.balance_eq, balance_open]
    omega
  | leaves hcan hread hgroups =>
    rw [hread, hgroups, Groups.opened_leave, balance_append, balance_close]
    omega
  | strays hcan hread hgroups =>
    simp only [State.reading, hread, hgroups, Groups.opened_leave, balance_append, balance_close]
    omega

theorem Steps.opened_sub_balance (h : Steps table s t) :
    t.reading.groups.opened - balance t.reading.cursor.read =
      s.reading.groups.opened - balance s.reading.cursor.read := by
  induction h with
  | refl => rfl
  | tail _ hstep ih => exact hstep.moves.opened_sub_balance.trans ih

end Machine

namespace Rule

/-- A name and the sign of a binding are read. -/
theorem opened_sub_balance_target {r : Reading}
    (h : isTarget r.cursor.current r.cursor.following = true) :
    r.advance.advance.groups.opened - balance r.advance.advance.cursor.read =
      r.groups.opened - balance r.cursor.read := by
  simp only [isTarget, Bool.and_eq_true, beq_iff_eq] at h
  obtain ⟨⟨hname, -⟩, hsign⟩ := h
  have hsymbol := Token.isSymbol_of_isName hname
  have hfirst : r.advance.cursor.read = r.cursor.read ++ [r.cursor.current] :=
    read_advance rfl (Token.ne_of_isSymbol hsymbol (by decide))
  have hsecond : r.advance.advance.cursor.read = r.advance.cursor.read ++ ["="] :=
    read_advance (r.cursor.current_advance.trans hsign) (by decide)
  have hplain : Unparenthesized ["="] := unparenthesized_singleton (by decide) (by decide)
  rw [hsecond, hfirst, balance_append, balance_append,
    (unparenthesized_of_isSymbol hsymbol).balance_eq, hplain.balance_eq, Int.add_zero, Int.add_zero]
  rfl

private theorem opened_sub_balance_lead {o : Opening} {r first : Reading} (h : Lead r o first) :
    first.groups.opened - balance first.cursor.read = r.groups.opened - balance r.cursor.read := by
  cases h with
  | none => rfl
  | target htarget => exact opened_sub_balance_target (r := r.noted) htarget

/-- A statement is read from any place on, whether it comes to something or not. -/
theorem opened_sub_balance_statement (table : Table) (r : Reading) :
    let r' := after (statement table) r
    r'.groups.opened - balance r'.cursor.read = r.groups.opened - balance r.cursor.read := by
  have hreturns := returns_statement table r
  simp only [after]
  generalize statement table r = result at hreturns
  cases hreturns with
  | finished hlead hsteps | failed hlead hsteps =>
    exact hsteps.opened_sub_balance.trans (opened_sub_balance_lead hlead)
  | empty => rfl

/-- The rule may be called any number of times, also after a refusal. -/
theorem opened_sub_balance_calls (table : Table) (r : Reading) (n : ℕ) :
    let r' := (after (statement table))^[n] r
    r'.groups.opened - balance r'.cursor.read = r.groups.opened - balance r.cursor.read := by
  induction n with
  | zero => rfl
  | succ n ih =>
    rw [Function.iterate_succ_apply']
    exact (opened_sub_balance_statement table _).trans ih

end Rule

end LineCalc
