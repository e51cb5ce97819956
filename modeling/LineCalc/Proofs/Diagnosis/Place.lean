import LineCalc.Proofs.Diagnosis.Refusal

namespace LineCalc

/-- The place where reading stops for a fault, among the tokens of a statement with the end mark. -/
def Fault.PointsAt (table : Table) (stream : List Token) (p : ℕ) : Fault → Prop
  | operandExpected t | malformedNumber t | unboundName t | unexpectedToken t =>
    stream[p]? = some t
  | argumentExpected t =>
    0 < p ∧ stream[p - 1]? = some t ∧ Builtin.isName t = true ∧ table.contains t = false ∧
      ∃ next, stream[p]? = some next ∧ next ≠ "("
  | unknownFunction t =>
    (∃ i, i + 1 < p ∧ stream[i]? = some t ∧ stream[i + 1]? = some "(") ∧
      Builtin.isName t = false ∧ table.contains t = false ∧ t ≠ "pi" ∧ t.isSymbol = false ∧
      t.startsNumeral = false
  | tooDeep levels => levels = 256 ∧ 256 ≤ p
  | unbalanced =>
    (0 < p ∧ stream[p - 1]? = some ")" ∧
      (stream.take p).count ")" = (stream.take p).count "(" + 1) ∨
    ((stream.take p).count ")" < (stream.take p).count "(" ∧
      ∃ next, stream[p]? = some next ∧ next ∉ [")", "+", "-", "*", "/"])

namespace Cursor

theorem getElem?_position (c : Cursor) : c.tokens[c.position]? = some c.current := by
  rw [tokens, position_eq_length_read, List.append_assoc, List.getElem?_append_right le_rfl,
    Nat.sub_self, unread, current]
  cases c.ahead <;> rfl

theorem getElem?_of_read {c : Cursor} {i : ℕ} {t : Token} (h : c.read[i]? = some t) :
    c.tokens[i]? = some t := by
  obtain ⟨hlt, -⟩ := List.getElem?_eq_some_iff.1 h
  rw [tokens, List.append_assoc, List.getElem?_append_left hlt, h]

theorem take_position (c : Cursor) : c.tokens.take c.position = c.read := by
  rw [tokens, position_eq_length_read, List.append_assoc, List.take_left]

theorem current_advance (c : Cursor) : c.advance.current = c.following := by
  obtain ⟨behind, ahead⟩ := c
  cases ahead <;> rfl

end Cursor

namespace Machine

variable {table : Table} {k : Kind} {K : Context k} {r r' : Reading}

/-- The token before the cursor, after it was moved over one. -/
theorem getElem?_of_read_append {t : Token} (h : r'.cursor.read = r.cursor.read ++ [t]) :
    0 < r'.cursor.position ∧ r'.cursor.tokens[r'.cursor.position - 1]? = some t := by
  have hlength : r'.cursor.position = r.cursor.read.length + 1 := by
    rw [Cursor.position_eq_length_read, h, List.length_append, List.length_singleton]
  refine ⟨by omega, Cursor.getElem?_of_read ?_⟩
  rw [hlength, Nat.add_sub_cancel, h, List.getElem?_concat_length]

/-- A name that was read with a parenthesis after it, and that has no value in the table. -/
structure Called (table : Table) (read : List Token) (name : Token) : Prop where
  before : ∃ i, read[i]? = some name ∧ read[i + 1]? = some "("
  unbound : table.get? name = none
  constant : name ≠ "pi"
  symbol : name.isSymbol = false
  numeral : name.startsNumeral = false

theorem Called.append {read : List Token} {name : Token} (h : Called table read name)
    (more : List Token) : Called table (read ++ more) name := by
  obtain ⟨i, hname, hnext⟩ := h.before
  have hlater {j : ℕ} {t : Token} (hj : read[j]? = some t) : (read ++ more)[j]? = some t := by
    obtain ⟨hlt, -⟩ := List.getElem?_eq_some_iff.1 hj
    rw [List.getElem?_append_left hlt, hj]
  exact { h with before := ⟨i, hlater hname, hlater hnext⟩ }

/-- All functions around a phrase have names with a property. -/
def Context.Calls (P : Token → Prop) {k : Kind} : Context k → Prop
  | top => True
  | product _ outer => outer.Calls P
  | sum _ outer => outer.Calls P
  | minus outer => outer.Calls P
  | group outer => outer.Calls P
  | call name outer => P name ∧ outer.Calls P

theorem Context.Calls.mono {P Q : Token → Prop} (h : K.Calls P) (hPQ : ∀ name, P name → Q name) :
    K.Calls Q := by
  induction K with
  | top => trivial
  | product _ outer ih | sum _ outer ih | minus outer ih | group outer ih => exact ih h
  | call name outer ih => exact ⟨hPQ name h.1, ih h.2⟩

/-- The counters of a reading, and the functions around a phrase, in terms of the tokens read. -/
structure Placed (table : Table) {k : Kind} (K : Context k) (r : Reading) : Prop where
  opened : r.groups.opened + r.cursor.read.count ")" = r.cursor.read.count "("
  nonneg : 0 ≤ r.groups.opened
  marked : r.groups.Marked
  level : r.level ≤ r.cursor.position
  calls : K.Calls (Called table r.cursor.read)

/-- Some more tokens are read, each of them for one level at most. -/
theorem Placed.go_on (h : Placed table K r) (tokens : List Token)
    (hread : r'.cursor.read = r.cursor.read ++ tokens)
    (hopened : r'.groups.opened + tokens.count ")" = r.groups.opened + tokens.count "(")
    (hnonneg : 0 ≤ r'.groups.opened) (hmarked : r'.groups.Marked)
    (hlevel : r'.level ≤ r.level + tokens.length) : Placed table K r' := by
  have hcount := h.opened
  have hdepth := h.level
  rw [Cursor.position_eq_length_read] at hdepth
  refine ⟨?_, hnonneg, hmarked, ?_, ?_⟩
  · rw [hread, List.count_append, List.count_append]
    omega
  · rw [Cursor.position_eq_length_read, hread, List.length_append]
    omega
  · rw [hread]
    exact h.calls.mono fun name hname => hname.append tokens

/-- A token that is no parenthesis is read. -/
theorem Placed.pass {t : Token} (h : Placed table K r) (hcurrent : r.cursor.current = t)
    (hmark : t ≠ Token.endMark) (hopen : t ≠ "(") (hclose : t ≠ ")")
    (hcursor : r'.cursor = r.advance.cursor) (hgroups : r'.groups = r.groups)
    (hlevel : r'.level ≤ r.level + 1) : Placed table K r' := by
  refine h.go_on [t] ?_ ?_ (hgroups ▸ h.nonneg) (hgroups ▸ h.marked) hlevel
  · rw [hcursor, read_advance hcurrent hmark]
  · rw [hgroups, List.count_singleton, List.count_singleton]
    simp [hopen, hclose]

/-- Nothing is read. -/
theorem Placed.stay (h : Placed table K r) (hcursor : r'.cursor = r.cursor)
    (hgroups : r'.groups = r.groups) (hlevel : r'.level ≤ r.level) : Placed table K r' := by
  refine h.go_on [] ?_ ?_ (hgroups ▸ h.nonneg) (hgroups ▸ h.marked) hlevel
  · rw [hcursor, List.append_nil]
  · rw [hgroups]
    rfl

theorem Placed.back (h : Placed table K r) : Placed table K r.back :=
  h.stay rfl rfl (Nat.sub_le ..)

/-- Around a phrase inside another there are the same functions, or one more. -/
theorem Placed.outer {j : Kind} {L : Context j} (h : Placed table K r)
    (hcalls : K.Calls (Called table r.cursor.read) → L.Calls (Called table r.cursor.read)) :
    Placed table L r :=
  ⟨h.opened, h.nonneg, h.marked, h.level, hcalls h.calls⟩

/-- What holds of every state on the way. -/
def State.Placed (table : Table) : State → Prop
  | read K r => Machine.Placed table K r
  | value _ K r => Machine.Placed table K r
  | finished _ K r => Machine.Placed table K r
  | failed _ _ => True

theorem Placed.operator {wanted : Operator → Bool} {op : Operator} (h : Placed table K r)
    (hop : r.operator? wanted = some op) : Placed table K r.advance := by
  obtain ⟨hcurrent, -, hmark⟩ := current_of_operator? hop
  have hopen : op.token ≠ "(" := by cases op <;> decide
  exact h.pass hcurrent hmark hopen op.token_ne_close rfl rfl (Nat.le_succ _)

theorem Placed.atom {v : Float} (h : Placed table K r) (hoperand : r.operand table = .value v) :
    Placed table K r.begin.advance.back := by
  cases begins_of_operand hoperand with
  | value hvalue =>
    exact h.pass rfl (hvalue.ne_of_isSymbol (by decide)) (hvalue.ne_of_isSymbol (by decide))
      (hvalue.ne_of_isSymbol (by decide)) rfl rfl (Nat.le_succ _)

theorem Placed.minus (h : Placed table K r) (hoperand : r.operand table = .minus) :
    Placed table K r.begin.advance := by
  cases begins_of_operand hoperand with
  | minus htoken => exact h.pass htoken (by decide) (by decide) (by decide) rfl rfl le_rfl

theorem Placed.group (h : Placed table K r) (hoperand : r.operand table = .group) :
    Placed table K r.begin.advance.enter := by
  cases begins_of_operand hoperand with
  | group htoken =>
    have henter : r.begin.advance.enter.groups.opened = r.groups.opened + 1 := rfl
    have hnonneg := h.nonneg
    refine h.go_on ["("] (read_advance htoken (by decide)) ?_ (by omega) (Groups.marked_enter _)
      le_rfl
    simp [henter]

theorem Placed.call {K : Context .factor} (h : Placed table K r)
    (hoperand : r.operand table = .call) (hnext : r.advance.cursor.current = "(") :
    Placed table (.call r.cursor.current K) r.begin.advance.advance.enter := by
  cases begins_of_operand hoperand with
  | call hunbound hconstant hsymbol hnumeral hcall =>
    have hne {s : Token} (hs : s.isSymbol = true) : r.cursor.current ≠ s :=
      Token.ne_of_isSymbol hsymbol hs
    have hread : r.advance.advance.cursor.read = r.cursor.read ++ [r.cursor.current, "("] := by
      rw [read_advance (r := r.advance) hnext (by decide), read_advance rfl (hne (by decide)),
        List.append_assoc]
      rfl
    have henter : r.begin.advance.advance.enter.groups.opened = r.groups.opened + 1 := rfl
    have hopen : r.cursor.current ≠ "(" := hne (by decide)
    have hclose : r.cursor.current ≠ ")" := hne (by decide)
    have hnonneg := h.nonneg
    have hplaced : Placed table K r.begin.advance.advance.enter :=
      h.go_on _ hread (by simp [henter, hopen, hclose]) (by omega) (Groups.marked_enter _)
        (Nat.le_succ _)
    have hcalled : Called table r.advance.advance.cursor.read r.cursor.current := by
      refine ⟨⟨r.cursor.read.length, ?_, ?_⟩, hunbound, hconstant, hsymbol, hnumeral⟩
      · simp [hread]
      · simp [hread]
    exact hplaced.outer fun hcalls => ⟨hcalled, hcalls⟩

theorem Placed.close (h : Placed table K r) (hclose : r.cursor.current = ")")
    (hgroups : r.groups.canLeave = true) : Placed table K r.advance.leave.closed := by
  have hpositive := h.marked.canLeave_iff.1 hgroups
  have hleave : r.advance.leave.closed.groups.opened = r.groups.opened - 1 := Groups.opened_leave _
  refine h.go_on [")"] (read_advance hclose (by decide)) ?_ (by omega) h.marked.leave
    (Nat.le_succ _)
  simp [hleave]

theorem State.Placed.step {s t : State} (h : s.Placed table) (hstep : Step table s t) :
    t.Placed table := by
  cases hstep with
  | expression | term => exact Machine.Placed.outer h id
  | atom hlevel hoperand => exact Machine.Placed.atom h hoperand
  | minus hlevel hoperand => exact (Machine.Placed.minus h hoperand).outer id
  | group hlevel hoperand => exact (Machine.Placed.group h hoperand).outer id
  | call hlevel hoperand hnext => exact Machine.Placed.call h hoperand hnext
  | @negate K | @groupEnd K => exact (Machine.Placed.outer (L := K) h id).back
  | @apply _ K => exact (Machine.Placed.outer (L := K) h And.right).back
  | joinFactor | joinTerm => exact Machine.Placed.outer h id
  | times hop | plus hop => exact (Machine.Placed.operator h hop).outer id
  | stop hop hclose => exact h
  | close hclose hgroups => exact Machine.Placed.close h hclose hgroups
  | tooDeep | noArgument | refused | stray | unknown => trivial

theorem State.Placed.steps {s t : State} (h : s.Placed table) (hsteps : Steps table s t) :
    t.Placed table :=
  hsteps.keep State.Placed.step h

/-- With nothing behind it but an opening, an expression begins at its place. -/
theorem placed_start {o : Opening} (h : o.Valid) (tokens : List Token) :
    Placed table .top (o.start tokens) := by
  have hread : (o.start tokens).cursor.read = o.tokens := List.reverse_reverse _
  have hcount {t : Token} (ht : t.isName = false) (hsign : t ≠ "=") : o.tokens.count t = 0 := by
    rw [List.count_eq_zero]
    cases o with
    | none => exact List.not_mem_nil
    | target name =>
      have hname : t ≠ name := by
        rintro rfl
        exact absurd (ht.symm.trans h.1) (by decide)
      simp [Opening.tokens, hname, hsign]
  refine ⟨?_, le_rfl, Groups.marked_initial, Nat.zero_le _, trivial⟩
  rw [hread, hcount (by decide) (by decide), hcount (by decide) (by decide)]
  rfl

/-- Every state that the expression of a statement comes to is in order. -/
theorem placed_of_steps {o : Opening} {tokens : List Token} {s : State}
    (hfits : o.Fits table tokens) (hsteps : Steps table (.read .top (o.start tokens)) s) :
    s.Placed table := by
  have hstart : (State.read .top (o.start tokens)).Placed table :=
    placed_start (Opening.valid_of_fits hfits) tokens
  exact hstart.steps hsteps

/-- A surplus parenthesis has just been read, outside all groups. -/
theorem Placed.pointsAt_of_stray (h : Placed table K r) (hclose : r.cursor.current = ")")
    (hgroups : r.groups.canLeave = false) :
    Fault.unbalanced.PointsAt table r.advance.leave.cursor.tokens
      r.advance.leave.cursor.position := by
  have hread : r.advance.leave.cursor.read = r.cursor.read ++ [")"] :=
    read_advance hclose (by decide)
  obtain ⟨hpositive, hbefore⟩ := getElem?_of_read_append hread
  have hopened : ¬ 0 < r.groups.opened := by
    rw [← h.marked.canLeave_iff, hgroups]
    decide
  have hnonneg := h.nonneg
  have hcount := h.opened
  have hclosing : [")"].count ")" = 1 := rfl
  have hopening : [")"].count "(" = 0 := rfl
  refine .inl ⟨hpositive, hbefore, ?_⟩
  rw [Cursor.take_position, hread, List.count_append, List.count_append]
  omega

/-- A function with a name of its own stands before a token that is no parenthesis. -/
theorem pointsAt_of_noArgument (hoperand : r.operand table = .call)
    (hnext : r.advance.cursor.current ≠ "(") :
    (Fault.argumentExpected r.cursor.current).PointsAt table r.begin.advance.cursor.tokens
      r.begin.advance.cursor.position := by
  cases begins_of_operand hoperand with
  | call hunbound hconstant hsymbol hnumeral hcall =>
    have hmark : r.cursor.current ≠ Token.endMark := Token.ne_of_isSymbol hsymbol (by decide)
    have hread := read_advance (r := r) rfl hmark
    obtain ⟨hpositive, hbefore⟩ := getElem?_of_read_append hread
    have hname : Builtin.isName r.cursor.current = true :=
      hcall.resolve_right fun hfollowing => hnext (r.cursor.current_advance.trans hfollowing)
    exact ⟨hpositive, hbefore, hname, by simp [Table.contains, hunbound], _,
      Cursor.getElem?_position _, hnext⟩

/-- A token that begins no operand stands at the cursor. -/
theorem pointsAt_of_refused {fault : Fault} (hoperand : r.operand table = .refused fault) :
    fault.PointsAt table r.begin.cursor.tokens r.begin.cursor.position := by
  cases begins_of_operand hoperand with
  | symbol | malformed | unbound => exact Cursor.getElem?_position _

/-- The name of no function was read before its argument. -/
theorem Placed.pointsAt_of_unknown {K : Context .factor} {name : Token}
    (h : Placed table (.call name K) r) (hname : Builtin.ofName? name = none) :
    (Fault.unknownFunction name).PointsAt table r.cursor.tokens r.cursor.position := by
  obtain ⟨hcalled, -⟩ := h.calls
  obtain ⟨i, hi, hnext⟩ := hcalled.before
  obtain ⟨hlt, -⟩ := List.getElem?_eq_some_iff.1 hnext
  rw [← Cursor.position_eq_length_read] at hlt
  refine ⟨⟨i, hlt, Cursor.getElem?_of_read hi, Cursor.getElem?_of_read hnext⟩, ?_, ?_,
    hcalled.constant, hcalled.symbol, hcalled.numeral⟩
  · simp [Builtin.isName, hname]
  · simp [Table.contains, hcalled.unbound]

/-- A step that fails finds its fault at the cursor. -/
theorem State.Placed.pointsAt {s : State} {fault : Fault} (h : s.Placed table)
    (hstep : Step table s (.failed fault r)) :
    fault.PointsAt table r.cursor.tokens r.cursor.position := by
  cases hstep with
  | tooDeep hlevel =>
    have hdepth : r.level ≤ r.cursor.position := Machine.Placed.level h
    exact ⟨rfl, hlevel.symm.le.trans hdepth⟩
  | noArgument hlevel hoperand hnext => exact pointsAt_of_noArgument hoperand hnext
  | refused hlevel hoperand => exact pointsAt_of_refused hoperand
  | stray hclose hgroups => exact Machine.Placed.pointsAt_of_stray h hclose hgroups
  | unknown hname => exact Machine.Placed.pointsAt_of_unknown h hname

/-- Where nothing goes on, no operator and no closing parenthesis stands. -/
theorem Stops.current_notMem (h : Stops r) : r.cursor.current ∉ [")", "+", "-", "*", "/"] := by
  have hnone := h.2 fun _ => true
  have hop (op : Operator) : r.cursor.current ≠ op.token := by
    intro heq
    rw [Reading.operator?, heq, Operator.ofToken?_token] at hnone
    cases hnone
  simp only [List.mem_cons, List.not_mem_nil, or_false, not_or]
  exact ⟨h.1, hop .add, hop .sub, hop .mul, hop .div⟩

/-- Groups that are open when the machine has finished were entered and not left. -/
theorem Placed.pointsAt_of_open (h : Placed table K r) (hopened : 0 < r.groups.opened)
    (hstops : Stops r) : Fault.unbalanced.PointsAt table r.cursor.tokens r.cursor.position := by
  have hcount := h.opened
  refine .inr ⟨?_, _, Cursor.getElem?_position _, hstops.current_notMem⟩
  rw [Cursor.take_position]
  omega

end Machine

open Machine

/-- A token that is left over stands at the cursor. -/
theorem pointsAt_of_remainingFault? {table : Table} {r : Reading} {fault : Fault}
    (hopened : r.groups.opened ≠ 0 →
      Fault.unbalanced.PointsAt table r.cursor.tokens r.cursor.position)
    (h : remainingFault? table r = some fault) :
    fault.PointsAt table r.cursor.tokens r.cursor.position := by
  obtain ⟨hne, rfl⟩ | ⟨-, -, ⟨-, -, rfl⟩ | rfl⟩ := remainingFault?_cases h
  · exact hopened hne
  · exact Cursor.getElem?_position _
  · exact Cursor.getElem?_position _

/-- When a statement is refused, the cursor is at the place to which the fault points. -/
theorem pointsAt_of_evaluate (table : Table) (tokens : List Token) (fault : Fault)
    (h : (evaluate table (.start tokens)).outcome = .refused fault) :
    fault.PointsAt table (tokens ++ [Token.endMark])
      (evaluate table (.start tokens)).cursor.position := by
  have hrefusal := refusal_of_evaluate h
  generalize (evaluate table (.start tokens)).cursor = c at hrefusal
  cases hrefusal with
  | @failed o rest s r hfits hsteps hstep =>
    have htokens : r.cursor.tokens = o.tokens ++ rest ++ [Token.endMark] :=
      Opening.tokens_of_steps (hsteps.tail hstep)
    have hpoints := (placed_of_steps hfits hsteps).pointsAt hstep
    rwa [htokens] at hpoints
  | @remaining o rest v r hfits hsteps hremaining =>
    have htokens : r.cursor.tokens = o.tokens ++ rest ++ [Token.endMark] :=
      Opening.tokens_of_steps hsteps
    have hopen : r.groups.opened ≠ 0 →
        Fault.unbalanced.PointsAt table r.cursor.tokens r.cursor.position := by
      intro hne
      cases (derives_start table o rest).steps hsteps with
      | finished p hlevel hopened hread => exact absurd hopened hne
      | closed p hK htop => exact absurd rfl htop
      | finishedOpen hopened hstops =>
        exact Placed.pointsAt_of_open (placed_of_steps hfits hsteps) hopened hstops
    have hpoints := pointsAt_of_remainingFault? hopen hremaining
    rwa [htokens] at hpoints
  | nothing hbegins hremaining =>
    exact pointsAt_of_remainingFault? (r := Opening.none.start tokens) (fun hne => absurd rfl hne)
      hremaining

/-- The name of no function is refused when its argument has been read. -/
theorem pointsAt_of_unknown_function :
    let d := evaluate .empty (.start ["-", "f", "(", "pi", ")"])
    d.outcome = .refused (.unknownFunction "f") ∧
      (Fault.unknownFunction "f").PointsAt .empty ["-", "f", "(", "pi", ")", "$"]
        d.cursor.position := by
  intro d
  have houtcome : d.outcome = .refused (.unknownFunction "f") := by decide +kernel
  exact ⟨houtcome, pointsAt_of_evaluate .empty ["-", "f", "(", "pi", ")"] _ houtcome⟩

end LineCalc
