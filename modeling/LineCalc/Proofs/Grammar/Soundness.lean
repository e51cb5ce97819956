import LineCalc.Proofs.Groups
import LineCalc.Proofs.Machine.Statement

namespace LineCalc.Machine

variable {table : Table} {k : Kind}

namespace Context

/-- How many factors there are around a phrase. -/
def depth {k : Kind} : Context k → Nat
  | top => 0
  | product _ outer => outer.depth
  | sum _ outer => outer.depth
  | minus outer => outer.depth + 1
  | group outer => outer.depth + 1
  | call _ outer => outer.depth + 1

/-- How many groups there are around a phrase. -/
def groups {k : Kind} : Context k → Nat
  | top => 0
  | product _ outer => outer.groups
  | sum _ outer => outer.groups
  | minus outer => outer.groups
  | group outer => outer.groups + 1
  | call _ outer => outer.groups + 1

/-- How many groups there are around an expression when its own has been closed. -/
def groupsAfter : Context .expression → Nat
  | top => 0
  | group outer => outer.groups
  | call _ outer => outer.groups

/-- The tokens that were read before a phrase: those of the phrases on its left and of the factors
around it. -/
inductive Spells (table : Table) : {k : Kind} → Context k → List Token → Prop
  | top : Spells table .top []
  | product {K : Context .term} {read : List Token} (h : Spells table K read) :
      Spells table (.product none K) read
  | times {K : Context .term} {read : List Token} (p : Phrase table .term) (op : Operator)
      (role : op.isMultiplicative = true) (hlevel : K.depth + p.level ≤ maxLevel)
      (h : Spells table K read) :
      Spells table (.product (some (p.value, op)) K) (read ++ (p.tokens ++ [op.token]))
  | sum {K : Context .expression} {read : List Token} (h : Spells table K read) :
      Spells table (.sum none K) read
  | plus {K : Context .expression} {read : List Token} (p : Phrase table .expression)
      (op : Operator) (role : op.isAdditive = true) (hlevel : K.depth + p.level ≤ maxLevel)
      (h : Spells table K read) :
      Spells table (.sum (some (p.value, op)) K) (read ++ (p.tokens ++ [op.token]))
  | minus {K : Context .factor} {read : List Token} (h : Spells table K read) :
      Spells table (.minus K) (read ++ ["-"])
  | group {K : Context .factor} {read : List Token} (h : Spells table K read) :
      Spells table (.group K) (read ++ ["("])
  | call {K : Context .factor} {read : List Token} {name : Token}
      (hunbound : table.get? name = none) (h : Spells table K read) :
      Spells table (.call name K) (read ++ [name, "("])

end Context

/-- The counters of a reading are those of a context. -/
structure Agrees {k : Kind} (K : Context k) (r : Reading) : Prop where
  level : r.level = K.depth
  opened : r.groups.opened = K.groups
  marked : r.groups.Marked

/-- Where a factor may begin there is room for its level. -/
theorem Agrees.depth_lt {K : Context k} {r : Reading} (h : Agrees K r) (hdepth : K.depth ≤ maxLevel)
    (hlevel : r.level ≠ maxLevel) : K.depth + 1 ≤ maxLevel := by
  have hagrees := h.level
  omega

/-- No operator and no closing parenthesis stands at the cursor. -/
def Stops (r : Reading) : Prop :=
  r.cursor.current ≠ ")" ∧ ∀ wanted, r.operator? wanted = none

/-- What holds of every state on the way, for a run that began after some tokens. What has been read
is spelled out by phrases, and a group that is left open stays open until the machine halts. -/
inductive Derives (table : Table) (before : List Token) : State → Prop
  | read {k : Kind} {K : Context k} {r : Reading} {read : List Token}
      (hK : K.Spells table read) (hr : Agrees K r) (hdepth : K.depth ≤ maxLevel)
      (hread : r.cursor.read = before ++ read) : Derives table before (.read K r)
  | value {k : Kind} {K : Context k} {r : Reading} {read : List Token} (p : Phrase table k)
      (hK : K.Spells table read) (hr : Agrees K r) (hlevel : K.depth + p.level ≤ maxLevel)
      (hread : r.cursor.read = before ++ (read ++ p.tokens))
      (hend : k = .expression → r.operator? Operator.isMultiplicative = none) :
      Derives table before (.value p.value K r)
  | valueOpen {k : Kind} {K : Context k} {r : Reading} {v : Float}
      (hopened : K.groups < r.groups.opened) (hstops : Stops r) :
      Derives table before (.value v K r)
  | finished {r : Reading} (p : Phrase table .expression) (hlevel : p.level ≤ maxLevel)
      (hopened : r.groups.opened = 0) (hread : r.cursor.read = before ++ p.tokens) :
      Derives table before (.finished p.value .top r)
  | closed {K : Context .expression} {r : Reading} {read : List Token}
      (p : Phrase table .expression) (hK : K.Spells table read) (htop : K ≠ .top)
      (hlevel : K.depth + p.level ≤ maxLevel) (hdepth : r.level = K.depth)
      (hopened : r.groups.opened = K.groupsAfter) (hmarked : r.groups.Marked)
      (hread : r.cursor.read = before ++ (read ++ (p.tokens ++ [")"]))) :
      Derives table before (.finished p.value K r)
  | finishedOpen {K : Context .expression} {r : Reading} {v : Float}
      (hopened : K.groupsAfter < r.groups.opened) (hstops : Stops r) :
      Derives table before (.finished v K r)
  | failed {fault : Fault} {r : Reading} : Derives table before (.failed fault r)

theorem read_advance {r : Reading} {t : Token} (h : r.cursor.current = t)
    (ht : t ≠ Token.endMark) : r.advance.cursor.read = r.cursor.read ++ [t] := by
  obtain ⟨⟨behind, ahead⟩, groups, level, events⟩ := r
  cases ahead with
  | nil => exact absurd h.symm ht
  | cons next later =>
    obtain rfl : next = t := h
    simp [Reading.advance, Cursor.advance, Cursor.read]

theorem current_of_operator? {r : Reading} {wanted : Operator → Bool} {op : Operator}
    (h : r.operator? wanted = some op) :
    r.cursor.current = op.token ∧ wanted op = true ∧ op.token ≠ Token.endMark := by
  obtain ⟨htoken, hwanted⟩ := Operator.filter_ofToken?_eq_some h
  exact ⟨htoken, hwanted, by cases op <;> decide⟩

theorem begins_of_operand {r : Reading} {operand : Operand} (h : r.operand table = operand) :
    Operand.Begins table r.cursor.current r.cursor.following operand := by
  rw [← h]
  exact Operand.begins_ofToken table _ _

/-- Where no additive and no multiplicative operator stands there is no operator. -/
theorem stops_of_operator? {r : Reading} (hclose : r.cursor.current ≠ ")")
    (hadditive : r.operator? Operator.isAdditive = none)
    (hmultiplicative : r.operator? Operator.isMultiplicative = none) : Stops r := by
  refine ⟨hclose, ?_⟩
  intro wanted
  simp only [Reading.operator?] at *
  cases hop : Operator.ofToken? r.cursor.current with
  | none => rfl
  | some op =>
    rw [hop] at hadditive hmultiplicative
    cases op <;> simp [Operator.isAdditive, Operator.isMultiplicative] at hadditive hmultiplicative

namespace Derives

variable {before : List Token} {r : Reading} {v : Float}

theorem atom {K : Context .factor} (h : Derives table before (.read K r))
    (hlevel : r.level ≠ maxLevel) (hoperand : r.operand table = .value v) :
    Derives table before (.value v K r.begin.advance.back) := by
  cases h with
  | read hK hr hdepth hread =>
    cases begins_of_operand hoperand with
    | value hvalue =>
      have hend : r.cursor.current ≠ Token.endMark := hvalue.ne_of_isSymbol (by decide)
      have hlt := hr.depth_lt hdepth hlevel
      have hread' := read_advance (r := r) rfl hend
      rw [hread, List.append_assoc] at hread'
      exact .value (.atom _ v hvalue) hK ⟨hr.level, hr.opened, hr.marked⟩ hlt hread' nofun

theorem minus {K : Context .factor} (h : Derives table before (.read K r))
    (hlevel : r.level ≠ maxLevel) (hoperand : r.operand table = .minus) :
    Derives table before (.read (.minus K) r.begin.advance) := by
  cases h with
  | read hK hr hdepth hread =>
    cases begins_of_operand hoperand with
    | minus htoken =>
      have hlt := hr.depth_lt hdepth hlevel
      have hread' := read_advance htoken (by decide)
      rw [hread, List.append_assoc] at hread'
      exact .read hK.minus ⟨congrArg (· + 1) hr.level, hr.opened, hr.marked⟩ hlt hread'

theorem group {K : Context .factor} (h : Derives table before (.read K r))
    (hlevel : r.level ≠ maxLevel) (hoperand : r.operand table = .group) :
    Derives table before (.read (.group K) r.begin.advance.enter) := by
  cases h with
  | read hK hr hdepth hread =>
    cases begins_of_operand hoperand with
    | group htoken =>
      have hlt := hr.depth_lt hdepth hlevel
      have hread' := read_advance htoken (by decide)
      rw [hread, List.append_assoc] at hread'
      exact .read hK.group
        ⟨congrArg (· + 1) hr.level, congrArg (· + 1) hr.opened, Groups.marked_enter _⟩ hlt hread'

theorem call {K : Context .factor} (h : Derives table before (.read K r))
    (hlevel : r.level ≠ maxLevel) (hoperand : r.operand table = .call)
    (hnext : r.advance.cursor.current = "(") :
    Derives table before
      (.read (.call r.cursor.current K) r.begin.advance.advance.enter) := by
  cases h with
  | read hK hr hdepth hread =>
    cases begins_of_operand hoperand with
    | call hunbound hconstant hsymbol hnumeral hcall =>
      have hend : r.cursor.current ≠ Token.endMark := Token.ne_of_isSymbol hsymbol (by decide)
      have hlt := hr.depth_lt hdepth hlevel
      have hread' := read_advance (r := r.advance) hnext (by decide)
      rw [read_advance rfl hend, hread, List.append_assoc, List.append_assoc] at hread'
      exact .read (hK.call hunbound)
        ⟨congrArg (· + 1) hr.level, congrArg (· + 1) hr.opened, Groups.marked_enter _⟩ hlt hread'

/-- A factor that holds others has ended, and the reading comes back to its level. -/
theorem back {K : Context .factor} {read : List Token} (p : Phrase table .factor)
    (hK : K.Spells table read) (hdepth : r.level = K.depth + 1)
    (hopened : r.groups.opened = K.groups) (hmarked : r.groups.Marked)
    (hlevel : K.depth + p.level ≤ maxLevel) (hread : r.cursor.read = before ++ (read ++ p.tokens)) :
    Derives table before (.value p.value K r.back) := by
  have hback : r.level - 1 = K.depth := by
    rw [hdepth]
    rfl
  refine .value p hK ⟨hback, hopened, hmarked⟩ hlevel hread ?_
  intro h
  exact absurd h Kind.factor_ne_expression

theorem negate {K : Context .factor} (h : Derives table before (.value v (.minus K) r)) :
    Derives table before (.value (-v) K r.back) := by
  cases h with
  | value p hK hr hlevel hread hend =>
    cases hK with
    | minus hK =>
      have hlevel' : K.depth + 1 + p.level ≤ maxLevel := hlevel
      refine back (.minus p) hK hr.level hr.opened hr.marked ?_ ?_
      · change K.depth + (p.level + 1) ≤ maxLevel
        omega
      · rw [hread]
        simp [Phrase.tokens]
  | valueOpen hopened hstops => exact .valueOpen hopened hstops

theorem joinFactor {left : Option (Float × Operator)} {K : Context .term}
    (h : Derives table before (.value v (.product left K) r)) :
    Derives table before (.value (join left v) K r) := by
  cases h with
  | value p hK hr hlevel hread hend =>
    cases hK with
    | product hK => exact .value (.single p) hK ⟨hr.level, hr.opened, hr.marked⟩ hlevel hread nofun
    | times q op role hq hK =>
      have hvalue : join (some (q.value, op)) p.value = (Phrase.product q op role p).value :=
        (Phrase.value_product q role p).symm
      rw [hvalue]
      refine .value (.product q op role p) hK ⟨hr.level, hr.opened, hr.marked⟩ ?_ ?_ nofun
      · have hp : K.depth + p.level ≤ maxLevel := hlevel
        change K.depth + max q.level p.level ≤ maxLevel
        omega
      · rw [hread]
        simp [Phrase.tokens]
  | valueOpen hopened hstops => exact .valueOpen hopened hstops

theorem joinTerm {left : Option (Float × Operator)} {K : Context .expression}
    (h : Derives table before (.value v (.sum left K) r))
    (hop : r.operator? Operator.isMultiplicative = none) :
    Derives table before (.value (join left v) K r) := by
  cases h with
  | value p hK hr hlevel hread hend =>
    cases hK with
    | sum hK => exact .value (.lone p) hK ⟨hr.level, hr.opened, hr.marked⟩ hlevel hread fun _ => hop
    | plus q op role hq hK =>
      have hvalue : join (some (q.value, op)) p.value = (Phrase.sum q op role p).value :=
        (Phrase.value_sum q role p).symm
      rw [hvalue]
      refine .value (.sum q op role p) hK ⟨hr.level, hr.opened, hr.marked⟩ ?_ ?_ fun _ => hop
      · have hp : K.depth + p.level ≤ maxLevel := hlevel
        change K.depth + max q.level p.level ≤ maxLevel
        omega
      · rw [hread]
        simp [Phrase.tokens]
  | valueOpen hopened hstops => exact .valueOpen hopened hstops

theorem times {K : Context .term} {op : Operator} (h : Derives table before (.value v K r))
    (hop : r.operator? Operator.isMultiplicative = some op) :
    Derives table before (.read (.product (some (v, op)) K) r.advance) := by
  cases h with
  | value p hK hr hlevel hread hend =>
    obtain ⟨htoken, hrole, hmark⟩ := current_of_operator? hop
    have hread' := read_advance htoken hmark
    rw [hread, List.append_assoc, List.append_assoc] at hread'
    exact .read (hK.times p op hrole hlevel) ⟨hr.level, hr.opened, hr.marked⟩
      (Nat.le_trans (Nat.le_add_right ..) hlevel) hread'
  | valueOpen hopened hstops => cases (hstops.2 _).symm.trans hop

theorem plus {K : Context .expression} {op : Operator} (h : Derives table before (.value v K r))
    (hop : r.operator? Operator.isAdditive = some op) :
    Derives table before (.read (.sum (some (v, op)) K) r.advance) := by
  cases h with
  | value p hK hr hlevel hread hend =>
    obtain ⟨htoken, hrole, hmark⟩ := current_of_operator? hop
    have hread' := read_advance htoken hmark
    rw [hread, List.append_assoc, List.append_assoc] at hread'
    exact .read (hK.plus p op hrole hlevel) ⟨hr.level, hr.opened, hr.marked⟩
      (Nat.le_trans (Nat.le_add_right ..) hlevel) hread'
  | valueOpen hopened hstops => cases (hstops.2 _).symm.trans hop

/-- An expression that ends without a parenthesis leaves its group open, if it has one. -/
theorem stop {K : Context .expression} (h : Derives table before (.value v K r))
    (hop : r.operator? Operator.isAdditive = none) (hclose : r.cursor.current ≠ ")") :
    Derives table before (.finished v K r) := by
  cases h with
  | value p hK hr hlevel hread hend =>
    have hstops := stops_of_operator? hclose hop (hend rfl)
    have hopened := hr.opened
    cases hK with
    | top =>
      have hp : 0 + p.level ≤ maxLevel := hlevel
      exact .finished p (by omega) hopened hread
    | group | call =>
      refine .finishedOpen ?_ hstops
      simp only [Context.groups, Context.groupsAfter] at *
      omega
  | valueOpen hopened hstops =>
    refine .finishedOpen ?_ hstops
    cases K with
    | top => exact hopened
    | group | call =>
      simp only [Context.groups, Context.groupsAfter] at *
      omega

/-- A parenthesis closes the innermost group. Outside all groups there is none to close. -/
theorem close {K : Context .expression} (h : Derives table before (.value v K r))
    (hclose : r.cursor.current = ")") (hgroups : r.groups.canLeave = true) :
    Derives table before (.finished v K r.advance.leave.closed) := by
  cases h with
  | value p hK hr hlevel hread hend =>
    have hpositive := (hr.marked.canLeave_iff).1 hgroups
    have hopened := hr.opened
    have hread' := read_advance hclose (by decide)
    rw [hread, List.append_assoc, List.append_assoc] at hread'
    have hleave : r.groups.leave.opened = r.groups.opened - 1 := Groups.opened_leave _
    refine .closed p hK ?_ hlevel hr.level ?_ hr.marked.leave hread'
    · rintro rfl
      simp only [Context.groups] at hopened
      omega
    · change r.groups.leave.opened = K.groupsAfter
      cases K with
      | top =>
        simp only [Context.groups] at hopened
        omega
      | group | call =>
        simp only [Context.groups, Context.groupsAfter] at *
        omega
  | valueOpen hopened hstops => exact absurd hclose hstops.1

/-- The factor that a group makes with what is in it. -/
theorem groupEnd {K : Context .factor} (h : Derives table before (.finished v (.group K) r)) :
    Derives table before (.value v K r.back) := by
  cases h with
  | closed p hK htop hlevel hdepth hopened hmarked hread =>
    cases hK with
    | group hK =>
      have hlevel' : K.depth + 1 + p.level ≤ maxLevel := hlevel
      refine back (.group p) hK hdepth hopened hmarked ?_ ?_
      · change K.depth + (p.level + 1) ≤ maxLevel
        omega
      · rw [hread]
        simp [Phrase.tokens]
  | finishedOpen hopened hstops => exact .valueOpen hopened hstops

theorem apply {K : Context .factor} {name : Token} {f : Builtin}
    (h : Derives table before (.finished v (.call name K) r))
    (hname : Builtin.ofName? name = some f) :
    Derives table before (.value (f.apply v) K r.back) := by
  obtain rfl := Builtin.name_of_ofName? hname
  cases h with
  | closed p hK htop hlevel hdepth hopened hmarked hread =>
    cases hK with
    | call hunbound hK =>
      have hlevel' : K.depth + 1 + p.level ≤ maxLevel := hlevel
      rw [← Phrase.value_call f hunbound p]
      refine back (.call f hunbound p) hK hdepth hopened hmarked ?_ ?_
      · change K.depth + (p.level + 1) ≤ maxLevel
        omega
      · rw [hread]
        simp [Phrase.tokens]
  | finishedOpen hopened hstops => exact .valueOpen hopened hstops

theorem step {s t : State} (h : Derives table before s) (hstep : Step table s t) :
    Derives table before t := by
  cases hstep with
  | expression =>
    cases h with
    | read hK hr hdepth hread => exact .read hK.sum ⟨hr.level, hr.opened, hr.marked⟩ hdepth hread
  | term =>
    cases h with
    | read hK hr hdepth hread =>
      exact .read hK.product ⟨hr.level, hr.opened, hr.marked⟩ hdepth hread
  | atom hlevel hoperand => exact h.atom hlevel hoperand
  | minus hlevel hoperand => exact h.minus hlevel hoperand
  | group hlevel hoperand => exact h.group hlevel hoperand
  | call hlevel hoperand hnext => exact h.call hlevel hoperand hnext
  | negate => exact h.negate
  | joinFactor => exact h.joinFactor
  | times hop => exact h.times hop
  | joinTerm hop => exact h.joinTerm hop
  | plus hop => exact h.plus hop
  | stop hop hclose => exact h.stop hop hclose
  | close hclose hgroups => exact h.close hclose hgroups
  | groupEnd => exact h.groupEnd
  | apply hname => exact h.apply hname
  | tooDeep | noArgument | refused | stray | unknown => exact .failed

theorem steps {s t : State} (h : Derives table before s) (hsteps : Steps table s t) :
    Derives table before t :=
  hsteps.keep step h

end Derives

theorem derives_start (table : Table) (o : Opening) (tokens : List Token) :
    Derives table o.tokens (.read .top (o.start tokens)) := by
  refine .read .top ⟨rfl, rfl, Groups.marked_initial⟩ (Nat.zero_le _) ?_
  simp [Opening.start, Cursor.read]

/-- If the machine finishes and has left no group open, then the tokens it has read are a
derivation of the value. -/
theorem exists_phrase_of_steps {o : Opening} {tokens : List Token} {v : Float} {r : Reading}
    (h : Steps table (.read .top (o.start tokens)) (.finished v .top r))
    (hgroups : r.groups.opened = 0) :
    ∃ e : Phrase table .expression, e.value = v ∧ e.level ≤ maxLevel ∧
      r.cursor.read = o.tokens ++ e.tokens := by
  cases (derives_start table o tokens).steps h with
  | finished p hlevel hopened hread => exact ⟨p, rfl, hlevel, hread⟩
  | closed p hK htop => exact absurd rfl htop
  | finishedOpen hopened hstops =>
    rw [hgroups] at hopened
    exact absurd hopened (Int.lt_irrefl 0)

end LineCalc.Machine
