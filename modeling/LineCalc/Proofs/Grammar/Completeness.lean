import LineCalc.Proofs.Grammar.Soundness

namespace LineCalc.Machine

open Context

variable {table : Table} {k : Kind}

/-- A reading that may go on to read some tokens, after which there are none: they stand at the
cursor, and no more groups have been left than entered. -/
structure Remains (r : Reading) (tokens : List Token) : Prop where
  ahead : r.cursor.ahead = tokens
  opened : 0 ≤ r.groups.opened
  marked : r.groups.Marked

/-- A reading that may go on to read a phrase and then some more tokens. A term that goes on after
the phrase would be part of an expression. -/
structure Faces {k : Kind} (r : Reading) (p : Phrase table k) (rest : List Token) : Prop extends
    Remains r (p.tokens ++ rest) where
  ends : k = .expression →
    (Operator.ofToken? (rest.headD Token.endMark)).filter Operator.isMultiplicative = none

/-- The reading after some tokens of balanced groups. -/
structure Passes (r : Reading) (tokens rest : List Token) (r' : Reading) : Prop where
  cursor : r'.cursor = ⟨tokens.reverse ++ r.cursor.behind, rest⟩
  level : r'.level = r.level
  opened : r'.groups.opened = r.groups.opened
  marked : r'.groups.Marked

/-- The cursor stands on a token. -/
theorem current_of_ahead {r : Reading} {t : Token} {rest : List Token}
    (h : r.cursor.ahead = t :: rest) : r.cursor.current = t := by
  rw [Cursor.current, h]
  rfl

theorem cursor_advance {r : Reading} {t : Token} {rest : List Token}
    (h : r.cursor.ahead = t :: rest) : r.advance.cursor = ⟨t :: r.cursor.behind, rest⟩ := by
  rw [Reading.advance, Cursor.advance, h]

theorem ahead_advance {r : Reading} {t : Token} {rest : List Token}
    (h : r.cursor.ahead = t :: rest) : r.advance.cursor.ahead = rest := by
  rw [cursor_advance h]

theorem position_advance {r : Reading} {t : Token} {rest : List Token}
    (h : r.cursor.ahead = t :: rest) : r.advance.cursor.position = r.cursor.position + 1 := by
  rw [cursor_advance h]
  rfl

theorem operator?_of_ahead {r : Reading} {op : Operator} {rest : List Token}
    (h : r.cursor.ahead = op.token :: rest) {wanted : Operator → Bool} (hop : wanted op = true) :
    r.operator? wanted = some op := by
  simp [Reading.operator?, current_of_ahead h, hop]

theorem operand_of_ahead {r : Reading} {t : Token} {rest : List Token}
    (h : r.cursor.ahead = t :: rest) :
    r.operand table = Operand.ofToken table t (rest.headD Token.endMark) := by
  rw [Reading.operand, current_of_ahead h, Cursor.following, h]
  rfl

section

variable {r r₁ r₂ : Reading} {rest : List Token}

/-- An operator and its right operand, after the left one. -/
theorem Passes.operator {left right : List Token} {t : Token}
    (hleft : Passes r left (t :: (right ++ rest)) r₁)
    (hright : Passes r₁.advance right rest r₂) : Passes r (left ++ t :: right) rest r₂ := by
  have hahead : r₁.cursor.ahead = t :: (right ++ rest) := by rw [hleft.cursor]
  refine ⟨?_, hright.level.trans hleft.level, hright.opened.trans hleft.opened, hright.marked⟩
  rw [hright.cursor, cursor_advance hahead, hleft.cursor]
  simp

/-- An expression in parentheses, after what opens its group. -/
theorem Passes.enclose {inner : List Token} (h : Passes r₁ inner (")" :: rest) r₂)
    (opening : List Token) (hbehind : r₁.cursor.behind = opening.reverse ++ r.cursor.behind)
    (hlevel : r₁.level = r.level + 1) (hopened : r₁.groups.opened = r.groups.opened + 1) :
    Passes r (opening ++ (inner ++ [")"])) rest r₂.advance.leave.closed.back := by
  have hahead : r₂.cursor.ahead = ")" :: rest := by rw [h.cursor]
  refine ⟨?_, ?_, ?_, h.marked.leave⟩
  · change r₂.advance.cursor = _
    rw [cursor_advance hahead, h.cursor, hbehind]
    simp
  · change r₂.level - 1 = r.level
    rw [h.level, hlevel]
    rfl
  · change r₂.groups.leave.opened = r.groups.opened
    rw [Groups.opened_leave, h.opened, hopened]
    omega

/-- After a phrase the cursor stands on what follows it. -/
theorem Passes.ends {tokens : List Token} (h : Passes r tokens rest r₁)
    {wanted : Operator → Bool}
    (hends : (Operator.ofToken? (rest.headD Token.endMark)).filter wanted = none) :
    r₁.operator? wanted = none := by
  rw [Reading.operator?, h.cursor]
  exact hends

theorem step_minus {K : Context .factor} (hlevel : r.level ≠ maxLevel)
    (h : r.cursor.ahead = "-" :: rest) :
    Step table (.read K r) (.read (.minus K) r.begin.advance) :=
  .minus hlevel ((operand_of_ahead h).trans (Operand.ofToken_minus ..))

theorem step_group {K : Context .factor} (hlevel : r.level ≠ maxLevel)
    (h : r.cursor.ahead = "(" :: rest) :
    Step table (.read K r) (.read (.group K) r.begin.advance.enter) :=
  .group hlevel ((operand_of_ahead h).trans (Operand.ofToken_group ..))

theorem step_call {K : Context .factor} {f : Builtin} (hlevel : r.level ≠ maxLevel)
    (hunbound : table.get? f.name = none) (h : r.cursor.ahead = f.name :: "(" :: rest) :
    Step table (.read K r) (.read (.call f.name K) r.begin.advance.advance.enter) := by
  have hstep : Step table (.read K r)
      (.read (.call r.cursor.current K) r.begin.advance.advance.enter) :=
    .call hlevel ((operand_of_ahead h).trans (Operand.ofToken_name hunbound _))
      (current_of_ahead (ahead_advance h))
  rwa [current_of_ahead h] at hstep

/-- The parenthesis after an expression closes its group. -/
theorem step_close {K : Context .expression} {v : Float} {inner : List Token}
    (h : Passes r₁ inner (")" :: rest) r₂) (hopened : 0 < r₁.groups.opened) :
    Step table (.value v K r₂) (.finished v K r₂.advance.leave.closed) := by
  have hahead : r₂.cursor.ahead = ")" :: rest := by rw [h.cursor]
  exact .close (current_of_ahead hahead) (h.marked.canLeave_iff.2 (h.opened ▸ hopened))

/-- A function is applied to the value of what is in its parentheses. -/
theorem step_apply (K : Context .factor) {f : Builtin} (unbound : table.get? f.name = none)
    (e : Phrase table .expression) (r : Reading) :
    Step table (.finished e.value (.call f.name K) r)
      (.value (Phrase.call f unbound e).value K r.back) := by
  rw [Phrase.value_call]
  exact .apply f.ofName?_name

/-- A product is joined as soon as its last factor has a value. -/
theorem step_product (K : Context .term) (t : Phrase table .term) {op : Operator}
    (role : op.isMultiplicative = true) (f : Phrase table .factor) (r : Reading) :
    Step table (.value f.value (.product (some (t.value, op)) K) r)
      (.value (Phrase.product t op role f).value K r) := by
  rw [Phrase.value_product]
  exact .joinFactor

/-- A sum is joined when its last term does not go on. -/
theorem step_sum (K : Context .expression) (e : Phrase table .expression) {op : Operator}
    (role : op.isAdditive = true) (t : Phrase table .term)
    (h : r.operator? Operator.isMultiplicative = none) :
    Step table (.value t.value (.sum (some (e.value, op)) K) r)
      (.value (Phrase.sum e op role t).value K r) := by
  rw [Phrase.value_sum]
  exact .joinTerm h

namespace Remains

variable {tokens : List Token}

theorem minus (h : Remains r ("-" :: tokens)) : Remains r.begin.advance tokens :=
  ⟨ahead_advance (r := r) h.ahead, h.opened, h.marked⟩

theorem group (h : Remains r ("(" :: tokens)) : Remains r.begin.advance.enter tokens := by
  have hopened := h.opened
  refine ⟨ahead_advance (r := r) h.ahead, ?_, Groups.marked_enter _⟩
  change 0 ≤ r.groups.opened + 1
  omega

theorem call {name : Token} (h : Remains r (name :: "(" :: tokens)) :
    Remains r.begin.advance.advance.enter tokens := by
  have hopened := h.opened
  refine ⟨ahead_advance (r := r.advance) (ahead_advance h.ahead), ?_, Groups.marked_enter _⟩
  change 0 ≤ r.groups.opened + 1
  omega

/-- The right operand of an operator comes after the left one. -/
theorem right {left : List Token} {op : Operator} (h : 0 ≤ r.groups.opened)
    (hleft : Passes r left (op.token :: tokens) r₁) : Remains r₁.advance tokens := by
  have hahead : r₁.cursor.ahead = op.token :: tokens := by rw [hleft.cursor]
  exact ⟨ahead_advance hahead, hleft.opened ▸ h, hleft.marked⟩

/-- Whatever comes after a factor or a term is no part of it. -/
theorem faces {p : Phrase table k} (h : Remains r (p.tokens ++ rest)) (hk : k ≠ .expression) :
    Faces r p rest :=
  ⟨h, fun heq => absurd heq hk⟩

theorem product_left {t : Phrase table .term} {op : Operator}
    (h : Remains r (t.tokens ++ op.token :: tokens)) : Faces r t (op.token :: tokens) :=
  h.faces Kind.term_ne_expression

/-- An additive operator ends the term before it. -/
theorem sum_left {e : Phrase table .expression} {op : Operator} (role : op.isAdditive = true)
    (h : Remains r (e.tokens ++ op.token :: tokens)) : Faces r e (op.token :: tokens) := by
  refine ⟨h, ?_⟩
  intro _
  cases op <;> first | rfl | cases role

end Remains

namespace Faces

variable {e : Phrase table .expression}

/-- A factor alone is read as a term. -/
theorem single {f : Phrase table .factor} (h : Faces r (.single f) rest) : Faces r f rest :=
  Remains.faces h.toRemains Kind.factor_ne_expression

/-- A term alone is read as an expression. -/
theorem lone {t : Phrase table .term} (h : Faces r (.lone t) rest) : Faces r t rest :=
  Remains.faces h.toRemains Kind.term_ne_expression

theorem minus {f : Phrase table .factor} (h : Faces r (.minus f) rest) :
    Faces r.begin.advance f rest :=
  (Remains.minus h.toRemains).faces Kind.factor_ne_expression

theorem group (h : Faces r (.group e) rest) :
    Faces r.begin.advance.enter e (")" :: rest) := by
  have hremains : Remains r ("(" :: (e.tokens ++ ")" :: rest)) := by
    simpa [Phrase.tokens] using h.toRemains
  exact ⟨hremains.group, fun _ => rfl⟩

theorem call {f : Builtin} {hunbound : table.get? f.name = none}
    (h : Faces r (.call f hunbound e) rest) :
    Faces r.begin.advance.advance.enter e (")" :: rest) := by
  have hremains : Remains r (f.name :: "(" :: (e.tokens ++ ")" :: rest)) := by
    simpa [Phrase.tokens] using h.toRemains
  exact ⟨hremains.call, fun _ => rfl⟩

theorem product_left {t : Phrase table .term} {op : Operator}
    {role : op.isMultiplicative = true} {f : Phrase table .factor}
    (h : Faces r (.product t op role f) rest) : Faces r t (op.token :: (f.tokens ++ rest)) := by
  have hremains : Remains r (t.tokens ++ op.token :: (f.tokens ++ rest)) := by
    simpa [Phrase.tokens] using h.toRemains
  exact hremains.product_left

theorem sum_left {t : Phrase table .term} {op : Operator} {role : op.isAdditive = true}
    (h : Faces r (.sum e op role t) rest) : Faces r e (op.token :: (t.tokens ++ rest)) := by
  have hremains : Remains r (e.tokens ++ op.token :: (t.tokens ++ rest)) := by
    simpa [Phrase.tokens] using h.toRemains
  exact hremains.sum_left role

end Faces

end

/-- The machine comes from a phrase to its value. -/
theorem steps_of_phrase (p : Phrase table k) (K : Context k) {r : Reading} {rest : List Token}
    (hfaces : Faces r p rest) (hlevel : r.level + p.level ≤ maxLevel) :
    ∃ r', Steps table (.read K r) (.value p.value K r') ∧ Passes r p.tokens rest r' := by
  -- What follows has to stay general: a left operand is followed by its operator, and the
  -- expression in a group by the parenthesis.
  induction p generalizing r rest with
  | atom token value role =>
    have hne : r.level ≠ maxLevel := by
      simp only [Phrase.level] at hlevel
      omega
    have hahead : r.cursor.ahead = token :: rest := hfaces.ahead
    have hoperand := (operand_of_ahead hahead).trans (Operand.ofToken_of_hasValue role _)
    exact ⟨r.begin.advance.back, .single (.atom hne hoperand), cursor_advance (r := r) hahead, rfl,
      rfl, hfaces.marked⟩
  | minus f ih =>
    simp only [Phrase.level] at hlevel
    have hbegin : r.begin.advance.level = r.level + 1 := rfl
    obtain ⟨r', hsteps, hpasses⟩ := ih (.minus K) hfaces.minus (by omega)
    refine ⟨r'.back, (hsteps.head (step_minus (by omega) hfaces.ahead)).tail .negate, ?_⟩
    refine ⟨?_, ?_, hpasses.opened, hpasses.marked⟩
    · change r'.cursor = _
      rw [hpasses.cursor, show r.begin.advance.cursor = r.advance.cursor from rfl,
        cursor_advance hfaces.ahead]
      simp [Phrase.tokens]
    · change r'.level - 1 = r.level
      rw [hpasses.level]
      rfl
  | group e ih =>
    simp only [Phrase.level] at hlevel
    have henter : r.begin.advance.enter.level = r.level + 1 := rfl
    have hopened := hfaces.opened
    obtain ⟨r', hsteps, hpasses⟩ := ih (.group K) hfaces.group (by omega)
    have hclose : Step table (.value e.value (.group K) r') _ := step_close hpasses
      (show 0 < r.groups.opened + 1 by omega)
    refine ⟨r'.advance.leave.closed.back, ?_, ?_⟩
    · exact ((hsteps.head (step_group (by omega) hfaces.ahead)).tail hclose).tail .groupEnd
    · exact hpasses.enclose ["("] (congrArg Cursor.behind (cursor_advance hfaces.ahead)) rfl rfl
  | call f unbound e ih =>
    simp only [Phrase.level] at hlevel
    have henter : r.begin.advance.advance.enter.level = r.level + 1 := rfl
    have hopened := hfaces.opened
    obtain ⟨r', hsteps, hpasses⟩ := ih (.call f.name K) hfaces.call (by omega)
    have hclose : Step table (.value e.value (.call f.name K) r') _ := step_close hpasses
      (show 0 < r.groups.opened + 1 by omega)
    refine ⟨r'.advance.leave.closed.back, ?_, ?_⟩
    · have hcall := step_call (K := K) (by omega) unbound hfaces.ahead
      exact ((hsteps.head hcall).tail hclose).tail (step_apply K unbound e _)
    · refine hpasses.enclose [f.name, "("] ?_ rfl rfl
      have hname := cursor_advance hfaces.ahead
      have hparenthesis := cursor_advance (r := r.advance) (ahead_advance hfaces.ahead)
      rw [hname] at hparenthesis
      exact congrArg Cursor.behind hparenthesis
  | single f ih =>
    obtain ⟨r', hsteps, hpasses⟩ := ih (.product none K) hfaces.single hlevel
    exact ⟨r', (hsteps.head .term).tail .joinFactor, hpasses⟩
  | product t op role f iht ihf =>
    simp only [Phrase.level] at hlevel
    obtain ⟨r₁, hsteps₁, hpasses₁⟩ := iht K hfaces.product_left (by omega)
    have hlevel₁ : r₁.advance.level = r.level := hpasses₁.level
    obtain ⟨r₂, hsteps₂, hpasses₂⟩ := ihf (.product (some (t.value, op)) K)
      ((Remains.right hfaces.opened hpasses₁).faces Kind.factor_ne_expression) (by omega)
    have hop : r₁.operator? Operator.isMultiplicative = some op :=
      operator?_of_ahead (congrArg Cursor.ahead hpasses₁.cursor) role
    have hjoin := step_product K t role f r₂
    exact ⟨r₂, ((hsteps₁.tail (.times hop)).trans hsteps₂).tail hjoin, hpasses₁.operator hpasses₂⟩
  | lone t ih =>
    obtain ⟨r', hsteps, hpasses⟩ := ih (.sum none K) hfaces.lone hlevel
    exact ⟨r', (hsteps.head .expression).tail (.joinTerm (hpasses.ends (hfaces.ends rfl))), hpasses⟩
  | sum e op role t ihe iht =>
    simp only [Phrase.level] at hlevel
    obtain ⟨r₁, hsteps₁, hpasses₁⟩ := ihe K hfaces.sum_left (by omega)
    have hlevel₁ : r₁.advance.level = r.level := hpasses₁.level
    obtain ⟨r₂, hsteps₂, hpasses₂⟩ := iht (.sum (some (e.value, op)) K)
      ((Remains.right hfaces.opened hpasses₁).faces Kind.term_ne_expression) (by omega)
    have hop : r₁.operator? Operator.isAdditive = some op :=
      operator?_of_ahead (congrArg Cursor.ahead hpasses₁.cursor) role
    have hjoin := step_sum K e role t (hpasses₂.ends (hfaces.ends rfl))
    exact ⟨r₂, ((hsteps₁.tail (.plus hop)).trans hsteps₂).tail hjoin, hpasses₁.operator hpasses₂⟩

/-- The machine fails at the first of some places that has all levels around it. -/
def FailsAt (table : Table) (s : State) (r : Reading) (places : List Place) : Prop :=
  ∃ r' i, Steps table s (.failed (.tooDeep maxLevel) r') ∧
    r'.cursor.position = r.cursor.position + i ∧
    Place.IsFirst places (maxLevel - r.level) i

/-- With no level left the machine fails where a factor begins. -/
theorem failsAt_begin {K : Context .factor} {r : Reading} (hlevel : r.level = maxLevel)
    (inner : List Place) : FailsAt table (.read K r) r (⟨0, 0⟩ :: inner) := by
  refine ⟨r, 0, .single (.tooDeep hlevel), rfl, ?_⟩
  rw [hlevel, Nat.sub_self]
  exact Place.isFirst_zero_cons inner

/-- The places in a factor are those of what it holds, after its own. -/
theorem FailsAt.inside {K : Context .factor} {s : State} {r r₁ : Reading} {places : List Place}
    {right : Nat} (h : FailsAt table s r₁ places) (hstep : Step table (.read K r) s)
    (hposition : r₁.cursor.position = r.cursor.position + right) (hlevel : r₁.level = r.level + 1)
    (hlt : r.level < maxLevel) :
    FailsAt table (.read K r) r (⟨0, 0⟩ :: places.map (·.shift 1 right)) := by
  obtain ⟨r', i, hsteps, hi, hfirst⟩ := h
  refine ⟨r', i + right, hsteps.head hstep, by omega, ?_⟩
  have hshift := (hfirst.shift 1 right).cons (Nat.succ_ne_zero _)
  rwa [show maxLevel - r₁.level + 1 = maxLevel - r.level by omega] at hshift

/-- The places in the right operand come after those in the left one, and none of those has all
levels around it. -/
theorem FailsAt.right {s t : State} {r r₁ : Reading} {p : Phrase table k} {places : List Place}
    {op : Token} {rest : List Token} (h : FailsAt table t r₁.advance places)
    (hsteps : Steps table s t) (hpasses : Passes r p.tokens (op :: rest) r₁)
    (hlevel : r.level + p.level ≤ maxLevel) :
    FailsAt table s r (p.places ++ places.map (·.shift 0 (p.tokens.length + 1))) := by
  obtain ⟨r', i, hfailed, hi, hfirst⟩ := h
  have hlevel₁ : r₁.advance.level = r.level := hpasses.level
  have hposition : r₁.advance.cursor.position = r.cursor.position + (p.tokens.length + 1) := by
    rw [position_advance (congrArg Cursor.ahead hpasses.cursor), hpasses.cursor]
    simp only [Cursor.position, List.length_append, List.length_reverse]
    omega
  refine ⟨r', i + (p.tokens.length + 1), hsteps.trans hfailed, by omega, ?_⟩
  rw [hlevel₁] at hfirst
  refine (hfirst.shift 0 (p.tokens.length + 1)).append_right ?_
  intro place hplace
  have hlt := p.around_lt_level hplace
  omega

theorem FailsAt.left {s : State} {r : Reading} {p : Phrase table k}
    (h : FailsAt table s r p.places) (places : List Place) :
    FailsAt table s r (p.places ++ places.map (·.shift 0 (p.tokens.length + 1))) := by
  obtain ⟨r', i, hfailed, hi, hfirst⟩ := h
  refine ⟨r', i, hfailed, hi, hfirst.append_left ?_⟩
  intro place hplace
  obtain ⟨inner, -, rfl⟩ := List.mem_map.1 hplace
  have hlt := p.offset_lt_length_tokens hfirst.1
  simp only [Place.shift] at hlt ⊢
  omega

/-- The machine fails in a phrase with too many levels, at the first factor that has all levels
around it. -/
theorem failsAt_of_phrase (p : Phrase table k) (K : Context k) {r : Reading} {rest : List Token}
    (hfaces : Faces r p rest) (hlevel : r.level ≤ maxLevel)
    (hdeep : maxLevel < r.level + p.level) : FailsAt table (.read K r) r p.places := by
  induction p generalizing r rest with
  | atom token value role =>
    simp only [Phrase.level] at hdeep
    exact failsAt_begin (by omega) []
  | minus f ih =>
    simp only [Phrase.level] at hdeep
    by_cases hfull : r.level = maxLevel
    · exact failsAt_begin hfull _
    have hbegin : r.begin.advance.level = r.level + 1 := rfl
    have hinner := ih (.minus K) hfaces.minus (by omega) (by omega)
    exact hinner.inside (step_minus hfull hfaces.ahead) (position_advance hfaces.ahead) rfl
      (by omega)
  | group e ih =>
    simp only [Phrase.level] at hdeep
    by_cases hfull : r.level = maxLevel
    · exact failsAt_begin hfull _
    have henter : r.begin.advance.enter.level = r.level + 1 := rfl
    have hinner := ih (.group K) hfaces.group (by omega) (by omega)
    exact hinner.inside (step_group hfull hfaces.ahead) (position_advance hfaces.ahead) rfl
      (by omega)
  | call f unbound e ih =>
    simp only [Phrase.level] at hdeep
    by_cases hfull : r.level = maxLevel
    · exact failsAt_begin hfull _
    have henter : r.begin.advance.advance.enter.level = r.level + 1 := rfl
    have hinner := ih (.call f.name K) hfaces.call (by omega) (by omega)
    have hposition := position_advance (r := r.advance) (ahead_advance hfaces.ahead)
    rw [position_advance hfaces.ahead] at hposition
    exact hinner.inside (step_call hfull unbound hfaces.ahead) hposition rfl (by omega)
  | single f ih =>
    obtain ⟨r', i, hfailed, hi, hfirst⟩ := ih (.product none K) hfaces.single hlevel hdeep
    exact ⟨r', i, hfailed.head .term, hi, hfirst⟩
  | product t op role f iht ihf =>
    -- A left operand with too many levels fails before the right one is reached.
    by_cases ht : maxLevel < r.level + t.level
    · exact (iht K hfaces.product_left hlevel ht).left _
    · simp only [Phrase.level] at hdeep
      obtain ⟨r₁, hsteps, hpasses⟩ := steps_of_phrase t K hfaces.product_left (by omega)
      have hlevel₁ : r₁.advance.level = r.level := hpasses.level
      have hinner := ihf (.product (some (t.value, op)) K)
        ((Remains.right hfaces.opened hpasses).faces Kind.factor_ne_expression) (by omega)
        (by omega)
      have hop : r₁.operator? Operator.isMultiplicative = some op :=
        operator?_of_ahead (congrArg Cursor.ahead hpasses.cursor) role
      exact hinner.right (hsteps.tail (.times hop)) hpasses (by omega)
  | lone t ih =>
    obtain ⟨r', i, hfailed, hi, hfirst⟩ := ih (.sum none K) hfaces.lone hlevel hdeep
    exact ⟨r', i, hfailed.head .expression, hi, hfirst⟩
  | sum e op role t ihe iht =>
    by_cases he : maxLevel < r.level + e.level
    · exact (ihe K hfaces.sum_left hlevel he).left _
    · simp only [Phrase.level] at hdeep
      obtain ⟨r₁, hsteps, hpasses⟩ := steps_of_phrase e K hfaces.sum_left (by omega)
      have hlevel₁ : r₁.advance.level = r.level := hpasses.level
      have hinner := iht (.sum (some (e.value, op)) K)
        ((Remains.right hfaces.opened hpasses).faces Kind.term_ne_expression) (by omega) (by omega)
      have hop : r₁.operator? Operator.isAdditive = some op :=
        operator?_of_ahead (congrArg Cursor.ahead hpasses.cursor) role
      exact hinner.right (hsteps.tail (.plus hop)) hpasses (by omega)

end LineCalc.Machine
