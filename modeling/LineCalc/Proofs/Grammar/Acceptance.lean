import LineCalc.Proofs.Grammar.Completeness

namespace LineCalc

open Machine

variable {table : Table} {o : Opening} {tokens : List Token}

/-- The name in an opening may be bound. -/
def Opening.Valid : Opening → Prop
  | none => True
  | target name => name.isName = true ∧ name ≠ "pi"

/-- The statement rule takes tokens for an expression, after any opening, if the first of them may
begin one and they hold no sign of a binding. -/
theorem Opening.fits_of_cons (h : o.Valid) {first : Token} {rest : List Token}
    (hbegins : ∀ next, beginsExpression table first next = true)
    (hbinding : "=" ∉ first :: rest) : o.Fits table (first :: rest) := by
  cases o with
  | none =>
    refine ⟨?_, hbegins _⟩
    have hnext : (Cursor.start (first :: rest)).following ≠ "=" := by
      cases rest with
      | nil => exact show Token.endMark ≠ "=" by decide
      | cons next later =>
        rintro (rfl : next = "=")
        simp at hbinding
    simp [isTarget, hnext]
  | target name => exact ⟨h.1, constant?_eq_none h.2⟩

private theorem Opening.fits_of_phrase (h : o.Valid) (e : Phrase table .expression) :
    o.Fits table e.tokens := by
  obtain ⟨first, rest, htokens, hbegins⟩ := e.exists_tokens_eq_cons
  have hbinding := e.binding_not_mem_tokens
  rw [htokens] at hbinding ⊢
  exact Opening.fits_of_cons h hbegins hbinding

theorem Opening.valid_of_fits (h : o.Fits table tokens) : o.Valid := by
  cases o with
  | none => trivial
  | target name =>
    obtain ⟨hname, hconstant⟩ := h
    refine ⟨hname, ?_⟩
    rintro rfl
    cases hconstant

private theorem faces_start (o : Opening) (e : Phrase table .expression) :
    Faces (o.start e.tokens) e [] :=
  ⟨⟨(List.append_nil _).symm, Int.le_refl 0, Groups.marked_initial⟩, fun _ => rfl⟩

/-- With no group open and no token left, nothing is wrong with a statement. -/
theorem remainingFault?_eq_none_iff {r : Reading} :
    remainingFault? table r = none ↔ r.groups.opened = 0 ∧ r.cursor.ahead = [] := by
  simp only [remainingFault?, Groups.balanced, Cursor.atEnd]
  by_cases hopened : r.groups.opened = 0
  · by_cases hahead : r.cursor.ahead = []
    · simp [hopened, hahead]
    · simp only [hopened, hahead, beq_self_eq_true, Bool.not_true, Bool.false_eq_true, if_false,
        List.isEmpty_iff, and_false, iff_false]
      split <;> nofun
  · simp [hopened]

/-- A derivation within the levels is concluded with its value, and is read to its end. -/
theorem evaluate_of_phrase (hopening : o.Valid) (e : Phrase table .expression)
    (hlevel : e.level ≤ maxLevel) :
    ∃ r : Reading, r.cursor = ⟨(o.tokens ++ e.tokens).reverse, []⟩ ∧
      evaluate table (.start (o.tokens ++ e.tokens)) =
        conclude table r (o.statement e.value) := by
  obtain ⟨r, hsteps, hpasses⟩ := steps_of_phrase e .top (faces_start o e)
    (by simpa [Opening.start] using hlevel)
  have hcursor : r.cursor = ⟨(o.tokens ++ e.tokens).reverse, []⟩ := by
    rw [hpasses.cursor, List.reverse_append]
    rfl
  have hstop : Step table (.value e.value .top r) (.finished e.value .top r) := by
    refine .stop (hpasses.ends rfl) ?_
    rw [Cursor.current, hcursor]
    exact show Token.endMark ≠ ")" by decide
  have hremaining : remainingFault? table r = none := by
    refine remainingFault?_eq_none_iff.2 ⟨hpasses.opened, ?_⟩
    rw [hcursor]
  refine ⟨r, hcursor, ?_⟩
  rw [evaluate_of_finished (Opening.fits_of_phrase hopening e) (hsteps.tail hstop), hremaining]

/-- A derivation with too many levels is refused for that, at the first factor that has all levels
around it. -/
theorem evaluate_of_deep_phrase (hopening : o.Valid) (e : Phrase table .expression)
    (hlevel : maxLevel < e.level) :
    ∃ (r : Reading) (i : Nat), r.cursor.position = o.tokens.length + i ∧
      Place.IsFirst e.places maxLevel i ∧
      evaluate table (.start (o.tokens ++ e.tokens)) =
        ⟨.refused (.tooDeep maxLevel), r.cursor, table, r.events.reverse⟩ := by
  obtain ⟨r, i, hsteps, hposition, hfirst⟩ := failsAt_of_phrase e .top (faces_start o e)
    (Nat.zero_le _) (by simpa [Opening.start] using hlevel)
  refine ⟨r, i, ?_, hfirst, evaluate_of_failed (Opening.fits_of_phrase hopening e) hsteps⟩
  rw [hposition]
  simp [Opening.start, Cursor.position]

/-- If nothing is wrong when the machine has finished, then all tokens are a derivation within the
levels. -/
theorem exists_phrase_of_finished {r : Reading} {v : Float}
    (hsteps : Steps table (.read .top (o.start tokens)) (.finished v .top r))
    (hremaining : remainingFault? table r = none) :
    ∃ e : Phrase table .expression, e.tokens = tokens ∧ e.level ≤ maxLevel := by
  obtain ⟨hgroups, hahead⟩ := remainingFault?_eq_none_iff.1 hremaining
  obtain ⟨e, -, hlevel, hread⟩ := exists_phrase_of_steps hsteps hgroups
  refine ⟨e, ?_, hlevel⟩
  have htokens : r.cursor.tokens = (o.start tokens).cursor.tokens := hsteps.tokens_eq
  rw [Cursor.tokens, hread, Cursor.unread, hahead] at htokens
  simpa [Cursor.tokens, Cursor.unread, Opening.start, Cursor.read] using htokens

/-- The evaluations that a statement can have. Only a binding changes the table. -/
inductive Effect (table : Table) (tokens : List Token) : Evaluation → Prop
  | refused (fault : Fault) (cursor : Cursor) (events : List Event) :
      Effect table tokens ⟨.refused fault, cursor, table, events⟩
  | empty (events : List Event) (htokens : tokens = []) :
      Effect table tokens ⟨.done, .start [], table, events⟩
  | value (e : Phrase table .expression) (events : List Event) (htokens : tokens = e.tokens)
      (hlevel : e.level ≤ maxLevel) :
      Effect table tokens ⟨.value e.value, ⟨tokens.reverse, []⟩, table, events⟩
  | binding (name : Token) (e : Phrase table .expression) (events : List Event)
      (hvalid : (Opening.target name).Valid) (htokens : tokens = name :: "=" :: e.tokens)
      (hlevel : e.level ≤ maxLevel) :
      Effect table tokens ⟨.done, ⟨tokens.reverse, []⟩, table.insert name e.value, events⟩

/-- Where no statement begins there is nothing to accept but the end. -/
theorem effect_of_no_statement
    (htarget : isTarget (Cursor.start tokens).current (Cursor.start tokens).following = false)
    (hbegins : beginsExpression table (Cursor.start tokens).current
      (Cursor.start tokens).following = false) :
    Effect table tokens (evaluate table (.start tokens)) := by
  have hstatement := statement_eq_empty htarget hbegins
  simp only [evaluate, hstatement]
  cases hremaining : remainingFault? table (Opening.none.start tokens) with
  | some fault => exact .refused fault _ _
  | none =>
    have hahead := (remainingFault?_eq_none_iff.1 hremaining).2
    obtain rfl : tokens = [] := hahead
    exact .empty _ rfl

/-- An expression after an opening is refused, or is a derivation within the levels. -/
theorem effect_of_fits (hfits : o.Fits table tokens) :
    Effect table (o.tokens ++ tokens) (evaluate table (.start (o.tokens ++ tokens))) := by
  obtain ⟨v, r, hsteps⟩ | ⟨fault, r, hsteps⟩ := exists_halted table (o.start tokens)
  · cases hremaining : remainingFault? table r with
    | some fault =>
      rw [evaluate_of_finished hfits hsteps, hremaining]
      exact .refused fault _ _
    | none =>
      obtain ⟨e, rfl, hlevel⟩ := exists_phrase_of_finished hsteps hremaining
      have hvalid := Opening.valid_of_fits hfits
      obtain ⟨r', hcursor, heq⟩ := evaluate_of_phrase hvalid e hlevel
      rw [heq]
      cases o with
      | none =>
        rw [Opening.statement, conclude, hcursor]
        exact .value e _ rfl hlevel
      | target name =>
        rw [Opening.statement, conclude, hcursor]
        exact .binding name e _ hvalid rfl hlevel
  · rw [evaluate_of_failed hfits hsteps]
    exact .refused fault _ _

theorem effect_evaluate (table : Table) (tokens : List Token) :
    Effect table tokens (evaluate table (.start tokens)) := by
  obtain ⟨o, rest, rfl, hfits⟩ | ⟨htarget, hbegins⟩ := exists_opening_or table tokens
  · exact effect_of_fits hfits
  · exact effect_of_no_statement htarget hbegins

/-- A statement that has a value is a derivation of it within the levels. -/
theorem exists_phrase_of_value {v : Float}
    (h : (evaluate table (.start tokens)).outcome = .value v) :
    ∃ e : Phrase table .expression, e.tokens = tokens ∧ e.level ≤ maxLevel ∧ e.value = v := by
  have heffect := effect_evaluate table tokens
  generalize evaluate table (.start tokens) = d at heffect h
  cases heffect with
  | value e events htokens hlevel => exact ⟨e, htokens.symm, hlevel, Outcome.value.inj h⟩
  | refused | empty | binding => cases h

/-- A statement has a value just if its tokens are a derivation of that value within the levels.
Then all of its tokens are read, and the table stays as it is. -/
theorem evaluate_eq_value_iff (table : Table) (tokens : List Token) (v : Float) :
    ((evaluate table (.start tokens)).outcome = .value v ↔
      ∃ e : Phrase table .expression, e.tokens = tokens ∧ e.level ≤ 256 ∧ e.value = v) ∧
    ((evaluate table (.start tokens)).outcome = .value v →
      (evaluate table (.start tokens)).table = table ∧
      (evaluate table (.start tokens)).cursor = ⟨tokens.reverse, []⟩) := by
  refine ⟨⟨exists_phrase_of_value, ?_⟩, fun h => ?_⟩
  · rintro ⟨e, rfl, hlevel, rfl⟩
    obtain ⟨r, -, heq⟩ := evaluate_of_phrase (o := .none) trivial e hlevel
    exact congrArg Evaluation.outcome heq
  · have heffect := effect_evaluate table tokens
    generalize evaluate table (.start tokens) = d at heffect h
    cases heffect with
    | value => exact ⟨rfl, rfl⟩
    | refused | empty | binding => cases h

/-- A product is added to a negated constant, and its second factor is a call. -/
theorem evaluate_sum_of_product_and_call :
    let tokens := ["-", "pi", "+", "2", "*", "sin", "(", "pi", ")"]
    let d := evaluate .empty (.start tokens)
    d.outcome = .value (-pi + 2 * pi.sin) ∧ d.table = .empty ∧ d.cursor = ⟨tokens.reverse, []⟩ := by
  intro tokens d
  let constant : Phrase .empty .factor := .atom "pi" pi .constant
  let two : Phrase .empty .factor := .atom "2" 2 (.number (by decide) (by decide +kernel))
  let sine : Phrase .empty .factor := .call .sin (by decide) (.lone (.single constant))
  let e : Phrase .empty .expression :=
    .sum (.lone (.single (.minus constant))) .add rfl (.product (.single two) .mul rfl sine)
  obtain ⟨hiff, hrest⟩ := evaluate_eq_value_iff .empty tokens (-pi + 2 * pi.sin)
  have hvalue : d.outcome = .value (-pi + 2 * pi.sin) := hiff.2 ⟨e, rfl, by decide, rfl⟩
  exact ⟨hvalue, hrest hvalue⟩

/-- A derivation after any opening is refused for one reason only, which is that some factor has
256 factors around it. It is refused at the first of these, and the table stays as it is. -/
theorem evaluate_eq_tooDeep_iff (table : Table) (o : Opening) (hopening : o.Valid)
    (e : Phrase table .expression) :
    let d := evaluate table (.start (o.tokens ++ e.tokens))
    (∀ fault, d.outcome = .refused fault → fault = .tooDeep 256) ∧
    (d.outcome = .refused (.tooDeep 256) ↔ ∃ i, (⟨256, i⟩ : Place) ∈ e.places) ∧
    (d.outcome = .refused (.tooDeep 256) →
      (∃ i, Place.IsFirst e.places 256 i ∧ d.cursor.position = o.tokens.length + i) ∧
      d.table = table) := by
  intro d
  by_cases hlevel : e.level ≤ maxLevel
  · obtain ⟨r, hcursor, heq⟩ := evaluate_of_phrase hopening e hlevel
    have houtcome : ∀ fault, d.outcome ≠ .refused fault := by
      intro fault
      rw [show d = conclude table r (o.statement e.value) from heq]
      cases o <;> nofun
    have hplace : ∀ i, (⟨256, i⟩ : Place) ∉ e.places := by
      intro i hi
      have hlt := e.around_lt_level hi
      exact absurd hlevel (Nat.not_le.2 hlt)
    exact ⟨fun fault h => absurd h (houtcome fault),
      ⟨fun h => absurd h (houtcome _), fun ⟨i, hi⟩ => absurd hi (hplace i)⟩,
      fun h => absurd h (houtcome _)⟩
  · obtain ⟨r, i, hposition, hfirst, heq⟩ :=
      evaluate_of_deep_phrase hopening e (Nat.not_le.1 hlevel)
    have hd : d = ⟨.refused (.tooDeep maxLevel), r.cursor, table, r.events.reverse⟩ := heq
    rw [hd]
    exact ⟨fun fault h => (Outcome.refused.inj h).symm, ⟨fun _ => ⟨i, hfirst.1⟩, fun _ => rfl⟩,
      fun _ => ⟨⟨i, hfirst, hposition⟩, rfl⟩⟩

/-- Each minus sign before a factor is one more factor around it. -/
theorem Phrase.mem_places_repeat_minus (f : Phrase table .factor) (n : Nat) :
    (⟨n, n⟩ : Place) ∈ (Nat.repeat Phrase.minus n f).places := by
  induction n with
  | zero =>
    cases f with
    | atom | minus | group | call => exact List.mem_cons_self ..
  | succ n ih =>
    exact List.mem_cons_of_mem _ (List.mem_map.2 ⟨⟨n, n⟩, ih, rfl⟩)

/-- With 256 minus signs before it the last factor is refused, here after an opening. -/
theorem evaluate_binding_of_many_minus :
    let e : Phrase .empty .expression :=
      .lone (.single (Nat.repeat Phrase.minus 256 (.atom "pi" pi .constant)))
    let d := evaluate .empty (.start ((Opening.target "x").tokens ++ e.tokens))
    (Opening.target "x").Valid ∧ d.outcome = .refused (.tooDeep 256) ∧
      (∃ i, Place.IsFirst e.places 256 i ∧ d.cursor.position = 2 + i) ∧ d.table = .empty := by
  intro e d
  have hvalid : (Opening.target "x").Valid := ⟨by decide, by decide⟩
  obtain ⟨-, hiff, hrest⟩ := evaluate_eq_tooDeep_iff .empty (.target "x") hvalid e
  have houtcome := hiff.2 ⟨256, Phrase.mem_places_repeat_minus _ 256⟩
  obtain ⟨hposition, htable⟩ := hrest houtcome
  exact ⟨hvalid, houtcome, hposition, htable⟩

end LineCalc
