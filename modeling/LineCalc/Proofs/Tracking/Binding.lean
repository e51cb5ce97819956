import LineCalc.Table.Lookup
import LineCalc.Proofs.Grammar.Acceptance
import LineCalc.Proofs.Tracking.Rules

namespace LineCalc

open Machine Rule

variable {table : Table} {o : Opening} {name : Token} {tokens : List Token}

/-- A statement is what its expression comes to, unless something remains. -/
theorem evaluate_of_fits (hfits : o.Fits table tokens) :
    evaluate table (.start (o.tokens ++ tokens)) =
      match expression table (o.start tokens) with
      | .error fault r => ⟨.refused fault, r.cursor, table, r.events.reverse⟩
      | .ok v r =>
        match remainingFault? table r with
        | some fault => ⟨.refused fault, r.cursor, table, r.events.reverse⟩
        | none => conclude table r (o.statement v) := by
  rw [evaluate, statement_eq hfits, bind_apply]
  cases expression table (o.start tokens) <;> rfl

/-- An expression begins alike with any opening before it. -/
theorem Opening.start_tracks (o : Opening) (tokens : List Token) :
    (Opening.none.start tokens).Tracks o.tokens.reverse (o.start tokens) :=
  ⟨rfl, rfl, rfl⟩

/-- Tables are equal after one name was bound only if it was bound to one value. -/
theorem Table.insert_inj {t : Table} {v w : Float} (h : t.insert name v = t.insert name w) :
    v = w := by
  have hname := congrArg (·.get? name) h
  simpa using hname

/-- A binding of a value is accepted just if its right-hand side has that value. -/
theorem evaluate_binding_eq_done_iff (hvalid : (Opening.target name).Valid) (v : Float) :
    ((evaluate table (.start (name :: "=" :: tokens))).outcome = .done ∧
      (evaluate table (.start (name :: "=" :: tokens))).table = table.insert name v) ↔
      (evaluate table (.start tokens)).outcome = .value v := by
  constructor
  · rintro ⟨houtcome, htable⟩
    have heffect := effect_evaluate table (name :: "=" :: tokens)
    generalize evaluate table (.start (name :: "=" :: tokens)) = d at houtcome htable heffect
    cases heffect with
    | refused | value => cases houtcome
    | empty events htokens => cases htokens
    | binding other e events hother htokens hlevel =>
      simp only [List.cons.injEq, true_and] at htokens
      obtain ⟨rfl, rfl⟩ := htokens
      obtain ⟨r, -, heq⟩ := evaluate_of_phrase (o := .none) trivial e hlevel
      rw [← Table.insert_inj htable]
      exact congrArg Evaluation.outcome heq
  · intro houtcome
    have heffect := effect_evaluate table tokens
    generalize evaluate table (.start tokens) = d at houtcome heffect
    cases heffect with
    | refused | empty | binding => cases houtcome
    | value e events htokens hlevel =>
      obtain rfl := htokens
      obtain ⟨r, -, heq⟩ := evaluate_of_phrase hvalid e hlevel
      rw [← Outcome.value.inj houtcome]
      exact ⟨congrArg Evaluation.outcome heq, congrArg Evaluation.table heq⟩

theorem conclude_outcome_ne_refused {r : Reading} {statement : Statement} {fault : Fault} :
    (conclude table r statement).outcome ≠ .refused fault := by
  cases statement <;> nofun

/-- Where an expression begins, it is refused alone just if it is refused after an opening, for the
same fault and at the same of its tokens. -/
theorem evaluate_eq_refused_iff_of_fits (hnone : Opening.none.Fits table tokens)
    (hfits : o.Fits table tokens) (fault : Fault) (p : ℕ) :
    ((evaluate table (.start tokens)).outcome = .refused fault ∧
      (evaluate table (.start tokens)).cursor.position = p) ↔
      (evaluate table (.start (o.tokens ++ tokens))).outcome = .refused fault ∧
        (evaluate table (.start (o.tokens ++ tokens))).cursor.position = p + o.tokens.length := by
  have htable : table.Matches Eq table := by
    intro query
    cases table.get? query with
    | none => exact .none
    | some v => exact .some rfl
  have hagree := tracks_expression congruent_eq htable _ _ (o.start_tracks tokens)
  have halone := evaluate_of_fits hnone
  simp only [Opening.tokens, List.nil_append] at halone
  rw [halone, evaluate_of_fits hfits]
  generalize expression table (Opening.none.start tokens) = x at hagree
  generalize expression table (o.start tokens) = y at hagree
  have hposition {r s : Reading} (hr : r.Tracks o.tokens.reverse s) :
      r.cursor.position = p ↔ s.cursor.position = p + o.tokens.length := by
    rw [hr.position, List.length_reverse]
    omega
  cases hagree with
  | error hr => exact and_congr_right fun _ => hposition hr
  | @ok v w r s hvalue hr =>
    simp only [hr.remainingFault?_eq fun _ => rfl]
    cases remainingFault? table r with
    | some other => exact and_congr_right fun _ => hposition hr
    | none =>
      exact iff_of_false (fun h => conclude_outcome_ne_refused h.1)
        fun h => conclude_outcome_ne_refused h.1

/-- A binding is its right-hand side and one name more. It binds the name to a value just if the
right-hand side alone has that value. If an expression that is not itself a binding begins on the
right-hand side, then the two are refused for the same fault at the same token, which stands two
places further on in the binding. -/
theorem evaluate_binding_iff (table : Table) (name : Token) (tokens : List Token)
    (hname : name.isName = true) (hconstant : name ≠ "pi") :
    let whole := evaluate table (.start (name :: "=" :: tokens))
    let right := evaluate table (.start tokens)
    (∀ v, (whole.outcome = .done ∧ whole.table = table.insert name v ∧
        ∀ other, whole.table.get? other = if other = name then some v else table.get? other) ↔
      right.outcome = .value v) ∧
    (beginsExpression table (Cursor.start tokens).current (Cursor.start tokens).following = true →
      isTarget (Cursor.start tokens).current (Cursor.start tokens).following = false →
      ∀ fault p, (right.outcome = .refused fault ∧ right.cursor.position = p) ↔
        (whole.outcome = .refused fault ∧ whole.cursor.position = p + 2)) := by
  intro whole right
  refine ⟨fun v => ?_, ?_⟩
  · have hdone : (whole.outcome = .done ∧ whole.table = table.insert name v) ↔
        right.outcome = .value v := evaluate_binding_eq_done_iff ⟨hname, hconstant⟩ v
    constructor
    · rintro ⟨houtcome, htable, -⟩
      exact hdone.1 ⟨houtcome, htable⟩
    · intro hvalue
      obtain ⟨houtcome, htable⟩ := hdone.2 hvalue
      refine ⟨houtcome, htable, fun other => ?_⟩
      rw [show whole.table = _ from htable]
      exact Table.get?_insert table name v other
  · intro hbegins htarget fault p
    have hfits : (Opening.target name).Fits table tokens := ⟨hname, constant?_eq_none hconstant⟩
    have hrefused := evaluate_eq_refused_iff_of_fits ⟨htarget, hbegins⟩ hfits fault p
    simp only [Opening.tokens, List.cons_append, List.nil_append] at hrefused
    exact hrefused

/-- A surplus parenthesis on the right-hand side of a binding is the fourth token of it. -/
theorem evaluate_binding_of_stray :
    let whole := evaluate .empty (.start ["x", "=", "pi", ")"])
    let right := evaluate .empty (.start ["pi", ")"])
    (right.outcome = .refused .unbalanced ∧ right.cursor.position = 2) ∧
      whole.outcome = .refused .unbalanced ∧ whole.cursor.position = 4 := by
  intro whole right
  have hright : right.outcome = .refused .unbalanced ∧ right.cursor.position = 2 := by
    decide +kernel
  obtain ⟨-, hrefused⟩ := evaluate_binding_iff .empty "x" ["pi", ")"] (by decide) (by decide)
  exact ⟨hright, (hrefused (by decide) (by decide) _ _).1 hright⟩

end LineCalc
