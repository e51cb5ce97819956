import LineCalc.Proofs.Grammar.Completeness
import LineCalc.Proofs.Parentheses.Missing

namespace LineCalc.Machine

open Phrase

variable {table : Table} {k : Kind} {n : ℕ} {tokens rest : List Token} {r r₁ : Reading}

/-- After the last token no operator follows. -/
theorem operator?_of_end (h : r.cursor.ahead = []) (wanted : Operator → Bool) :
    r.operator? wanted = none := by
  rw [Reading.operator?, Cursor.current, h]
  rfl

/-- After the last token an expression stops. -/
theorem step_stop {K : Context .expression} {v : Float} (h : r.cursor.ahead = []) :
    Step table (.value v K r) (.finished v K r) := by
  refine .stop (operator?_of_end h _) ?_
  rw [Cursor.current, h]
  exact show Token.endMark ≠ ")" by decide

/-- The reading after all tokens, with some more groups open. -/
structure Exhausts (r : Reading) (n : ℕ) (r' : Reading) : Prop where
  ahead : r'.cursor.ahead = []
  level : r'.level = r.level
  opened : r'.groups.opened = r.groups.opened + n

/-- A group that is open at the end of the tokens ends there. -/
theorem Exhausts.enclose {r' : Reading} (h : Exhausts r₁ n r') (hlevel : r₁.level = r.level + 1)
    (hopened : r₁.groups.opened = r.groups.opened + 1) : Exhausts r (n + 1) r'.back := by
  refine ⟨h.ahead, ?_, ?_⟩
  · change r'.level - 1 = r.level
    rw [h.level, hlevel]
    rfl
  · change r'.groups.opened = _
    rw [h.opened, hopened]
    omega

/-- The machine comes to the value of the phrase, as if all parentheses were there. -/
theorem steps_of_lacks {p : Phrase table k} (h : Lacks p n tokens) (K : Context k)
    (hr : Remains r tokens) (hlevel : r.level + p.level ≤ maxLevel) :
    ∃ r', Steps table (.read K r) (.value p.value K r') ∧ Exhausts r n r' := by
  induction h generalizing r with
  | nothing p =>
    have hfaces : Faces r p [] := ⟨by rwa [List.append_nil], fun _ => rfl⟩
    obtain ⟨r', hsteps, hpasses⟩ := steps_of_phrase p K hfaces hlevel
    refine ⟨r', hsteps, ?_, hpasses.level, ?_⟩
    · rw [hpasses.cursor]
    · rw [hpasses.opened]
      exact (Int.add_zero _).symm
  | minus h ih =>
    simp only [Phrase.level] at hlevel
    have hbegin : r.begin.advance.level = r.level + 1 := rfl
    obtain ⟨r', hsteps, hend⟩ := ih (.minus K) hr.minus (by omega)
    refine ⟨r'.back, (hsteps.head (step_minus (by omega) hr.ahead)).tail .negate, hend.ahead, ?_,
      hend.opened⟩
    change r'.level - 1 = r.level
    rw [hend.level]
    rfl
  | group h ih =>
    simp only [Phrase.level] at hlevel
    have henter : r.begin.advance.enter.level = r.level + 1 := rfl
    obtain ⟨r', hsteps, hend⟩ := ih (.group K) hr.group (by omega)
    refine ⟨r'.back, ?_, hend.enclose rfl rfl⟩
    exact ((hsteps.head (step_group (by omega) hr.ahead)).tail (step_stop hend.ahead)).tail
      .groupEnd
  | @call f unbound e n tokens h ih =>
    simp only [Phrase.level] at hlevel
    have henter : r.begin.advance.advance.enter.level = r.level + 1 := rfl
    obtain ⟨r', hsteps, hend⟩ := ih (.call f.name K) hr.call (by omega)
    refine ⟨r'.back, ?_, hend.enclose rfl rfl⟩
    exact ((hsteps.head (step_call (by omega) unbound hr.ahead)).tail (step_stop hend.ahead)).tail
      (step_apply K unbound e _)
  | single h ih =>
    obtain ⟨r', hsteps, hend⟩ := ih (.product none K) hr hlevel
    exact ⟨r', (hsteps.head .term).tail .joinFactor, hend⟩
  | @product t op role f n tokens h ih =>
    simp only [Phrase.level] at hlevel
    obtain ⟨r₁, hsteps₁, hpasses⟩ := steps_of_phrase t K hr.product_left (by omega)
    have hlevel₁ : r₁.advance.level = r.level := hpasses.level
    obtain ⟨r₂, hsteps₂, hend⟩ := ih (.product (some (t.value, op)) K)
      (Remains.right hr.opened hpasses) (by omega)
    have hop : r₁.operator? Operator.isMultiplicative = some op :=
      operator?_of_ahead (congrArg Cursor.ahead hpasses.cursor) role
    have hjoin := step_product K t role f r₂
    refine ⟨r₂, ((hsteps₁.tail (.times hop)).trans hsteps₂).tail hjoin, hend.ahead,
      hend.level.trans hlevel₁, ?_⟩
    rw [hend.opened, show r₁.advance.groups.opened = r₁.groups.opened from rfl, hpasses.opened]
  | lone h ih =>
    obtain ⟨r', hsteps, hend⟩ := ih (.sum none K) hr hlevel
    exact ⟨r', (hsteps.head .expression).tail (.joinTerm (operator?_of_end hend.ahead _)), hend⟩
  | @sum e op role t n tokens h ih =>
    simp only [Phrase.level] at hlevel
    obtain ⟨r₁, hsteps₁, hpasses⟩ := steps_of_phrase e K (hr.sum_left role) (by omega)
    have hlevel₁ : r₁.advance.level = r.level := hpasses.level
    obtain ⟨r₂, hsteps₂, hend⟩ := ih (.sum (some (e.value, op)) K)
      (Remains.right hr.opened hpasses) (by omega)
    have hop : r₁.operator? Operator.isAdditive = some op :=
      operator?_of_ahead (congrArg Cursor.ahead hpasses.cursor) role
    have hjoin := step_sum K e role t (operator?_of_end hend.ahead _)
    refine ⟨r₂, ((hsteps₁.tail (.plus hop)).trans hsteps₂).tail hjoin, hend.ahead,
      hend.level.trans hlevel₁, ?_⟩
    rw [hend.opened, show r₁.advance.groups.opened = r₁.groups.opened from rfl, hpasses.opened]

/-- The machine fails in a phrase with too many levels, as if all parentheses were there. -/
theorem fails_of_lacks {p : Phrase table k} (h : Lacks p n tokens) (K : Context k)
    (hr : Remains r tokens) (hlevel : r.level ≤ maxLevel) (hdeep : maxLevel < r.level + p.level) :
    ∃ r', Steps table (.read K r) (.failed (.tooDeep maxLevel) r') := by
  induction h generalizing r with
  | nothing p =>
    have hfaces : Faces r p [] := ⟨by rwa [List.append_nil], fun _ => rfl⟩
    obtain ⟨r', i, hsteps, -⟩ := failsAt_of_phrase p K hfaces hlevel hdeep
    exact ⟨r', hsteps⟩
  | minus h ih =>
    simp only [Phrase.level] at hdeep
    by_cases hfull : r.level = maxLevel
    · exact ⟨r, .single (.tooDeep hfull)⟩
    have hbegin : r.begin.advance.level = r.level + 1 := rfl
    obtain ⟨r', hsteps⟩ := ih (.minus K) hr.minus (by omega) (by omega)
    exact ⟨r', hsteps.head (step_minus hfull hr.ahead)⟩
  | group h ih =>
    simp only [Phrase.level] at hdeep
    by_cases hfull : r.level = maxLevel
    · exact ⟨r, .single (.tooDeep hfull)⟩
    have henter : r.begin.advance.enter.level = r.level + 1 := rfl
    obtain ⟨r', hsteps⟩ := ih (.group K) hr.group (by omega) (by omega)
    exact ⟨r', hsteps.head (step_group hfull hr.ahead)⟩
  | call f unbound h ih =>
    simp only [Phrase.level] at hdeep
    by_cases hfull : r.level = maxLevel
    · exact ⟨r, .single (.tooDeep hfull)⟩
    have henter : r.begin.advance.advance.enter.level = r.level + 1 := rfl
    obtain ⟨r', hsteps⟩ := ih (.call f.name K) hr.call (by omega) (by omega)
    exact ⟨r', hsteps.head (step_call hfull unbound hr.ahead)⟩
  | single h ih =>
    obtain ⟨r', hsteps⟩ := ih (.product none K) hr hlevel hdeep
    exact ⟨r', hsteps.head .term⟩
  | product t op role h ih =>
    by_cases ht : maxLevel < r.level + t.level
    · obtain ⟨r', i, hsteps, -⟩ := failsAt_of_phrase t K hr.product_left hlevel ht
      exact ⟨r', hsteps⟩
    simp only [Phrase.level] at hdeep
    obtain ⟨r₁, hsteps₁, hpasses⟩ := steps_of_phrase t K hr.product_left (by omega)
    have hlevel₁ : r₁.advance.level = r.level := hpasses.level
    obtain ⟨r', hsteps⟩ := ih (.product (some (t.value, op)) K) (Remains.right hr.opened hpasses)
      (by omega) (by omega)
    have hop : r₁.operator? Operator.isMultiplicative = some op :=
      operator?_of_ahead (congrArg Cursor.ahead hpasses.cursor) role
    exact ⟨r', (hsteps₁.tail (.times hop)).trans hsteps⟩
  | lone h ih =>
    obtain ⟨r', hsteps⟩ := ih (.sum none K) hr hlevel hdeep
    exact ⟨r', hsteps.head .expression⟩
  | sum e op role h ih =>
    by_cases he : maxLevel < r.level + e.level
    · obtain ⟨r', i, hsteps, -⟩ := failsAt_of_phrase e K (hr.sum_left role) hlevel he
      exact ⟨r', hsteps⟩
    simp only [Phrase.level] at hdeep
    obtain ⟨r₁, hsteps₁, hpasses⟩ := steps_of_phrase e K (hr.sum_left role) (by omega)
    have hlevel₁ : r₁.advance.level = r.level := hpasses.level
    obtain ⟨r', hsteps⟩ := ih (.sum (some (e.value, op)) K) (Remains.right hr.opened hpasses)
      (by omega) (by omega)
    have hop : r₁.operator? Operator.isAdditive = some op :=
      operator?_of_ahead (congrArg Cursor.ahead hpasses.cursor) role
    exact ⟨r', (hsteps₁.tail (.plus hop)).trans hsteps⟩

end LineCalc.Machine
