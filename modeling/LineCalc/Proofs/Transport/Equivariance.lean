import Mathlib.Logic.Equiv.Basic
import LineCalc.Proofs.Transport.Statement

namespace LineCalc

/-- The table with its names renamed. -/
def Table.rename (ρ : Renaming) (t : Table) : Table :=
  t.bindings.foldr (fun b renamed => renamed.insert (ρ b.1) b.2) .empty

/-- The outcome with the token in its fault renamed. -/
def Outcome.rename (ρ : Renaming) : Outcome → Outcome
  | value v => value v
  | done => done
  | refused fault => refused (fault.rename ρ)

/-- The cursor among the renamed tokens, at the same place. -/
def Cursor.rename (ρ : Renaming) (c : Cursor) : Cursor := ⟨c.behind.map ρ, c.ahead.map ρ⟩

/-- The evaluation with its names renamed. -/
def Evaluation.rename (ρ : Renaming) (e : Evaluation) : Evaluation :=
  ⟨e.outcome.rename ρ, e.cursor.rename ρ, e.table.rename ρ,
    e.events.map (Event.carry ρ (Cursor.rename ρ))⟩

/-- Two names that may be bound, neither of which names a function, are exchanged. -/
def Renaming.swap (a b : Token) (hname : ∀ t ∈ [a, b], t.isName = true)
    (hfree : ∀ t ∈ [a, b], t ≠ "pi" ∧ Builtin.isName t = false) : Renaming where
  name := Equiv.swap a b
  isName_name {t} h := by
    rw [Equiv.swap_apply_def]
    split
    · exact hname b (by simp)
    · split
      · exact hname a (by simp)
      · exact h
  name_inj _ _ h := (Equiv.swap a b).injective h
  name_of_not_isName {t} h := by
    refine Equiv.swap_apply_of_ne_of_ne ?_ ?_
    · rintro rfl
      simp [hname t (by simp)] at h
    · rintro rfl
      simp [hname t (by simp)] at h
  name_pi := Equiv.swap_apply_of_ne_of_ne (hfree a (by simp)).1.symm (hfree b (by simp)).1.symm
  name_builtin f := by
    refine Equiv.swap_apply_of_ne_of_ne ?_ ?_
    · rintro rfl
      simp [f.isName_name] at hfree
    · rintro rfl
      simp [f.isName_name] at hfree

variable (ρ : Renaming)

namespace Table

/-- A new name is bound to what the old one was bound to. -/
@[simp] theorem get?_rename (t : Table) (name : Token) :
    (t.rename ρ).get? (ρ name) = t.get? name := by
  simp only [rename, get?]
  induction t.bindings with
  | nil => rfl
  | cons b rest ih =>
    rw [List.foldr_cons, ← get?, get?_insert, get?, ih, Binding.lookup]
    simp only [ρ.injective.eq_iff]

/-- A token that is no new name is not bound. -/
theorem get?_rename_of_notMem {t : Table} {query : Token} (h : ∀ name, ρ name ≠ query) :
    (t.rename ρ).get? query = none := by
  rw [rename]
  induction t.bindings with
  | nil => rfl
  | cons b rest ih => rw [List.foldr_cons, get?_insert, if_neg (h b.1).symm, ih]

private theorem rename_insert (t : Table) (name : Token) (v : Float) :
    (t.insert name v).rename ρ = (t.rename ρ).insert (ρ name) v := by
  refine ext_get? fun query => ?_
  by_cases h : ∃ old, ρ old = query
  · obtain ⟨old, rfl⟩ := h
    simp only [get?_rename, get?_insert, ρ.injective.eq_iff]
  · have hnot : ∀ old, ρ old ≠ query := not_exists.1 h
    rw [get?_rename_of_notMem ρ hnot, get?_insert, if_neg (hnot name).symm,
      get?_rename_of_notMem ρ hnot]

end Table

namespace Cursor

private theorem position_rename (c : Cursor) : (c.rename ρ).position = c.position :=
  List.length_map ..

private theorem atEnd_rename (c : Cursor) : (c.rename ρ).atEnd = c.atEnd := List.isEmpty_map ..

private theorem rename_start (tokens : List Token) :
    (start tokens).rename ρ = start (tokens.map ρ) := rfl

end Cursor

/-- Every place shows the renamed tokens. -/
theorem carries_rename (t : Table) :
    Carries ρ (Cursor.rename ρ) t (t.rename ρ) fun _ => True where
  seen_of_advance _ := trivial
  current {c} _ := by
    obtain ⟨behind, ahead⟩ := c
    cases ahead with
    | nil => exact ρ.apply_endMark.symm
    | cons t rest => rfl
  get? _ := Table.get?_rename ρ t _
  following {c} _ _ := by
    obtain ⟨behind, ahead⟩ := c
    match ahead with
    | [] | [_] => exact ρ.apply_endMark.symm
    | _ :: _ :: _ => rfl
  advance {c} _ _ := by
    obtain ⟨behind, ahead⟩ := c
    cases ahead <;> rfl

private theorem conclude_rename (t : Table) (r : Reading) (s : Statement) :
    conclude (t.rename ρ) (r.carry ρ (Cursor.rename ρ)) (s.rename ρ) =
      (conclude t r s).rename ρ := by
  cases s with
  | value v => simp [conclude, Statement.rename, Evaluation.rename, Outcome.rename, Reading.carry]
  | binding name v =>
    simp [conclude, Statement.rename, Evaluation.rename, Outcome.rename, Reading.carry,
      Table.rename_insert, Event.carry]
  | empty => simp [conclude, Statement.rename, Evaluation.rename, Outcome.rename, Reading.carry]

/-- What a stop comes to in the renamed table. -/
theorem Stop.evaluation_rename (t : Table) (stop : Stop) :
    (stop.carry ρ (Cursor.rename ρ)).evaluation (t.rename ρ) = (stop.evaluation t).rename ρ := by
  cases stop with
  | failed fault r => simp [evaluation, carry, Evaluation.rename, Outcome.rename, Reading.carry]
  | read s r =>
    have hremaining := (carries_rename ρ t).remainingFault?_eq (r := r) trivial fun _ =>
      r.cursor.atEnd_rename ρ
    rw [carry, evaluation, evaluation, hremaining]
    cases remainingFault? t r with
    | some fault => simp [Evaluation.rename, Outcome.rename, Reading.carry]
    | none => exact conclude_rename ρ t r s

/-- A renamed statement comes to the same in the renamed table, with the names in it renamed. -/
theorem evaluate_rename (t : Table) (tokens : List Token) :
    evaluate (t.rename ρ) (.start (tokens.map ρ)) = (evaluate t (.start tokens)).rename ρ ∧
      (evaluate (t.rename ρ) (.start (tokens.map ρ))).cursor.position =
        (evaluate t (.start tokens)).cursor.position := by
  have heq : evaluate (t.rename ρ) (.start (tokens.map ρ)) =
      (evaluate t (.start tokens)).rename ρ := by
    obtain ⟨stop, hstops⟩ := exists_stops t tokens
    have hstops' := hstops.carry (carries_rename ρ t) (Cursor.rename_start ρ tokens) trivial
    rw [evaluate_of_stops hstops, evaluate_of_stops hstops', stop.evaluation_rename]
  refine ⟨heq, ?_⟩
  rw [heq]
  exact Cursor.position_rename ρ _

/-- Exchanging the two names exchanges them in the fault, although the name that is bound reads like
an exponent and the other like an infinity. -/
theorem evaluate_rename_swap :
    (evaluate (Table.empty.insert "e" pi) (.start ["e", "*", "inf"])).outcome =
        .refused (.unboundName "inf") ∧
      (evaluate (Table.empty.insert "inf" pi) (.start ["inf", "*", "e"])).outcome =
        .refused (.unboundName "e") := by
  have hname : ∀ t ∈ ["e", "inf"], Token.isName t = true := by decide +kernel
  have hfree : ∀ t ∈ ["e", "inf"], t ≠ "pi" ∧ Builtin.isName t = false := by decide
  have htable : (Table.empty.insert "e" pi).rename (.swap "e" "inf" hname hfree) =
      Table.empty.insert "inf" pi := Table.rename_insert _ _ _ _
  have hfault : (evaluate (Table.empty.insert "e" pi) (.start ["e", "*", "inf"])).outcome =
      .refused (.unboundName "inf") := by decide +kernel
  have hrename := (evaluate_rename (.swap "e" "inf" hname hfree) (Table.empty.insert "e" pi)
    ["e", "*", "inf"]).1
  rw [htable] at hrename
  refine ⟨hfault, ?_⟩
  have houtcome := congrArg Evaluation.outcome hrename
  rw [Evaluation.rename, hfault] at houtcome
  exact houtcome

end LineCalc
