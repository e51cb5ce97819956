import LineCalc.Proofs.Tracking.Rules
import LineCalc.Table.Lookup

namespace LineCalc

/-- Outcomes that differ in a value at most. -/
inductive Outcome.Alike : Outcome → Outcome → Prop
  | value (v w : Float) : Alike (.value v) (.value w)
  | done : Alike .done .done
  | refused (fault : Fault) : Alike (.refused fault) (.refused fault)

/-- Evaluations that differ in values at most: they end at the same cursor, with outcomes of one
kind, and with tables that bind the same names. -/
structure Evaluation.Alike (d e : Evaluation) : Prop where
  cursor : d.cursor = e.cursor
  outcome : d.outcome.Alike e.outcome
  names : ∀ name, d.table.contains name = e.table.contains name

variable {left right : Table} {r s : Reading}

/-- With the same names bound, the tables match if any two values do. -/
theorem Table.matches_of_names (h : ∀ name, left.contains name = right.contains name) :
    left.Matches (fun _ _ => True) right := by
  intro name
  have hname := h name
  rw [contains, contains] at hname
  cases hleft : left.get? name <;> cases hright : right.get? name
  · exact .none
  · simp [hleft, hright] at hname
  · simp [hleft, hright] at hname
  · exact .some trivial

theorem Reading.Tracks.cursor_eq (h : r.Tracks [] s) : r.cursor = s.cursor := by
  rw [h.cursor, List.append_nil]

private theorem conclude_alike (hnames : ∀ name, left.contains name = right.contains name)
    (hr : r.Tracks [] s) {a b : Statement} (h : a.Matches (fun _ _ => True) b) :
    (conclude left r a).Alike (conclude right s b) := by
  cases h with
  | value => exact ⟨hr.cursor_eq, .value _ _, hnames⟩
  | binding name =>
    refine ⟨hr.cursor_eq, .done, fun query => ?_⟩
    simp only [conclude, Table.contains_insert, hnames]
  | empty => exact ⟨hr.cursor_eq, .done, hnames⟩

/-- In two tables that bind the same names, to whatever values, a statement ends at the same place,
and it is refused for the same fault, has a value, or has none in both. -/
theorem evaluate_alike (left right : Table)
    (hnames : ∀ name, left.contains name = right.contains name) (cursor : Cursor) :
    (evaluate left cursor).Alike (evaluate right cursor) := by
  have hstart : (Reading.start cursor).Tracks [] (.start cursor) :=
    ⟨by rw [List.append_nil], rfl, rfl⟩
  have hagree := Rule.tracks_statement congruent_any (Table.matches_of_names hnames) _ _ hstart
  rw [evaluate, evaluate]
  generalize Rule.statement left (.start cursor) = x at hagree
  generalize Rule.statement right (.start cursor) = y at hagree
  cases hagree with
  | error hr => exact ⟨hr.cursor_eq, .refused _, hnames⟩
  | @ok a b r s hstatement hr =>
    simp only [hr.remainingFault?_eq hnames]
    cases remainingFault? left r with
    | some fault => exact ⟨hr.cursor_eq, .refused fault, hnames⟩
    | none => exact conclude_alike hnames hr hstatement

/-- A name bound to π and the same name bound to infinity. -/
theorem evaluate_alike_infinite :
    (∀ name, (Table.empty.insert "x" pi).contains name =
      (Table.empty.insert "x" (pi / 0)).contains name) ∧
    (evaluate (Table.empty.insert "x" pi) (.start ["y", "=", "x", "-", "x"])).Alike
      (evaluate (Table.empty.insert "x" (pi / 0)) (.start ["y", "=", "x", "-", "x"])) := by
  have hnames : ∀ name, (Table.empty.insert "x" pi).contains name =
      (Table.empty.insert "x" (pi / 0)).contains name := by
    intro name
    rw [Table.contains_insert, Table.contains_insert]
  exact ⟨hnames, evaluate_alike _ _ hnames _⟩

end LineCalc
