import LineCalc.Fault
import LineCalc.Number.Numeral

namespace LineCalc

/-- A name and its value. -/
abbrev Binding := String × Float

namespace Binding

/-- Puts a binding in its place among bindings in ascending order; an earlier binding of the name
gives way. -/
def insert (name : String) (value : Float) : List Binding → List Binding
  | [] => [(name, value)]
  | (other, old) :: rest =>
    if name < other then (name, value) :: (other, old) :: rest
    else if name = other then (name, value) :: rest
    else (other, old) :: insert name value rest

/-- The value that a name is bound to. -/
def lookup (query : String) : List Binding → Option Float
  | [] => none
  | (name, value) :: rest => if query = name then some value else lookup query rest

theorem mem_insert {name : String} {value : Float} {bindings : List Binding} {b : Binding}
    (h : b ∈ insert name value bindings) : b = (name, value) ∨ b ∈ bindings := by
  induction bindings with
  | nil => simpa [insert] using h
  | cons head rest ih =>
    obtain ⟨other, old⟩ := head
    simp only [insert] at h
    split at h
    · simpa using h
    · split at h
      · rcases List.mem_cons.1 h with h | h
        · exact .inl h
        · exact .inr (List.mem_cons_of_mem _ h)
      · rcases List.mem_cons.1 h with h | h
        · exact .inr (h ▸ List.mem_cons_self ..)
        · exact (ih h).imp_right (List.mem_cons_of_mem _)

theorem ascending_insert {name : String} {value : Float} {bindings : List Binding}
    (h : bindings.Pairwise (·.1 < ·.1)) :
    (insert name value bindings).Pairwise (·.1 < ·.1) := by
  induction bindings with
  | nil => simp [insert]
  | cons head rest ih =>
    obtain ⟨other, old⟩ := head
    obtain ⟨hhead, hrest⟩ := List.pairwise_cons.1 h
    simp only [insert]
    split
    next hlt =>
      refine List.pairwise_cons.2 ⟨fun b hb => ?_, h⟩
      rcases List.mem_cons.1 hb with rfl | hb
      · exact hlt
      · exact String.lt_trans hlt (hhead b hb)
    next hlt =>
      split
      next heq => exact List.pairwise_cons.2 ⟨fun b hb => heq ▸ hhead b hb, hrest⟩
      next hne =>
        refine List.pairwise_cons.2 ⟨fun b hb => ?_, ih hrest⟩
        rcases mem_insert hb with rfl | hb
        · exact Decidable.byContradiction fun hnot =>
            hne (String.le_antisymm (String.not_lt.1 hnot) (String.not_lt.1 hlt))
        · exact hhead b hb

/-- A name, a colon and the value. -/
def text (b : Binding) : String := b.1 ++ ": " ++ Number.write b.2

end Binding

/-- The bindings of a session, no name twice, in ascending order of the names, so that two tables
with the same bindings are equal in whatever order these were made. Names are ordered by their code
points, which is also the order of their bytes in UTF-8. -/
structure Table where
  bindings : List Binding
  ascending : bindings.Pairwise (·.1 < ·.1)
deriving DecidableEq

namespace Table

/-- No name is bound. -/
def empty : Table := ⟨[], .nil⟩

instance : Inhabited Table := ⟨empty⟩

instance : EmptyCollection Table := ⟨empty⟩

/-- Binds a name, in place of what it was bound to. -/
def insert (t : Table) (name : String) (value : Float) : Table :=
  ⟨Binding.insert name value t.bindings, Binding.ascending_insert t.ascending⟩

/-- The value of a name, if it is bound. -/
def get? (t : Table) (name : String) : Option Float := Binding.lookup name t.bindings

/-- The name is bound. -/
def contains (t : Table) (name : String) : Bool := (t.get? name).isSome

/-- The value of a name; an unbound name is a fault. -/
def fetch (t : Table) (name : String) : Except Fault Float :=
  match t.get? name with
  | some value => .ok value
  | none => .error (.unboundName name)

/-- The table on one line, between braces. -/
def text (t : Table) : String :=
  "\x7b" ++ ", ".intercalate (t.bindings.map Binding.text) ++ "\x7d"

end Table

end LineCalc
