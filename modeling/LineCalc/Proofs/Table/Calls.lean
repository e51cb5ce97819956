import LineCalc.Proofs.Text.Encoding
import LineCalc.Table.Lookup

namespace LineCalc.Table

open Text (utf8)

variable {t : Table} {calls : List Binding} {name : String} {value : Float}

/-- Makes bindings one after another. -/
def insertAll (t : Table) (calls : List Binding) : Table :=
  calls.foldl (fun t b => t.insert b.1 b.2) t

private theorem insertAll_cons (t : Table) (b : Binding) (later : List Binding) :
    t.insertAll (b :: later) = (t.insert b.1 b.2).insertAll later :=
  List.foldl_cons ..

private theorem insertAll_append (t : Table) (before after : List Binding) :
    t.insertAll (before ++ after) = (t.insertAll before).insertAll after :=
  List.foldl_append

/-- Calls for other names leave the value of a name as it was. -/
theorem get?_insertAll_of_notMem (h : name ∉ calls.map Prod.fst) (t : Table) :
    (t.insertAll calls).get? name = t.get? name := by
  induction calls generalizing t with
  | nil => rfl
  | cons b later ih =>
    rw [List.map_cons, List.mem_cons, not_or] at h
    rw [insertAll_cons, ih h.2, get?_insert, if_neg h.1]

/-- The last of the calls for a name gives it the value. -/
def IsLast (calls : List Binding) (name : String) (value : Float) : Prop :=
  ∃ before after, calls = before ++ (name, value) :: after ∧ name ∉ after.map Prod.fst

/-- A name for which there is a call has a last one. -/
theorem exists_isLast (h : name ∈ calls.map Prod.fst) : ∃ value, IsLast calls name value := by
  induction calls with
  | nil => cases h
  | cons b later ih =>
    by_cases hlater : name ∈ later.map Prod.fst
    · obtain ⟨value, before, after, rfl, hafter⟩ := ih hlater
      exact ⟨value, b :: before, after, rfl, hafter⟩
    · obtain rfl | hmem := List.mem_cons.1 h
      · exact ⟨b.2, [], later, rfl, hlater⟩
      · exact absurd hmem hlater

private theorem get?_insertAll_of_isLast (h : IsLast calls name value) (t : Table) :
    (t.insertAll calls).get? name = some value := by
  obtain ⟨before, after, rfl, hafter⟩ := h
  rw [insertAll_append, insertAll_cons, get?_insertAll_of_notMem hafter, get?_insert, if_pos rfl]

/-- In a new table a name has the value of the last call for it, if there is one. -/
theorem get?_insertAll_iff :
    (empty.insertAll calls).get? name = some value ↔ IsLast calls name value := by
  refine ⟨fun hget => ?_, fun h => get?_insertAll_of_isLast h empty⟩
  have hmem : name ∈ calls.map Prod.fst := by
    by_contra hnot
    rw [get?_insertAll_of_notMem hnot, get?_empty] at hget
    cases hget
  obtain ⟨last, hlast⟩ := exists_isLast hmem
  rw [get?_insertAll_of_isLast hlast] at hget
  rwa [← Option.some.inj hget]

theorem contains_insertAll_iff :
    (empty.insertAll calls).contains name = true ↔ name ∈ calls.map Prod.fst := by
  rw [contains_eq_true_iff]
  constructor
  · rintro ⟨value, hvalue⟩
    obtain ⟨before, after, rfl, -⟩ := get?_insertAll_iff.1 hvalue
    exact List.mem_map_of_mem (List.mem_append_right before (List.mem_cons_self ..))
  · intro h
    obtain ⟨value, hlast⟩ := exists_isLast h
    exact ⟨value, get?_insertAll_iff.2 hlast⟩

/-- Calls that come to the same last values come to the same table. -/
theorem insertAll_eq_of_isLast_iff {calls' : List Binding}
    (h : ∀ name value, IsLast calls name value ↔ IsLast calls' name value) :
    empty.insertAll calls = empty.insertAll calls' := by
  refine ext_get? fun name => Option.ext fun value => ?_
  rw [get?_insertAll_iff, get?_insertAll_iff, h name value]

/-- A table lists its names in the order of their bytes. -/
theorem ascending_utf8 (t : Table) : t.bindings.Pairwise fun a b => utf8 a.1 < utf8 b.1 :=
  t.ascending.imp Text.utf8_lt_of_lt

theorem mem_names_iff : name ∈ t.bindings.map Prod.fst ↔ t.contains name = true := by
  rw [contains_eq_true_iff, List.mem_map]
  constructor
  · rintro ⟨b, hb, rfl⟩
    exact ⟨b.2, mem_bindings_iff.1 hb⟩
  · rintro ⟨value, hvalue⟩
    exact ⟨(name, value), mem_bindings_iff.2 hvalue, rfl⟩

/-- A table lists a bound name once, and no other name. -/
theorem count_name (t : Table) (name : String) :
    (t.bindings.map Prod.fst).count name = if name ∈ t.bindings.map Prod.fst then 1 else 0 := by
  have hnodup : (t.bindings.map Prod.fst).Nodup :=
    List.pairwise_map.2 (t.ascending.imp ne_of_lt)
  exact hnodup.count

/-- However the bindings of a table are listed, sorting them by the bytes of the names gives the
table's own list. -/
theorem mergeSort_eq_bindings {entries : List Binding} (h : entries.Perm t.bindings) :
    (entries.mergeSort fun a b => utf8 a.1 ≤ utf8 b.1) = t.bindings := by
  let le : Binding → Binding → Bool := fun a b => utf8 a.1 ≤ utf8 b.1
  have hle (a b : Binding) : le a b = true ↔ a.1 ≤ b.1 := by
    rw [decide_eq_true_iff, Text.utf8_le_iff]
  have hperm : (entries.mergeSort le).Perm t.bindings := (List.mergeSort_perm entries le).trans h
  have hsorted : (entries.mergeSort le).Pairwise fun a b => le a b = true := by
    refine List.pairwise_mergeSort (fun a b c hab hbc => ?_) (fun a b => ?_) entries
    · exact (hle a c).2 (le_trans ((hle a b).1 hab) ((hle b c).1 hbc))
    · rw [Bool.or_eq_true, hle, hle]
      exact le_total a.1 b.1
  have hascending : t.bindings.Pairwise fun a b => le a b = true :=
    t.ascending.imp fun hlt => (hle _ _).2 (le_of_lt hlt)
  refine List.Perm.eq_of_pairwise (fun a b ha hb hab hba => ?_) hsorted hascending hperm
  -- Two bindings of one name are the same binding.
  have hname : a.1 = b.1 := le_antisymm ((hle a b).1 hab) ((hle b a).1 hba)
  have hgeta : t.get? a.1 = some a.2 := mem_bindings_iff.1 (hperm.mem_iff.1 ha)
  have hgetb : t.get? b.1 = some b.2 := mem_bindings_iff.1 hb
  rw [hname, hgetb] at hgeta
  exact Prod.ext hname (Option.some.inj hgeta).symm

end LineCalc.Table
