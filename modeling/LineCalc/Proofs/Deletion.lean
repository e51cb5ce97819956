import Mathlib.Data.Finset.Card

namespace LineCalc

variable {α : Type}

/-- A list without the items at some positions, where the first item has the position `first`. -/
def deleteFrom (D : Finset ℕ) (first : ℕ) : List α → List α
  | [] => []
  | item :: rest =>
    if first ∈ D then deleteFrom D (first + 1) rest else item :: deleteFrom D (first + 1) rest

/-- A list without the items at some positions. -/
def deleteAt (D : Finset ℕ) (items : List α) : List α := deleteFrom D 0 items

/-- Only this item is deleted, wherever it stands. -/
def DeletesOnly (D : Finset ℕ) (first : ℕ) (deleted : α) (items : List α) : Prop :=
  ∀ i item, first + i ∈ D → items[i]? = some item → item = deleted

variable {D : Finset ℕ} {first : ℕ} {item deleted : α} {rest left right : List α}

theorem deleteFrom_cons_of_mem (h : first ∈ D) :
    deleteFrom D first (item :: rest) = deleteFrom D (first + 1) rest :=
  if_pos h

theorem deleteFrom_cons_of_notMem (h : first ∉ D) :
    deleteFrom D first (item :: rest) = item :: deleteFrom D (first + 1) rest :=
  if_neg h

theorem deleteFrom_append (D : Finset ℕ) (first : ℕ) (left right : List α) :
    deleteFrom D first (left ++ right) =
      deleteFrom D first left ++ deleteFrom D (first + left.length) right := by
  induction left generalizing first with
  | nil => rfl
  | cons item rest ih =>
    have hlength : first + (item :: rest).length = first + 1 + rest.length := by
      rw [List.length_cons]
      omega
    rw [List.cons_append, hlength]
    by_cases hfirst : first ∈ D
    · rw [deleteFrom_cons_of_mem hfirst, deleteFrom_cons_of_mem hfirst, ih]
    · rw [deleteFrom_cons_of_notMem hfirst, deleteFrom_cons_of_notMem hfirst, ih]
      rfl

/-- The positions from `first` on are `first` itself and those after it. -/
theorem card_filter_le (D : Finset ℕ) (first : ℕ) :
    (D.filter (first ≤ ·)).card =
      (D.filter (first + 1 ≤ ·)).card + if first ∈ D then 1 else 0 := by
  split
  next h =>
    have hinsert : D.filter (first ≤ ·) = insert first (D.filter (first + 1 ≤ ·)) := by
      ext i
      simp only [Finset.mem_filter, Finset.mem_insert]
      constructor
      · rintro ⟨hi, hle⟩
        by_cases heq : i = first
        · exact .inl heq
        · exact .inr ⟨hi, by omega⟩
      · rintro (rfl | ⟨hi, hle⟩)
        · exact ⟨h, Nat.le_refl i⟩
        · exact ⟨hi, by omega⟩
    rw [hinsert, Finset.card_insert_of_notMem]
    simp
  next h =>
    refine congrArg Finset.card (Finset.filter_congr ?_)
    intro i hi
    have hne : i ≠ first := by
      rintro rfl
      exact h hi
    omega

private theorem length_deleteFrom (items : List α) (h : ∀ i ∈ D, i < first + items.length) :
    (deleteFrom D first items).length + (D.filter (first ≤ ·)).card = items.length := by
  induction items generalizing first with
  | nil =>
    have hempty : D.filter (first ≤ ·) = ∅ := by
      refine Finset.filter_eq_empty_iff.2 ?_
      intro i hi
      have hlt := h i hi
      simp only [List.length_nil] at hlt
      omega
    simp [deleteFrom, hempty]
  | cons item rest ih =>
    have hrest := @ih (first + 1) fun i hi => by
      have hlt := h i hi
      rw [List.length_cons] at hlt
      omega
    rw [card_filter_le, List.length_cons]
    by_cases hfirst : first ∈ D
    · rw [deleteFrom_cons_of_mem hfirst, if_pos hfirst]
      omega
    · rw [deleteFrom_cons_of_notMem hfirst, if_neg hfirst, List.length_cons]
      omega

/-- Every position in a list takes one item away. -/
theorem length_deleteAt (items : List α) (h : ∀ i ∈ D, i < items.length) :
    (deleteAt D items).length + D.card = items.length := by
  have hlength : (deleteFrom D 0 items).length + (D.filter (0 ≤ ·)).card = items.length :=
    length_deleteFrom items (by simpa using h)
  simpa [deleteAt] using hlength

namespace DeletesOnly

theorem tail (h : DeletesOnly D first deleted (item :: rest)) :
    DeletesOnly D (first + 1) deleted rest := by
  intro i other hi hother
  refine h (i + 1) other ?_ hother
  rwa [show first + (i + 1) = first + 1 + i by omega]

/-- Another item at the head of a list stays. -/
theorem deleteFrom_cons (h : DeletesOnly D first deleted (item :: rest)) (hne : item ≠ deleted) :
    deleteFrom D first (item :: rest) = item :: deleteFrom D (first + 1) rest :=
  deleteFrom_cons_of_notMem fun hfirst => hne (h 0 item hfirst rfl)

/-- Where the deleted item does not stand nothing changes. -/
theorem deleteFrom_eq_self {items : List α} (h : DeletesOnly D first deleted items)
    (hnot : deleted ∉ items) : deleteFrom D first items = items := by
  induction items generalizing first with
  | nil => rfl
  | cons item rest ih =>
    obtain ⟨hne, hrest⟩ := not_or.1 (mt List.mem_cons.2 hnot)
    rw [h.deleteFrom_cons (Ne.symm hne), ih h.tail hrest]

theorem append_left (h : DeletesOnly D first deleted (left ++ right)) :
    DeletesOnly D first deleted left := by
  intro i other hi hother
  refine h i other hi ?_
  rw [List.getElem?_append_left (List.getElem?_eq_some_iff.1 hother).1, hother]

theorem append_right (h : DeletesOnly D first deleted (left ++ right)) :
    DeletesOnly D (first + left.length) deleted right := by
  intro i other hi hother
  refine h (left.length + i) other ?_ ?_
  · rwa [← Nat.add_assoc]
  · rw [List.getElem?_append_right (Nat.le_add_right ..), Nat.add_sub_cancel_left, hother]

end DeletesOnly

end LineCalc
