import LineCalc.Table

namespace LineCalc

namespace Binding

theorem lookup_insert (name : String) (value : Float) (bindings : List Binding) (query : String) :
    lookup query (insert name value bindings) =
      if query = name then some value else lookup query bindings := by
  induction bindings with
  | nil => rfl
  | cons head rest ih =>
    obtain ⟨other, old⟩ := head
    simp only [insert]
    split
    · rfl
    · split
      next heq =>
        subst heq
        simp only [lookup]
        split <;> rfl
      next hne =>
        simp only [lookup, ih]
        split
        next hquery => rw [if_neg (hquery ▸ Ne.symm hne)]
        next => rfl

/-- A name before all names of a list is not in it. -/
theorem lookup_eq_none {bindings : List Binding} {query : String}
    (h : ∀ b ∈ bindings, query < b.1) : lookup query bindings = none := by
  induction bindings with
  | nil => rfl
  | cons head rest ih =>
    have hne : query ≠ head.1 :=
      fun heq => String.lt_irrefl query (heq ▸ h head (List.mem_cons_self ..))
    rw [lookup, if_neg hne]
    exact ih fun b hb => h b (List.mem_cons_of_mem _ hb)

theorem lookup_head (b : Binding) (rest : List Binding) : lookup b.1 (b :: rest) = some b.2 :=
  if_pos rfl

/-- In ascending order the look-ups find every binding. -/
theorem lookup_eq_some_iff {bindings : List Binding} (h : bindings.Pairwise (·.1 < ·.1))
    {query : String} {value : Float} :
    lookup query bindings = some value ↔ (query, value) ∈ bindings := by
  induction bindings with
  | nil => simp [lookup]
  | cons head rest ih =>
    obtain ⟨hhead, hrest⟩ := List.pairwise_cons.1 h
    obtain ⟨name, other⟩ := head
    rw [lookup, List.mem_cons, Prod.mk.injEq]
    by_cases hquery : query = name
    · subst hquery
      have hnot : (query, value) ∉ rest := fun hmem => String.lt_irrefl query (hhead _ hmem)
      simp [hnot, eq_comm]
    · rw [if_neg hquery, ih hrest]
      simp [hquery]

/-- The first name of a list in ascending order comes first in any list with the same look-ups. -/
theorem head_le {a b : Binding} {as bs : List Binding} (hb : ∀ c ∈ bs, b.1 < c.1)
    (h : ∀ query, lookup query (a :: as) = lookup query (b :: bs)) : b.1 ≤ a.1 := by
  refine String.not_lt.1 fun hlt => ?_
  have hnone : lookup a.1 (b :: bs) = none := by
    refine lookup_eq_none fun c hc => ?_
    rcases List.mem_cons.1 hc with rfl | hc
    · exact hlt
    · exact String.lt_trans hlt (hb c hc)
  exact nomatch (lookup_head a as).symm.trans ((h a.1).trans hnone)

/-- In ascending order the look-ups determine the list. -/
theorem ext_lookup {left right : List Binding} (hleft : left.Pairwise (·.1 < ·.1))
    (hright : right.Pairwise (·.1 < ·.1)) (h : ∀ query, lookup query left = lookup query right) :
    left = right := by
  induction left generalizing right with
  | nil =>
    cases right with
    | nil => rfl
    | cons b bs => exact nomatch (h b.1).trans (lookup_head b bs)
  | cons a as ih =>
    obtain ⟨ha, has⟩ := List.pairwise_cons.1 hleft
    cases right with
    | nil => exact nomatch (lookup_head a as).symm.trans (h a.1)
    | cons b bs =>
      obtain ⟨hb, hbs⟩ := List.pairwise_cons.1 hright
      have hname : a.1 = b.1 :=
        String.le_antisymm (head_le ha fun query => (h query).symm) (head_le hb h)
      have hvalue : a.2 = b.2 :=
        Option.some.inj ((lookup_head a as).symm.trans
          ((h a.1).trans (hname ▸ lookup_head b bs)))
      have hrest : as = bs := by
        refine ih has hbs fun query => ?_
        by_cases hquery : query = a.1
        · rw [hquery, lookup_eq_none ha, hname, lookup_eq_none hb]
        · have hq := h query
          rwa [lookup, if_neg hquery, lookup, if_neg (hname ▸ hquery)] at hq
      rw [hrest, show a = b from Prod.ext hname hvalue]

end Binding

namespace Table

@[simp] theorem get?_empty (name : String) : Table.empty.get? name = none := rfl

@[simp] theorem get?_insert (t : Table) (name : String) (value : Float) (query : String) :
    (t.insert name value).get? query = if query = name then some value else t.get? query :=
  Binding.lookup_insert name value t.bindings query

theorem contains_insert (t : Table) (name : String) (value : Float) (query : String) :
    (t.insert name value).contains query = (query == name || t.contains query) := by
  by_cases h : query = name <;> simp [contains, h]

theorem mem_bindings_iff {t : Table} {name : String} {value : Float} :
    (name, value) ∈ t.bindings ↔ t.get? name = some value :=
  (Binding.lookup_eq_some_iff t.ascending).symm

theorem contains_eq_true_iff {t : Table} {name : String} :
    t.contains name = true ↔ ∃ value, t.get? name = some value :=
  Option.isSome_iff_exists

/-- Tables with the same look-ups are equal. -/
theorem ext_get? {left right : Table} (h : ∀ name, left.get? name = right.get? name) :
    left = right := by
  obtain ⟨as, has⟩ := left
  obtain ⟨bs, hbs⟩ := right
  have hbindings : as = bs := Binding.ext_lookup has hbs h
  subst hbindings
  rfl

end Table

end LineCalc
