import LineCalc.Proofs.Grammar.Acceptance
import LineCalc.Proofs.Parentheses.Surplus
import LineCalc.Proofs.Parentheses.Unclosed

namespace LineCalc

open Machine

variable {table : Table} {o : Opening} {tokens : List Token} {n : ℕ}

/-- A phrase that lacks parentheses is refused as unbalanced, unless it has too many levels when
they are put at its end. -/
theorem evaluate_of_lacks (hopening : o.Valid) {e : Phrase table .expression}
    (hlacks : e.Lacks n tokens) (hn : 0 < n) :
    (evaluate table (.start (o.tokens ++ tokens))).outcome =
        .refused (if e.level ≤ 256 then .unbalanced else .tooDeep 256) ∧
      (evaluate table (.start (o.tokens ++ tokens))).table = table := by
  have hfits : o.Fits table tokens := by
    obtain ⟨first, rest, htokens, hbegins⟩ := e.exists_tokens_eq_cons
    have hbinding := e.binding_not_mem_tokens
    have hclosed := hlacks.tokens_eq
    cases tokens with
    | nil => exact absurd rfl hlacks.ne_nil
    | cons other later =>
      rw [hclosed] at htokens hbinding
      obtain ⟨rfl, -⟩ := List.cons.inj htokens
      exact Opening.fits_of_cons hopening hbegins fun h => hbinding (List.mem_append_left _ h)
  have hremains : Remains (o.start tokens) tokens :=
    ⟨rfl, Int.le_refl 0, Groups.marked_initial⟩
  have hstart : (o.start tokens).level = 0 := rfl
  by_cases hlevel : e.level ≤ 256
  · obtain ⟨r, hsteps, hend⟩ := steps_of_lacks hlacks .top hremains
      (by rw [hstart, Nat.zero_add]; exact hlevel)
    -- The groups without a parenthesis of their own are still counted as open.
    have hopened : r.groups.opened = 0 + (n : Int) := hend.opened
    have hremaining : remainingFault? table r = some .unbalanced := by
      have hne : (r.groups.opened == 0) = false := by
        rw [beq_eq_false_iff_ne]
        omega
      simp [remainingFault?, Groups.balanced, hne]
    have heq := evaluate_of_finished hfits (hsteps.tail (step_stop hend.ahead))
    rw [hremaining] at heq
    rw [heq, if_pos hlevel]
    exact ⟨rfl, rfl⟩
  · obtain ⟨r, hsteps⟩ := fails_of_lacks hlacks .top hremains (Nat.zero_le _)
      (by rw [hstart, Nat.zero_add]; exact Nat.not_le.1 hlevel)
    rw [evaluate_of_failed hfits hsteps, if_neg hlevel]
    exact ⟨rfl, rfl⟩

/-- A chain is read to its end, and the surplus parenthesis after it is refused as unbalanced. -/
theorem evaluate_of_hasSurplus (hopening : o.Valid) (h : HasSurplus table 256 tokens)
    (hbinding : "=" ∉ tokens) :
    (evaluate table (.start (o.tokens ++ tokens))).outcome = .refused .unbalanced ∧
      (evaluate table (.start (o.tokens ++ tokens))).table = table := by
  obtain ⟨c, rest, rfl, hc, -⟩ := h
  obtain ⟨e, htokens, hlevel⟩ := c.exists_phrase
  rw [← htokens] at hbinding ⊢
  have hfits : o.Fits table (e.tokens ++ ")" :: rest.tokens) := by
    obtain ⟨first, later, hfirst, hbegins⟩ := e.exists_tokens_eq_cons
    rw [hfirst, List.cons_append] at hbinding ⊢
    exact Opening.fits_of_cons hopening hbegins hbinding
  have hfaces : Faces (o.start (e.tokens ++ ")" :: rest.tokens)) e (")" :: rest.tokens) :=
    ⟨⟨rfl, Int.le_refl 0, Groups.marked_initial⟩, fun _ => rfl⟩
  have hstart : (o.start (e.tokens ++ ")" :: rest.tokens)).level = 0 := rfl
  obtain ⟨r, hsteps, hpasses⟩ := steps_of_phrase e .top hfaces
    (by rw [hstart, Nat.zero_add]; exact hlevel 256 hc)
  have hahead : r.cursor.ahead = ")" :: rest.tokens := by rw [hpasses.cursor]
  have hopened : r.groups.opened = 0 := hpasses.opened
  have hleave : r.groups.canLeave = false := by
    rw [← Bool.not_eq_true, hpasses.marked.canLeave_iff, hopened]
    exact Int.lt_irrefl 0
  rw [evaluate_of_failed hfits (hsteps.tail (.stray (current_of_ahead hahead) hleave))]
  exact ⟨rfl, rfl⟩

/-- A statement that is accepted and not empty is a derivation after an opening, and the opening is
there just if the statement has no value. -/
theorem exists_opening_of_accepted (htokens : tokens ≠ [])
    (h : ∀ fault, (evaluate table (.start tokens)).outcome ≠ .refused fault) :
    ∃ (o : Opening) (e : Phrase table .expression), o.Valid ∧ tokens = o.tokens ++ e.tokens ∧
      e.level ≤ 256 ∧ (o = .none ∨ (evaluate table (.start tokens)).outcome = .done) := by
  have heffect := effect_evaluate table tokens
  generalize evaluate table (.start tokens) = d at h heffect
  cases heffect with
  | refused fault cursor events => exact absurd rfl (h fault)
  | empty events hempty => exact absurd hempty htokens
  | value e events he hlevel => exact ⟨.none, e, trivial, he, hlevel, .inl rfl⟩
  | binding name e events hvalid he hlevel => exact ⟨.target name, e, hvalid, he, hlevel, .inr rfl⟩

private theorem Opening.close_not_mem_tokens (h : o.Valid) : ")" ∉ o.tokens := by
  cases o with
  | none => exact List.not_mem_nil
  | target name =>
    have hname : ")" ≠ name := by
      rintro rfl
      exact absurd h.1 (by decide)
    simp [Opening.tokens, hname]

/-- Wrong parentheses in a statement that would be accepted are diagnosed as such. If some closing
ones are deleted, then the statement is unbalanced, or has too many levels when its groups reach to
its end. If one is inserted after the end of an operand, then it is unbalanced. The table stays as
it is. -/
theorem parentheses_diagnosed (table : Table) (tokens : List Token)
    (h : ∀ fault, (evaluate table (.start tokens)).outcome ≠ .refused fault) :
    (∀ D : Finset ℕ, D.Nonempty → (∀ i ∈ D, tokens[i]? = some ")") →
      let d := evaluate table (.start (deleteAt D tokens))
      (∃ (o : Opening) (e : Phrase table .expression),
        deleteAt D tokens ++ List.replicate D.card ")" = o.tokens ++ e.tokens ∧
        d.outcome = .refused (if e.level ≤ 256 then .unbalanced else .tooDeep 256)) ∧
      d.table = table) ∧
    ∀ (before : List Token) (token : Token) (after : List Token),
      tokens = before ++ token :: after →
      ((evaluate table (.start tokens)).outcome = .done → 2 ≤ before.length) →
      token.EndsOperand table →
      let d := evaluate table (.start (before ++ token :: ")" :: after))
      d.outcome = .refused .unbalanced ∧ d.table = table := by
  constructor
  · intro D hD hclose d
    have hlt : ∀ i ∈ D, i < tokens.length := by
      intro i hi
      exact (List.getElem?_eq_some_iff.1 (hclose i hi)).1
    have hne : tokens ≠ [] := by
      rintro rfl
      obtain ⟨i, hi⟩ := hD
      exact absurd (hlt i hi) (Nat.not_lt_zero i)
    obtain ⟨o, e, hvalid, rfl, hlevel, -⟩ := exists_opening_of_accepted hne h
    have hdeletes : DeletesOnly D 0 ")" (o.tokens ++ e.tokens) := by
      intro i token hi htoken
      rw [Nat.zero_add] at hi
      rw [hclose i hi] at htoken
      exact (Option.some.inj htoken).symm
    obtain ⟨e', n, hlacks, hlength⟩ := e.exists_lacks_deleteFrom hdeletes.append_right
    rw [Nat.zero_add] at hlacks hlength
    -- No parenthesis stands in the opening, so all of them are deleted from the expression.
    have hdeleted : deleteAt D (o.tokens ++ e.tokens) =
        o.tokens ++ deleteFrom D o.tokens.length e.tokens := by
      rw [deleteAt, deleteFrom_append, Nat.zero_add,
        hdeletes.append_left.deleteFrom_eq_self (Opening.close_not_mem_tokens hvalid)]
    have hcard : n = D.card := by
      have htotal := length_deleteAt (o.tokens ++ e.tokens) hlt
      rw [hdeleted, List.length_append, List.length_append] at htotal
      omega
    have hpositive : 0 < n := by
      rw [hcard]
      exact hD.card_pos
    obtain ⟨houtcome, htable⟩ := evaluate_of_lacks hvalid hlacks hpositive
    rw [← hdeleted] at houtcome htable
    refine ⟨⟨o, e', ?_, houtcome⟩, htable⟩
    rw [hdeleted, hlacks.tokens_eq, hcard, List.append_assoc]
  · rintro before token after rfl hplace htoken d
    have hne : before ++ token :: after ≠ [] := by simp
    obtain ⟨o, e, hvalid, htokens, hlevel, hopening⟩ := exists_opening_of_accepted hne h
    -- The operand ends in the expression and not in the opening.
    have hbefore : o.tokens.length ≤ before.length := by
      obtain rfl | hdone := hopening
      · exact Nat.zero_le _
      · have hlong := hplace hdone
        cases o with
        | none => exact Nat.zero_le _
        | target name => exact hlong
    obtain ⟨rest, hopen, -⟩ | ⟨inner, rfl, he⟩ := append_eq_append_cons htokens.symm
    · rw [hopen, List.length_append, List.length_cons] at hbefore
      omega
    · have hsurplus := (e.hasSurplus htoken he).mono hlevel
      have hbinding : "=" ∉ inner ++ token :: ")" :: after := by
        have hnot := e.binding_not_mem_tokens
        rw [he] at hnot
        simpa using hnot
      have hrefused := evaluate_of_hasSurplus hvalid hsurplus hbinding
      rwa [← List.append_assoc] at hrefused

/-- A group without its closing parenthesis, and with one more. -/
theorem parentheses_diagnosed_group :
    (∀ fault, (evaluate .empty (.start ["(", "pi", ")"])).outcome ≠ .refused fault) ∧
      (∃ (o : Opening) (e : Phrase .empty .expression),
        ["(", "pi"] ++ [")"] = o.tokens ++ e.tokens ∧
        (evaluate .empty (.start ["(", "pi"])).outcome =
          .refused (if e.level ≤ 256 then .unbalanced else .tooDeep 256)) ∧
      (evaluate .empty (.start ["(", "pi", ")", ")"])).outcome = .refused .unbalanced := by
  let e : Phrase .empty .expression :=
    .lone (.single (.group (.lone (.single (.atom "pi" pi .constant)))))
  have hvalue : (evaluate .empty (.start ["(", "pi", ")"])).outcome = .value pi := by
    obtain ⟨r, -, heq⟩ := evaluate_of_phrase (o := .none) trivial e (by decide)
    exact congrArg Evaluation.outcome heq
  have haccepted : ∀ fault,
      (evaluate .empty (.start ["(", "pi", ")"])).outcome ≠ .refused fault := by
    intro fault
    rw [hvalue]
    nofun
  have hplace : (evaluate .empty (.start ["(", "pi", ")"])).outcome = .done →
      2 ≤ ["("].length := by
    rw [hvalue]
    nofun
  have hclose : ∀ i ∈ ({2} : Finset ℕ), ["(", "pi", ")"][i]? = some ")" := by decide
  obtain ⟨hdelete, hinsert⟩ := parentheses_diagnosed .empty ["(", "pi", ")"] haccepted
  exact ⟨haccepted, (hdelete {2} (Finset.singleton_nonempty 2) hclose).1,
    (hinsert ["("] "pi" [")"] rfl hplace (.inr ⟨pi, .constant⟩)).1⟩

end LineCalc
