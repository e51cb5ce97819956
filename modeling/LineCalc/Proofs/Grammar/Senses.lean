import Mathlib.Data.List.Chain
import LineCalc.Proofs.Grammar.Phrase

namespace LineCalc

variable {table : Table} {k : Kind} {t : Token} {v : Float}

/-- A bound name that is neither the constant nor a number has one value only. -/
theorem Token.HasValue.get?_eq (h : t.HasValue table v) (hconstant : t ≠ "pi")
    (hnumeral : t.startsNumeral = false) : table.get? t = some v := by
  cases h with
  | number hstarts hread => exact absurd hstarts (Bool.eq_false_iff.1 hnumeral)
  | constant => exact absurd rfl hconstant
  | bound hbound => exact hbound

namespace Phrase

/-- The tokens of a phrase, each with the value that it is read as, if it is read as one. -/
def senses {k : Kind} : Phrase table k → List (Token × Option Float)
  | atom token value _ => [(token, some value)]
  | minus f => ("-", none) :: f.senses
  | group e => ("(", none) :: (e.senses ++ [(")", none)])
  | call f _ e => (f.name, none) :: ("(", none) :: (e.senses ++ [(")", none)])
  | single f => f.senses
  | product t op _ f => t.senses ++ (op.token, none) :: f.senses
  | lone t => t.senses
  | sum e op _ t => e.senses ++ (op.token, none) :: t.senses

private theorem map_fst_senses (p : Phrase table k) : p.senses.map Prod.fst = p.tokens := by
  induction p with
  | atom => rfl
  | minus f ih => simp [senses, tokens, ih]
  | group e ih => simp [senses, tokens, ih]
  | call f unbound e ih => simp [senses, tokens, ih]
  | single f ih => exact ih
  | product t op role f iht ihf => simp [senses, tokens, iht, ihf]
  | lone t ih => exact ih
  | sum e op role t ihe iht => simp [senses, tokens, ihe, iht]

/-- What the sense of a token says about it. -/
def HasSense (table : Table) : Token × Option Float → Prop
  | (t, some v) => t.HasValue table v
  | (t, none) => t.isSymbol = true ∨ ∃ f : Builtin, t = f.name ∧ table.get? f.name = none

private theorem hasSense_of_mem (p : Phrase table k) :
    ∀ sense ∈ p.senses, HasSense table sense := by
  have hsymbol {t : Token} (ht : t.isSymbol = true) : HasSense table (t, none) := .inl ht
  have hclosed {e : Phrase table .expression} (he : ∀ sense ∈ e.senses, HasSense table sense) :
      ∀ sense ∈ ("(", none) :: (e.senses ++ [(")", none)]), HasSense table sense :=
    List.forall_mem_cons.2 ⟨hsymbol (by decide),
      List.forall_mem_append.2 ⟨he, List.forall_mem_singleton.2 (hsymbol (by decide))⟩⟩
  induction p with
  | atom token value role => exact List.forall_mem_singleton.2 role
  | minus f ih => exact List.forall_mem_cons.2 ⟨hsymbol (by decide), ih⟩
  | group e ih => exact hclosed ih
  | call f unbound e ih => exact List.forall_mem_cons.2 ⟨.inr ⟨f, rfl, unbound⟩, hclosed ih⟩
  | single f ih => exact ih
  | product t op role f iht ihf =>
    exact List.forall_mem_append.2 ⟨iht, List.forall_mem_cons.2 ⟨hsymbol op.isSymbol_token, ihf⟩⟩
  | lone t ih => exact ih
  | sum e op role t ihe iht =>
    exact List.forall_mem_append.2 ⟨ihe, List.forall_mem_cons.2 ⟨hsymbol op.isSymbol_token, iht⟩⟩

/-- No parenthesis opens after a token that is read as a value. -/
def MayFollow (before next : Token × Option Float) : Prop := before.2.isSome = true → next.1 ≠ "("

variable {left right : List (Token × Option Float)}

/-- Anything may follow a token that is not read as a value. -/
theorem isChain_cons_none (h : right.IsChain MayFollow) (token : Token) :
    ((token, none) :: right).IsChain MayFollow := by
  refine h.cons ?_
  intro next _ hsome
  cases hsome

theorem isChain_append_cons_none (hleft : left.IsChain MayFollow)
    (hright : right.IsChain MayFollow) {token : Token} (htoken : token ≠ "(") :
    (left ++ (token, none) :: right).IsChain MayFollow := by
  refine List.isChain_append.2 ⟨hleft, isChain_cons_none hright token, ?_⟩
  rintro before - next hnext -
  obtain rfl := Option.some.inj hnext
  exact htoken

private theorem isChain_senses (p : Phrase table k) : p.senses.IsChain MayFollow := by
  have hoperator (op : Operator) : op.token ≠ "(" := by cases op <;> decide
  have hclosed {e : Phrase table .expression} (he : e.senses.IsChain MayFollow) :
      (("(", none) :: (e.senses ++ [(")", none)])).IsChain MayFollow :=
    isChain_cons_none (isChain_append_cons_none he .nil (by decide)) "("
  induction p with
  | atom token value role => exact .singleton _
  | minus f ih => exact isChain_cons_none ih "-"
  | group e ih => exact hclosed ih
  | call f unbound e ih => exact isChain_cons_none (hclosed ih) f.name
  | single f ih => exact ih
  | product t op role f iht ihf => exact isChain_append_cons_none iht ihf (hoperator op)
  | lone t ih => exact ih
  | sum e op role t ihe iht => exact isChain_append_cons_none ihe iht (hoperator op)

/-- A bound name that stands for nothing else is read as what it is bound to, wherever it stands. -/
theorem senses_of_bound (p : Phrase table k) {i : ℕ} {w : Float} (hi : p.tokens[i]? = some t)
    (hbound : table.get? t = some w) (hconstant : t ≠ "pi") (hsymbol : t.isSymbol = false)
    (hnumeral : t.startsNumeral = false) : p.senses[i]? = some (t, some w) := by
  rw [← p.map_fst_senses, List.getElem?_map, Option.map_eq_some_iff] at hi
  obtain ⟨⟨token, sense⟩, hsense, rfl⟩ := hi
  have hhas := p.hasSense_of_mem _ (List.mem_of_getElem? hsense)
  cases sense with
  | none =>
    obtain h | ⟨f, rfl, hunbound⟩ := hhas
    · exact absurd h (Bool.eq_false_iff.1 hsymbol)
    · rw [hunbound] at hbound
      cases hbound
  | some v =>
    have hget := Token.HasValue.get?_eq hhas hconstant hnumeral
    rw [hsense, Option.some.inj (hget.symm.trans hbound)]

/-- No parenthesis opens after a token that is read as a value. -/
theorem getElem?_succ_ne_of_senses (p : Phrase table k) {i : ℕ}
    (hi : p.senses[i]? = some (t, some v)) : p.tokens[i + 1]? ≠ some "(" := by
  intro hnext
  rw [← p.map_fst_senses, List.getElem?_map, Option.map_eq_some_iff] at hnext
  obtain ⟨next, hnext, hgroup⟩ := hnext
  obtain ⟨hlt, heq⟩ := List.getElem?_eq_some_iff.1 hnext
  have hbefore := (List.getElem?_eq_some_iff.1 hi).2
  have hfollow := p.isChain_senses.getElem i hlt
  rw [hbefore, heq] at hfollow
  exact hfollow rfl hgroup

end Phrase

end LineCalc
