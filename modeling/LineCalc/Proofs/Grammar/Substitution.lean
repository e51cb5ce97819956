import LineCalc.Table.Lookup
import LineCalc.Proofs.Grammar.Acceptance
import LineCalc.Proofs.Grammar.Senses
import LineCalc.Proofs.Token.Names

namespace LineCalc

/-- Some of the places where a token stands are taken by other tokens instead. -/
inductive Replaced (old : Token) (new : List Token) : List Token → List Token → Prop
  | nil : Replaced old new [] []
  | keep (t : Token) {tokens others : List Token} (h : Replaced old new tokens others) :
      Replaced old new (t :: tokens) (t :: others)
  | swap {tokens others : List Token} (h : Replaced old new tokens others) :
      Replaced old new (old :: tokens) (new ++ others)

namespace Replaced

variable {old t : Token} {new left right others : List Token}

/-- Another token stays where it is. -/
theorem exists_of_cons (h : Replaced old new (t :: right) others) (hne : t ≠ old) :
    ∃ rest, others = t :: rest ∧ Replaced old new right rest := by
  cases h with
  | keep _ h => exact ⟨_, rfl, h⟩
  | swap h => exact absurd rfl hne

private theorem exists_of_append (h : Replaced old new (left ++ right) others) :
    ∃ first second, others = first ++ second ∧ Replaced old new left first ∧
      Replaced old new right second := by
  induction left generalizing others with
  | nil => exact ⟨[], others, rfl, .nil, h⟩
  | cons t left ih =>
    cases h with
    | keep _ h =>
      obtain ⟨first, second, rfl, hfirst, hsecond⟩ := ih h
      exact ⟨t :: first, second, rfl, .keep t hfirst, hsecond⟩
    | swap h =>
      obtain ⟨first, second, rfl, hfirst, hsecond⟩ := ih h
      exact ⟨new ++ first, second, (List.append_assoc ..).symm, .swap hfirst, hsecond⟩

/-- Between parentheses the replacement goes on, and the parentheses stay. -/
theorem exists_of_enclosed (h : Replaced old new ("(" :: (left ++ [")"])) others)
    (hsymbol : old.isSymbol = false) :
    ∃ inner, others = "(" :: (inner ++ [")"]) ∧ Replaced old new left inner := by
  have hne {s : Token} (hs : s.isSymbol = true) : s ≠ old := (Token.ne_of_isSymbol hsymbol hs).symm
  obtain ⟨rest, rfl, hrest⟩ := h.exists_of_cons (hne (by decide))
  obtain ⟨inner, last, rfl, hinner, hlast⟩ := hrest.exists_of_append
  obtain ⟨none, rfl, hnone⟩ := hlast.exists_of_cons (hne (by decide))
  cases hnone
  exact ⟨inner, rfl, hinner⟩

/-- Around an operator the replacement goes on, and the operator stays. -/
theorem exists_of_operator {op : Operator} (h : Replaced old new (left ++ op.token :: right) others)
    (hsymbol : old.isSymbol = false) :
    ∃ first second, others = first ++ op.token :: second ∧ Replaced old new left first ∧
      Replaced old new right second := by
  have hne : op.token ≠ old := (Token.ne_of_isSymbol hsymbol op.isSymbol_token).symm
  obtain ⟨first, rest, rfl, hfirst, hrest⟩ := h.exists_of_append
  obtain ⟨second, rfl, hsecond⟩ := hrest.exists_of_cons hne
  exact ⟨first, second, rfl, hfirst, hsecond⟩

end Replaced

variable {table : Table} {k : Kind} {name : Token}

/-- With the name of a value replaced by a group of that value, a phrase is again a phrase of its
kind, and has the value that it had. -/
theorem Phrase.exists_replaced (p : Phrase table k) {e : Phrase table .expression}
    (hname : name.isName = true) (hconstant : name ≠ "pi")
    (hbound : table.get? name = some e.value) {others : List Token}
    (h : Replaced name ("(" :: (e.tokens ++ [")"])) p.tokens others) :
    ∃ q : Phrase table k, q.tokens = others ∧ q.value = p.value := by
  have hsymbol := Token.isSymbol_of_isName hname
  induction p generalizing others with
  | atom token value role =>
    cases h with
    | keep _ h =>
      cases h
      exact ⟨.atom token value role, rfl, rfl⟩
    | swap h =>
      cases h
      have hvalue := role.get?_eq hconstant (Token.startsNumeral_of_isName hname)
      rw [hbound] at hvalue
      exact ⟨.group e, (List.append_nil _).symm, Option.some.inj hvalue⟩
  | minus f ih =>
    have hne : "-" ≠ name := by
      rintro rfl
      cases hsymbol
    obtain ⟨rest, rfl, hrest⟩ := h.exists_of_cons hne
    obtain ⟨f', rfl, hvalue⟩ := ih hrest
    exact ⟨.minus f', rfl, congrArg (- ·) hvalue⟩
  | group inner ih =>
    obtain ⟨rest, rfl, hrest⟩ := h.exists_of_enclosed hsymbol
    obtain ⟨inner', rfl, hvalue⟩ := ih hrest
    exact ⟨.group inner', rfl, hvalue⟩
  | call f unbound inner ih =>
    -- The name is bound, so it names no function that is called.
    have hne : f.name ≠ name := by
      rintro rfl
      rw [unbound] at hbound
      cases hbound
    obtain ⟨closed, rfl, hclosed⟩ := h.exists_of_cons hne
    obtain ⟨rest, rfl, hrest⟩ := hclosed.exists_of_enclosed hsymbol
    obtain ⟨inner', rfl, hvalue⟩ := ih hrest
    refine ⟨.call f unbound inner', rfl, ?_⟩
    rw [Phrase.value_call, Phrase.value_call, hvalue]
  | single f ih =>
    obtain ⟨f', htokens, hvalue⟩ := ih h
    exact ⟨.single f', htokens, hvalue⟩
  | product t op role f iht ihf =>
    obtain ⟨first, second, rfl, hfirst, hsecond⟩ := h.exists_of_operator hsymbol
    obtain ⟨t', rfl, ht⟩ := iht hfirst
    obtain ⟨f', rfl, hf⟩ := ihf hsecond
    refine ⟨.product t' op role f', rfl, ?_⟩
    rw [Phrase.value_product, Phrase.value_product, ht, hf]
  | lone t ih =>
    obtain ⟨t', htokens, hvalue⟩ := ih h
    exact ⟨.lone t', htokens, hvalue⟩
  | sum e op role t ihe iht =>
    obtain ⟨first, second, rfl, hfirst, hsecond⟩ := h.exists_of_operator hsymbol
    obtain ⟨e', rfl, he⟩ := ihe hfirst
    obtain ⟨t', rfl, ht⟩ := iht hsecond
    refine ⟨.sum e' op role t', rfl, ?_⟩
    rw [Phrase.value_sum, Phrase.value_sum, he, ht]

/-- A derivation alone has its value, or too many levels. -/
theorem evaluate_phrase (e : Phrase table .expression) :
    (evaluate table (.start e.tokens)).outcome =
        (if e.level ≤ 256 then .value e.value else .refused (.tooDeep 256)) ∧
      (evaluate table (.start e.tokens)).table = table := by
  by_cases hlevel : e.level ≤ 256
  · obtain ⟨r, -, heq⟩ := evaluate_of_phrase (o := .none) trivial e hlevel
    rw [if_pos hlevel]
    exact ⟨congrArg Evaluation.outcome heq, congrArg Evaluation.table heq⟩
  · obtain ⟨r, i, -, -, heq⟩ :=
      evaluate_of_deep_phrase (o := .none) trivial e (Nat.not_le.1 hlevel)
    rw [if_neg hlevel]
    exact ⟨congrArg Evaluation.outcome heq, congrArg Evaluation.table heq⟩

/-- When a name is bound to the value of an expression, it can be replaced by a group around the
expression in any of its places in another. The new tokens are a derivation of the value that the
old ones have; they have this value too, unless the derivation has too many levels, for which alone
they are refused. -/
theorem evaluate_of_replaced (table : Table) (name : Token) (v w : Float)
    (inner tokens others : List Token) (hname : name.isName = true) (hconstant : name ≠ "pi")
    (hbound : table.get? name = some v)
    (hinner : (evaluate table (.start inner)).outcome = .value v)
    (htokens : (evaluate table (.start tokens)).outcome = .value w)
    (hreplaced : Replaced name ("(" :: (inner ++ [")"])) tokens others) :
    let d := evaluate table (.start others)
    ∃ e : Phrase table .expression, e.tokens = others ∧ e.value = w ∧
      d.outcome = (if e.level ≤ 256 then .value w else .refused (.tooDeep 256)) ∧
      d.table = table := by
  intro d
  obtain ⟨e, rfl, -, rfl⟩ := exists_phrase_of_value hinner
  obtain ⟨p, rfl, -, rfl⟩ := exists_phrase_of_value htokens
  obtain ⟨q, rfl, hvalue⟩ := p.exists_replaced hname hconstant hbound hreplaced
  rw [← hvalue]
  exact ⟨q, rfl, rfl, evaluate_phrase q⟩

/-- One of two places of a name is taken by its own double negation. -/
theorem evaluate_of_replaced_double_negation :
    let table := Table.empty.insert "x" pi
    table.get? "x" = some pi ∧
      (evaluate table (.start ["-", "-", "x"])).outcome = .value pi ∧
      (evaluate table (.start ["-", "x", "*", "x"])).outcome = .value (-pi * pi) ∧
      Replaced "x" ["(", "-", "-", "x", ")"] ["-", "x", "*", "x"]
        ["-", "x", "*", "(", "-", "-", "x", ")"] ∧
      ∃ e : Phrase table .expression, e.tokens = ["-", "x", "*", "(", "-", "-", "x", ")"] ∧
        (evaluate table (.start ["-", "x", "*", "(", "-", "-", "x", ")"])).outcome =
          if e.level ≤ 256 then .value (-pi * pi) else .refused (.tooDeep 256) := by
  intro table
  have hbound : table.get? "x" = some pi := Table.get?_insert ..
  let x : Phrase table .factor :=
    .atom "x" pi (.bound hbound (by decide) (by decide) (by decide))
  have hinner : (evaluate table (.start ["-", "-", "x"])).outcome = .value pi := by
    have hnegated : - -pi = pi := by decide +kernel
    rw [← hnegated]
    exact (evaluate_phrase (.lone (.single (.minus (.minus x))))).1
  have htokens : (evaluate table (.start ["-", "x", "*", "x"])).outcome = .value (-pi * pi) :=
    (evaluate_phrase (.lone (.product (.single (.minus x)) .mul rfl x))).1
  have hreplaced : Replaced "x" ["(", "-", "-", "x", ")"] ["-", "x", "*", "x"]
      ["-", "x", "*", "(", "-", "-", "x", ")"] :=
    .keep _ (.keep _ (.keep _ (.swap .nil)))
  obtain ⟨e, he, -, houtcome, -⟩ := evaluate_of_replaced table "x" pi (-pi * pi) _ _ _ (by decide)
    (by decide) hbound hinner htokens hreplaced
  exact ⟨hbound, hinner, htokens, hreplaced, e, he, houtcome⟩

end LineCalc
