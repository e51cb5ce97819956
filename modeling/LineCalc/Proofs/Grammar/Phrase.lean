import Mathlib.Order.Bounds.Basic
import LineCalc.Proofs.Grammar.Role

namespace LineCalc

/-- The three kinds of phrase. -/
inductive Kind where
  | factor
  | term
  | expression
deriving DecidableEq

theorem Kind.factor_ne_expression : factor ≠ expression := by
  intro h
  cases h

theorem Kind.term_ne_expression : term ≠ expression := by
  intro h
  cases h

/-- A derivation in a table, which can be built only where its tokens have the roles that it gives
them. Sums and products grow at their right end, so that a tree with several operators of one
precedence has the leftmost of them at the bottom. -/
inductive Phrase (table : Table) : Kind → Type where
  | atom (token : Token) (value : Float) (role : token.HasValue table value) :
      Phrase table .factor
  | minus (f : Phrase table .factor) : Phrase table .factor
  | group (e : Phrase table .expression) : Phrase table .factor
  | call (f : Builtin) (unbound : table.get? f.name = none) (e : Phrase table .expression) :
      Phrase table .factor
  | single (f : Phrase table .factor) : Phrase table .term
  | product (t : Phrase table .term) (op : Operator) (role : op.isMultiplicative = true)
      (f : Phrase table .factor) : Phrase table .term
  | lone (t : Phrase table .term) : Phrase table .expression
  | sum (e : Phrase table .expression) (op : Operator) (role : op.isAdditive = true)
      (t : Phrase table .term) : Phrase table .expression

/-- Where a factor of a phrase stands: the number of factors around it, and the number of tokens of
the phrase before its first. -/
structure Place where
  around : Nat
  offset : Nat
deriving DecidableEq

namespace Place

/-- The place after some more tokens, and inside some more factors. -/
def shift (p : Place) (around offset : Nat) : Place := ⟨p.around + around, p.offset + offset⟩

/-- The first place with a number of factors around it has this many tokens before it. -/
def IsFirst (places : List Place) (around offset : Nat) : Prop :=
  IsLeast {i | (⟨around, i⟩ : Place) ∈ places} offset

variable {places others : List Place} {around offset : Nat}

theorem IsFirst.shift (h : IsFirst places around offset) (down right : Nat) :
    IsFirst (places.map (·.shift down right)) (around + down) (offset + right) := by
  refine ⟨List.mem_map.2 ⟨_, h.1, rfl⟩, ?_⟩
  intro i hi
  obtain ⟨place, hmem, heq⟩ := List.mem_map.1 hi
  simp only [Place.shift, Place.mk.injEq] at heq
  obtain ⟨haround, rfl⟩ := heq
  obtain rfl : place.around = around := by omega
  exact Nat.add_le_add_right (h.2 hmem) right

/-- A factor holds none of the places that have more factors around them. -/
theorem IsFirst.cons (h : IsFirst places around offset) (haround : around ≠ 0) :
    IsFirst (⟨0, 0⟩ :: places) around offset := by
  refine ⟨List.mem_cons_of_mem _ h.1, ?_⟩
  intro i hi
  obtain heq | hi := List.mem_cons.1 hi
  · simp only [Place.mk.injEq] at heq
    exact absurd heq.1 haround
  · exact h.2 hi

theorem isFirst_zero_cons (places : List Place) : IsFirst (⟨0, 0⟩ :: places) 0 0 :=
  ⟨List.mem_cons_self .., fun i _ => Nat.zero_le i⟩

theorem IsFirst.append_left (h : IsFirst places around offset)
    (hothers : ∀ place ∈ others, offset ≤ place.offset) :
    IsFirst (places ++ others) around offset := by
  refine ⟨List.mem_append_left _ h.1, ?_⟩
  intro i hi
  obtain hi | hi := List.mem_append.1 hi
  · exact h.2 hi
  · exact hothers _ hi

theorem IsFirst.append_right (h : IsFirst places around offset)
    (hothers : ∀ place ∈ others, place.around < around) :
    IsFirst (others ++ places) around offset := by
  refine ⟨List.mem_append_right _ h.1, ?_⟩
  intro i hi
  obtain hi | hi := List.mem_append.1 hi
  · exact absurd (hothers _ hi) (Nat.lt_irrefl _)
  · exact h.2 hi

end Place

namespace Phrase

variable {table : Table} {k : Kind}

/-- The tokens of a phrase, in order. -/
def tokens {k : Kind} : Phrase table k → List Token
  | atom token _ _ => [token]
  | minus f => "-" :: f.tokens
  | group e => "(" :: (e.tokens ++ [")"])
  | call f _ e => f.name :: "(" :: (e.tokens ++ [")"])
  | single f => f.tokens
  | product t op _ f => t.tokens ++ op.token :: f.tokens
  | lone t => t.tokens
  | sum e op _ t => e.tokens ++ op.token :: t.tokens

/-- The value of a phrase: operators of one precedence are applied from the left, and a sign before
a factor negates that factor alone. -/
def value {k : Kind} : Phrase table k → Float
  | atom _ value _ => value
  | minus f => -f.value
  | group e => e.value
  | call .sin _ e => e.value.sin
  | call .cos _ e => e.value.cos
  | call .tan _ e => e.value.tan
  | call .exp _ e => e.value.exp
  | call .sqrt _ e => e.value.sqrt
  | call .abs _ e => e.value.abs
  | single f => f.value
  | product t .mul _ f => t.value * f.value
  | product t .div _ f => t.value / f.value
  | lone t => t.value
  | sum e .add _ t => e.value + t.value
  | sum e .sub _ t => e.value - t.value

/-- The level of a factor is one for a token with a value, and one more than what it holds
otherwise. The level of a term or an expression is the greatest of its factors. -/
def level {k : Kind} : Phrase table k → Nat
  | atom .. => 1
  | minus f => f.level + 1
  | group e => e.level + 1
  | call _ _ e => e.level + 1
  | single f => f.level
  | product t _ _ f => max t.level f.level
  | lone t => t.level
  | sum e _ _ t => max e.level t.level

/-- The places of all factors of a phrase, from left to right. -/
def places {k : Kind} : Phrase table k → List Place
  | atom .. => [⟨0, 0⟩]
  | minus f => ⟨0, 0⟩ :: f.places.map (·.shift 1 1)
  | group e => ⟨0, 0⟩ :: e.places.map (·.shift 1 1)
  | call _ _ e => ⟨0, 0⟩ :: e.places.map (·.shift 1 2)
  | single f => f.places
  | product t _ _ f => t.places ++ f.places.map (·.shift 0 (t.tokens.length + 1))
  | lone t => t.places
  | sum e _ _ t => e.places ++ t.places.map (·.shift 0 (e.tokens.length + 1))

theorem value_call (f : Builtin) (unbound : table.get? f.name = none)
    (e : Phrase table .expression) : (call f unbound e).value = f.apply e.value := by
  cases f <;> rfl

theorem value_product (t : Phrase table .term) {op : Operator} (role : op.isMultiplicative = true)
    (f : Phrase table .factor) : (product t op role f).value = op.apply t.value f.value := by
  cases op with
  | mul | div => rfl
  | add | sub => cases role

theorem value_sum (e : Phrase table .expression) {op : Operator} (role : op.isAdditive = true)
    (t : Phrase table .term) : (sum e op role t).value = op.apply e.value t.value := by
  cases op with
  | add | sub => rfl
  | mul | div => cases role

/-- A phrase begins with a token at which an expression may begin, whatever follows it. -/
theorem exists_tokens_eq_cons (p : Phrase table k) :
    ∃ first rest, p.tokens = first :: rest ∧
      ∀ next, beginsExpression table first next = true := by
  induction p with
  | atom token value role =>
    refine ⟨token, [], rfl, ?_⟩
    intro next
    cases role with
    | number hstarts hread => simp [beginsExpression, hstarts]
    | constant => rfl
    | bound hbound hconstant hsymbol hnumeral => simp [beginsExpression, Table.contains, hbound]
  | minus f ih => exact ⟨"-", f.tokens, rfl, fun _ => rfl⟩
  | group e ih => exact ⟨"(", e.tokens ++ [")"], rfl, fun _ => rfl⟩
  | call f unbound e ih =>
    exact ⟨f.name, "(" :: (e.tokens ++ [")"]), rfl, fun _ => by
      simp [beginsExpression, f.isName_name]⟩
  | single f ih => exact ih
  | product t op role f iht ihf =>
    obtain ⟨first, rest, htokens, hbegins⟩ := iht
    exact ⟨first, rest ++ op.token :: f.tokens, by simp [tokens, htokens], hbegins⟩
  | lone t ih => exact ih
  | sum e op role t ihe iht =>
    obtain ⟨first, rest, htokens, hbegins⟩ := ihe
    exact ⟨first, rest ++ op.token :: t.tokens, by simp [tokens, htokens], hbegins⟩

/-- The sign of a binding stands in no phrase. -/
theorem binding_not_mem_tokens (p : Phrase table k) : "=" ∉ p.tokens := by
  have hop (op : Operator) : "=" ≠ op.token := by cases op <;> decide
  induction p with
  | atom token value role =>
    have hne := role.ne_of_isSymbol (s := "=") (by decide)
    simpa [tokens] using hne.symm
  | minus f ih => simpa [tokens] using ih
  | group e ih => simpa [tokens] using ih
  | call f unbound e ih =>
    have hname : f.name ≠ "=" := f.name_ne_of_isSymbol (by decide)
    simpa [tokens, hname.symm] using ih
  | single f ih => exact ih
  | product t op role f iht ihf => simp [tokens, iht, ihf, hop op]
  | lone t ih => exact ih
  | sum e op role t ihe iht => simp [tokens, ihe, iht, hop op]

theorem offset_lt_length_tokens (p : Phrase table k) {place : Place} (h : place ∈ p.places) :
    place.offset < p.tokens.length := by
  induction p generalizing place with
  | atom token value role =>
    obtain rfl := List.mem_singleton.1 h
    exact Nat.one_pos
  | minus f ih | group e ih | call _ _ e ih =>
    obtain rfl | h := List.mem_cons.1 h
    · simp [tokens]
    · obtain ⟨inner, hinner, rfl⟩ := List.mem_map.1 h
      have hlt := ih hinner
      simp only [Place.shift, tokens, List.length_cons, List.length_append]
      omega
  | single f ih => exact ih h
  | product t op role f iht ihf =>
    simp only [tokens, List.length_append, List.length_cons]
    obtain h | h := List.mem_append.1 h
    · have hlt := iht h
      omega
    · obtain ⟨inner, hinner, rfl⟩ := List.mem_map.1 h
      have hlt := ihf hinner
      simp only [Place.shift]
      omega
  | lone t ih => exact ih h
  | sum e op role t ihe iht =>
    simp only [tokens, List.length_append, List.length_cons]
    obtain h | h := List.mem_append.1 h
    · have hlt := ihe h
      omega
    · obtain ⟨inner, hinner, rfl⟩ := List.mem_map.1 h
      have hlt := iht hinner
      simp only [Place.shift]
      omega

/-- A factor has fewer factors around it than the phrase has levels. -/
theorem around_lt_level (p : Phrase table k) {place : Place} (h : place ∈ p.places) :
    place.around < p.level := by
  induction p generalizing place with
  | atom token value role =>
    obtain rfl := List.mem_singleton.1 h
    exact Nat.one_pos
  | minus f ih | group e ih | call _ _ e ih =>
    obtain rfl | h := List.mem_cons.1 h
    · exact Nat.succ_pos _
    · obtain ⟨inner, hinner, rfl⟩ := List.mem_map.1 h
      exact Nat.succ_lt_succ (ih hinner)
  | single f ih => exact ih h
  | product t op role f iht ihf =>
    obtain h | h := List.mem_append.1 h
    · exact Nat.lt_of_lt_of_le (iht h) (Nat.le_max_left ..)
    · obtain ⟨inner, hinner, rfl⟩ := List.mem_map.1 h
      have hlt := ihf hinner
      exact Nat.lt_of_lt_of_le hlt (Nat.le_max_right ..)
  | lone t ih => exact ih h
  | sum e op role t ihe iht =>
    obtain h | h := List.mem_append.1 h
    · exact Nat.lt_of_lt_of_le (ihe h) (Nat.le_max_left ..)
    · obtain ⟨inner, hinner, rfl⟩ := List.mem_map.1 h
      have hlt := iht hinner
      exact Nat.lt_of_lt_of_le hlt (Nat.le_max_right ..)

end Phrase

end LineCalc
