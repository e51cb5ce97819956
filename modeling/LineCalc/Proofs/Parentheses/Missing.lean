import LineCalc.Proofs.Deletion
import LineCalc.Proofs.Grammar.Phrase

namespace LineCalc.Phrase

variable {table : Table} {k : Kind} {n : ℕ} {tokens : List Token}

/-- Tokens are those of a phrase, but for a number of closing parentheses at its end. -/
inductive Lacks {table : Table} : {k : Kind} → Phrase table k → ℕ → List Token → Prop
  | nothing {k : Kind} (p : Phrase table k) : Lacks p 0 p.tokens
  | minus {f : Phrase table .factor} {n : ℕ} {tokens : List Token} (h : Lacks f n tokens) :
      Lacks (.minus f) n ("-" :: tokens)
  | group {e : Phrase table .expression} {n : ℕ} {tokens : List Token} (h : Lacks e n tokens) :
      Lacks (.group e) (n + 1) ("(" :: tokens)
  | call (f : Builtin) (unbound : table.get? f.name = none) {e : Phrase table .expression} {n : ℕ}
      {tokens : List Token} (h : Lacks e n tokens) :
      Lacks (.call f unbound e) (n + 1) (f.name :: "(" :: tokens)
  | single {f : Phrase table .factor} {n : ℕ} {tokens : List Token} (h : Lacks f n tokens) :
      Lacks (.single f) n tokens
  | product (t : Phrase table .term) (op : Operator) (role : op.isMultiplicative = true)
      {f : Phrase table .factor} {n : ℕ} {tokens : List Token} (h : Lacks f n tokens) :
      Lacks (.product t op role f) n (t.tokens ++ op.token :: tokens)
  | lone {t : Phrase table .term} {n : ℕ} {tokens : List Token} (h : Lacks t n tokens) :
      Lacks (.lone t) n tokens
  | sum (e : Phrase table .expression) (op : Operator) (role : op.isAdditive = true)
      {t : Phrase table .term} {n : ℕ} {tokens : List Token} (h : Lacks t n tokens) :
      Lacks (.sum e op role t) n (e.tokens ++ op.token :: tokens)

/-- The phrase has the parentheses that the tokens lack, all of them at its end. -/
theorem Lacks.tokens_eq {p : Phrase table k} (h : Lacks p n tokens) :
    p.tokens = tokens ++ List.replicate n ")" := by
  induction h with
  | nothing p => simp
  | minus h ih => simp [Phrase.tokens, ih]
  | group h ih | call f unbound h ih => simp [Phrase.tokens, ih, List.replicate_succ']
  | single h ih | lone h ih => exact ih
  | product t op role h ih | sum e op role h ih => simp [Phrase.tokens, ih]

theorem Lacks.eq_tokens {p : Phrase table k} (h : Lacks p 0 tokens) : tokens = p.tokens := by
  simpa using h.tokens_eq.symm

/-- The first token is never lacking. -/
theorem Lacks.ne_nil {p : Phrase table k} (h : Lacks p n tokens) : tokens ≠ [] := by
  induction h with
  | nothing p =>
    obtain ⟨first, rest, htokens, -⟩ := p.exists_tokens_eq_cons
    simp [htokens]
  | minus | group | call => exact List.cons_ne_nil _ _
  | single h ih | lone h ih => exact ih
  | product | sum => simp

section

variable {m : ℕ} {more : List Token}

/-- With a group open, more tokens belong to the innermost group. So it is enough to know what they
do after a whole expression in a group or in a call. -/
theorem Lacks.go_on {p : Phrase table k} (h : Lacks p (n + 1) tokens)
    (hgroup : ∀ e : Phrase table .expression,
      ∃ g : Phrase table .factor, Lacks g m ("(" :: (e.tokens ++ more)))
    (hcall : ∀ (f : Builtin) (_ : table.get? f.name = none) (e : Phrase table .expression),
      ∃ g : Phrase table .factor, Lacks g m (f.name :: "(" :: (e.tokens ++ more))) :
    ∃ p' : Phrase table k, Lacks p' (n + m) (tokens ++ more) := by
  generalize hlacking : n + 1 = lacking at h
  -- The innermost group is the one that lacks nothing inside.
  induction h generalizing n with
  | nothing p => cases hlacking
  | minus h ih =>
    obtain ⟨f', hf'⟩ := ih hlacking
    exact ⟨.minus f', hf'.minus⟩
  | @group e inner tokens h ih =>
    obtain rfl : n = inner := Nat.succ.inj hlacking
    cases n with
    | zero =>
      obtain ⟨g, hg⟩ := hgroup e
      exact ⟨g, by rwa [Nat.zero_add, h.eq_tokens]⟩
    | succ n =>
      obtain ⟨e', he'⟩ := ih rfl
      exact ⟨.group e', by simpa [Nat.add_right_comm] using he'.group⟩
  | @call f unbound e inner tokens h ih =>
    obtain rfl : n = inner := Nat.succ.inj hlacking
    cases n with
    | zero =>
      obtain ⟨g, hg⟩ := hcall f unbound e
      exact ⟨g, by rwa [Nat.zero_add, h.eq_tokens]⟩
    | succ n =>
      obtain ⟨e', he'⟩ := ih rfl
      exact ⟨.call f unbound e', by simpa [Nat.add_right_comm] using he'.call f unbound⟩
  | single h ih =>
    obtain ⟨f', hf'⟩ := ih hlacking
    exact ⟨.single f', hf'.single⟩
  | product t op role h ih =>
    obtain ⟨f', hf'⟩ := ih hlacking
    exact ⟨.product t op role f', by simpa using hf'.product t op role⟩
  | lone h ih =>
    obtain ⟨t', ht'⟩ := ih hlacking
    exact ⟨.lone t', ht'.lone⟩
  | sum e op role h ih =>
    obtain ⟨t', ht'⟩ := ih hlacking
    exact ⟨.sum e op role t', by simpa using ht'.sum e op role⟩

/-- What may come after an expression goes on in the innermost group. -/
theorem Lacks.extend {p : Phrase table k} (h : Lacks p (n + 1) tokens)
    (hmore : ∀ e : Phrase table .expression,
      ∃ e' : Phrase table .expression, Lacks e' m (e.tokens ++ more)) :
    ∃ p' : Phrase table k, Lacks p' (n + 1 + m) (tokens ++ more) := by
  rw [Nat.add_assoc, Nat.add_comm 1 m]
  refine h.go_on ?_ ?_
  · intro e
    obtain ⟨e', he'⟩ := hmore e
    exact ⟨.group e', he'.group⟩
  · intro f unbound e
    obtain ⟨e', he'⟩ := hmore e
    exact ⟨.call f unbound e', he'.call f unbound⟩

/-- A parenthesis closes the innermost group. -/
theorem Lacks.close {p : Phrase table k} (h : Lacks p (n + 1) tokens) :
    ∃ p' : Phrase table k, Lacks p' n (tokens ++ [")"]) := by
  refine h.go_on (m := 0) ?_ ?_
  · intro e
    exact ⟨.group e, .nothing (.group e)⟩
  · intro f unbound e
    exact ⟨.call f unbound e, .nothing (.call f unbound e)⟩

end

section

variable {m : ℕ} {left right : List Token} {op : Operator}

/-- A right operand that lacks some parentheses, with its operator, goes on after a term. -/
theorem Lacks.times {t : Phrase table .term} {f : Phrase table .factor} (ht : Lacks t n left)
    (role : op.isMultiplicative = true) (hf : Lacks f m right) :
    ∃ t' : Phrase table .term, Lacks t' (n + m) (left ++ op.token :: right) := by
  cases n with
  | zero =>
    refine ⟨.product t op role f, ?_⟩
    rw [ht.eq_tokens, Nat.zero_add]
    exact hf.product t op role
  | succ n =>
    refine ht.extend ?_
    intro e
    cases e with
    | lone s => exact ⟨.lone (.product s op role f), (hf.product s op role).lone⟩
    | sum e' op' role' s =>
      refine ⟨.sum e' op' role' (.product s op role f), ?_⟩
      simpa [Phrase.tokens] using (hf.product s op role).sum e' op' role'

/-- The same for an expression. -/
theorem Lacks.plus {e : Phrase table .expression} {t : Phrase table .term} (he : Lacks e n left)
    (role : op.isAdditive = true) (ht : Lacks t m right) :
    ∃ e' : Phrase table .expression, Lacks e' (n + m) (left ++ op.token :: right) := by
  cases n with
  | zero =>
    refine ⟨.sum e op role t, ?_⟩
    rw [he.eq_tokens, Nat.zero_add]
    exact ht.sum e op role
  | succ n =>
    refine he.extend ?_
    intro e'
    exact ⟨.sum e' op role t, ht.sum e' op role⟩

end

section

variable {D : Finset ℕ} {first : ℕ}

/-- The last parenthesis of a group is deleted, or it closes the innermost group. -/
theorem Lacks.deleteFrom_last {p : Phrase table k} {inner : List Token} (h : Lacks p (n + 1) inner)
    (D : Finset ℕ) (last : ℕ) :
    ∃ (p' : Phrase table k) (m : ℕ), Lacks p' m (inner ++ deleteFrom D last [")"]) ∧
      m + (deleteFrom D last [")"]).length = n + 1 := by
  by_cases hlast : last ∈ D
  · refine ⟨p, n + 1, ?_, ?_⟩
    · simpa [deleteFrom, hlast] using h
    · simp [deleteFrom, hlast]
  · obtain ⟨p', hp'⟩ := h.close
    refine ⟨p', n, ?_, ?_⟩
    · simpa [deleteFrom, hlast] using hp'
    · simp [deleteFrom, hlast]

/-- What is left of a phrase lacks as many parentheses as were deleted. -/
theorem exists_lacks_deleteFrom (p : Phrase table k) (h : DeletesOnly D first ")" p.tokens) :
    ∃ (p' : Phrase table k) (n : ℕ), Lacks p' n (deleteFrom D first p.tokens) ∧
      n + (deleteFrom D first p.tokens).length = p.tokens.length := by
  induction p generalizing first with
  | atom token value role =>
    have hne : token ≠ ")" := role.ne_of_isSymbol (by decide)
    refine ⟨.atom token value role, 0, ?_, ?_⟩
    · rw [Phrase.tokens, h.deleteFrom_cons hne]
      exact .nothing (.atom token value role)
    · rw [Phrase.tokens, h.deleteFrom_cons hne]
      rfl
  | minus f ih =>
    obtain ⟨f', n, hf', hlength⟩ := ih h.tail
    rw [Phrase.tokens, h.deleteFrom_cons (by decide)]
    refine ⟨.minus f', n, hf'.minus, ?_⟩
    simp only [List.length_cons]
    omega
  | group e ih =>
    obtain ⟨e', n, he', hlength⟩ := ih h.tail.append_left
    obtain ⟨p', m, hp', hlast⟩ := he'.group.deleteFrom_last D (first + 1 + e.tokens.length)
    rw [Phrase.tokens, h.deleteFrom_cons (by decide), deleteFrom_append]
    refine ⟨p', m, hp', ?_⟩
    simp only [List.length_cons, List.length_append, List.length_nil]
    omega
  | call f unbound e ih =>
    have hname : f.name ≠ ")" := f.name_ne_of_isSymbol (by decide)
    obtain ⟨e', n, he', hlength⟩ := ih h.tail.tail.append_left
    obtain ⟨p', m, hp', hlast⟩ :=
      (he'.call f unbound).deleteFrom_last D (first + 1 + 1 + e.tokens.length)
    rw [Phrase.tokens, h.deleteFrom_cons hname, h.tail.deleteFrom_cons (by decide),
      deleteFrom_append]
    refine ⟨p', m, hp', ?_⟩
    simp only [List.length_cons, List.length_append, List.length_nil]
    omega
  | single f ih =>
    obtain ⟨f', n, hf', hlength⟩ := ih h
    exact ⟨.single f', n, hf'.single, hlength⟩
  | product t op role f iht ihf =>
    obtain ⟨t', n, ht', hleft⟩ := iht h.append_left
    obtain ⟨f', m, hf', hright⟩ := ihf h.append_right.tail
    obtain ⟨p', hp'⟩ := ht'.times role hf'
    rw [Phrase.tokens, deleteFrom_append, h.append_right.deleteFrom_cons op.token_ne_close]
    refine ⟨p', n + m, hp', ?_⟩
    simp only [List.length_cons, List.length_append]
    omega
  | lone t ih =>
    obtain ⟨t', n, ht', hlength⟩ := ih h
    exact ⟨.lone t', n, ht'.lone, hlength⟩
  | sum e op role t ihe iht =>
    obtain ⟨e', n, he', hleft⟩ := ihe h.append_left
    obtain ⟨t', m, ht', hright⟩ := iht h.append_right.tail
    obtain ⟨p', hp'⟩ := he'.plus role ht'
    rw [Phrase.tokens, deleteFrom_append, h.append_right.deleteFrom_cons op.token_ne_close]
    refine ⟨p', n + m, hp', ?_⟩
    simp only [List.length_cons, List.length_append]
    omega

end

end LineCalc.Phrase
