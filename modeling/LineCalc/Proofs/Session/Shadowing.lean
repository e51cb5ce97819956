import LineCalc.Proofs.Grammar.Senses
import LineCalc.Proofs.Session.History

namespace LineCalc

variable {table : Table} {tokens : List Token} {f : Builtin} {w : Float}

private theorem Builtin.name_ne_pi (f : Builtin) : f.name ≠ "pi" := by
  cases f <;> decide

/-- A token of a list stands right before another. -/
def StandsBefore (tokens : List Token) (token next : Token) : Prop :=
  ∃ i, tokens[i]? = some token ∧ tokens[i + 1]? = some next

/-- Once it is bound, the name of a function is read as a value wherever it stands in a phrase. -/
theorem Phrase.senses_of_bound_name {k : Kind} (p : Phrase table k)
    (hbound : table.get? f.name = some w) {i : ℕ} (hi : p.tokens[i]? = some f.name) :
    p.senses[i]? = some (f.name, some w) :=
  p.senses_of_bound hi hbound f.name_ne_pi f.isSymbol_name f.startsNumeral_name

private theorem Phrase.not_standsBefore {k : Kind} (p : Phrase table k)
    (hbound : table.get? f.name = some w) : ¬ StandsBefore p.tokens f.name "(" := by
  rintro ⟨i, hname, hopen⟩
  exact p.getElem?_succ_ne_of_senses (p.senses_of_bound_name hbound hname) hopen

/-- A statement that calls a bound name is refused. -/
theorem evaluate_of_standsBefore (hbound : table.get? f.name = some w)
    (h : StandsBefore tokens f.name "(") :
    ∃ fault, (evaluate table (.start tokens)).outcome = .refused fault ∧
      (evaluate table (.start tokens)).table = table := by
  have heffect := effect_evaluate table tokens
  generalize evaluate table (.start tokens) = d at heffect
  cases heffect with
  | refused fault cursor events => exact ⟨fault, rfl, rfl⟩
  | empty events htokens =>
    obtain ⟨i, hname, -⟩ := h
    simp [htokens] at hname
  | value e events htokens hlevel =>
    rw [htokens] at h
    exact absurd h (e.not_standsBefore hbound)
  | binding name e events hvalid htokens hlevel =>
    -- The name stands before the sign of the binding, and the sign is no name.
    rw [htokens] at h
    obtain ⟨i, hname, hopen⟩ := h
    match i with
    | 0 => simp at hopen
    | 1 =>
      have hsign : "=" = f.name := Option.some.inj hname
      exact absurd hsign.symm (f.name_ne_of_isSymbol (by decide))
    | i + 2 => exact absurd ⟨i, hname, hopen⟩ (e.not_standsBefore hbound)

namespace Session

/-- A name that has been bound stays bound. -/
theorem exists_get?_feedAll {s : Session} {name : Token} (h : s.table.contains name = true)
    (later : List String) : ∃ v, (s.feedAll later).table.get? name = some v :=
  Table.contains_eq_true_iff.1 ((contains_feedAll s later name).2 (.inl h))

/-- When a session has bound the name of a function, then after any more lines the name is bound to
some value. It begins no call any more, a line in which a parenthesis opens after it is refused and
leaves the session as it was, and in the derivation of every accepted expression, alone or on the
right of a binding, the name is read as that value in each of its places. -/
theorem shadowing (s : Session) (f : Builtin) (hbound : s.table.contains f.name = true)
    (later : List String) :
    let t := s.feedAll later
    ∃ w, t.table.get? f.name = some w ∧
      (∀ next, Operand.ofToken t.table f.name next = .value w) ∧
      (∀ line, StandsBefore (lex line) f.name "(" →
        (∃ fault, (t.feed line).report.outcome = .refused fault) ∧ (t.feed line).session = t) ∧
      (∀ line v, (t.feed line).report.outcome = .value v →
        ∃ e : Phrase t.table .expression, e.tokens = lex line ∧ e.value = v ∧
          ∀ i : ℕ, e.tokens[i]? = some f.name → e.senses[i]? = some (f.name, some w)) ∧
      ∀ line name tokens, (t.feed line).report.Binds name tokens →
        ∃ e : Phrase t.table .expression, e.tokens = tokens ∧
          (t.feed line).session = ⟨t.table.insert name e.value⟩ ∧
          (t.feed line).session.table.get? name = some e.value ∧
          ∀ i : ℕ, e.tokens[i]? = some f.name → e.senses[i]? = some (f.name, some w) := by
  intro t
  obtain ⟨w, hget⟩ := exists_get?_feedAll hbound later
  have hrole : f.name.HasValue t.table w :=
    .bound hget f.name_ne_pi f.isSymbol_name f.startsNumeral_name
  refine ⟨w, hget, Operand.ofToken_of_hasValue hrole, ?_, ?_, ?_⟩
  · intro line hcall
    obtain ⟨fault, houtcome, htable⟩ := evaluate_of_standsBefore hget hcall
    exact ⟨⟨fault, houtcome⟩, congrArg Session.mk htable⟩
  · intro line v hvalue
    obtain ⟨e, htokens, -, hv⟩ := exists_phrase_of_value hvalue
    exact ⟨e, htokens, hv, fun i hi => e.senses_of_bound_name hget hi⟩
  · intro line name tokens hbinds
    obtain ⟨v, hvalue, hsession⟩ := feed_of_binds hbinds
    obtain ⟨e, htokens, -, rfl⟩ := exists_phrase_of_value hvalue
    have hbinding : (t.feed line).session.table.get? name = some e.value :=
      (get?_of_eq_insert hsession name).trans (if_pos rfl)
    exact ⟨e, htokens, hsession, hbinding, fun i hi => e.senses_of_bound_name hget hi⟩

/-- A call of a name that was bound two lines before is refused, in an argument too. -/
theorem shadowing_of_call :
    let s := (new.feed "sin = pi").session
    let t := s.feedAll ["x = sin"]
    s.table.contains Builtin.sin.name = true ∧ StandsBefore (lex "abs(sin(x))") "sin" "(" ∧
      (∃ fault, (t.feed "abs(sin(x))").report.outcome = .refused fault) ∧
      (t.feed "abs(sin(x))").session = t := by
  intro s t
  have hbound : s.table.contains Builtin.sin.name = true := by decide +kernel
  have hcall : StandsBefore (lex "abs(sin(x))") "sin" "(" := ⟨2, by decide +kernel⟩
  obtain ⟨w, -, -, hrefused, -⟩ := shadowing s .sin hbound ["x = sin"]
  exact ⟨hbound, hcall, hrefused "abs(sin(x))" hcall⟩

end Session

end LineCalc
