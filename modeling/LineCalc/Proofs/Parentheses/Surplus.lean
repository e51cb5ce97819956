import LineCalc.Proofs.Grammar.Phrase

namespace LineCalc

variable {table : Table} {k : Kind}

/-- Operators, each with a factor on its right. -/
abbrev Links (table : Table) := List (Operator × Phrase table .factor)

namespace Links

/-- The tokens of all operators and their factors. -/
def tokens (links : Links table) : List Token :=
  links.flatMap fun link => link.1.token :: link.2.tokens

/-- No factor has more levels. -/
def Within (links : Links table) (level : ℕ) : Prop := ∀ link ∈ links, link.2.level ≤ level

theorem Within.mono {links : Links table} {low high : ℕ} (h : links.Within low) (hle : low ≤ high) :
    links.Within high :=
  fun link hlink => (h link hlink).trans hle

@[simp] theorem tokens_nil : tokens ([] : Links table) = [] := rfl

@[simp] theorem tokens_cons (op : Operator) (f : Phrase table .factor) (rest : Links table) :
    tokens ((op, f) :: rest) = op.token :: (f.tokens ++ tokens rest) := by
  simp [tokens]

@[simp] theorem tokens_append (left right : Links table) :
    tokens (left ++ right) = tokens left ++ tokens right :=
  List.flatMap_append

end Links

/-- An expression with its operators in order and no precedence among them. A surplus parenthesis
closes a group too early, and what comes after it goes on outside of that group; what is read before
the parenthesis that finds no group is such a chain, and so an expression of its own. -/
structure Chain (table : Table) where
  head : Phrase table .factor
  links : Links table

namespace Chain

/-- The tokens of a chain. -/
def tokens (c : Chain table) : List Token := c.head.tokens ++ c.links.tokens

/-- No factor has more levels. -/
def Within (c : Chain table) (level : ℕ) : Prop := c.head.level ≤ level ∧ c.links.Within level

variable {c : Chain table} {low high : ℕ}

theorem Within.mono (h : c.Within low) (hle : low ≤ high) : c.Within high :=
  ⟨h.1.trans hle, h.2.mono hle⟩

/-- A chain goes on with an operator and another chain. -/
def join (c : Chain table) (op : Operator) (d : Chain table) : Chain table :=
  ⟨c.head, c.links ++ (op, d.head) :: d.links⟩

@[simp] theorem tokens_join (c d : Chain table) (op : Operator) :
    (c.join op d).tokens = c.tokens ++ op.token :: d.tokens := by
  simp [join, tokens]

/-- Operators may be followed by one more and a chain. -/
theorem Within.append {d : Chain table} {links : Links table} (hlinks : links.Within high)
    (hd : d.Within high) (op : Operator) :
    Links.Within (links ++ (op, d.head) :: d.links) high := by
  intro link hlink
  obtain hlink | hlink := List.mem_append.1 hlink
  · exact hlinks link hlink
  · obtain rfl | hlink := List.mem_cons.1 hlink
    · exact hd.1
    · exact hd.2 link hlink

theorem Within.join {d : Chain table} (hc : c.Within high) (hd : d.Within high) (op : Operator) :
    (c.join op d).Within high :=
  ⟨hc.1, Within.append hc.2 hd op⟩

end Chain

namespace Phrase

/-- The chains of two operands make the chain of both with their operator. -/
theorem exists_chain_join {k' : Kind} {l : Phrase table k} {r : Phrase table k'} (op : Operator)
    (hl : ∃ c : Chain table, c.tokens = l.tokens ∧ c.Within l.level)
    (hr : ∃ d : Chain table, d.tokens = r.tokens ∧ d.Within r.level) :
    ∃ c : Chain table, c.tokens = l.tokens ++ op.token :: r.tokens ∧
      c.Within (max l.level r.level) := by
  obtain ⟨c, hc, hlevelc⟩ := hl
  obtain ⟨d, hd, hleveld⟩ := hr
  refine ⟨c.join op d, ?_, ?_⟩
  · rw [Chain.tokens_join, hc, hd]
  · exact (hlevelc.mono (Nat.le_max_left ..)).join (hleveld.mono (Nat.le_max_right ..)) op

/-- Every phrase is a chain of the factors that are in no other factor of it. -/
theorem exists_chain (p : Phrase table k) :
    ∃ c : Chain table, c.tokens = p.tokens ∧ c.Within p.level := by
  induction p with
  | atom token value role =>
    exact ⟨⟨.atom token value role, []⟩, List.append_nil _, Nat.le_refl _, nofun⟩
  | minus f ih => exact ⟨⟨.minus f, []⟩, List.append_nil _, Nat.le_refl _, nofun⟩
  | group e ih => exact ⟨⟨.group e, []⟩, List.append_nil _, Nat.le_refl _, nofun⟩
  | call f unbound e ih =>
    exact ⟨⟨.call f unbound e, []⟩, List.append_nil _, Nat.le_refl _, nofun⟩
  | single f ih => exact ih
  | product t op role f iht ihf => exact exists_chain_join op iht ihf
  | lone t ih => exact ih
  | sum e op role t ihe iht => exact exists_chain_join op ihe iht

/-- An expression goes on with any operator and a factor. -/
theorem exists_link (e : Phrase table .expression) (op : Operator) (f : Phrase table .factor) :
    ∃ e' : Phrase table .expression, e'.tokens = e.tokens ++ op.token :: f.tokens ∧
      e'.level = max e.level f.level := by
  by_cases role : op.isAdditive = true
  · exact ⟨.sum e op role (.single f), rfl, rfl⟩
  · have role : op.isMultiplicative = true := by cases op <;> first | rfl | exact absurd rfl role
    cases e with
    | lone t => exact ⟨.lone (.product t op role f), rfl, rfl⟩
    | sum e' op' role' t =>
      refine ⟨.sum e' op' role' (.product t op role f), ?_, ?_⟩
      · simp [tokens]
      · exact (Nat.max_assoc ..).symm

private theorem exists_links (e : Phrase table .expression) (links : Links table) :
    ∃ e' : Phrase table .expression, e'.tokens = e.tokens ++ links.tokens ∧
      ∀ level, e.level ≤ level → links.Within level → e'.level ≤ level := by
  induction links generalizing e with
  | nil => exact ⟨e, (List.append_nil _).symm, fun level he _ => he⟩
  | cons link rest ih =>
    obtain ⟨op, f⟩ := link
    obtain ⟨e₁, htokens₁, hlevel₁⟩ := e.exists_link op f
    obtain ⟨e₂, htokens₂, hlevel₂⟩ := ih e₁
    refine ⟨e₂, ?_, fun level he hlinks => ?_⟩
    · rw [htokens₂, htokens₁]
      simp
    · obtain ⟨hf, hrest⟩ := List.forall_mem_cons.1 hlinks
      refine hlevel₂ level ?_ hrest
      rw [hlevel₁]
      exact Nat.max_le.2 ⟨he, hf⟩

end Phrase

/-- The operators of a chain can be given their precedences. -/
theorem Chain.exists_phrase (c : Chain table) :
    ∃ e : Phrase table .expression, e.tokens = c.tokens ∧
      ∀ level, c.Within level → e.level ≤ level := by
  obtain ⟨e, htokens, hlevel⟩ := (Phrase.lone (.single c.head)).exists_links c.links
  exact ⟨e, htokens, fun level h => hlevel level h.1 h.2⟩

/-- Tokens are a chain, a closing parenthesis that closes nothing in it, and more operators and
factors, none with more levels. -/
def HasSurplus (table : Table) (level : ℕ) (tokens : List Token) : Prop :=
  ∃ (c : Chain table) (rest : Links table), tokens = c.tokens ++ ")" :: rest.tokens ∧
    c.Within level ∧ rest.Within level

namespace HasSurplus

variable {level high : ℕ} {tokens : List Token}

theorem mono (h : HasSurplus table level tokens) (hle : level ≤ high) :
    HasSurplus table high tokens := by
  obtain ⟨c, rest, htokens, hc, hrest⟩ := h
  exact ⟨c, rest, htokens, hc.mono hle, hrest.mono hle⟩

/-- A parenthesis right after a phrase closes nothing in it. -/
theorem after (p : Phrase table k) : HasSurplus table p.level (p.tokens ++ [")"]) := by
  obtain ⟨c, hc, hlevel⟩ := p.exists_chain
  exact ⟨c, [], by rw [hc, Links.tokens_nil], hlevel, nofun⟩

/-- A minus sign belongs to the first factor. -/
theorem minus (h : HasSurplus table level tokens) :
    HasSurplus table (level + 1) ("-" :: tokens) := by
  obtain ⟨⟨head, links⟩, rest, rfl, ⟨hhead, hlinks⟩, hrest⟩ := h
  have hle := Nat.le_succ level
  exact ⟨⟨.minus head, links⟩, rest, rfl, ⟨Nat.succ_le_succ hhead, hlinks.mono hle⟩,
    hrest.mono hle⟩

/-- In a group the surplus parenthesis closes the group, and the one of the group is the surplus. -/
theorem enclose (h : HasSurplus table level tokens) {opening : List Token}
    {wrap : Phrase table .expression → Phrase table .factor}
    (htokens : ∀ e, (wrap e).tokens = opening ++ (e.tokens ++ [")"]))
    (hlevel : ∀ e, (wrap e).level = e.level + 1) :
    HasSurplus table (level + 1) (opening ++ (tokens ++ [")"])) := by
  obtain ⟨c, rest, rfl, hc, hrest⟩ := h
  -- The group ends with the chain, and what was the rest inside of it goes on after it.
  obtain ⟨e, he, hle⟩ := c.exists_phrase
  refine ⟨⟨wrap e, rest⟩, [], ?_, ⟨?_, hrest.mono (Nat.le_succ level)⟩, nofun⟩
  · simp [Chain.tokens, htokens, he]
  · rw [hlevel]
    exact Nat.succ_le_succ (hle level hc)

/-- A left operand comes before the chain. -/
theorem right (h : HasSurplus table level tokens) {c : Chain table} (hc : c.Within level)
    (op : Operator) : HasSurplus table level (c.tokens ++ op.token :: tokens) := by
  obtain ⟨d, rest, rfl, hd, hrest⟩ := h
  exact ⟨c.join op d, rest, by simp, hc.join hd op, hrest⟩

/-- A right operand comes after the rest. -/
theorem left (h : HasSurplus table level tokens) {d : Chain table} (hd : d.Within level)
    (op : Operator) : HasSurplus table level (tokens ++ op.token :: d.tokens) := by
  obtain ⟨c, rest, rfl, hc, hrest⟩ := h
  refine ⟨c, rest ++ (op, d.head) :: d.links, ?_, hc, Chain.Within.append hrest hd op⟩
  simp [Chain.tokens]

end HasSurplus

/-- A token ends an operand: it has a value of its own, or closes a group. -/
def Token.EndsOperand (table : Table) (t : Token) : Prop :=
  t = ")" ∨ ∃ v, t.HasValue table v

theorem Token.EndsOperand.ne {t s : Token} (h : t.EndsOperand table) (hs : s.isSymbol = true)
    (hclose : s ≠ ")") : t ≠ s := by
  obtain rfl | ⟨v, hvalue⟩ := h
  · exact hclose.symm
  · exact hvalue.ne_of_isSymbol hs

private theorem Token.EndsOperand.ne_name {t : Token} (h : t.EndsOperand table) {f : Builtin}
    (hunbound : table.get? f.name = none) : t ≠ f.name := by
  rintro rfl
  obtain hclose | ⟨v, hvalue⟩ := h
  · exact f.name_ne_of_isSymbol (by decide) hclose
  · have hcall := Operand.ofToken_name hunbound Token.endMark
    rw [Operand.ofToken_of_hasValue hvalue] at hcall
    cases hcall

section

variable {left right before after : List Token} {token : Token}

/-- A token of two lists in a row is in the left one or in the right one. -/
theorem append_eq_append_cons (h : left ++ right = before ++ token :: after) :
    (∃ rest, left = before ++ token :: rest ∧ after = rest ++ right) ∨
      ∃ rest, before = left ++ rest ∧ right = rest ++ token :: after := by
  obtain ⟨rest, hbefore, hright⟩ | ⟨rest, hleft, hafter⟩ := List.append_eq_append_iff.1 h
  · exact .inr ⟨rest, hbefore, hright⟩
  · cases rest with
    | nil => exact .inr ⟨[], by simpa using hleft.symm, by simpa using hafter.symm⟩
    | cons next rest =>
      obtain ⟨rfl, rfl⟩ := List.cons.inj hafter
      exact .inl ⟨rest, hleft, rfl⟩

/-- A token that is not the first of a list is in the rest of it. -/
theorem cons_eq_append_cons {first : Token} (h : first :: right = before ++ token :: after)
    (hne : token ≠ first) : ∃ rest, before = first :: rest ∧ right = rest ++ token :: after := by
  cases before with
  | nil => exact absurd (List.cons.inj h).1.symm hne
  | cons other rest =>
    obtain ⟨rfl, hright⟩ := List.cons.inj h
    exact ⟨rest, rfl, hright⟩

private theorem singleton_eq_append_cons {first : Token} (h : [first] = before ++ token :: after) :
    before = [] ∧ first = token ∧ after = [] := by
  cases before with
  | nil => simpa [eq_comm] using h
  | cons other rest => simp at h

end

namespace Phrase

variable {before after : List Token} {token : Token}

/-- In parentheses the operand ends inside, or with the parenthesis of the group itself. -/
theorem hasSurplus_enclosed {e : Phrase table .expression} (opening : List Token)
    (wrap : Phrase table .expression → Phrase table .factor)
    (htokens : ∀ e, (wrap e).tokens = opening ++ (e.tokens ++ [")"]))
    (hlevel : ∀ e, (wrap e).level = e.level + 1)
    (ih : ∀ {before after : List Token}, e.tokens = before ++ token :: after →
      HasSurplus table e.level (before ++ token :: ")" :: after))
    (h : e.tokens ++ [")"] = before ++ token :: after) :
    HasSurplus table (e.level + 1) (opening ++ (before ++ token :: ")" :: after)) := by
  obtain ⟨rest, he, rfl⟩ | ⟨rest, rfl, hlast⟩ := append_eq_append_cons h
  · simpa using (ih he).enclose htokens hlevel
  · obtain ⟨rfl, rfl, rfl⟩ := singleton_eq_append_cons hlast
    have hafter := HasSurplus.after (wrap e)
    rw [htokens, hlevel] at hafter
    simpa using hafter

/-- Between the operands of an operator no operand ends with the operator itself. -/
theorem hasSurplus_operator {k' : Kind} {l : Phrase table k} {r : Phrase table k'} {op : Operator}
    (htoken : token.EndsOperand table)
    (hl : ∀ {before after : List Token}, l.tokens = before ++ token :: after →
      HasSurplus table l.level (before ++ token :: ")" :: after))
    (hr : ∀ {before after : List Token}, r.tokens = before ++ token :: after →
      HasSurplus table r.level (before ++ token :: ")" :: after))
    (h : l.tokens ++ op.token :: r.tokens = before ++ token :: after) :
    HasSurplus table (max l.level r.level) (before ++ token :: ")" :: after) := by
  obtain ⟨rest, hleft, rfl⟩ | ⟨rest, rfl, hright⟩ := append_eq_append_cons h
  · obtain ⟨d, hd, hlevel⟩ := r.exists_chain
    have hsurplus := (hl hleft).mono (Nat.le_max_left l.level r.level)
    simpa [hd] using hsurplus.left (hlevel.mono (Nat.le_max_right ..)) op
  · have hne : token ≠ op.token := htoken.ne op.isSymbol_token op.token_ne_close
    obtain ⟨later, rfl, hoperand⟩ := cons_eq_append_cons hright hne
    obtain ⟨c, hc, hlevel⟩ := l.exists_chain
    have hsurplus := (hr hoperand).mono (Nat.le_max_right l.level r.level)
    simpa [hc] using hsurplus.right (hlevel.mono (Nat.le_max_left ..)) op

/-- Wherever in a phrase an operand ends, a parenthesis after it is one too many. -/
theorem hasSurplus (p : Phrase table k) (htoken : token.EndsOperand table)
    (h : p.tokens = before ++ token :: after) :
    HasSurplus table p.level (before ++ token :: ")" :: after) := by
  induction p generalizing before after with
  | atom value v role =>
    obtain ⟨rfl, rfl, rfl⟩ := singleton_eq_append_cons h
    exact HasSurplus.after (.atom value v role)
  | minus f ih =>
    obtain ⟨rest, rfl, hf⟩ := cons_eq_append_cons h (htoken.ne (by decide) (by decide))
    exact (ih hf).minus
  | group e ih =>
    obtain ⟨rest, rfl, he⟩ := cons_eq_append_cons h (htoken.ne (by decide) (by decide))
    exact hasSurplus_enclosed ["("] .group (fun _ => rfl) (fun _ => rfl) ih he
  | call f unbound e ih =>
    obtain ⟨rest, rfl, hcall⟩ := cons_eq_append_cons h (htoken.ne_name unbound)
    obtain ⟨rest, rfl, he⟩ := cons_eq_append_cons hcall (htoken.ne (by decide) (by decide))
    exact hasSurplus_enclosed [f.name, "("] (.call f unbound) (fun _ => rfl) (fun _ => rfl) ih he
  | single f ih => exact ih h
  | product t op role f iht ihf => exact hasSurplus_operator htoken iht ihf h
  | lone t ih => exact ih h
  | sum e op role t ihe iht => exact hasSurplus_operator htoken ihe iht h

end Phrase

end LineCalc
