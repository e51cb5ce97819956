import LineCalc.Proofs.Session.History
import LineCalc.Proofs.Token.Names

namespace LineCalc

/-- What is bound is a name, and not that of the constant. -/
def Table.BindsNames (t : Table) : Prop :=
  ∀ name : Token, t.contains name = true → name.isName = true ∧ name ≠ "pi"

private theorem Table.bindsNames_empty : Table.empty.BindsNames := by
  intro name h
  cases h

theorem Table.BindsNames.insert {t : Table} (h : t.BindsNames) {name : Token}
    (hname : name.isName = true ∧ name ≠ "pi") (value : Float) :
    (t.insert name value).BindsNames := by
  intro query hquery
  rw [Table.contains_insert, Bool.or_eq_true, beq_iff_eq] at hquery
  obtain rfl | hquery := hquery
  · exact hname
  · exact h query hquery

/-- A bound name that stands alone is read, and has its value. -/
theorem evaluate_of_bound {table : Table} {name : Token} {value : Float}
    (hbound : table.get? name = some value) (hname : name.isName = true)
    (hconstant : name ≠ "pi") :
    ∃ events, evaluate table (.start [name]) = ⟨.value value, ⟨[name], []⟩, table, events⟩ := by
  have hrole : name.HasValue table value :=
    .bound hbound hconstant (Token.isSymbol_of_isName hname) (Token.startsNumeral_of_isName hname)
  let e : Phrase table .expression := .lone (.single (.atom name value hrole))
  have hlevel : e.level ≤ maxLevel := show 1 ≤ 256 by decide
  obtain ⟨r, hcursor, heq⟩ := evaluate_of_phrase (o := .none) trivial e hlevel
  refine ⟨r.events.reverse, ?_⟩
  rw [show [name] = Opening.none.tokens ++ e.tokens from rfl, heq, Opening.statement, conclude,
    hcursor]
  rfl

namespace Session

theorem bindsNames_feed {s : Session} (line : String) (h : s.table.BindsNames) :
    (s.feed line).session.table.BindsNames := by
  obtain ⟨-, hsession⟩ | ⟨name, tokens, v, -, -, hvalid, -, hsession⟩ := feed_cases s line
  · rwa [hsession]
  · rw [hsession]
    exact h.insert hvalid v

/-- A session binds names only. -/
theorem bindsNames_feedAll (lines : List String) : (new.feedAll lines).table.BindsNames :=
  feedAll_induction (P := fun s => s.table.BindsNames) (fun _ line => bindsNames_feed line)
    Table.bindsNames_empty lines

/-- Whatever a session has bound can be read back: it is bound to a name other than that of the
constant, the name is a single token, and as a line it has the value it is bound to and leaves the
session as it was. -/
theorem readBack (lines : List String) (name : Token) (value : Float)
    (hbound : (name, value) ∈ (new.feedAll lines).table.bindings) :
    let s := new.feedAll lines
    name.isName = true ∧ name ≠ "pi" ∧ (s.feed name).report.tokens = [name, Token.endMark] ∧
      (s.feed name).report.outcome = .value value ∧ (s.feed name).session = s := by
  intro s
  have hget : s.table.get? name = some value := Table.mem_bindings_iff.1 hbound
  obtain ⟨hname, hconstant⟩ :=
    bindsNames_feedAll lines name (Table.contains_eq_true_iff.2 ⟨value, hget⟩)
  obtain ⟨events, heq⟩ := evaluate_of_bound hget hname hconstant
  have hfeed : (s.feed name).report = ⟨[name, Token.endMark], [name], [], .value value⟩ ∧
      (s.feed name).session = s := by
    rw [feed, Token.lex_of_isName hname, heq]
    exact ⟨rfl, rfl⟩
  exact ⟨hname, hconstant, congrArg Report.tokens hfeed.1, congrArg Report.outcome hfeed.1, hfeed.2⟩

/-- The name of a function is read back, once it is bound. -/
theorem readBack_function :
    ("sin", pi) ∈ (new.feedAll ["sin = pi"]).table.bindings ∧
      ((new.feedAll ["sin = pi"]).feed "sin").report.outcome = .value pi := by
  have hbound : ("sin", pi) ∈ (new.feedAll ["sin = pi"]).table.bindings :=
    Table.mem_bindings_iff.2 (by decide +kernel)
  exact ⟨hbound, (readBack ["sin = pi"] "sin" pi hbound).2.2.2.1⟩

end Session

end LineCalc
