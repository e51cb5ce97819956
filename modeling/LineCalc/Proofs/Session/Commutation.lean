import LineCalc.Proofs.Session.History
import LineCalc.Proofs.Tracking.Locality

namespace LineCalc

namespace Table

variable {t : Table}

/-- Two names can be bound in either order. -/
theorem insert_comm {name other : Token} (h : name ≠ other) (v w : Float) :
    (t.insert name v).insert other w = (t.insert other w).insert name v := by
  refine ext_get? fun query => ?_
  simp only [get?_insert]
  by_cases hname : query = name
  · subst hname
    simp [h]
  · simp [hname]

/-- A table agrees with itself after a binding on the tokens that the binding does not name. -/
theorem agreeOn_after {written : Option Binding} {tokens : List Token}
    (h : ∀ b, written = some b → b.1 ∉ tokens) : t.AgreeOn tokens (t.after written) := by
  intro token htoken
  cases written with
  | none => rfl
  | some b =>
    have hne : token ≠ b.1 := by
      rintro rfl
      exact h b rfl htoken
    rw [after, get?_insert, if_neg hne]

private theorem after_comm {first second : Option Binding}
    (h : ∀ b c, first = some b → second = some c → b.1 ≠ c.1) :
    (t.after first).after second = (t.after second).after first := by
  cases first with
  | none => rfl
  | some b =>
    cases second with
    | none => rfl
    | some c => exact insert_comm (h b c rfl rfl) b.2 c.2

end Table

/-- The report on a statement with a verdict. -/
def Verdict.report (d : Verdict) : Report :=
  ⟨d.cursor.tokens, d.cursor.read, d.cursor.unread, d.outcome⟩

theorem Session.feed_of_verdict {s : Session} {line : String} {d : Verdict}
    (h : evaluate s.table (.start (lex line)) = d.on s.table) :
    (s.feed line).report = d.report ∧ (s.feed line).session = ⟨s.table.after d.written⟩ := by
  rw [feed, h]
  exact ⟨rfl, rfl⟩

/-- The name that a verdict binds is not among tokens that do not hold the target. -/
theorem Verdict.Targets.not_mem {d : Verdict} {tokens others : List Token} (hd : d.Targets tokens)
    (h : ∀ name, target? tokens = some name → name ∉ others) (b : Binding)
    (hb : d.written = some b) : b.1 ∉ others ++ [Token.endMark] := by
  have htarget := ((hd.written_iff b.1).1 ⟨b.2, hb⟩).2
  rw [List.mem_append, List.mem_singleton, not_or]
  refine ⟨h b.1 htarget, fun hmark => ?_⟩
  have hname := hd.isName b hb
  rw [hmark] at hname
  revert hname
  decide +kernel

/-- In two tables that agree on the tokens of a statement and on the end mark, the statement has the
same outcome at the same cursor, and binds its target to the same value or nothing. So two lines of
which neither holds the target of the other can be fed to a session in either order: the reports on
both and the session at the end are the same. -/
theorem evaluate_local_and_feed_comm :
    (∀ (left right : Table) (tokens : List Token),
      left.AgreeOn (tokens ++ [Token.endMark]) right →
        let d := evaluate left (.start tokens)
        let e := evaluate right (.start tokens)
        d.outcome = e.outcome ∧ d.cursor = e.cursor ∧
          ∃ written : Option Binding,
            d.table = left.after written ∧ e.table = right.after written ∧
            (∀ name, (∃ v, written = some (name, v)) ↔
              d.outcome = .done ∧ target? tokens = some name) ∧
            ∀ name v, written = some (name, v) → ∀ other,
              d.table.get? other = (if other = name then some v else left.get? other) ∧
              e.table.get? other = if other = name then some v else right.get? other) ∧
    ∀ (s : Session) (first second : String),
      (∀ name, target? (lex first) = some name → name ∉ lex second) →
      (∀ name, target? (lex second) = some name → name ∉ lex first) →
        ((s.feed second).session.feed first).report = (s.feed first).report ∧
        ((s.feed first).session.feed second).report = (s.feed second).report ∧
        ((s.feed first).session.feed second).session =
          ((s.feed second).session.feed first).session := by
  constructor
  · intro left right tokens hagree d e
    obtain ⟨verdict, htargets, hverdict⟩ := exists_verdict left tokens
    have hleft : d = verdict.on left := hverdict left (Table.AgreeOn.refl _ left)
    have hright : e = verdict.on right := hverdict right hagree
    rw [hleft, hright]
    refine ⟨rfl, rfl, verdict.written, rfl, rfl, htargets.written_iff, ?_⟩
    intro name v hwritten other
    exact ⟨verdict.get?_on hwritten left other, verdict.get?_on hwritten right other⟩
  · intro s first second hfirst hsecond
    obtain ⟨d, hd, hdeq⟩ := exists_verdict s.table (lex first)
    obtain ⟨e, he, heeq⟩ := exists_verdict s.table (lex second)
    obtain ⟨hreport, hsession⟩ := Session.feed_of_verdict (hdeq s.table (.refl _ _))
    obtain ⟨hreport', hsession'⟩ := Session.feed_of_verdict (heeq s.table (.refl _ _))
    -- Each line finds a table that agrees with the first one on its own tokens.
    have hother := Session.feed_of_verdict (s := ⟨s.table.after e.written⟩)
      (hdeq _ (Table.agreeOn_after (he.not_mem hsecond)))
    have hother' := Session.feed_of_verdict (s := ⟨s.table.after d.written⟩)
      (heeq _ (Table.agreeOn_after (hd.not_mem hfirst)))
    rw [hsession, hsession', hreport, hreport', hother.1, hother'.1, hother.2, hother'.2]
    refine ⟨rfl, rfl, congrArg Session.mk (Table.after_comm fun b c hb hc => ?_)⟩
    have hmem : c.1 ∈ lex second := target?_mem ((he.written_iff c.1).1 ⟨c.2, hc⟩).2
    intro heq
    exact hd.not_mem hfirst b hb (List.mem_append_left _ (heq ▸ hmem))

/-- A binding of a function's name and a refused binding, before and after another line's table. -/
theorem evaluate_local_and_feed_comm_function :
    (Table.empty.AgreeOn ["sin", "=", "pi", Token.endMark] (Table.empty.insert "x" pi) ∧
      (evaluate .empty (.start ["sin", "=", "pi"])).outcome =
        (evaluate (Table.empty.insert "x" pi) (.start ["sin", "=", "pi"])).outcome ∧
      ∃ v, (evaluate .empty (.start ["sin", "=", "pi"])).table.get? "sin" = some v) ∧
    (∀ name, target? (lex "sin = pi") = some name → name ∉ lex "x = (y") ∧
    (∀ name, target? (lex "x = (y") = some name → name ∉ lex "sin = pi") ∧
    ((Session.new.feed "sin = pi").session.feed "x = (y").session =
      ((Session.new.feed "x = (y").session.feed "sin = pi").session := by
  have hagree : Table.empty.AgreeOn ["sin", "=", "pi", Token.endMark]
      (Table.empty.insert "x" pi) := by
    unfold Table.AgreeOn
    decide +kernel
  have hfirst : target? (lex "sin = pi") = some "sin" := by decide +kernel
  have hsecond : target? (lex "x = (y") = some "x" := by decide +kernel
  have hbefore : ∀ name, target? (lex "sin = pi") = some name → name ∉ lex "x = (y" := by
    rw [hfirst]
    rintro name ⟨⟩
    decide +kernel
  have hafter : ∀ name, target? (lex "x = (y") = some name → name ∉ lex "sin = pi" := by
    rw [hsecond]
    rintro name ⟨⟩
    decide +kernel
  obtain ⟨hlocal, hcomm⟩ := evaluate_local_and_feed_comm
  obtain ⟨houtcome, -, written, -, -, hwritten, hget⟩ := hlocal _ _ ["sin", "=", "pi"] hagree
  obtain ⟨v, hv⟩ := (hwritten "sin").2 ⟨by decide +kernel, rfl⟩
  exact ⟨⟨hagree, houtcome, v, (hget "sin" v hv "sin").1.trans (if_pos rfl)⟩, hbefore, hafter,
    (hcomm .new _ _ hbefore hafter).2.2⟩

end LineCalc
