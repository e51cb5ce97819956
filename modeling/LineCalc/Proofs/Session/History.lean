import LineCalc.Session
import LineCalc.Table.Lookup
import LineCalc.Proofs.Deletion
import LineCalc.Proofs.Grammar.Acceptance

namespace LineCalc

/-- A line has bound a name to what some tokens come to. -/
def Report.Binds (r : Report) (name : Token) (tokens : List Token) : Prop :=
  r.outcome = .done ∧ r.read = name :: "=" :: tokens

/-- A line was refused, or has a value, or held no token. -/
def Report.Passes (r : Report) : Prop :=
  match r.outcome with
  | .refused _ => True
  | .value _ => True
  | .done => r.read = []

theorem Report.Binds.not_passes {r : Report} {name : Token} {tokens : List Token}
    (h : r.Binds name tokens) : ¬ r.Passes := by
  obtain ⟨houtcome, hread⟩ := h
  simp [Passes, houtcome, hread]

theorem Report.Binds.unique {r : Report} {name other : Token} {tokens others : List Token}
    (h : r.Binds name tokens) (h' : r.Binds other others) : name = other ∧ tokens = others := by
  have hread := h.2.symm.trans h'.2
  simp only [List.cons.injEq] at hread
  exact ⟨hread.1, hread.2.2⟩

namespace Session

/-- The session after some lines. -/
def feedAll (s : Session) (lines : List String) : Session :=
  lines.foldl (fun s line => (s.feed line).session) s

/-- The reports on some lines. -/
def reports (s : Session) : List String → List Report
  | [] => []
  | line :: later => (s.feed line).report :: (s.feed line).session.reports later

theorem feedAll_cons (s : Session) (line : String) (later : List String) :
    s.feedAll (line :: later) = (s.feed line).session.feedAll later :=
  List.foldl_cons ..

/-- What every line keeps holds after all lines. -/
theorem feedAll_induction {P : Session → Prop}
    (hfeed : ∀ s line, P s → P (s.feed line).session) {s : Session} (hs : P s)
    (lines : List String) : P (s.feedAll lines) := by
  induction lines generalizing s with
  | nil => exact hs
  | cons line later ih =>
    rw [feedAll_cons]
    exact ih (hfeed s line hs)

theorem reports_cons (s : Session) (line : String) (later : List String) :
    s.reports (line :: later) = (s.feed line).report :: (s.feed line).session.reports later := by
  rfl

theorem outcome_feed (s : Session) (line : String) :
    (s.feed line).report.outcome = (evaluate s.table (.start (lex line))).outcome := by
  simp only [feed]

theorem session_feed (s : Session) (line : String) :
    (s.feed line).session = ⟨(evaluate s.table (.start (lex line))).table⟩ := by
  simp only [feed]

variable {s : Session} {line : String} {name : Token}

/-- A binding changes one look-up. -/
theorem get?_of_eq_insert {t : Session} {v : Float} (h : t = ⟨s.table.insert name v⟩)
    (other : Token) :
    t.table.get? other = if other = name then some v else s.table.get? other := by
  rw [h]
  exact Table.get?_insert s.table name v other

/-- A line passes and leaves the session as it was, or it binds one name, which can be bound, and
changes nothing else. -/
theorem feed_cases (s : Session) (line : String) :
    (s.feed line).report.Passes ∧ (s.feed line).session = s ∨
      ∃ name tokens v, (s.feed line).report.Binds name tokens ∧ lex line = name :: "=" :: tokens ∧
        (Opening.target name).Valid ∧ (evaluate s.table (.start tokens)).outcome = .value v ∧
        (s.feed line).session = ⟨s.table.insert name v⟩ := by
  have heffect := effect_evaluate s.table (lex line)
  simp only [feed]
  generalize evaluate s.table (.start (lex line)) = d at heffect
  cases heffect with
  | refused | value => exact .inl ⟨trivial, rfl⟩
  | empty events htokens => exact .inl ⟨rfl, rfl⟩
  | binding name e events hvalid htokens hlevel =>
    obtain ⟨r, -, heq⟩ := evaluate_of_phrase (o := .none) trivial e hlevel
    have hread : (lex line).reverse.reverse = name :: "=" :: e.tokens := by
      rw [List.reverse_reverse, htokens]
    exact .inr ⟨name, e.tokens, e.value, ⟨rfl, hread⟩, htokens, hvalid,
      congrArg Evaluation.outcome heq, rfl⟩

private theorem feed_session_of_passes (h : (s.feed line).report.Passes) :
    (s.feed line).session = s := by
  obtain ⟨-, hsession⟩ | ⟨name, tokens, v, hbinds, -⟩ := feed_cases s line
  · exact hsession
  · exact absurd h hbinds.not_passes

/-- A line that binds a name to some tokens binds it to their value. -/
theorem feed_of_binds {tokens : List Token} (h : (s.feed line).report.Binds name tokens) :
    ∃ v, (evaluate s.table (.start tokens)).outcome = .value v ∧
      (s.feed line).session = ⟨s.table.insert name v⟩ := by
  obtain ⟨hpasses, -⟩ | ⟨other, others, v, hbinds, -, -, hvalue, hsession⟩ := feed_cases s line
  · exact absurd hpasses h.not_passes
  · obtain ⟨rfl, rfl⟩ := h.unique hbinds
    exact ⟨v, hvalue, hsession⟩

/-- A line binds a name just if it consists of the name, the sign of a binding and tokens that have
a value on their own. -/
theorem binds_iff {tokens : List Token} :
    (s.feed line).report.Binds name tokens ↔
      lex line = name :: "=" :: tokens ∧ (Opening.target name).Valid ∧
        ∃ v, (evaluate s.table (.start tokens)).outcome = .value v := by
  constructor
  · intro h
    obtain ⟨hpasses, -⟩ | ⟨other, others, v, hbinds, hline, hvalid, hvalue, -⟩ := feed_cases s line
    · exact absurd hpasses h.not_passes
    · obtain ⟨rfl, rfl⟩ := h.unique hbinds
      exact ⟨hline, hvalid, v, hvalue⟩
  · rintro ⟨hline, hvalid, v, hvalue⟩
    obtain ⟨e, rfl, hlevel, -⟩ := exists_phrase_of_value hvalue
    obtain ⟨r, hcursor, heq⟩ := evaluate_of_phrase hvalid e hlevel
    have htokens : lex line = (Opening.target name).tokens ++ e.tokens := hline
    have hread : r.cursor.read = name :: "=" :: e.tokens := by
      rw [hcursor]
      exact List.reverse_reverse _
    rw [feed, htokens, heq]
    exact ⟨rfl, hread⟩

/-- A line that does not bind a name leaves its value as it was. -/
theorem get?_feed_of_not_binds (h : ∀ tokens, ¬ (s.feed line).report.Binds name tokens) :
    (s.feed line).session.table.get? name = s.table.get? name := by
  obtain ⟨-, hsession⟩ | ⟨other, tokens, v, hbinds, -, -, -, hsession⟩ := feed_cases s line
  · rw [hsession]
  · have hne : name ≠ other := by
      rintro rfl
      exact h tokens hbinds
    exact (get?_of_eq_insert hsession name).trans (if_neg hne)

private theorem feedAll_append (s : Session) (before after : List String) :
    s.feedAll (before ++ after) = (s.feedAll before).feedAll after :=
  List.foldl_append

/-- A name that was bound before stays bound, and every line that binds it makes it bound. -/
theorem contains_feedAll (s : Session) (lines : List String) (name : Token) :
    (s.feedAll lines).table.contains name = true ↔
      s.table.contains name = true ∨ ∃ r ∈ s.reports lines, ∃ tokens, r.Binds name tokens := by
  induction lines generalizing s with
  | nil => simp [show s.feedAll [] = s from rfl, show s.reports [] = [] from rfl]
  | cons line later ih =>
    rw [feedAll_cons, ih]
    simp only [reports_cons, List.mem_cons, exists_eq_or_imp]
    by_cases hbinds : ∃ tokens, (s.feed line).report.Binds name tokens
    · obtain ⟨tokens, h⟩ := hbinds
      obtain ⟨v, -, hsession⟩ := feed_of_binds h
      have hcontains : (s.feed line).session.table.contains name = true := by
        simp [hsession, Table.contains]
      exact ⟨fun _ => .inr (.inl ⟨tokens, h⟩), fun _ => .inl hcontains⟩
    · have hget := get?_feed_of_not_binds (not_exists.1 hbinds)
      simp [Table.contains, hget, hbinds]

/-- A name keeps its value through lines that do not bind it. -/
theorem get?_feedAll_of_not_binds {lines : List String}
    (h : ∀ r ∈ s.reports lines, ∀ tokens, ¬ r.Binds name tokens) :
    (s.feedAll lines).table.get? name = s.table.get? name := by
  induction lines generalizing s with
  | nil => rfl
  | cons line later ih =>
    obtain ⟨hline, hlater⟩ := List.forall_mem_cons.1 h
    rw [feedAll_cons, ih hlater]
    exact get?_feed_of_not_binds hline

/-- Lines that pass can be deleted. -/
theorem reports_deleteFrom {D : Finset ℕ} {first : ℕ} {lines : List String}
    (h : ∀ i r, first + i ∈ D → (s.reports lines)[i]? = some r → r.Passes) :
    s.reports (deleteFrom D first lines) = deleteFrom D first (s.reports lines) ∧
      s.feedAll (deleteFrom D first lines) = s.feedAll lines := by
  induction lines generalizing s first with
  | nil => exact ⟨rfl, rfl⟩
  | cons line later ih =>
    rw [reports_cons] at h
    have hlater : ∀ i r, first + 1 + i ∈ D → ((s.feed line).session.reports later)[i]? = some r →
        r.Passes := by
      intro i r hi hr
      exact h (i + 1) r (by rwa [Nat.add_comm i 1, ← Nat.add_assoc])
        (List.getElem?_cons_succ.trans hr)
    obtain ⟨hreports, hsession⟩ := ih hlater
    rw [reports_cons, feedAll_cons]
    by_cases hfirst : first ∈ D
    · -- The line leaves the session as it was, so the later lines find the same one without it.
      have hpasses : (s.feed line).report.Passes := h 0 _ hfirst List.getElem?_cons_zero
      rw [feed_session_of_passes hpasses] at hreports hsession ⊢
      rw [deleteFrom_cons_of_mem hfirst, deleteFrom_cons_of_mem hfirst]
      exact ⟨hreports, hsession⟩
    · rw [deleteFrom_cons_of_notMem hfirst, deleteFrom_cons_of_notMem hfirst]
      exact ⟨congrArg _ hreports, hsession⟩

/-- The law of a session's history. A line binds a name just if it consists of the name, the sign of
a binding and tokens that have a value on their own. A name is bound just if some line has bound it,
and has the value that the last such line gave it, in the table before that line. Lines that were
refused, have a value or are empty can be deleted: all other reports and the session at the end stay
the same. -/
theorem history (lines : List String) :
    (∀ (s : Session) line name tokens, (s.feed line).report.Binds name tokens ↔
      lex line = name :: "=" :: tokens ∧ (name.isName = true ∧ name ≠ "pi") ∧
        ∃ v, (evaluate s.table (.start tokens)).outcome = .value v) ∧
    (∀ name, (new.feedAll lines).table.contains name = true ↔
      ∃ r ∈ new.reports lines, ∃ tokens, r.Binds name tokens) ∧
    (∀ before line after name tokens, lines = before ++ line :: after →
      ((new.feedAll before).feed line).report.Binds name tokens →
      (∀ r ∈ ((new.feedAll before).feed line).session.reports after,
        ∀ others, ¬ r.Binds name others) →
      ∃ v, (evaluate (new.feedAll before).table (.start tokens)).outcome = .value v ∧
        (new.feedAll lines).table.get? name = some v) ∧
    ∀ D : Finset ℕ, (∀ i ∈ D, ∀ r, (new.reports lines)[i]? = some r → r.Passes) →
      new.reports (deleteAt D lines) = deleteAt D (new.reports lines) ∧
      new.feedAll (deleteAt D lines) = new.feedAll lines := by
  refine ⟨fun s line name tokens => binds_iff, fun name => ?_, ?_, fun D hD => ?_⟩
  · rw [contains_feedAll]
    simp [new, Table.contains]
  · rintro before line after name tokens rfl hbinds hlast
    obtain ⟨v, hvalue, hsession⟩ := feed_of_binds hbinds
    refine ⟨v, hvalue, ?_⟩
    rw [feedAll_append, feedAll_cons, get?_feedAll_of_not_binds hlast]
    exact (get?_of_eq_insert hsession name).trans (if_pos rfl)
  · refine reports_deleteFrom ?_
    intro i r hi hr
    rw [Nat.zero_add] at hi
    exact hD i hi r hr

/-- A line with an open group only can be deleted from before one that binds a name, and the name is
bound at the end. -/
theorem history_of_open_group :
    let s := new.feedAll ["("]
    (new.feed "(").report.Passes ∧
      new.reports ["x = pi"] = deleteAt {0} (new.reports ["(", "x = pi"]) ∧
      new.feedAll ["x = pi"] = new.feedAll ["(", "x = pi"] ∧
      (s.feed "x = pi").report.Binds "x" ["pi"] ∧
      ∃ v, (evaluate s.table (.start ["pi"])).outcome = .value v ∧
        (new.feedAll ["(", "x = pi"]).table.get? "x" = some v := by
  intro s
  have houtcome : (new.feed "(").report.outcome = .refused (.operandExpected Token.endMark) := by
    decide +kernel
  have hpasses : (new.feed "(").report.Passes := by
    rw [Report.Passes, houtcome]
    trivial
  obtain ⟨hbinds_iff, -, hlast, hdelete⟩ := history ["(", "x = pi"]
  have hvalue : (evaluate s.table (.start ["pi"])).outcome = .value pi := by decide +kernel
  have hbinds : (s.feed "x = pi").report.Binds "x" ["pi"] :=
    (hbinds_iff s "x = pi" "x" ["pi"]).2 ⟨by decide +kernel, ⟨by decide, by decide⟩, pi, hvalue⟩
  have hsame := hdelete {0} (by
    intro i hi r hr
    obtain rfl := Finset.mem_singleton.1 hi
    rw [reports_cons, List.getElem?_cons_zero] at hr
    rwa [← Option.some.inj hr])
  exact ⟨hpasses, hsame.1, hsame.2, hbinds, hlast ["("] "x = pi" [] "x" ["pi"] rfl hbinds nofun⟩

end Session

end LineCalc
