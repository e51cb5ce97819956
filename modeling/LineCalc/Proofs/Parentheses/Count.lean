import LineCalc.Proofs.Parentheses.Balance
import LineCalc.Proofs.Transport.Lookahead

namespace LineCalc

open Machine

namespace Machine

variable {table : Table} {s t : State} {r : Reading}

/-- The groups have been counted right so far: at every place before the cursor at least as many
parentheses were opened as closed, and at most 256 more, and the log tells the depth after each
closing one. -/
structure Counted (r : Reading) : Prop where
  marked : r.groups.Marked
  opened : r.groups.opened = balance r.cursor.read
  within : ∀ l, l <+: r.cursor.read → 0 ≤ balance l ∧ balance l ≤ maxLevel
  closed : r.closedDepths = closings r.cursor.read

/-- What holds of every state on the way. A closing parenthesis without a group is the last token
that is read. -/
inductive State.Counted : State → Prop
  | sound {s : State} (h : Machine.Counted s.reading) : State.Counted s
  | stray {r r' : Reading} (h : Machine.Counted r) (hopened : r.groups.opened = 0)
      (hread : r'.cursor.read = r.cursor.read ++ [")"]) (hleft : r'.groups.opened = -1)
      (hclosed : r'.closedDepths = r.closedDepths) : State.Counted (.failed .unbalanced r')

/-- Every group around a phrase is a factor around it. -/
theorem Context.groups_le_depth {k : Kind} (K : Context k) : K.groups ≤ K.depth := by
  induction K with
  | top => exact le_rfl
  | product _ outer ih | sum _ outer ih => exact ih
  | minus outer ih => exact Nat.le_succ_of_le ih
  | group outer ih | call _ outer ih => exact Nat.succ_le_succ ih

/-- Where a phrase begins no more groups are open than there may be factors around it. -/
theorem Derives.opened_le {before : List Token} {k : Kind} {K : Context k}
    (h : Derives table before (.read K r)) : r.groups.opened ≤ maxLevel := by
  cases h with
  | read hK hr hdepth hread =>
    rw [hr.opened]
    exact_mod_cast K.groups_le_depth.trans hdepth

namespace Counted

variable {r' : Reading} {plain : List Token}

/-- A parenthesis-free token or two are read. -/
theorem pass (h : Counted r) (hplain : Unparenthesized plain)
    (hread : r'.cursor.read = r.cursor.read ++ plain) (hgroups : r'.groups = r.groups)
    (hclosed : r'.closedDepths = r.closedDepths) : Counted r' := by
  refine ⟨hgroups ▸ h.marked, ?_, fun l hl => ?_, ?_⟩
  · rw [hgroups, hread, balance_append, hplain.balance_eq, Int.add_zero, h.opened]
  · rw [hread] at hl
    obtain hl | ⟨m, hm, rfl⟩ := prefix_append_cases hl
    · exact h.within l hl
    · rw [balance_append, (hplain.mono hm).balance_eq, Int.add_zero]
      exact h.within _ (List.prefix_refl _)
  · rw [hclosed, hread, hplain.closings_append, h.closed]

theorem nonneg (h : Counted r) : 0 ≤ r.groups.opened := by
  rw [h.opened]
  exact (h.within _ (List.prefix_refl _)).1

/-- A parenthesis is read, and the groups are counted right after it. -/
theorem concat {t : Token} (h : Counted r) (hread : r'.cursor.read = r.cursor.read ++ [t])
    (hmarked : r'.groups.Marked) (hopened : r'.groups.opened = balance r'.cursor.read)
    (hwithin : 0 ≤ r'.groups.opened ∧ r'.groups.opened ≤ maxLevel)
    (hclosed : r'.closedDepths =
      r.closedDepths ++ if t = ")" then [r'.groups.opened] else []) : Counted r' := by
  refine ⟨hmarked, hopened, fun l hl => ?_, ?_⟩
  · rw [hread] at hl
    obtain rfl | hl := List.prefix_concat_iff.1 hl
    · rw [← hread, ← hopened]
      exact hwithin
    · exact h.within l hl
  · rw [hclosed, h.closed, hread, closings_concat, ← hread, hopened]

theorem enter (h : Counted r) (hplain : Unparenthesized plain)
    (hread : r'.cursor.read = r.cursor.read ++ plain ++ ["("])
    (hgroups : r'.groups = r.groups.enter) (hclosed : r'.closedDepths = r.closedDepths)
    (hle : r'.groups.opened ≤ maxLevel) :
    Counted r' := by
  let before : Reading :=
    { r with cursor := ⟨plain.reverse ++ r.cursor.behind, r.cursor.ahead⟩ }
  have hbefore : before.cursor.read = r.cursor.read ++ plain := by
    simp [before, Cursor.read]
  have henter : r'.groups.opened = r.groups.opened + 1 := congrArg Groups.opened hgroups
  have hopened := h.opened
  have hnonneg := h.nonneg
  have hpass : Counted before := h.pass hplain hbefore rfl rfl
  refine hpass.concat (t := "(") ?_ ?_ ?_ ?_ ?_
  · rw [hread, hbefore]
  · exact hgroups ▸ Groups.marked_enter _
  · rw [hread, balance_append, balance_append, hplain.balance_eq, balance_open]
    omega
  · exact ⟨by omega, hle⟩
  · rw [if_neg (by decide), List.append_nil]
    exact hclosed

theorem leave (h : Counted r) (hcan : r.groups.canLeave = true)
    (hread : r'.cursor.read = r.cursor.read ++ [")"]) (hgroups : r'.groups = r.groups.leave)
    (hclosed : r'.closedDepths = r.closedDepths ++ [r'.groups.opened]) : Counted r' := by
  have hpositive := h.marked.canLeave_iff.1 hcan
  have hleave : r'.groups.opened = r.groups.opened - 1 := by rw [hgroups, Groups.opened_leave]
  have hopened := h.opened
  have hle := (h.within _ (List.prefix_refl _)).2
  refine h.concat hread (hgroups ▸ h.marked.leave) ?_ ⟨by omega, by omega⟩ ?_
  · rw [hread, balance_append, balance_close]
    omega
  · rw [hclosed, if_pos rfl]

end Counted

/-- The step lemma. Only where a phrase begins can a group have been entered, and there the limit on
the levels bounds the groups. -/
theorem State.Counted.step {before : List Token} (h : s.Counted) (hstep : Step table s t)
    (hderives : Derives table before t) : t.Counted := by
  cases h with
  | stray => exact absurd hstep (halted_failed _ _ _)
  | sound h =>
    cases hstep.moves with
    | passes plain hplain hread hgroups hclosed =>
      exact .sound (h.pass hplain hread hgroups hclosed)
    | enters plain hplain hread hgroups hclosed =>
      exact .sound (h.enter hplain hread hgroups hclosed hderives.opened_le)
    | leaves hcan hread hgroups hclosed => exact .sound (h.leave hcan hread hgroups hclosed)
    | strays hcan hread hgroups hclosed =>
      have hpositive : ¬ 0 < s.reading.groups.opened := by
        rw [← h.marked.canLeave_iff, hcan]
        exact Bool.false_ne_true
      have hzero : s.reading.groups.opened = 0 := by
        have hnonneg := h.nonneg
        omega
      refine .stray h hzero hread ?_ hclosed
      rw [hgroups, Groups.opened_leave, hzero]
      rfl

/-- No parenthesis stands in an opening. -/
theorem unparenthesized_opening {o : Opening} (h : o.Valid) : Unparenthesized o.tokens := by
  cases o with
  | none => exact List.forall_mem_nil _
  | target name =>
    have hname := unparenthesized_of_isSymbol (Token.isSymbol_of_isName h.1)
    have hsign : Unparenthesized ["="] := unparenthesized_singleton (by decide) (by decide)
    exact List.forall_mem_cons.2 ⟨hname _ (List.mem_singleton_self name), hsign⟩

/-- Before the first token nothing has been counted. -/
theorem counted_nil {r : Reading} (hread : r.cursor.read = []) (hgroups : r.groups = .initial)
    (hclosed : r.closedDepths = []) : Counted r := by
  refine ⟨hgroups ▸ Groups.marked_initial, ?_, fun l hl => ?_, ?_⟩
  · rw [hgroups, hread]
    rfl
  · rw [hread, List.prefix_nil] at hl
    rw [hl]
    decide
  · rw [hclosed, hread]
    rfl

private theorem counted_start {o : Opening} (h : o.Valid) (tokens : List Token) :
    Counted (o.start tokens) := by
  let first : Reading := { o.start tokens with cursor := .start (o.tokens ++ tokens) }
  have hfirst : Counted first := counted_nil rfl rfl rfl
  exact hfirst.pass (unparenthesized_opening h) (List.reverse_reverse _) rfl rfl

/-- The run lemma. -/
theorem counted_of_steps {o : Opening} {tokens : List Token} (hfits : o.Fits table tokens)
    (hsteps : Steps table (.read .top (o.start tokens)) s) : s.Counted := by
  induction hsteps with
  | refl => exact .sound (counted_start (Opening.valid_of_fits hfits) tokens)
  | tail hsteps hstep ih =>
    exact ih.step hstep ((derives_start table o tokens).steps (hsteps.tail hstep))

/-- What a reading tells of the parentheses that were read, also if the last of them had no group
to close. -/
structure Tallied (r : Reading) : Prop where
  opened : r.groups.opened = balance r.cursor.read
  within : ∀ l, l <+: r.cursor.read → balance l ≤ maxLevel
  stray : ∀ l, l <+: r.cursor.read → balance l < 0 →
    l = r.cursor.read ∧ balance l = -1 ∧ l.getLast? = some ")"
  closed : r.closedDepths = (closings r.cursor.read).filter (0 ≤ ·)

/-- No parenthesis has been counted that had no group to close. -/
theorem Counted.filter_closings (h : Counted r) :
    (closings r.cursor.read).filter (0 ≤ ·) = closings r.cursor.read := by
  refine List.filter_eq_self.2 fun depth hdepth => ?_
  obtain ⟨l, hl, rfl⟩ := List.mem_map.1 hdepth
  exact decide_eq_true (h.within l ((List.mem_inits ..).1 (List.mem_filter.1 hl).1)).1

theorem Counted.tallied (h : Counted r) : Tallied r where
  opened := h.opened
  within l hl := (h.within l hl).2
  stray l hl hneg := absurd (h.within l hl).1 (Int.not_le.2 hneg)
  closed := h.closed.trans h.filter_closings.symm

/-- A closing parenthesis without a group has been read last. -/
theorem Counted.tallied_stray {r' : Reading} (h : Counted r) (hopened : r.groups.opened = 0)
    (hread : r'.cursor.read = r.cursor.read ++ [")"]) (hleft : r'.groups.opened = -1)
    (hclosed : r'.closedDepths = r.closedDepths) : Tallied r' := by
  have hbalance : balance r'.cursor.read = -1 := by
    rw [hread, balance_append, ← h.opened, hopened]
    rfl
  have hcases {l : List Token} (hl : l <+: r'.cursor.read) :
      l = r'.cursor.read ∨ l <+: r.cursor.read := by
    rw [hread] at hl ⊢
    exact List.prefix_concat_iff.1 hl
  refine ⟨hleft.trans hbalance.symm, fun l hl => ?_, fun l hl hneg => ?_, ?_⟩
  · obtain rfl | hl := hcases hl
    · rw [hbalance]
      decide
    · exact (h.within l hl).2
  · obtain rfl | hl := hcases hl
    · exact ⟨rfl, hbalance, by rw [hread, List.getLast?_concat]⟩
    · exact absurd (h.within l hl).1 (Int.not_le.2 hneg)
  · have hlast : [(-1 : ℤ)].filter (0 ≤ ·) = [] := rfl
    rw [hclosed, h.closed, hread, closings_concat, if_pos rfl, ← hread, hbalance,
      List.filter_append, h.filter_closings, hlast, List.append_nil]

theorem State.Counted.tallied (h : s.Counted) : Tallied s.reading := by
  cases h with
  | sound h => exact h.tallied
  | stray h hopened hread hleft hclosed => exact h.tallied_stray hopened hread hleft hclosed

theorem State.Counted.failed_of_neg (h : s.Counted) (hneg : s.reading.groups.opened < 0) :
    s.reading.groups.opened = -1 ∧ ∃ r, s = .failed .unbalanced r := by
  cases h with
  | sound h => exact absurd h.nonneg (Int.not_le.2 hneg)
  | stray h hopened hread hleft hclosed => exact ⟨hleft, _, rfl⟩

end Machine

/-- The count stays within its bounds up to where the reading of a statement stops. -/
theorem Stops.tallied {table : Table} {tokens : List Token} {stop : Stop}
    (h : Stops table tokens stop) :
    Tallied stop.reading ∧
      (stop.reading.groups.opened < 0 → ∃ r, stop = .failed .unbalanced r) := by
  cases h with
  | @failed o rest fault r hfits hsteps =>
    have hcounted := counted_of_steps hfits hsteps
    refine ⟨hcounted.tallied, fun hneg => ?_⟩
    obtain ⟨-, r', heq⟩ := hcounted.failed_of_neg hneg
    cases heq
    exact ⟨r, rfl⟩
  | @finished o rest v r hfits hsteps =>
    have hcounted := counted_of_steps hfits hsteps
    refine ⟨hcounted.tallied, fun hneg => ?_⟩
    obtain ⟨-, r', heq⟩ := hcounted.failed_of_neg hneg
    cases heq
  | empty htarget hbegins =>
    have hcounted : Counted (Opening.none.start tokens) := counted_nil rfl rfl rfl
    exact ⟨hcounted.tallied, fun hneg => absurd hcounted.nonneg (Int.not_le.2 hneg)⟩

/-- No group is closed after the reading of a statement has stopped. -/
theorem Stop.closedDepths_evaluation (table : Table) (stop : Stop) :
    (stop.evaluation table).events.filterMap Event.closedDepth? = stop.reading.closedDepths := by
  cases stop with
  | failed fault r => rfl
  | read statement r =>
    rw [evaluation]
    cases remainingFault? table r with
    | some fault => rfl
    | none =>
      cases statement with
      | value | empty => rfl
      | binding name v => simp [conclude, Stop.reading, Reading.closedDepths, Event.closedDepth?]

/-- A statement that is accepted has been read to its end, and no group is open there. -/
theorem Stops.read_of_accepted {table : Table} {tokens : List Token} {stop : Stop}
    (h : Stops table tokens stop)
    (haccepted : ∀ fault, (stop.evaluation table).outcome ≠ .refused fault) :
    stop.reading.groups.opened = 0 ∧ stop.reading.cursor.read = tokens := by
  have htokens := h.tokens_eq
  cases stop with
  | failed fault r => exact absurd rfl (haccepted fault)
  | read statement r =>
    cases hremaining : remainingFault? table r with
    | some fault =>
      rw [Stop.evaluation, hremaining] at haccepted
      exact absurd rfl (haccepted fault)
    | none =>
      obtain ⟨hopened, hahead⟩ := remainingFault?_eq_none_iff.1 hremaining
      rw [Stop.reading, Cursor.tokens, Cursor.unread, hahead, List.append_nil] at htokens
      exact ⟨hopened, List.append_cancel_right htokens⟩

/-- The groups that are open are counted by the parentheses that were read. This holds after any
number of calls of the statement rule on one reading. While a statement is evaluated the count is at
most 256, and negative only at a closing parenthesis without a group, which ends the statement as
unbalanced. In a statement that is accepted no more parentheses are closed than were opened before,
and as many in all. The log tells the count after each closing parenthesis that had a group. -/
theorem groups_count_parentheses (table : Table) (tokens : List Token) :
    (∀ n : ℕ, let r := (Rule.after (Rule.statement table))^[n] (.start (.start tokens))
      r.groups.opened = balance r.cursor.read) ∧
    (∀ (o : Opening) (rest : List Token) (s : State), tokens = o.tokens ++ rest →
      o.Fits table rest → Steps table (.read .top (o.start rest)) s →
      s.reading.groups.opened = balance s.reading.cursor.read ∧
        s.reading.groups.opened ≤ 256 ∧
        (s.reading.groups.opened < 0 →
          s.reading.groups.opened = -1 ∧ ∃ r, s = .failed .unbalanced r)) ∧
    let d := evaluate table (.start tokens)
    (∀ l, l <+: d.cursor.read → balance l ≤ 256 ∧
      (balance l < 0 → l = d.cursor.read ∧ balance l = -1 ∧ l.getLast? = some ")" ∧
        d.outcome = .refused .unbalanced)) ∧
    ((∀ fault, d.outcome ≠ .refused fault) →
      (∀ l, l <+: tokens → l.count ")" ≤ l.count "(") ∧ tokens.count "(" = tokens.count ")") ∧
    d.events.filterMap Event.closedDepth? = (closings d.cursor.read).filter (0 ≤ ·) := by
  obtain ⟨stop, hstops⟩ := exists_stops table tokens
  obtain ⟨htallied, hstray⟩ := hstops.tallied
  rw [evaluate_of_stops hstops]
  refine ⟨fun n => ?_, fun o rest s htokens hfits hsteps => ?_, fun l hl => ?_, fun haccepted => ?_,
    ?_⟩
  · have hcalls := Rule.opened_sub_balance_calls table (.start (.start tokens)) n
    exact Int.sub_eq_zero.1 hcalls
  · have hcounted := counted_of_steps hfits hsteps
    refine ⟨hcounted.tallied.opened, ?_, hcounted.failed_of_neg⟩
    rw [hcounted.tallied.opened]
    exact hcounted.tallied.within _ (List.prefix_refl _)
  · rw [Stop.cursor_evaluation] at hl ⊢
    refine ⟨htallied.within l hl, fun hneg => ?_⟩
    obtain ⟨rfl, hbalance, hlast⟩ := htallied.stray l hl hneg
    obtain ⟨r, rfl⟩ := hstray (htallied.opened.trans_lt hneg)
    exact ⟨rfl, hbalance, hlast, rfl⟩
  · obtain ⟨hopened, hread⟩ := hstops.read_of_accepted haccepted
    rw [← hread]
    have hend : balance stop.reading.cursor.read = 0 := htallied.opened.symm.trans hopened
    refine ⟨fun l hl => ?_, Int.ofNat_inj.1 (Int.sub_eq_zero.1 hend)⟩
    by_contra hmore
    have hneg : balance l < 0 := by
      rw [balance]
      omega
    obtain ⟨rfl, -⟩ := htallied.stray l hl hneg
    omega
  · rw [Stop.closedDepths_evaluation, Stop.cursor_evaluation]
    exact htallied.closed

/-- The second parenthesis of two has no group to close, and only the first is told of. Before it
the statement would have been accepted. -/
theorem groups_count_parentheses_stray :
    let tokens := ["(", "pi", ")", ")", "*"]
    let d := evaluate .empty (.start tokens)
    let called := (Rule.after (Rule.statement .empty))^[2] (.start (.start tokens))
    Opening.none.Fits .empty tokens ∧ (Opening.none.start tokens).groups.opened = 0 ∧
      called.groups.opened = balance called.cursor.read ∧
      d.cursor.read = ["(", "pi", ")", ")"] ∧ balance d.cursor.read = -1 ∧
      d.outcome = .refused .unbalanced ∧ d.events.filterMap Event.closedDepth? = [0] ∧
      (∀ fault, (evaluate .empty (.start ["(", "pi", ")"])).outcome ≠ .refused fault) ∧
      ["(", "pi", ")"].count "(" = ["(", "pi", ")"].count ")" := by
  intro tokens d called
  obtain ⟨hcalls, hrun, hbounds, -, hclosed⟩ := groups_count_parentheses .empty tokens
  have hfits : Opening.none.Fits .empty tokens := ⟨by decide +kernel, by decide +kernel⟩
  have hread : d.cursor.read = ["(", "pi", ")", ")"] := by decide +kernel
  have hneg : balance ["(", "pi", ")", ")"] = -1 := rfl
  obtain ⟨-, hstray⟩ := hbounds d.cursor.read (List.prefix_refl _)
  rw [hread] at hstray hclosed
  obtain ⟨-, -, -, hrefused⟩ := hstray (by rw [hneg]; decide)
  have haccepted (fault : Fault) :
      (evaluate .empty (.start ["(", "pi", ")"])).outcome ≠ .refused fault := by
    have houtcome : (evaluate .empty (.start ["(", "pi", ")"])).outcome = .value pi := by
      decide +kernel
    rw [houtcome]
    nofun
  obtain ⟨-, -, -, hbalanced, -⟩ := groups_count_parentheses .empty ["(", "pi", ")"]
  have hstart : (Opening.none.start tokens).groups.opened = 0 :=
    (hrun .none tokens (.read .top (Opening.none.start tokens)) rfl hfits .refl).1
  exact ⟨hfits, hstart, hcalls 2, hread, by rw [hread, hneg], hrefused, hclosed.trans rfl,
    haccepted, (hbalanced haccepted).2⟩

end LineCalc
