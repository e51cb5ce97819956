import LineCalc.Proofs.Diagnosis.Place
import LineCalc.Proofs.Tracking.Binding
import LineCalc.Proofs.Transport.Statement

namespace LineCalc

open Machine

namespace Cursor

/-- The place among tokens where so many have been read. -/
def place (tokens : List Token) (n : ℕ) : Cursor := ⟨(tokens.take n).reverse, tokens.drop n⟩

variable {tokens : List Token} {n : ℕ} {t : Token}

private theorem tokens_place (tokens : List Token) (n : ℕ) :
    (place tokens n).tokens = tokens ++ [Token.endMark] := by
  simp [place, Cursor.tokens, read, unread]

private theorem position_place (h : n ≤ tokens.length) : (place tokens n).position = n := by
  simp [place, position, h]

/-- Among tokens there are as many places as tokens, and one more at the end mark. -/
theorem position_le {c : Cursor} (h : c.tokens = tokens ++ [Token.endMark]) :
    c.position ≤ tokens.length := by
  have hlength := congrArg List.length h
  simp only [Cursor.tokens, List.length_append, ← position_eq_length_read] at hlength
  omega

private theorem position_lt {c : Cursor} (h : c.tokens = tokens ++ [Token.endMark])
    (hend : c.atEnd = false) : c.position < tokens.length := by
  have hlength := congrArg List.length h
  simp only [Cursor.tokens, List.length_append, ← position_eq_length_read] at hlength
  have hunread : 0 < c.unread.length := List.length_pos_iff.2 (List.isEmpty_eq_false_iff.1 hend)
  omega

/-- A place shows the token of its number, which after the last is the end mark. -/
theorem current_place (hn : n ≤ tokens.length) (h : (tokens ++ [Token.endMark])[n]? = some t) :
    (place tokens n).current = t := by
  have hcurrent := (place tokens n).getElem?_position
  rw [tokens_place, position_place hn, h] at hcurrent
  exact (Option.some.inj hcurrent).symm

/-- From a place that does not show the end mark the next place is reached. -/
theorem advance_place (h : (place tokens n).current ≠ Token.endMark) :
    (place tokens n).advance = place tokens (n + 1) := by
  have hlt : n < tokens.length := by
    by_contra hnot
    rw [place, List.drop_eq_nil_of_le (not_lt.1 hnot)] at h
    exact h rfl
  rw [place, place, List.drop_eq_getElem_cons hlt, List.take_succ_eq_append_getElem hlt,
    List.reverse_append]
  rfl

theorem position_advance_of_ne_endMark {c : Cursor} (h : c.current ≠ Token.endMark) :
    c.advance.position = c.position + 1 := by
  obtain ⟨behind, ahead⟩ := c
  cases ahead with
  | nil => exact absurd rfl h
  | cons t rest => rfl

theorem position_le_advance (c : Cursor) : c.position ≤ c.advance.position := by
  obtain ⟨behind, ahead⟩ := c
  cases ahead with
  | nil => exact le_rfl
  | cons t rest => exact Nat.le_succ _

end Cursor

/-- Two token lists, each with the end mark after it, agree up to a place in the first, if it has so
many. -/
def AgreeTo (n : ℕ) (tokens tokens' : List Token) : Prop :=
  ∀ i ≤ min n tokens.length, (tokens ++ [Token.endMark])[i]? = (tokens' ++ [Token.endMark])[i]?

variable {table : Table} {tokens tokens' : List Token} {p : ℕ} {c : Cursor}

/-- There are as many places among the others. -/
theorem AgreeTo.le_length (h : AgreeTo p tokens tokens') :
    min p tokens.length ≤ tokens'.length := by
  have hsome : min p tokens.length < (tokens ++ [Token.endMark]).length := by
    rw [List.length_append, List.length_singleton]
    omega
  have hget := h _ le_rfl
  rw [List.getElem?_eq_getElem hsome] at hget
  have hlt := (List.getElem?_eq_some_iff.1 hget.symm).1
  rw [List.length_append, List.length_singleton] at hlt
  omega

/-- What stands at a cursor among the first tokens stands there among the others. -/
theorem AgreeTo.current_place (h : AgreeTo p tokens tokens')
    (htokens : c.tokens = tokens ++ [Token.endMark]) (hp : c.position ≤ p) :
    (Cursor.place tokens' c.position).current = c.current := by
  have hle : c.position ≤ min p tokens.length := le_min hp (Cursor.position_le htokens)
  have hcurrent := c.getElem?_position
  rw [htokens, h _ hle] at hcurrent
  exact Cursor.current_place (hle.trans h.le_length) hcurrent

/-- The cursors among the first tokens are carried to the same places among the others, as far as
the last but one on which they agree. -/
theorem AgreeTo.carries (h : AgreeTo (p + 1) tokens tokens') (table : Table) :
    Carries .refl (fun c => .place tokens' c.position) table table fun c =>
      c.position ≤ p ∧ c.tokens = tokens ++ [Token.endMark] where
  seen_of_advance {c} hseen :=
    ⟨c.position_le_advance.trans hseen.1, c.tokens_advance.symm.trans hseen.2⟩
  current hseen := h.current_place hseen.2 (Nat.le_succ_of_le hseen.1)
  get? _ := rfl
  following {c} hseen hmark := by
    have hcurrent : (Cursor.place tokens' c.position).current = c.current :=
      h.current_place hseen.2 (Nat.le_succ_of_le hseen.1)
    have hposition := Cursor.position_advance_of_ne_endMark hmark
    have hnext : (Cursor.place tokens' c.advance.position).current = c.advance.current :=
      h.current_place (c.tokens_advance.trans hseen.2) (hposition ▸ Nat.succ_le_succ hseen.1)
    rw [← hcurrent] at hmark
    rw [hposition, ← Cursor.advance_place hmark, Cursor.current_advance,
      Cursor.current_advance] at hnext
    exact hnext
  advance {c} hseen hmark := by
    have hcurrent : (Cursor.place tokens' c.position).current = c.current :=
      h.current_place hseen.2 (Nat.le_succ_of_le hseen.1)
    rw [Cursor.position_advance_of_ne_endMark hmark]
    rw [← hcurrent] at hmark
    exact (Cursor.advance_place hmark).symm

theorem Stop.cursor_evaluation (table : Table) (stop : Stop) :
    (stop.evaluation table).cursor = stop.reading.cursor := by
  cases stop with
  | failed fault r => rfl
  | read s r =>
    rw [evaluation]
    cases remainingFault? table r with
    | some fault => rfl
    | none => cases s <;> rfl

private theorem Stop.reading_carry (ρ : Renaming) (m : Cursor → Cursor) (stop : Stop) :
    (stop.carry ρ m).reading = stop.reading.carry ρ m := by
  cases stop <;> rfl

/-- If something remains where no group is open, the end has not been reached. -/
theorem atEnd_of_remainingFault? {r : Reading} {fault : Fault}
    (h : remainingFault? table r = some fault) (hbalanced : r.groups.balanced = true) :
    r.cursor.atEnd = false := by
  obtain ⟨hopened, -⟩ | ⟨-, hahead, -⟩ := remainingFault?_cases h
  · simp only [Groups.balanced, beq_iff_eq] at hbalanced
    exact absurd hbalanced hopened
  · simpa [Cursor.atEnd] using hahead

/-- A stop at a refusal is one in the other tokens too, if these agree as far as the refusal looks.
-/
theorem AgreeTo.evaluation_carry {stop : Stop} {fault : Fault}
    (h : AgreeTo (stop.reading.cursor.position + 1) tokens tokens')
    (hstops : Stops table tokens stop)
    (hfault : (stop.evaluation table).outcome = .refused fault) :
    ((stop.carry .refl fun c => .place tokens' c.position).evaluation table).outcome =
      .refused fault := by
  have htokens := hstops.tokens_eq
  cases stop with
  | failed other r =>
    obtain rfl := Outcome.refused.inj hfault
    exact congrArg Outcome.refused other.rename_refl
  | read s r =>
    cases hremaining : remainingFault? table r with
    | none =>
      rw [Stop.evaluation, hremaining] at hfault
      exact absurd hfault conclude_outcome_ne_refused
    | some other =>
      rw [Stop.evaluation, hremaining] at hfault
      obtain rfl := Outcome.refused.inj hfault
      have hend : r.groups.balanced = true →
          (Cursor.place tokens' r.cursor.position).atEnd = r.cursor.atEnd := by
        intro hbalanced
        have hatEnd := atEnd_of_remainingFault? hremaining hbalanced
        have hlt : r.cursor.position < tokens'.length :=
          (le_min le_rfl (Cursor.position_lt htokens hatEnd)).trans h.le_length
        rw [hatEnd]
        simpa [Cursor.place, Cursor.atEnd] using hlt
      have hcarried := (h.carries table).remainingFault?_eq (r := r) ⟨le_rfl, htokens⟩ hend
      rw [hremaining, Option.map_some, Fault.rename_refl] at hcarried
      rw [Stop.carry, Stop.evaluation, hcarried]

/-- Tokens that agree with refused ones up to the token after that at which reading stopped are
refused for the same fault at the same place. -/
theorem refused_of_agreeTo {fault : Fault}
    (hfault : (evaluate table (.start tokens)).outcome = .refused fault)
    (h : AgreeTo ((evaluate table (.start tokens)).cursor.position + 1) tokens tokens') :
    (evaluate table (.start tokens')).outcome = .refused fault ∧
      (evaluate table (.start tokens')).cursor.position =
        (evaluate table (.start tokens)).cursor.position := by
  obtain ⟨stop, hstops⟩ := exists_stops table tokens
  rw [evaluate_of_stops hstops] at hfault h ⊢
  rw [stop.cursor_evaluation] at h ⊢
  have hstart : Cursor.place tokens' (Cursor.start tokens).position = .start tokens' := rfl
  have hstops' := hstops.carry (h.carries table) hstart ⟨le_rfl, hstops.tokens_eq⟩
  rw [evaluate_of_stops hstops', Stop.cursor_evaluation]
  have hle : stop.reading.cursor.position ≤ tokens'.length :=
    (le_min (Nat.le_succ _) (Cursor.position_le hstops.tokens_eq)).trans h.le_length
  refine ⟨h.evaluation_carry hstops hfault, ?_⟩
  rw [stop.reading_carry]
  exact Cursor.position_place hle

/-- The end mark in the middle of a statement is refused as the end of a shorter one is. -/
theorem refused_of_agreeTo_typed_endMark :
    (evaluate .empty (.start ["("])).outcome = .refused (.operandExpected "$") ∧
      (evaluate .empty (.start ["(", "$", ")", "x"])).outcome =
        .refused (.operandExpected "$") ∧
      (evaluate .empty (.start ["(", "$", ")", "x"])).cursor.position = 1 := by
  have hfault : (evaluate .empty (.start ["("])).outcome = .refused (.operandExpected "$") := by
    decide +kernel
  have hposition : (evaluate .empty (.start ["("])).cursor.position = 1 := by decide +kernel
  have hagree : AgreeTo ((evaluate .empty (.start ["("])).cursor.position + 1) ["("]
      ["(", "$", ")", "x"] := by
    rw [hposition, AgreeTo]
    decide
  obtain ⟨hfault', hposition'⟩ := refused_of_agreeTo hfault hagree
  exact ⟨hfault, hfault', hposition'.trans hposition⟩

end LineCalc
