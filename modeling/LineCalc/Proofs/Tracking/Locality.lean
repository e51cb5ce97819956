import LineCalc.Table.Lookup
import LineCalc.Proofs.Transport.Statement

namespace LineCalc

/-- Two tables agree on tokens: on which of them are bound, and to what. -/
def Table.AgreeOn (tokens : List Token) (left right : Table) : Prop :=
  ∀ t ∈ tokens, left.get? t = right.get? t

/-- A table after a statement, which has bound one name at most. -/
def Table.after (t : Table) : Option Binding → Table
  | none => t
  | some b => t.insert b.1 b.2

/-- The name that a statement would bind: its first token, if the sign of a binding follows. -/
def target? : List Token → Option Token
  | name :: "=" :: _ => some name
  | _ => none

/-- What a statement comes to, apart from the table that it finds. -/
structure Verdict where
  outcome : Outcome
  cursor : Cursor
  written : Option Binding
  events : List Event

namespace Verdict

/-- The evaluation that a verdict makes of a table. -/
def on (d : Verdict) (t : Table) : Evaluation := ⟨d.outcome, d.cursor, t.after d.written, d.events⟩

theorem get?_on (d : Verdict) {name : Token} {v : Float} (h : d.written = some (name, v))
    (t : Table) (other : Token) :
    (d.on t).table.get? other = if other = name then some v else t.get? other := by
  rw [on, h]
  exact Table.get?_insert t name v other

/-- A verdict binds the target of a statement just if the statement is accepted, and nothing
otherwise. -/
structure Targets (d : Verdict) (tokens : List Token) : Prop where
  written_iff (name : Token) :
    (∃ v, d.written = some (name, v)) ↔ d.outcome = .done ∧ target? tokens = some name
  isName (b : Binding) (h : d.written = some b) : Token.isName b.1 = true

/-- A statement that is refused or has a value binds nothing. -/
theorem targets_of_ne_done (outcome : Outcome) (houtcome : outcome ≠ .done) (cursor : Cursor)
    (events : List Event) (tokens : List Token) :
    Targets ⟨outcome, cursor, none, events⟩ tokens := by
  refine ⟨fun name => ?_, fun b h => ?_⟩
  · simp [houtcome]
  · cases h

private theorem targets_of_target {name : Token} (hname : name.isName = true) (v : Float)
    (cursor : Cursor) (events : List Event) (rest : List Token) :
    Targets ⟨.done, cursor, some (name, v), events⟩ (name :: "=" :: rest) := by
  refine ⟨fun other => ?_, fun b h => ?_⟩
  · simp [target?]
  · obtain rfl := Option.some.inj h
    exact hname

end Verdict

theorem target?_mem {tokens : List Token} {name : Token} (h : target? tokens = some name) :
    name ∈ tokens := by
  unfold target? at h
  split at h
  · obtain rfl := Option.some.inj h
    exact List.mem_cons_self ..
  · cases h

theorem Table.AgreeOn.refl (tokens : List Token) (t : Table) : t.AgreeOn tokens t := fun _ _ => rfl

private theorem Cursor.current_mem_tokens (c : Cursor) : c.current ∈ c.tokens := by
  obtain ⟨behind, ahead⟩ := c
  cases ahead <;> simp [current, tokens, unread]

variable {left right : Table} {tokens : List Token}

/-- What one table shows among tokens on which the tables agree, the other shows at the same
cursor. -/
theorem Table.AgreeOn.carries (h : left.AgreeOn tokens right) :
    Carries .refl id left right fun c => c.tokens = tokens where
  seen_of_advance {c} hseen := c.tokens_advance.symm.trans hseen
  current _ := rfl
  get? {c} hseen := (h _ (hseen ▸ c.current_mem_tokens)).symm
  following _ _ := rfl
  advance _ _ := rfl

/-- A statement stops alike in both tables. -/
theorem Stops.of_agreeOn {stop : Stop} (hstops : Stops left tokens stop)
    (h : left.AgreeOn (tokens ++ [Token.endMark]) right) : Stops right tokens stop := by
  have hcarried := hstops.carry h.carries rfl hstops.tokens_eq
  rwa [stop.carry_refl] at hcarried

/-- A statement that is read in one table is concluded alike in the other. -/
theorem Stops.evaluate_of_agreeOn {s : Statement} {r : Reading}
    (hstops : Stops left tokens (.read s r)) (right : Table)
    (h : left.AgreeOn (tokens ++ [Token.endMark]) right) :
    evaluate right (.start tokens) =
      match remainingFault? left r with
      | some fault => ⟨.refused fault, r.cursor, right, r.events.reverse⟩
      | none => conclude right r s := by
  have hremaining := h.carries.remainingFault?_eq (r := r) hstops.tokens_eq fun _ => rfl
  rw [r.carry_refl] at hremaining
  rw [evaluate_of_stops (hstops.of_agreeOn h), Stop.evaluation, hremaining]
  cases remainingFault? left r with
  | some fault => rw [Option.map_some, fault.rename_refl]
  | none => rfl

/-- What a statement comes to is the same in all tables that agree with one on its tokens. -/
theorem exists_verdict (left : Table) (tokens : List Token) :
    ∃ d : Verdict, d.Targets tokens ∧
      ∀ right, left.AgreeOn (tokens ++ [Token.endMark]) right →
        evaluate right (.start tokens) = d.on right := by
  obtain ⟨stop, hstops⟩ := exists_stops left tokens
  cases stop with
  | failed fault r =>
    exact ⟨⟨.refused fault, r.cursor, none, r.events.reverse⟩,
      Verdict.targets_of_ne_done (.refused fault) nofun _ _ _,
      fun right h => evaluate_of_stops (hstops.of_agreeOn h)⟩
  | read s r =>
    have heq := hstops.evaluate_of_agreeOn
    cases hremaining : remainingFault? left r with
    | some fault =>
      rw [hremaining] at heq
      exact ⟨_, Verdict.targets_of_ne_done (.refused fault) nofun _ _ _, heq⟩
    | none =>
      rw [hremaining] at heq
      cases hstops with
      | @finished o rest v _ hfits =>
        cases o with
        | none => exact ⟨_, Verdict.targets_of_ne_done (.value v) nofun _ _ _, heq⟩
        | target name => exact ⟨_, Verdict.targets_of_target hfits.1 v _ _ rest, heq⟩
      | empty =>
        -- Nothing is read and nothing remains, so there are no tokens.
        have hahead : tokens = [] := (remainingFault?_eq_none_iff.1 hremaining).2
        refine ⟨⟨.done, .start tokens, none, [.statement (.start tokens)]⟩,
          ⟨fun name => ?_, ?_⟩, heq⟩
        · simp [hahead, target?]
        · intro b h
          cases h

end LineCalc
