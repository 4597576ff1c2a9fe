import QubitLang.Peg.Eval

/-! What an attempt may do, said once for each kind of expression: which attempts of its parts it
made, and what became of their outcomes. -/

namespace QubitLang.Peg

/-! ## What becomes of outcomes -/

namespace Outcome

def precededBy (values : List Value) : Outcome → Outcome
  | .matched last more => .matched last (values ++ more)
  | outcome => outcome

@[simp] theorem precededBy_nil (outcome : Outcome) : outcome.precededBy [] = outcome := by
  cases outcome <;> rfl

def orNothing (cursor : Cursor) : Outcome → Outcome
  | .failed _ => .matched cursor []
  | outcome => outcome

def asAhead (cursor : Cursor) : Outcome → Outcome
  | .matched _ _ => .matched cursor []
  | .failed _ => .failed true
  | .stuck => .stuck

def asNotAhead (cursor : Cursor) : Outcome → Outcome
  | .matched _ _ => .failed true
  | .failed _ => .matched cursor []
  | .stuck => .stuck

end Outcome

namespace RuleKind

def finished (kind : RuleKind) (start : Cursor) : Outcome → Outcome
  | .matched stop values => .matched stop (kind.finish start stop values).1
  | outcome => outcome

def event? (kind : RuleKind) (start : Cursor) : Outcome → Option Event
  | .matched stop values => (kind.finish start stop values).2
  | _ => none

end RuleKind

variable {ν : Type} [BEq ν] [Hashable ν]

/-! ## Repetitions -/

/-- A repetition goes on behind a match, or ends with the attempt that it makes. A match ends it
only if no more of them are allowed. -/
theorem repeated_cases {attempt : Attempt ν} {bound : Nat} {cursor : Cursor}
    {progress after : Progress ν} {repetition : Repetition}
    (result : repeated attempt bound cursor progress = some (repetition, after)) :
    (∃ fewer next values between rest, bound = fewer + 1 ∧
      attempt cursor progress = some (.matched next values, between) ∧
      repeated attempt fewer next between = some (rest, after) ∧
      repetition = rest.precededBy values) ∨
    (∃ last, attempt cursor progress = some (last, after) ∧ repetition = .ended cursor last ∧
      ∀ next values, last = .matched next values → bound = 0) := by
  unfold repeated at result
  cases attempted : attempt cursor progress with
  | none => simp [attempted] at result
  | some pair =>
      obtain ⟨outcome, between⟩ := pair
      rw [attempted] at result
      cases outcome with
      | failed | stuck =>
          cases result
          exact .inr ⟨_, rfl, rfl, nofun⟩
      | matched next values =>
          cases bound with
          | zero =>
              cases result
              exact .inr ⟨_, rfl, rfl, fun _ _ _ => rfl⟩
          | succ fewer =>
              cases again : repeated attempt fewer next between with
              | none => simp [again] at result
              | some pair =>
                  obtain ⟨rest, last⟩ := pair
                  simp only [again] at result
                  cases result
                  exact .inl ⟨fewer, next, values, between, rest, rfl, rfl, again, rfl⟩

/-! ## Expressions -/

namespace Expr

attribute [local simp] attempt

variable {invoke : ν → Attempt ν} {owner : ν} {first second body : Expr ν} {cursor : Cursor}
  {progress after : Progress ν} {outcome : Outcome}

theorem attempt_terminal {accepted : Terminal}
    (result : (Expr.terminal accepted).attempt invoke owner cursor progress =
      some (outcome, after)) :
    (∃ next, accepted.advance? cursor = some next ∧ outcome = .matched next [] ∧
      after = progress) ∨
    (accepted.advance? cursor = none ∧ outcome = .failed true ∧
      after = progress.note (.failed cursor.offset true)) := by
  simp only [attempt] at result
  cases advanced : accepted.advance? cursor with
  | some next =>
      rw [advanced] at result
      cases result
      exact .inl ⟨next, rfl, rfl, rfl⟩
  | none =>
      rw [advanced] at result
      cases result
      exact .inr ⟨rfl, rfl, rfl⟩

theorem attempt_seq (result : (Expr.seq first second).attempt invoke owner cursor progress =
    some (outcome, after)) :
    (∃ middle values between later,
      first.attempt invoke owner cursor progress = some (.matched middle values, between) ∧
        second.attempt invoke owner middle between = some (later, after) ∧
        outcome = later.precededBy values) ∨
    (first.attempt invoke owner cursor progress = some (outcome, after) ∧
      ∀ last values, outcome ≠ .matched last values) := by
  cases attempted : first.attempt invoke owner cursor progress with
  | none => simp [attempted] at result
  | some pair =>
      obtain ⟨firstOutcome, between⟩ := pair
      simp only [attempt, attempted] at result
      cases firstOutcome with
      | failed | stuck =>
          cases result
          exact .inr ⟨rfl, nofun⟩
      | matched middle values =>
          cases again : second.attempt invoke owner middle between with
          | none => simp [again] at result
          | some pair =>
              obtain ⟨later, last⟩ := pair
              simp only [again] at result
              cases later <;>
              · cases result
                exact .inl ⟨middle, values, between, _, rfl, again, rfl⟩

theorem attempt_alt (result : (Expr.alt first second).attempt invoke owner cursor progress =
    some (outcome, after)) :
    (∃ explained between,
      first.attempt invoke owner cursor progress = some (.failed explained, between) ∧
        second.attempt invoke owner cursor between = some (outcome, after)) ∨
    (first.attempt invoke owner cursor progress = some (outcome, after) ∧
      ∀ explained, outcome ≠ .failed explained) := by
  cases attempted : first.attempt invoke owner cursor progress with
  | none => simp [attempted] at result
  | some pair =>
      obtain ⟨firstOutcome, between⟩ := pair
      simp only [attempt, attempted] at result
      cases firstOutcome with
      | failed explained => exact .inl ⟨explained, between, rfl, result⟩
      | matched | stuck =>
          cases result
          exact .inr ⟨rfl, nofun⟩

/-- What is known is found again; what is not is attempted, and known from then on. -/
theorem attempt_remember {site : Nat}
    (result : (Expr.remember site body).attempt invoke owner cursor progress =
      some (outcome, after)) :
    (progress.outcomeOf? (owner, site, cursor.offset) = some outcome ∧ after = progress) ∨
    (progress.outcomeOf? (owner, site, cursor.offset) = none ∧
      ∃ between, body.attempt invoke owner cursor progress = some (outcome, between) ∧
        after = between.remember (owner, site, cursor.offset) outcome) := by
  simp only [attempt] at result
  cases known : progress.outcomeOf? (owner, site, cursor.offset) with
  | some remembered =>
      rw [known] at result
      cases result
      exact .inl ⟨rfl, rfl⟩
  | none =>
      rw [known] at result
      cases attempted : body.attempt invoke owner cursor progress with
      | none => simp [attempted] at result
      | some pair =>
          simp only [attempted] at result
          cases result
          exact .inr ⟨rfl, _, rfl, rfl⟩

theorem attempt_star (result : (Expr.star body).attempt invoke owner cursor progress =
    some (outcome, after)) :
    ∃ repetition, repeated (body.attempt invoke owner) cursor.rest.length cursor progress =
      some (repetition, after) ∧ outcome = repetition.outcome := by
  simp only [attempt] at result
  split at result
  · cases result
    exact ⟨_, ‹_›, rfl⟩
  · cases result

theorem attempt_plus (result : (Expr.plus body).attempt invoke owner cursor progress =
    some (outcome, after)) :
    ∃ repetition, repeated (body.attempt invoke owner) cursor.rest.length cursor progress =
      some (repetition, after) ∧ outcome = repetition.outcomeOfSome := by
  simp only [attempt] at result
  split at result
  · cases result
    exact ⟨_, ‹_›, rfl⟩
  · cases result

theorem attempt_opt (result : (Expr.opt body).attempt invoke owner cursor progress =
    some (outcome, after)) :
    ∃ found, body.attempt invoke owner cursor progress = some (found, after) ∧
      outcome = found.orNothing cursor := by
  cases attempted : body.attempt invoke owner cursor progress with
  | none => simp [attempted] at result
  | some pair =>
      obtain ⟨found, last⟩ := pair
      simp only [attempt, attempted] at result
      cases found <;>
      · cases result
        exact ⟨_, rfl, rfl⟩

theorem attempt_ahead (result : (Expr.ahead body).attempt invoke owner cursor progress =
    some (outcome, after)) :
    ∃ found, body.attempt invoke owner cursor progress = some (found, after) ∧
      outcome = found.asAhead cursor := by
  cases attempted : body.attempt invoke owner cursor progress with
  | none => simp [attempted] at result
  | some pair =>
      obtain ⟨found, last⟩ := pair
      simp only [attempt, attempted] at result
      cases found <;>
      · cases result
        exact ⟨_, rfl, rfl⟩

theorem attempt_notAhead (result : (Expr.notAhead body).attempt invoke owner cursor progress =
    some (outcome, after)) :
    ∃ found, body.attempt invoke owner cursor progress = some (found, after) ∧
      outcome = found.asNotAhead cursor := by
  cases attempted : body.attempt invoke owner cursor progress with
  | none => simp [attempted] at result
  | some pair =>
      obtain ⟨found, last⟩ := pair
      simp only [attempt, attempted] at result
      cases found <;>
      · cases result
        exact ⟨_, rfl, rfl⟩

end Expr

/-! ## Rules -/

/-- A name without a rule fails; a rule has its body attempted, one level deeper. -/
theorem Grammar.invoke_cases {grammar : Grammar ν} {depth : Nat} {name : ν} {cursor : Cursor}
    {progress after : Progress ν} {outcome : Outcome}
    (result : grammar.invoke (depth + 1) name cursor progress = some (outcome, after)) :
    (grammar.rule name = none ∧ outcome = .failed true ∧ after = progress) ∨
    ∃ rule found between, grammar.rule name = some rule ∧
      rule.body.attempt (grammar.invoke depth) name cursor progress = some (found, between) ∧
      outcome = rule.kind.finished cursor found ∧
      after = between.noteIf (rule.kind.event? cursor found) := by
  rw [invoke] at result
  cases found : grammar.rule name with
  | none =>
      rw [found] at result
      cases result
      exact .inl ⟨rfl, rfl, rfl⟩
  | some rule =>
      simp only [found] at result
      cases attempted : rule.body.attempt (grammar.invoke depth) name cursor progress with
      | none => simp [attempted] at result
      | some pair =>
          obtain ⟨bodyOutcome, between⟩ := pair
          rw [attempted] at result
          cases bodyOutcome <;>
          · cases result
            exact .inr ⟨rule, _, _, rfl, attempted, rfl, rfl⟩

end QubitLang.Peg
