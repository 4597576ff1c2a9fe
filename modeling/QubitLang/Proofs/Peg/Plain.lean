import QubitLang.Proofs.Peg.Attempts
import Mathlib.Order.Filter.AtTopBot.Basic

/-! Evaluation without memory: every expression is tried anew wherever it is
met. It collects what was expected on the way, also in alternatives that were
given up and in lookaheads. -/

namespace QubitLang.Peg

variable {ν : Type}

abbrev Expectation := String × Nat

def Event.expectation? : Event → Option Expectation
  | .expected label offset => some (label, offset)
  | _ => none

/-- One attempt without memory. There is no result if rules invoke each other
more deeply than allowed. -/
abbrev Trial := Cursor → Option (Outcome × List Expectation)

def retried (body : Trial) :
    (bound : Nat) → Cursor → Option (Repetition × List Expectation)
  | bound, cursor =>
    match body cursor with
    | none => none
    | some (.matched next values, expected) =>
      match bound with
      | 0 => some (.ended cursor (.matched next values), expected)
      | bound + 1 =>
        match retried body bound next with
        | none => none
        | some (repetition, later) =>
          some (repetition.precededBy values, expected ++ later)
    | some (last, expected) => some (.ended cursor last, expected)

theorem retried_zero (trial : Trial) (cursor : Cursor) :
    retried trial 0 cursor =
      (trial cursor).map fun (outcome, expected) => (.ended cursor outcome, expected) := by
  unfold retried
  rcases trial cursor with _ | ⟨_ | _ | _, _⟩ <;> rfl

theorem retried_cases {trial : Trial} {bound : Nat} {cursor : Cursor} {repetition : Repetition}
    {expected : List Expectation}
    (tried : retried trial bound cursor = some (repetition, expected)) :
    (∃ fewer next values early rest late, bound = fewer + 1 ∧
      trial cursor = some (.matched next values, early) ∧
      retried trial fewer next = some (rest, late) ∧
      repetition = rest.precededBy values ∧ expected = early ++ late) ∨
    (∃ last, trial cursor = some (last, expected) ∧ repetition = .ended cursor last ∧
      ∀ next values, last = .matched next values → bound = 0) := by
  unfold retried at tried
  cases once : trial cursor with
  | none => simp [once] at tried
  | some pair =>
      obtain ⟨outcome, early⟩ := pair
      rw [once] at tried
      cases outcome with
      | failed | stuck =>
          cases tried
          exact .inr ⟨_, rfl, rfl, nofun⟩
      | matched next values =>
          cases bound with
          | zero =>
              cases tried
              exact .inr ⟨_, rfl, rfl, fun _ _ _ => rfl⟩
          | succ fewer =>
              cases again : retried trial fewer next with
              | none => simp [again] at tried
              | some pair =>
                  obtain ⟨rest, late⟩ := pair
                  simp only [again] at tried
                  cases tried
                  exact .inl ⟨fewer, next, values, early, rest, late, rfl, rfl, again, rfl, rfl⟩

/-- Tries an expression. What is remembered elsewhere is tried anew here. -/
def Expr.plain (invoke : ν → Trial) : Expr ν → Trial
  | .empty, cursor => some (.matched cursor [], [])
  | .never, _ => some (.failed true, [])
  | .noAlternative, _ => some (.stuck, [])
  | .terminal accepted, cursor =>
    match accepted.advance? cursor with
    | some next => some (.matched next [], [])
    | none => some (.failed true, [])
  | .call rule, cursor => invoke rule cursor
  | .seq first second, cursor =>
    match first.plain invoke cursor with
    | some (.matched middle values, expected) =>
      match second.plain invoke middle with
      | some (.matched last more, later) =>
        some (.matched last (values ++ more), expected ++ later)
      | some (outcome, later) => some (outcome, expected ++ later)
      | none => none
    | result => result
  | .alt first second, cursor =>
    match first.plain invoke cursor with
    | some (.failed _, expected) =>
      (second.plain invoke cursor).map fun (outcome, later) =>
        (outcome, expected ++ later)
    | result => result
  | .remember _ body, cursor => body.plain invoke cursor
  | .star body, cursor =>
    (retried (body.plain invoke) cursor.rest.length cursor).map
      fun (repetition, expected) => (repetition.outcome, expected)
  | .plus body, cursor =>
    (retried (body.plain invoke) cursor.rest.length cursor).map
      fun (repetition, expected) => (repetition.outcomeOfSome, expected)
  | .opt body, cursor =>
    match body.plain invoke cursor with
    | some (.failed _, expected) => some (.matched cursor [], expected)
    | result => result
  | .ahead body, cursor =>
    match body.plain invoke cursor with
    | some (.matched _ _, expected) => some (.matched cursor [], expected)
    | some (.failed _, expected) => some (.failed true, expected)
    | result => result
  | .notAhead body, cursor =>
    match body.plain invoke cursor with
    | some (.matched _ _, expected) => some (.failed true, expected)
    | some (.failed _, expected) => some (.matched cursor [], expected)
    | result => result

def Grammar.plain (grammar : Grammar ν) : (depth : Nat) → ν → Trial
  | 0, _, _ => none
  | depth + 1, name, cursor =>
    match grammar.rule name with
    | none => some (.failed true, [])
    | some rule =>
      match rule.body.plain (grammar.plain depth) cursor with
      | some (.matched last values, expected) =>
        let (values, event) := rule.kind.finish cursor last values
        some (.matched last values,
          expected ++ (event.bind Event.expectation?).toList)
      | result => result

attribute [local simp] Expr.plain

/-- The sites of an expression tell nothing where nothing is remembered. -/
theorem Expr.plain_numberFrom (invoke : ν → Trial) (expr : Expr ν) :
    ∀ site, (expr.numberFrom site).1.plain invoke = expr.plain invoke := by
  induction expr with
  | empty | never | noAlternative | terminal _ | call _ => exact fun _ => rfl
  | seq first second firstInduction secondInduction
  | alt first second firstInduction secondInduction =>
      intro site
      funext cursor
      simp only [numberFrom, plain, firstInduction, secondInduction]
  | remember _ body induction | star body induction | plus body induction
  | opt body induction | ahead body induction | notAhead body induction =>
      intro site
      funext cursor
      simp only [numberFrom, plain, induction]

theorem Expr.plain_numbered (invoke : ν → Trial) (expr : Expr ν) :
    expr.numbered.plain invoke = expr.plain invoke :=
  expr.plain_numberFrom invoke 0

/-! ## Results by expression -/

namespace Expr

variable {invoke : ν → Trial} {first second body : Expr ν} {cursor : Cursor}
  {outcome : Outcome} {expected : List Expectation}

theorem plain_seq_of_matched {middle : Cursor} {values : List Value} {early : List Expectation}
    (tried : first.plain invoke cursor = some (.matched middle values, early)) :
    (Expr.seq first second).plain invoke cursor = (second.plain invoke middle).map
      fun (later, late) => (later.precededBy values, early ++ late) := by
  simp only [plain, tried]
  rcases second.plain invoke middle with _ | ⟨_ | _ | _, _⟩ <;> rfl

theorem plain_seq_of_failed {explained : Bool}
    (tried : first.plain invoke cursor = some (.failed explained, expected)) :
    (Expr.seq first second).plain invoke cursor = some (.failed explained, expected) := by
  simp only [plain, tried]

theorem plain_seq (tried : (Expr.seq first second).plain invoke cursor =
    some (outcome, expected)) :
    (∃ middle values early later late,
      first.plain invoke cursor = some (.matched middle values, early) ∧
        second.plain invoke middle = some (later, late) ∧
        outcome = later.precededBy values ∧ expected = early ++ late) ∨
    (first.plain invoke cursor = some (outcome, expected) ∧
      ∀ last more, outcome ≠ .matched last more) := by
  cases firstTried : first.plain invoke cursor with
  | none => simp [firstTried] at tried
  | some result =>
      obtain ⟨firstOutcome, early⟩ := result
      cases firstOutcome with
      | failed | stuck =>
          simp only [plain, firstTried] at tried
          cases tried
          exact .inr ⟨rfl, nofun⟩
      | matched middle values =>
          rw [plain_seq_of_matched firstTried] at tried
          obtain ⟨⟨later, late⟩, secondTried, equal⟩ := Option.map_eq_some_iff.mp tried
          cases equal
          exact .inl ⟨middle, values, early, later, late, rfl, secondTried, rfl, rfl⟩

theorem plain_alt (tried : (Expr.alt first second).plain invoke cursor =
    some (outcome, expected)) :
    (∃ explained early late,
      first.plain invoke cursor = some (.failed explained, early) ∧
        second.plain invoke cursor = some (outcome, late) ∧ expected = early ++ late) ∨
    (first.plain invoke cursor = some (outcome, expected) ∧
      ∀ explained, outcome ≠ .failed explained) := by
  cases firstTried : first.plain invoke cursor with
  | none => simp [firstTried] at tried
  | some result =>
      obtain ⟨firstOutcome, early⟩ := result
      simp only [plain, firstTried] at tried
      cases firstOutcome with
      | matched | stuck =>
          cases tried
          exact .inr ⟨rfl, nofun⟩
      | failed explained =>
          obtain ⟨⟨secondOutcome, late⟩, secondTried, equal⟩ := Option.map_eq_some_iff.mp tried
          cases equal
          exact .inl ⟨explained, early, late, rfl, secondTried, rfl⟩

theorem plain_opt_eq (invoke : ν → Trial) (body : Expr ν) (cursor : Cursor) :
    (Expr.opt body).plain invoke cursor = (body.plain invoke cursor).map
      fun (outcome, expected) => (outcome.orNothing cursor, expected) := by
  rw [plain]
  rcases body.plain invoke cursor with _ | ⟨_ | _ | _, _⟩ <;> rfl

theorem plain_ahead_eq (invoke : ν → Trial) (body : Expr ν) (cursor : Cursor) :
    (Expr.ahead body).plain invoke cursor = (body.plain invoke cursor).map
      fun (outcome, expected) => (outcome.asAhead cursor, expected) := by
  rw [plain]
  rcases body.plain invoke cursor with _ | ⟨_ | _ | _, _⟩ <;> rfl

theorem plain_notAhead_eq (invoke : ν → Trial) (body : Expr ν) (cursor : Cursor) :
    (Expr.notAhead body).plain invoke cursor = (body.plain invoke cursor).map
      fun (outcome, expected) => (outcome.asNotAhead cursor, expected) := by
  rw [plain]
  rcases body.plain invoke cursor with _ | ⟨_ | _ | _, _⟩ <;> rfl

theorem plain_opt (tried : (Expr.opt body).plain invoke cursor = some (outcome, expected)) :
    (∃ explained, body.plain invoke cursor = some (.failed explained, expected) ∧
      outcome = .matched cursor []) ∨
    (body.plain invoke cursor = some (outcome, expected) ∧
      ∀ explained, outcome ≠ .failed explained) := by
  rw [plain_opt_eq] at tried
  obtain ⟨⟨bodyOutcome, early⟩, bodyTried, equal⟩ := Option.map_eq_some_iff.mp tried
  cases equal
  cases bodyOutcome with
  | matched | stuck => exact .inr ⟨bodyTried, nofun⟩
  | failed explained => exact .inl ⟨explained, bodyTried, rfl⟩

end Expr

/-! ## Settled results

A result is settled if all sufficiently large depths give it. -/

def Expr.Settles (grammar : Grammar ν) (expr : Expr ν) (cursor : Cursor)
    (outcome : Outcome) (expected : List Expectation) : Prop :=
  ∀ᶠ depth in Filter.atTop,
    expr.plain (grammar.plain depth) cursor = some (outcome, expected)

def Expr.Retries (grammar : Grammar ν) (body : Expr ν) (bound : Nat)
    (cursor : Cursor) (repetition : Repetition) (expected : List Expectation) :
    Prop :=
  ∀ᶠ depth in Filter.atTop,
    retried (body.plain (grammar.plain depth)) bound cursor =
      some (repetition, expected)

namespace Expr

variable {grammar : Grammar ν} {expr : Expr ν} {cursor : Cursor}
  {outcome outcome' : Outcome} {expected expected' : List Expectation}

theorem Settles.exists_depth (settled : expr.Settles grammar cursor outcome expected) :
    ∃ depth, expr.plain (grammar.plain depth) cursor = some (outcome, expected) :=
  settled.exists

theorem Settles.unique (left : expr.Settles grammar cursor outcome expected)
    (right : expr.Settles grammar cursor outcome' expected') :
    outcome = outcome' ∧ expected = expected' := by
  obtain ⟨depth, leftResult, rightResult⟩ := (left.and right).exists
  rw [leftResult] at rightResult
  simpa using rightResult

end Expr

/-! ## Settled results by expression -/

namespace Expr.Settles

variable {grammar : Grammar ν} {first second body : Expr ν} {cursor middle next : Cursor}
  {values : List Value} {outcome : Outcome} {repetition : Repetition} {bound : Nat}
  {expected early late : List Expectation}

theorem seq (settled : first.Settles grammar cursor (.matched middle values) early)
    (later : second.Settles grammar middle outcome late) :
    (Expr.seq first second).Settles grammar cursor (outcome.precededBy values)
      (early ++ late) := by
  filter_upwards [settled, later] with depth equation laterEquation
  rw [plain_seq_of_matched equation, laterEquation, Option.map_some]

theorem seq_of_unmatched (settled : first.Settles grammar cursor outcome expected)
    (unmatched : ∀ last values, outcome ≠ .matched last values) :
    (Expr.seq first second).Settles grammar cursor outcome expected := by
  filter_upwards [settled] with depth equation
  cases outcome with
  | matched last values => exact absurd rfl (unmatched last values)
  | failed | stuck => simp only [plain, equation]

theorem alt {explained : Bool} (settled : first.Settles grammar cursor (.failed explained) early)
    (later : second.Settles grammar cursor outcome late) :
    (Expr.alt first second).Settles grammar cursor outcome (early ++ late) := by
  filter_upwards [settled, later] with depth equation laterEquation
  simp only [plain, equation, laterEquation, Option.map_some]

theorem alt_of_unfailed (settled : first.Settles grammar cursor outcome expected)
    (unfailed : ∀ explained, outcome ≠ .failed explained) :
    (Expr.alt first second).Settles grammar cursor outcome expected := by
  filter_upwards [settled] with depth equation
  cases outcome with
  | failed explained => exact absurd rfl (unfailed explained)
  | matched | stuck => simp only [plain, equation]

theorem again (settled : body.Settles grammar cursor (.matched next values) early)
    (later : body.Retries grammar bound next repetition late) :
    body.Retries grammar (bound + 1) cursor (repetition.precededBy values) (early ++ late) := by
  filter_upwards [settled, later] with depth equation laterEquation
  unfold retried
  simp only [equation, laterEquation]

theorem ended (settled : body.Settles grammar cursor outcome expected)
    (isLast : ∀ next values, outcome = .matched next values → bound = 0) :
    body.Retries grammar bound cursor (.ended cursor outcome) expected := by
  filter_upwards [settled] with depth equation
  unfold retried
  cases outcome with
  | matched next values =>
      obtain rfl := isLast next values rfl
      simp only [equation]
  | failed | stuck => simp only [equation]

theorem star (retries : body.Retries grammar cursor.rest.length cursor repetition expected) :
    (Expr.star body).Settles grammar cursor repetition.outcome expected := by
  filter_upwards [retries] with depth equation
  simp only [plain, equation, Option.map_some]

theorem plus (retries : body.Retries grammar cursor.rest.length cursor repetition expected) :
    (Expr.plus body).Settles grammar cursor repetition.outcomeOfSome expected := by
  filter_upwards [retries] with depth equation
  simp only [plain, equation, Option.map_some]

theorem opt (settled : body.Settles grammar cursor outcome expected) :
    (Expr.opt body).Settles grammar cursor (outcome.orNothing cursor) expected := by
  filter_upwards [settled] with depth equation
  rw [plain_opt_eq, equation, Option.map_some]

theorem ahead (settled : body.Settles grammar cursor outcome expected) :
    (Expr.ahead body).Settles grammar cursor (outcome.asAhead cursor) expected := by
  filter_upwards [settled] with depth equation
  rw [plain_ahead_eq, equation, Option.map_some]

theorem notAhead (settled : body.Settles grammar cursor outcome expected) :
    (Expr.notAhead body).Settles grammar cursor (outcome.asNotAhead cursor) expected := by
  filter_upwards [settled] with depth equation
  rw [plain_notAhead_eq, equation, Option.map_some]

theorem of_rule {name : ν} {rule : Rule ν} (found : grammar.rule name = some rule)
    (settled : rule.body.Settles grammar cursor outcome expected) :
    (Expr.call name).Settles grammar cursor (rule.kind.finished cursor outcome)
      (expected ++ ((rule.kind.event? cursor outcome).bind Event.expectation?).toList) := by
  obtain ⟨enough, settled⟩ := Filter.eventually_atTop.mp settled
  refine Filter.eventually_atTop.mpr ⟨enough + 1, fun depth le => ?_⟩
  obtain ⟨depth, rfl⟩ : ∃ smaller, depth = smaller + 1 := ⟨depth - 1, by omega⟩
  simp only [plain, Grammar.plain, found, settled depth (by omega)]
  cases outcome <;> simp [RuleKind.finished, RuleKind.event?]

theorem of_no_rule {name : ν} (unknown : grammar.rule name = none) :
    (Expr.call name).Settles grammar cursor (.failed true) [] := by
  filter_upwards [Filter.eventually_ge_atTop 1] with depth positive
  obtain ⟨depth, rfl⟩ : ∃ smaller, depth = smaller + 1 := ⟨depth - 1, by omega⟩
  simp only [plain, Grammar.plain, unknown]

end Expr.Settles

end QubitLang.Peg
