import QubitLang.Proofs.Lexical.Split
import QubitLang.Proofs.Peg.Plain

/-! What a rule may call before it has matched anything. Ranks witness that no rule comes back
to itself in this way: what is called so has a lower rank. A match never goes back in its text,
so that each further invocation lowers the rank or shortens the text. -/

namespace QubitLang.Peg

variable {ν : Type}

/-! ## What is matched before anything else -/

namespace Expr

def isNullable (nullable : ν → Bool) : Expr ν → Bool
  | .empty | .star _ | .opt _ | .ahead _ | .notAhead _ => true
  | .never | .noAlternative => false
  | .terminal accepted => accepted.isNullable
  | .call rule => nullable rule
  | .seq first second => first.isNullable nullable && second.isNullable nullable
  | .alt first second => first.isNullable nullable || second.isNullable nullable
  | .remember _ body | .plus body => body.isNullable nullable

def leftCalls (nullable : ν → Bool) : Expr ν → List ν
  | .empty | .never | .noAlternative | .terminal _ => []
  | .call rule => [rule]
  | .seq first second =>
    first.leftCalls nullable ++
      if first.isNullable nullable then second.leftCalls nullable else []
  | .alt first second => first.leftCalls nullable ++ second.leftCalls nullable
  | .remember _ body | .star body | .plus body | .opt body | .ahead body
  | .notAhead body => body.leftCalls nullable

end Expr

/-- Ranks that fall from a rule to what it may call before it has matched
anything. -/
structure Grammar.IsRanked (grammar : Grammar ν) (nullable : ν → Bool)
    (rank : ν → Nat) : Prop where
  nullable_of_body : ∀ name rule, grammar.rule name = some rule →
    rule.body.isNullable nullable = true → nullable name = true
  rank_of_leftCall : ∀ name rule, grammar.rule name = some rule →
    ∀ callee ∈ rule.body.leftCalls nullable, rank callee < rank name
  rank_lt : ∀ name, rank name < grammar.names.length

/-! ## Matches go on -/

/-- Whether a match ends no earlier than it began, and later if it has to match
something. -/
def Outcome.GoesOn (outcome : Outcome) (cursor : Cursor) (nullable : Bool) : Prop :=
  ∀ next values, outcome = .matched next values →
    next.rest.length ≤ cursor.rest.length ∧
      (nullable = false → next.rest.length < cursor.rest.length)

def Trial.GoesOn (trial : Trial) (nullable : Bool) : Prop :=
  ∀ cursor outcome expected, trial cursor = some (outcome, expected) →
    outcome.GoesOn cursor nullable

theorem Outcome.goesOn_failed (explained : Bool) (cursor : Cursor) (nullable : Bool) :
    (Outcome.failed explained).GoesOn cursor nullable := by
  intro _ _ equal
  cases equal

theorem Outcome.goesOn_stuck (cursor : Cursor) (nullable : Bool) :
    Outcome.stuck.GoesOn cursor nullable := by
  intro _ _ equal
  cases equal

theorem Outcome.goesOn_same (cursor : Cursor) (values : List Value) :
    (Outcome.matched cursor values).GoesOn cursor true := by
  intro _ _ equal
  cases equal
  exact ⟨Nat.le_refl _, by simp⟩

theorem Outcome.GoesOn.weaken {outcome : Outcome} {cursor : Cursor}
    {nullable weaker : Bool} (goesOn : outcome.GoesOn cursor nullable)
    (implied : nullable = true → weaker = true) : outcome.GoesOn cursor weaker := by
  intro next values equal
  refine ⟨(goesOn next values equal).1, fun strict => (goesOn next values equal).2 ?_⟩
  cases nullable
  · rfl
  · simp [implied rfl] at strict

theorem Trial.GoesOn.retried {body : Trial} {nullable : Bool}
    (goesOn : body.GoesOn nullable) (bound : Nat) :
    ∀ cursor repetition expected,
      retried body bound cursor = some (repetition, expected) →
        repetition.cursor.rest.length ≤ cursor.rest.length ∧
          (nullable = false → 0 < repetition.count →
            repetition.cursor.rest.length < cursor.rest.length) := by
  induction bound with
  | zero =>
      intro cursor repetition expected result
      rcases retried_cases result with ⟨_, _, _, _, _, _, ⟨⟩, _⟩ | ⟨last, _, rfl, _⟩
      simp [Repetition.ended]
  | succ bound induction =>
      intro cursor repetition expected result
      rcases retried_cases result with
        ⟨_, next, values, _, rest, _, ⟨⟩, tried, again, rfl, _⟩ | ⟨last, _, rfl, _⟩
      · obtain ⟨later, strictly⟩ := goesOn cursor _ _ tried next values rfl
        have restLater := (induction next rest _ again).1
        exact ⟨Nat.le_trans restLater later,
          fun consumes _ => Nat.lt_of_le_of_lt restLater (strictly consumes)⟩
      · simp [Repetition.ended]

theorem Expr.plain_goesOn {invoke : ν → Trial} {nullable : ν → Bool}
    (invokeGoesOn : ∀ name, (invoke name).GoesOn (nullable name)) (expr : Expr ν) :
    Trial.GoesOn (expr.plain invoke) (expr.isNullable nullable) := by
  induction expr with
  | empty =>
      intro cursor outcome expected result
      cases result
      exact Outcome.goesOn_same cursor []
  | never =>
      intro cursor outcome expected result
      cases result
      exact Outcome.goesOn_failed _ _ _
  | noAlternative =>
      intro cursor outcome expected result
      cases result
      exact Outcome.goesOn_stuck _ _
  | terminal accepted =>
      intro cursor outcome expected result
      simp only [plain] at result
      split at result
      · rename_i next advanced
        cases result
        intro _ _ equal
        cases equal
        exact Terminal.length_of_advance? advanced
      · cases result
        exact Outcome.goesOn_failed _ _ _
  | call name => exact invokeGoesOn name
  | seq first second firstInduction secondInduction =>
      intro cursor outcome expected result
      rcases plain_seq result with
        ⟨middle, values, _, behind, _, firstTried, secondTried, rfl, _⟩ | ⟨_, unmatched⟩
      · intro last more equal
        cases behind with
        | failed | stuck => cases equal
        | matched =>
            cases equal
            obtain ⟨later, strictly⟩ := firstInduction cursor _ _ firstTried _ _ rfl
            obtain ⟨latest, lastStrictly⟩ := secondInduction middle _ _ secondTried _ _ rfl
            refine ⟨Nat.le_trans latest later, fun consumes => ?_⟩
            rw [isNullable, Bool.and_eq_false_iff] at consumes
            rcases consumes with firstConsumes | secondConsumes
            · exact Nat.lt_of_le_of_lt latest (strictly firstConsumes)
            · exact Nat.lt_of_lt_of_le (lastStrictly secondConsumes) later
      · exact fun next values equal => absurd equal (unmatched next values)
  | alt first second firstInduction secondInduction =>
      intro cursor outcome expected result
      rcases plain_alt result with ⟨_, _, _, _, secondTried, _⟩ | ⟨firstTried, _⟩
      · exact (secondInduction cursor _ _ secondTried).weaken fun nullableSecond => by
          simp [isNullable, nullableSecond]
      · exact (firstInduction cursor _ _ firstTried).weaken fun nullableFirst => by
          simp [isNullable, nullableFirst]
  | remember site body induction => exact induction
  | star body induction =>
      intro cursor outcome expected result
      obtain ⟨⟨repetition, early⟩, again, equal⟩ := Option.map_eq_some_iff.mp result
      cases equal
      intro next values equal
      have later := (induction.retried _ cursor repetition _ again).1
      simp only [Repetition.outcome] at equal
      split at equal <;> cases equal
      exact ⟨later, by simp [isNullable]⟩
  | plus body induction =>
      intro cursor outcome expected result
      obtain ⟨⟨repetition, early⟩, again, equal⟩ := Option.map_eq_some_iff.mp result
      cases equal
      intro next values equal
      have later := induction.retried _ cursor repetition _ again
      simp only [Repetition.outcomeOfSome] at equal
      split at equal <;> cases equal
      rename_i more
      exact ⟨later.1, fun consumes => later.2 consumes (by omega)⟩
  | opt body induction =>
      intro cursor outcome expected result
      rcases plain_opt result with ⟨_, _, rfl⟩ | ⟨bodyTried, _⟩
      · exact Outcome.goesOn_same cursor []
      · exact (induction cursor _ _ bodyTried).weaken fun _ => rfl
  | ahead body induction =>
      intro cursor outcome expected result
      simp only [plain] at result
      split at result
      · cases result
        exact Outcome.goesOn_same cursor []
      · cases result
        exact Outcome.goesOn_failed _ _ _
      · exact (induction cursor _ _ result).weaken fun _ => rfl
  | notAhead body induction =>
      intro cursor outcome expected result
      simp only [plain] at result
      split at result
      · cases result
        exact Outcome.goesOn_failed _ _ _
      · cases result
        exact Outcome.goesOn_same cursor []
      · exact (induction cursor _ _ result).weaken fun _ => rfl

theorem Grammar.plain_goesOn {grammar : Grammar ν} {nullable : ν → Bool}
    (nullable_of_body : ∀ name rule, grammar.rule name = some rule →
      rule.body.isNullable nullable = true → nullable name = true) (depth : Nat) :
    ∀ name, Trial.GoesOn (grammar.plain depth name) (nullable name) := by
  induction depth with
  | zero =>
      intro name cursor outcome expected result
      cases result
  | succ depth induction =>
      intro name cursor outcome expected result
      simp only [plain] at result
      split at result
      · cases result
        exact Outcome.goesOn_failed _ _ _
      · rename_i rule found
        have bodyGoesOn := Expr.plain_goesOn induction rule.body cursor
        have nullableOfBody := nullable_of_body name rule found
        split at result
        · rename_i last values early bodyResult
          cases result
          intro _ _ equal
          cases equal
          exact (bodyGoesOn _ _ bodyResult).weaken nullableOfBody _ _ rfl
        · exact (bodyGoesOn _ _ result).weaken nullableOfBody

theorem Expr.Settles.goesOn {nullable : ν → Bool} {grammar : Grammar ν} {expr : Expr ν}
    {cursor : Cursor} {outcome : Outcome} {expected : List Expectation}
    (settled : expr.Settles grammar cursor outcome expected)
    (nullable_of_body : ∀ name rule, grammar.rule name = some rule →
      rule.body.isNullable nullable = true → nullable name = true) :
    outcome.GoesOn cursor (expr.isNullable nullable) := by
  obtain ⟨depth, result⟩ := settled.exists_depth
  exact Expr.plain_goesOn (Grammar.plain_goesOn nullable_of_body depth) expr cursor _ _ result

end QubitLang.Peg
