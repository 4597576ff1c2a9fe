import QubitLang.Proofs.Peg.Recurrence

/-! What an attempt with memory notes and remembers on its way, as a relation of the progress in
front of it and the progress behind it. What all attempts keep is shown by induction on it. -/

namespace QubitLang.Peg

variable {ν : Type} [BEq ν] [Hashable ν]

/-- An attempt of an expression of a rule leads from one progress to another. Of the outcomes, only
those of the matches count behind which the attempt goes on. -/
inductive Expr.Leads (grammar : Grammar ν) (text : Text) :
    Expr ν → ν → Cursor → Progress ν → Progress ν → Prop
  | still {expr : Expr ν} {owner : ν} {cursor : Cursor} {progress : Progress ν} :
    Leads grammar text expr owner cursor progress progress
  | failed {expr : Expr ν} {owner : ν} {cursor : Cursor} {progress : Progress ν} :
    Leads grammar text expr owner cursor progress (progress.note (.failed cursor.offset true))
  | call {name owner : ν} {rule : Rule ν} {cursor : Cursor} {before after : Progress ν} :
    grammar.rule name = some rule → Leads grammar text rule.body name cursor before after →
      Leads grammar text (.call name) owner cursor before after
  | finish {name owner : ν} {rule : Rule ν} {cursor last : Cursor} {values : List Value}
    {expected : List Expectation} {before after : Progress ν} :
    grammar.rule name = some rule → Leads grammar text rule.body name cursor before after →
      rule.body.Settles grammar cursor (.matched last values) expected →
        Leads grammar text (.call name) owner cursor before
          (after.noteIf (rule.kind.finish cursor last values).2)
  | seqFirst {first second : Expr ν} {owner : ν} {cursor : Cursor} {before after : Progress ν} :
    Leads grammar text first owner cursor before after →
      Leads grammar text (.seq first second) owner cursor before after
  | seqSecond {first second : Expr ν} {owner : ν} {cursor middle : Cursor} {values : List Value}
    {expected : List Expectation} {before between after : Progress ν} :
    Leads grammar text first owner cursor before between →
      first.Settles grammar cursor (.matched middle values) expected → middle.IsIn text →
        Leads grammar text second owner middle between after →
          Leads grammar text (.seq first second) owner cursor before after
  | altFirst {first second : Expr ν} {owner : ν} {cursor : Cursor} {before after : Progress ν} :
    Leads grammar text first owner cursor before after →
      Leads grammar text (.alt first second) owner cursor before after
  | altSecond {first second : Expr ν} {owner : ν} {cursor : Cursor}
    {before between after : Progress ν} :
    Leads grammar text first owner cursor before between →
      Leads grammar text second owner cursor between after →
        Leads grammar text (.alt first second) owner cursor before after
  | remember {site : Nat} {body : Expr ν} {owner : ν} {cursor : Cursor} {outcome : Outcome}
    {before after : Progress ν} :
    before.outcomeOf? (owner, site, cursor.offset) = none →
      Leads grammar text body owner cursor before after →
        Leads grammar text (.remember site body) owner cursor before
          (after.remember (owner, site, cursor.offset) outcome)
  | star {body : Expr ν} {owner : ν} {cursor : Cursor} {before after : Progress ν} :
    Leads grammar text body owner cursor before after →
      Leads grammar text (.star body) owner cursor before after
  | starAgain {body : Expr ν} {owner : ν} {cursor middle : Cursor} {values : List Value}
    {expected : List Expectation} {before between after : Progress ν} :
    Leads grammar text body owner cursor before between →
      body.Settles grammar cursor (.matched middle values) expected → middle.IsIn text →
        Leads grammar text (.star body) owner middle between after →
          Leads grammar text (.star body) owner cursor before after
  | plus {body : Expr ν} {owner : ν} {cursor : Cursor} {before after : Progress ν} :
    Leads grammar text (.star body) owner cursor before after →
      Leads grammar text (.plus body) owner cursor before after
  | opt {body : Expr ν} {owner : ν} {cursor : Cursor} {before after : Progress ν} :
    Leads grammar text body owner cursor before after →
      Leads grammar text (.opt body) owner cursor before after
  | ahead {body : Expr ν} {owner : ν} {cursor : Cursor} {before after : Progress ν} :
    Leads grammar text body owner cursor before after →
      Leads grammar text (.ahead body) owner cursor before after
  | notAhead {body : Expr ν} {owner : ν} {cursor : Cursor} {before after : Progress ν} :
    Leads grammar text body owner cursor before after →
      Leads grammar text (.notAhead body) owner cursor before after

/-! ## What is kept -/

/-- What every step keeps is kept on the way: the failure of a terminal, the match of a rule, and
what is remembered. -/
theorem Expr.Leads.keeps {grammar : Grammar ν} {text : Text} {owner : ν}
    {holds : Progress ν → Prop} {expr : Expr ν} {cursor : Cursor} {before after : Progress ν}
    (failed : ∀ progress offset, holds progress → holds (progress.note (.failed offset true)))
    (finished : ∀ name rule start last values expected progress,
      grammar.rule name = some rule → start.IsIn text →
        rule.body.Settles grammar start (.matched last values) expected →
          holds progress → holds (progress.noteIf (rule.kind.finish start last values).2))
    (remembered : ∀ progress key outcome, holds progress → holds (progress.remember key outcome))
    (leads : expr.Leads grammar text owner cursor before after) :
    cursor.IsIn text → holds before → holds after := by
  induction leads with
  | still => exact fun _ held => held
  | failed => exact fun _ held => failed _ _ held
  | finish found _ settled induction =>
      exact fun isIn held => finished _ _ _ _ _ _ _ found isIn settled (induction isIn held)
  | seqSecond _ _ middleIsIn _ firstInduction secondInduction
  | starAgain _ _ middleIsIn _ firstInduction secondInduction =>
      exact fun isIn held => secondInduction middleIsIn (firstInduction isIn held)
  | altSecond _ _ firstInduction secondInduction =>
      exact fun isIn held => secondInduction isIn (firstInduction isIn held)
  | remember _ _ induction => exact fun isIn held => remembered _ _ _ (induction isIn held)
  | call _ _ induction | seqFirst _ induction | altFirst _ induction | star _ induction
  | plus _ induction | opt _ induction | ahead _ induction | notAhead _ induction =>
      exact induction

/-! ## Attempts -/

def Attempt.IsLed (grammar : Grammar ν) (text : Text) (expr : Expr ν) (owner : ν)
    (attempt : Attempt ν) : Prop :=
  ∀ cursor progress outcome after, cursor.IsIn text → progress.IsSound grammar text →
    attempt cursor progress = some (outcome, after) →
      expr.Leads grammar text owner cursor progress after

section

variable {grammar : Grammar ν} {text : Text} {owner : ν}

theorem Attempt.IsLed.repeated {body : Expr ν} {attempt : Attempt ν}
    (isLed : IsLed grammar text body owner attempt)
    (faithful : IsFaithful grammar text body attempt) (bound : Nat) :
    ∀ {cursor progress repetition after}, cursor.IsIn text → progress.IsSound grammar text →
      repeated attempt bound cursor progress = some (repetition, after) →
        (Expr.star body).Leads grammar text owner cursor progress after := by
  induction bound with
  | zero =>
      intro cursor progress repetition after isIn sound result
      rcases repeated_cases result with ⟨_, _, _, _, _, ⟨⟩, _⟩ | ⟨last, attempted, rfl, _⟩
      exact .star (isLed _ _ _ _ isIn sound attempted)
  | succ bound induction =>
      intro cursor progress repetition after isIn sound result
      rcases repeated_cases result with
        ⟨_, next, values, between, rest, ⟨⟩, attempted, again, rfl⟩ | ⟨last, attempted, rfl, _⟩
      · obtain ⟨_, settled, nextIsIn, betweenSound, _⟩ := faithful isIn sound attempted
        have nextIsIn := nextIsIn next values rfl
        exact .starAgain (isLed _ _ _ _ isIn sound attempted) settled nextIsIn
          (induction nextIsIn betweenSound again)
      · exact .star (isLed _ _ _ _ isIn sound attempted)

variable [LawfulBEq ν] [DecidableEq ν]

theorem Expr.attempt_isLed {invoke : ν → Attempt ν} (own : grammar.HasOwnSites)
    (faithful : ∀ name, Attempt.IsFaithful grammar text (.call name) (invoke name))
    (isLed : ∀ name owner, Attempt.IsLed grammar text (.call name) owner (invoke name))
    {rule : Rule ν} (found : grammar.rule owner = some rule) (expr : Expr ν) :
    expr.remembered ⊆ rule.body.remembered →
      Attempt.IsLed grammar text expr owner (expr.attempt invoke owner) := by
  have exprFaithful (part : Expr ν) := Expr.attempt_isFaithful faithful own found part
  induction expr with
  | empty | noAlternative =>
      intro _ cursor progress outcome after _ _ result
      cases result
      exact .still
  | never =>
      intro _ cursor progress outcome after _ _ result
      cases result
      exact .failed
  | terminal accepted =>
      intro _ cursor progress outcome after _ _ result
      rcases attempt_terminal result with ⟨_, _, _, rfl⟩ | ⟨_, _, rfl⟩
      · exact .still
      · exact .failed
  | call name => exact fun _ => isLed name owner
  | seq first second firstInduction secondInduction =>
      intro inside cursor progress outcome after isIn sound result
      obtain ⟨firstInside, secondInside⟩ := List.append_subset.mp inside
      rcases attempt_seq result with
        ⟨middle, values, between, later, attempted, again, rfl⟩ | ⟨attempted, _⟩
      · obtain ⟨_, settled, middleIsIn, betweenSound, _⟩ :=
          exprFaithful first firstInside isIn sound attempted
        have middleIsIn := middleIsIn middle values rfl
        exact .seqSecond (firstInduction firstInside _ _ _ _ isIn sound attempted) settled
          middleIsIn (secondInduction secondInside _ _ _ _ middleIsIn betweenSound again)
      · exact .seqFirst (firstInduction firstInside _ _ _ _ isIn sound attempted)
  | alt first second firstInduction secondInduction =>
      intro inside cursor progress outcome after isIn sound result
      obtain ⟨firstInside, secondInside⟩ := List.append_subset.mp inside
      rcases attempt_alt result with ⟨_, between, attempted, again⟩ | ⟨attempted, _⟩
      · obtain ⟨_, _, _, betweenSound, _⟩ := exprFaithful first firstInside isIn sound attempted
        exact .altSecond (firstInduction firstInside _ _ _ _ isIn sound attempted)
          (secondInduction secondInside _ _ _ _ isIn betweenSound again)
      · exact .altFirst (firstInduction firstInside _ _ _ _ isIn sound attempted)
  | remember site body induction =>
      intro inside cursor progress outcome after isIn sound result
      rcases attempt_remember result with ⟨_, rfl⟩ | ⟨unknown, between, attempted, rfl⟩
      · exact .still
      · exact .remember unknown
          (induction (fun _ inner => inside (List.mem_cons_of_mem _ inner)) _ _ _ _ isIn sound
            attempted)
  | star body induction =>
      intro inside cursor progress outcome after isIn sound result
      obtain ⟨repetition, repeats, rfl⟩ := attempt_star result
      exact (induction inside).repeated (exprFaithful body inside) _ isIn sound repeats
  | plus body induction =>
      intro inside cursor progress outcome after isIn sound result
      obtain ⟨repetition, repeats, rfl⟩ := attempt_plus result
      exact .plus ((induction inside).repeated (exprFaithful body inside) _ isIn sound repeats)
  | opt body induction =>
      intro inside cursor progress outcome after isIn sound result
      obtain ⟨_, attempted, _⟩ := attempt_opt result
      exact .opt (induction inside _ _ _ _ isIn sound attempted)
  | ahead body induction =>
      intro inside cursor progress outcome after isIn sound result
      obtain ⟨_, attempted, _⟩ := attempt_ahead result
      exact .ahead (induction inside _ _ _ _ isIn sound attempted)
  | notAhead body induction =>
      intro inside cursor progress outcome after isIn sound result
      obtain ⟨_, attempted, _⟩ := attempt_notAhead result
      exact .notAhead (induction inside _ _ _ _ isIn sound attempted)

theorem Grammar.invoke_isLed (own : grammar.HasOwnSites) (depth : Nat) :
    ∀ name owner, Attempt.IsLed grammar text (.call name) owner (grammar.invoke depth name) := by
  induction depth with
  | zero =>
      intro name owner cursor progress outcome after _ _ result
      cases result
  | succ depth induction =>
      intro name owner cursor progress outcome after isIn sound result
      have faithful (name : ν) : Attempt.IsFaithful grammar text (.call name)
          (grammar.invoke depth name) := invoke_isFaithful own depth name
      rcases invoke_cases result with
        ⟨_, _, rfl⟩ | ⟨rule, bodyOutcome, between, found, attempted, rfl, rfl⟩
      · exact .still
      · have leads := Expr.attempt_isLed own faithful induction found rule.body
          (List.Subset.refl _) cursor progress _ _ isIn sound attempted
        cases bodyOutcome with
        | matched last values =>
            obtain ⟨_, settled, _⟩ := Expr.attempt_isFaithful faithful own found rule.body
              (List.Subset.refl _) isIn sound attempted
            exact .finish found leads settled
        | failed | stuck => exact .call found leads

theorem Grammar.exists_leads_of_run (own : grammar.HasOwnSites) {start : ν} {outcome : Outcome}
    {events : List Event} (result : grammar.run start text = some (outcome, events)) :
    ∃ after, (Expr.call start).Leads grammar text start (Cursor.start text) .start after ∧
      after.events.reverse = events := by
  obtain ⟨⟨runOutcome, after⟩, invoked, equal⟩ := Option.map_eq_some_iff.mp result
  cases equal
  exact ⟨after, invoke_isLed own _ start start _ _ _ _ (Cursor.isIn_start text)
    (Progress.isSound_start grammar text) invoked, rfl⟩

end

end QubitLang.Peg
