import QubitLang.Peg.Match
import QubitLang.Proofs.Peg.Memory
import QubitLang.Proofs.Peg.Termination

/-! Failures without an explanation. They come from one place only: a repetition that has to
match, tried at the end of a text, of what matches nothing there. Without such repetitions
every failed match is reported as a syntax error. -/

namespace QubitLang.Peg

variable {ν : Type}

/-- Whether what has to be repeated at least once always matches something. -/
def Expr.repeatsAdvance (nullable : ν → Bool) : Expr ν → Bool
  | .empty | .never | .noAlternative | .terminal _ | .call _ => true
  | .seq first second | .alt first second =>
    first.repeatsAdvance nullable && second.repeatsAdvance nullable
  | .plus body => !body.isNullable nullable && body.repeatsAdvance nullable
  | .remember _ body | .star body | .opt body | .ahead body | .notAhead body =>
    body.repeatsAdvance nullable

/-! ## Explained failures -/

def Outcome.IsExplained (outcome : Outcome) : Prop := outcome ≠ .failed false

def Event.IsExplained (event : Event) : Prop := ∀ offset, event ≠ .failed offset false

theorem Outcome.isExplained_matched (cursor : Cursor) (values : List Value) :
    (Outcome.matched cursor values).IsExplained := by
  intro equal
  cases equal

theorem Outcome.isExplained_stuck : Outcome.stuck.IsExplained := by
  intro equal
  cases equal

theorem Outcome.isExplained_failed : (Outcome.failed true).IsExplained := by
  intro equal
  cases equal

theorem Outcome.IsExplained.precededBy {outcome : Outcome} (explained : outcome.IsExplained)
    (values : List Value) : (outcome.precededBy values).IsExplained := by
  cases outcome with
  | matched last more => exact isExplained_matched _ _
  | failed | stuck => exact explained

theorem Outcome.IsExplained.orNothing {outcome : Outcome} (explained : outcome.IsExplained)
    (cursor : Cursor) : (outcome.orNothing cursor).IsExplained := by
  cases outcome with
  | failed _ => exact isExplained_matched _ _
  | matched | stuck => exact explained

theorem Outcome.isExplained_asAhead (outcome : Outcome) (cursor : Cursor) :
    (outcome.asAhead cursor).IsExplained := by
  cases outcome with
  | matched _ _ => exact isExplained_matched _ _
  | failed _ => exact isExplained_failed
  | stuck => exact isExplained_stuck

theorem Outcome.isExplained_asNotAhead (outcome : Outcome) (cursor : Cursor) :
    (outcome.asNotAhead cursor).IsExplained := by
  cases outcome with
  | matched _ _ => exact isExplained_failed
  | failed _ => exact isExplained_matched _ _
  | stuck => exact isExplained_stuck

theorem RuleKind.isExplained_finished (kind : RuleKind) (start : Cursor) {outcome : Outcome}
    (explained : outcome.IsExplained) : (kind.finished start outcome).IsExplained := by
  cases outcome with
  | matched _ _ => exact Outcome.isExplained_matched _ _
  | failed | stuck => exact explained

theorem Outcome.IsExplained.event {outcome : Outcome} (explained : outcome.IsExplained)
    (offset : Nat) : ∀ event ∈ outcome.event? offset, event.IsExplained := by
  intro event member later equal
  subst equal
  cases outcome with
  | matched | stuck => cases member
  | failed told =>
      cases member
      exact explained rfl

theorem RuleKind.isExplained_event (kind : RuleKind) (start : Cursor) (outcome : Outcome) :
    ∀ event ∈ kind.event? start outcome, event.IsExplained := by
  intro event member offset equal
  subst equal
  cases outcome with
  | matched => cases kind <;> cases member
  | failed | stuck => cases member

theorem Repetition.isExplained_outcome (repetition : Repetition) :
    repetition.outcome.IsExplained := by
  unfold Repetition.outcome
  split
  · exact Outcome.isExplained_stuck
  · exact Outcome.isExplained_matched _ _

/-- A repetition that has to match tells why it did not, unless what ended it has matched. -/
theorem Repetition.isExplained_outcomeOfSome {repetition : Repetition}
    (explained : repetition.last.IsExplained)
    (unmatched : repetition.count = 0 → ∀ next values, repetition.last ≠ .matched next values) :
    repetition.outcomeOfSome.IsExplained := by
  unfold Repetition.outcomeOfSome
  split
  · exact Outcome.isExplained_stuck
  · rename_i none _
    cases last_eq : repetition.last with
    | matched next values => exact absurd last_eq (unmatched none next values)
    | failed told =>
        cases told with
        | true => exact Outcome.isExplained_failed
        | false => exact absurd last_eq explained
    | stuck => exact Outcome.isExplained_failed
  · exact Outcome.isExplained_matched _ _

theorem isExplained_of_events {events : List Event}
    (explained : ∀ event ∈ events, event.IsExplained) : isExplained events = true := by
  have allTold : (failuresAt (furthestOffset events) events).all id = true := by
    refine List.all_eq_true.mpr fun told member => ?_
    obtain ⟨event, eventMember, told_eq⟩ := List.mem_filterMap.mp member
    cases event with
    | matched | expected | passed => cases told_eq
    | failed offset fine =>
        cases fine with
        | false => exact absurd rfl (explained _ eventMember offset)
        | true =>
            simp only at told_eq
            split at told_eq
            · exact (Option.some.inj told_eq).symm
            · cases told_eq
  rw [isExplained, allTold, Bool.or_true]

variable [BEq ν] [Hashable ν]

structure Progress.IsExplained (progress : Progress ν) : Prop where
  events : ∀ event ∈ progress.events, event.IsExplained
  memory : ∀ key outcome, progress.outcomeOf? key = some outcome → outcome.IsExplained

namespace Progress

variable {progress : Progress ν}

theorem isExplained_start : (start : Progress ν).IsExplained where
  events := by
    intro event member
    cases member
  memory key outcome found := by simp [start, outcomeOf?] at found

theorem isExplained_events_noteIf (before : ∀ event ∈ progress.events, event.IsExplained)
    {event : Option Event} (fine : ∀ noted ∈ event, noted.IsExplained) :
    ∀ other ∈ (progress.noteIf event).events, other.IsExplained := by
  cases event with
  | none => exact before
  | some event =>
      intro other member
      rcases List.mem_cons.mp member with rfl | earlier
      · exact fine _ rfl
      · exact before other earlier

theorem IsExplained.noteIf (explained : progress.IsExplained) {event : Option Event}
    (fine : ∀ noted ∈ event, noted.IsExplained) : (progress.noteIf event).IsExplained where
  events := isExplained_events_noteIf explained.events fine
  memory key outcome found := by
    rw [outcomeOf?_noteIf] at found
    exact explained.memory key outcome found

theorem IsExplained.note (explained : progress.IsExplained) (offset : Nat) :
    (progress.note (.failed offset true)).IsExplained :=
  @IsExplained.noteIf _ _ _ _ explained (some (.failed offset true)) (by rintro _ ⟨⟩ _ ⟨⟩)

theorem IsExplained.remember [LawfulBEq ν] [DecidableEq ν] (explained : progress.IsExplained)
    (key : MemoryKey ν) {outcome : Outcome} (fine : outcome.IsExplained) :
    (progress.remember key outcome).IsExplained where
  events := by
    let inserted : Progress ν := ⟨progress.memory.insert key outcome, progress.events⟩
    exact @isExplained_events_noteIf _ _ _ inserted explained.events _ (fine.event _)
  memory other found := by
    rw [outcomeOf?_remember]
    split
    · rintro ⟨⟩
      exact fine
    · exact explained.memory other found

end Progress

/-! ## Attempts -/

def Attempt.Explains (grammar : Grammar ν) (text : Text) (attempt : Attempt ν) : Prop :=
  ∀ cursor progress outcome after, cursor.IsIn text → progress.IsSound grammar text →
    progress.IsExplained → attempt cursor progress = some (outcome, after) →
      outcome.IsExplained ∧ after.IsExplained

section

variable {grammar : Grammar ν} {text : Text}

theorem attempt_of_repeated {attempt : Attempt ν} {bound : Nat} {cursor : Cursor}
    {progress after : Progress ν} {repetition : Repetition}
    (result : repeated attempt bound cursor progress = some (repetition, after))
    (none : repetition.count = 0) : attempt cursor progress = some (repetition.last, after) ∧
      ∀ next values, repetition.last = .matched next values → bound = 0 := by
  rcases repeated_cases result with ⟨_, _, _, _, _, _, _, _, rfl⟩ | ⟨last, attempted, rfl, isLast⟩
  · cases none
  · exact ⟨attempted, isLast⟩

theorem Attempt.Explains.repeated {body : Expr ν} {attempt : Attempt ν}
    (explains : Explains grammar text attempt)
    (faithful : IsFaithful grammar text body attempt) (bound : Nat) :
    ∀ {cursor progress repetition after}, cursor.IsIn text → progress.IsSound grammar text →
      progress.IsExplained →
      repeated attempt bound cursor progress = some (repetition, after) →
        repetition.last.IsExplained ∧ after.IsExplained := by
  induction bound with
  | zero =>
      intro cursor progress repetition after isIn sound explained result
      rcases repeated_cases result with ⟨_, _, _, _, _, ⟨⟩, _⟩ | ⟨last, attempted, rfl, _⟩
      exact explains _ _ _ _ isIn sound explained attempted
  | succ bound induction =>
      intro cursor progress repetition after isIn sound explained result
      rcases repeated_cases result with
        ⟨_, next, values, between, rest, ⟨⟩, attempted, again, rfl⟩ | ⟨last, attempted, rfl, _⟩
      · obtain ⟨_, _, nextIsIn, betweenSound, _⟩ := faithful isIn sound attempted
        have betweenExplained := (explains _ _ _ _ isIn sound explained attempted).2
        exact (induction (nextIsIn next values rfl) betweenSound betweenExplained again :)
      · exact explains _ _ _ _ isIn sound explained attempted

variable [LawfulBEq ν] [DecidableEq ν]

theorem Expr.attempt_explains {nullable : ν → Bool} {rank : ν → Nat}
    (ranked : grammar.IsRanked nullable rank) (own : grammar.HasOwnSites)
    {invoke : ν → Attempt ν}
    (faithful : ∀ name, Attempt.IsFaithful grammar text (.call name) (invoke name))
    (explains : ∀ name, Attempt.Explains grammar text (invoke name))
    {owner : ν} {rule : Rule ν} (found : grammar.rule owner = some rule) (expr : Expr ν) :
    expr.remembered ⊆ rule.body.remembered → expr.repeatsAdvance nullable = true →
      Attempt.Explains grammar text (expr.attempt invoke owner) := by
  have exprFaithful (part : Expr ν) := Expr.attempt_isFaithful faithful own found part
  induction expr with
  | empty =>
      intro _ _ cursor progress outcome after _ _ explained result
      cases result
      exact ⟨Outcome.isExplained_matched _ _, explained⟩
  | never =>
      intro _ _ cursor progress outcome after _ _ explained result
      cases result
      exact ⟨Outcome.isExplained_failed, explained.note _⟩
  | noAlternative =>
      intro _ _ cursor progress outcome after _ _ explained result
      cases result
      exact ⟨Outcome.isExplained_stuck, explained⟩
  | terminal accepted =>
      intro _ _ cursor progress outcome after _ _ explained result
      rcases attempt_terminal result with ⟨next, _, rfl, rfl⟩ | ⟨_, rfl, rfl⟩
      · exact ⟨Outcome.isExplained_matched _ _, explained⟩
      · exact ⟨Outcome.isExplained_failed, explained.note _⟩
  | call name => exact fun _ _ => explains name
  | seq first second firstInduction secondInduction =>
      intro inside advance cursor progress outcome after isIn sound explained result
      obtain ⟨firstInside, secondInside⟩ := List.append_subset.mp inside
      rw [repeatsAdvance, Bool.and_eq_true] at advance
      have firstExplains := firstInduction firstInside advance.1
      rcases attempt_seq result with
        ⟨middle, values, between, later, attempted, again, rfl⟩ | ⟨attempted, _⟩
      · obtain ⟨_, _, middleIsIn, betweenSound, _⟩ :=
          exprFaithful first firstInside isIn sound attempted
        have betweenExplained := (firstExplains _ _ _ _ isIn sound explained attempted).2
        obtain ⟨fine, afterExplained⟩ := secondInduction secondInside advance.2 _ _ _ _
          (middleIsIn middle values rfl) betweenSound betweenExplained again
        exact ⟨fine.precededBy values, afterExplained⟩
      · exact firstExplains _ _ _ _ isIn sound explained attempted
  | alt first second firstInduction secondInduction =>
      intro inside advance cursor progress outcome after isIn sound explained result
      obtain ⟨firstInside, secondInside⟩ := List.append_subset.mp inside
      rw [repeatsAdvance, Bool.and_eq_true] at advance
      have firstExplains := firstInduction firstInside advance.1
      rcases attempt_alt result with ⟨_, between, attempted, again⟩ | ⟨attempted, _⟩
      · obtain ⟨_, _, _, betweenSound, _⟩ := exprFaithful first firstInside isIn sound attempted
        have betweenExplained := (firstExplains _ _ _ _ isIn sound explained attempted).2
        exact secondInduction secondInside advance.2 _ _ _ _ isIn betweenSound betweenExplained
          again
      · exact firstExplains _ _ _ _ isIn sound explained attempted
  | remember site body induction =>
      intro inside advance cursor progress outcome after isIn sound explained result
      rcases attempt_remember result with ⟨known, rfl⟩ | ⟨_, between, attempted, rfl⟩
      · exact ⟨explained.memory _ _ known, explained⟩
      · obtain ⟨fine, betweenExplained⟩ :=
          induction (fun _ inner => inside (List.mem_cons_of_mem _ inner)) advance _ _ _ _ isIn
            sound explained attempted
        exact ⟨fine, betweenExplained.remember _ fine⟩
  | star body induction =>
      intro inside advance cursor progress outcome after isIn sound explained result
      obtain ⟨repetition, repeats, rfl⟩ := attempt_star result
      obtain ⟨_, afterExplained⟩ := (induction inside advance).repeated
        (exprFaithful body inside) _ isIn sound explained repeats
      exact ⟨repetition.isExplained_outcome, afterExplained⟩
  | plus body induction =>
      intro inside advance cursor progress outcome after isIn sound explained result
      rw [repeatsAdvance, Bool.and_eq_true, Bool.not_eq_true'] at advance
      obtain ⟨repetition, repeats, rfl⟩ := attempt_plus result
      obtain ⟨fine, afterExplained⟩ := (induction inside advance.2).repeated
        (exprFaithful body inside) _ isIn sound explained repeats
      refine ⟨Repetition.isExplained_outcomeOfSome fine fun none next values last_eq => ?_,
        afterExplained⟩
      -- At the end of the text nothing is left to be matched.
      obtain ⟨attempted, atEnd⟩ := attempt_of_repeated repeats none
      rw [last_eq] at attempted
      obtain ⟨_, settled, _⟩ := exprFaithful body inside isIn sound attempted
      have shorter := (settled.goesOn ranked.nullable_of_body next values rfl).2 advance.1
      rw [atEnd next values last_eq] at shorter
      exact Nat.not_lt_zero _ shorter
  | opt body induction =>
      intro inside advance cursor progress outcome after isIn sound explained result
      obtain ⟨bodyOutcome, attempted, rfl⟩ := attempt_opt result
      obtain ⟨fine, afterExplained⟩ :=
        induction inside advance _ _ _ _ isIn sound explained attempted
      exact ⟨fine.orNothing cursor, afterExplained⟩
  | ahead body induction =>
      intro inside advance cursor progress outcome after isIn sound explained result
      obtain ⟨bodyOutcome, attempted, rfl⟩ := attempt_ahead result
      exact ⟨bodyOutcome.isExplained_asAhead cursor,
        (induction inside advance _ _ _ _ isIn sound explained attempted).2⟩
  | notAhead body induction =>
      intro inside advance cursor progress outcome after isIn sound explained result
      obtain ⟨bodyOutcome, attempted, rfl⟩ := attempt_notAhead result
      exact ⟨bodyOutcome.isExplained_asNotAhead cursor,
        (induction inside advance _ _ _ _ isIn sound explained attempted).2⟩

def Grammar.RepeatsAdvance (grammar : Grammar ν) (nullable : ν → Bool) : Prop :=
  ∀ name rule, grammar.rule name = some rule → rule.body.repeatsAdvance nullable = true

theorem Grammar.invoke_explains {nullable : ν → Bool} {rank : ν → Nat}
    (ranked : grammar.IsRanked nullable rank) (own : grammar.HasOwnSites)
    (advance : grammar.RepeatsAdvance nullable) (depth : Nat) :
    ∀ name, Attempt.Explains grammar text (grammar.invoke depth name) := by
  induction depth with
  | zero =>
      intro name cursor progress outcome after _ _ _ result
      cases result
  | succ depth induction =>
      intro name cursor progress outcome after isIn sound explained result
      rcases invoke_cases result with
        ⟨_, rfl, rfl⟩ | ⟨rule, bodyOutcome, between, found, attempted, rfl, rfl⟩
      · exact ⟨Outcome.isExplained_failed, explained⟩
      · obtain ⟨fine, betweenExplained⟩ := Expr.attempt_explains ranked own
          (invoke_isFaithful own depth) induction found rule.body (List.Subset.refl _)
          (advance name rule found) _ _ _ _ isIn sound explained attempted
        exact ⟨rule.kind.isExplained_finished cursor fine,
          betweenExplained.noteIf (rule.kind.isExplained_event cursor bodyOutcome)⟩

/-- All failures on the way of a match are explained, if its repetitions advance. -/
theorem Grammar.isExplained_of_run {nullable : ν → Bool} {rank : ν → Nat}
    (ranked : grammar.IsRanked nullable rank) (own : grammar.HasOwnSites)
    (advance : grammar.RepeatsAdvance nullable) {start : ν} {outcome : Outcome}
    {events : List Event} (result : grammar.run start text = some (outcome, events)) :
    isExplained events = true := by
  obtain ⟨⟨runOutcome, after⟩, invoked, equal⟩ := Option.map_eq_some_iff.mp result
  cases equal
  have explained := (invoke_explains ranked own advance _ start _ _ _ _ (Cursor.isIn_start text)
    (Progress.isSound_start grammar text) Progress.isExplained_start invoked).2
  apply isExplained_of_events
  intro event member
  exact explained.events event (List.mem_reverse.mp member)

end

end QubitLang.Peg
