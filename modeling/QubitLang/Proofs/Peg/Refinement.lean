import QubitLang.Proofs.Peg.Explained
import QubitLang.Proofs.Peg.Furthest
import QubitLang.Proofs.Peg.Tables

/-! Matching with memory answers what evaluation without memory finds: what was remembered hides
neither a value nor an expectation. -/

namespace QubitLang.Peg

/-- What a match with some events answers where evaluation without memory ends with an outcome
and expectations. -/
structure Answers (outcome : Outcome) (expected : List Expectation) (events : List Event)
    (answer : Except MatchError (Option Value)) : Prop where
  ok_iff : ∀ value, answer = .ok value ↔
    ∃ last values, outcome = .matched last values ∧ values.head? = value
  rejected_of_failed : ∀ explained, outcome = .failed explained → isExplained events = true →
    ∃ error, answer = .error (.rejected error) ∧ IsFurthest expected error
  unexplained_of_failed : ∀ explained, outcome = .failed explained →
    isExplained events = false → answer = .error .unexplained
  error_of_stuck : outcome = .stuck → answer = .error .noAlternative

section

variable {ν : Type} [BEq ν] [Hashable ν] {grammar : Grammar ν} {start : ν} {text : Text}
  {outcome : Outcome} {events : List Event} {expected : List Expectation} {trace : Bool}

theorem answers_of_run (result : grammar.run start text = some (outcome, events))
    (same : ∀ expectation, expectation ∈ events.filterMap Event.expectation? ↔
      expectation ∈ expected) :
    Answers outcome expected events (grammar.matchText start text trace).outcome := by
  simp only [Grammar.matchText, result]
  cases outcome with
  | matched last values =>
      refine ⟨fun value => ?_, nofun, nofun, nofun⟩
      constructor
      · rintro ⟨⟩
        exact ⟨last, values, rfl, rfl⟩
      · rintro ⟨_, _, ⟨⟩, rfl⟩
        rfl
  | failed explained =>
      refine ⟨fun value => ⟨nofun, nofun⟩, fun _ _ told => ?_, fun _ _ untold => ?_, nofun⟩
      · rw [failure, if_pos told]
        exact ⟨_, rfl, isFurthest_syntaxErrorOf text same⟩
      · rw [failure, untold, if_neg Bool.false_ne_true]
  | stuck => exact ⟨fun value => ⟨nofun, nofun⟩, nofun, nofun, fun _ => rfl⟩

end

namespace RuleTable

/-- A table without left recursion matches what its rules match without memory, with the same
value. A failed match is an error at the furthest offset at which anything was expected without
memory, with all that was expected there, unless there is no telling why it failed; there is if
all repetitions advance that have to match. Nothing is matched where the limit leaves no room. -/
theorem matchText_answers {table : RuleTable} (arises : table.Arises) {start : String}
    {grammar : Grammar String} (compiles : ((compile start).run table).1 = .ok grammar)
    (acyclic : ¬ grammar.IsLeftRecursive) {options : Options} {text : Text}
    (shallow : Nesting.firstExcess? options.maxDepth text = none) :
    (options.HasRoom → ∃ outcome expected events,
      grammar.run start text = some (outcome, events) ∧
      (Expr.call start).Settles grammar (Cursor.start text) outcome expected ∧
      Answers outcome expected events ((matchText start text options).run table).1.outcome ∧
      (grammar.RepeatsAdvance grammar.nullable → isExplained events = true)) ∧
    (¬ options.HasRoom → (matchText start text options).run table =
      (⟨[], .error (.tooManyFrames ⟨options.frames⟩)⟩, table)) := by
  refine ⟨fun room => ?_, fun full => ?_⟩
  · obtain ⟨own, complete, known⟩ := (arises.isSound.compile start).2 grammar compiles
    have ranked := complete.isRanked (List.ne_nil_of_mem known) acyclic
    obtain ⟨outcome, events, result⟩ := ranked.run_eq_some own start text
    obtain ⟨expected, settled, same⟩ := Grammar.settles_of_run own result
    rw [outcome_matchText (admission_eq_ok shallow room) compiles]
    exact ⟨outcome, expected, events, result, settled, answers_of_run result same,
      fun advance => Grammar.isExplained_of_run ranked own advance result⟩
  · rw [run_matchText, admission_of_full shallow full]

/-! ## A fork that is tried again -/

/-- Two letters `b`, or a `b` and a `d`. The first alternative is tried once more at last. -/
def forkTable : RuleTable :=
  ((register "fork" (.tree "fork") (.choice [.sequence [.call "letter", .call "letter"],
    .sequence [.call "letter", .quotedLiteral "d"],
    .sequence [.call "letter", .call "letter"]])).run
      ((register "letter" (.token "letter") (.quotedLiteral "b")).run empty).2).2

theorem settles_fork : (Expr.call "fork").Settles forkTable.grammar (Cursor.start ['b', 'x'])
    (.failed true) [("\"b\"", 1), ("\"d\"", 1), ("\"b\"", 1)] := by
  apply Filter.eventually_atTop.mpr
  refine ⟨6, fun depth enough => ?_⟩
  obtain ⟨more, rfl⟩ := Nat.exists_eq_add_of_le' enough
  rfl

theorem repeatsAdvance_fork (nullable : String → Bool) :
    forkTable.grammar.RepeatsAdvance nullable := by
  intro name rule found
  have advance : forkTable.definitions.all (fun entry =>
    entry.2.body.repeatsAdvance nullable) = true := rfl
  exact List.all_eq_true.mp advance (name, rule) (mem_of_lookup found)

theorem not_isLeftRecursive_fork : ¬ forkTable.grammar.IsLeftRecursive :=
  not_isLeftRecursive_of_isRankedBy (fun name => ["_expect_0", "_expect_1"].contains name)
    (fun name => forkTable.grammar.names.idxOf name) rfl

/-- Behind the first letter, either letter is expected. The failure of the one that is tried
again is remembered, and it is told once. -/
theorem matchText_answers_fork :
    forkTable.Arises ∧ ((compile "fork").run forkTable).1 = .ok forkTable.grammar ∧
      ¬ forkTable.grammar.IsLeftRecursive ∧
      Nesting.firstExcess? ({} : Options).maxDepth ['b', 'x'] = none ∧
      ∃ error, ((matchText "fork" ['b', 'x'] {}).run forkTable).1.outcome =
          .error (.rejected error) ∧
        error.offset = 1 ∧ ∀ label, label ∈ error.expected ↔ label = "\"b\"" ∨ label = "\"d\"" := by
  have arises : forkTable.Arises := .register _ _ _ (.register _ _ _ .empty)
  have compiles : ((compile "fork").run forkTable).1 = .ok forkTable.grammar := rfl
  have shallow : Nesting.firstExcess? ({} : Options).maxDepth ['b', 'x'] = none := rfl
  refine ⟨arises, compiles, not_isLeftRecursive_fork, shallow, ?_⟩
  obtain ⟨outcome, expected, events, _, settled, answers, told⟩ :=
    (matchText_answers arises compiles not_isLeftRecursive_fork shallow).1 (by decide)
  obtain ⟨rfl, rfl⟩ := settled.unique settles_fork
  obtain ⟨error, rejected, furthest⟩ :=
    answers.rejected_of_failed true rfl (told (repeatsAdvance_fork _))
  obtain ⟨expectation, member, offset_eq⟩ := furthest.reached (List.cons_ne_nil _ _)
  have offset_one : error.offset = 1 := by
    rw [← offset_eq]
    simp only [List.mem_cons, List.not_mem_nil, or_false] at member
    rcases member with rfl | rfl | rfl <;> rfl
  refine ⟨error, rejected, offset_one, fun label => ?_⟩
  rw [furthest.mem_expected, offset_one]
  simp [or_comm]

/-! ## An end that cannot be told -/

def endTable : RuleTable :=
  ((register "S" (.tree "S") (.sequence [.quotedLiteral "a",
    .choice [.quotedLiteral "b", .plus (.notAhead (.terminal .anyCharacter))]])).run empty).2

def endLetter : Expr String :=
  .remember 0 (.alt (.terminal (.literal ['a'])) (.seq (.call "_expect_0") .never))

def endChoice : Expr String :=
  .remember 1 (.alt (.terminal (.literal ['b'])) (.alt (.seq (.call "_expect_1") .never)
    (.plus (.notAhead (.terminal .anyCharacter)))))

theorem rule_endTable :
    endTable.grammar.rule "S" = some ⟨.tree "S", .seq endLetter endChoice⟩ := rfl

def endProgress : Progress String :=
  Progress.start.remember ("S", 0, 0) (.matched ⟨1, []⟩ [])

theorem outcomeOf?_start (key : MemoryKey String) : Progress.start.outcomeOf? key = none :=
  Std.HashMap.getElem?_empty

theorem attempt_endLetter :
    endLetter.attempt (endTable.grammar.invoke 6) "S" (Cursor.start ['a']) .start =
      some (.matched ⟨1, []⟩ [], endProgress) := by
  rw [endLetter, Expr.attempt]
  simp only [Cursor.start, outcomeOf?_start]
  rfl

/-- At the end of the text, nothing can be told of a repetition that matches nothing. -/
theorem attempt_endChoice : ∃ last,
    endChoice.attempt (endTable.grammar.invoke 6) "S" ⟨1, []⟩ endProgress =
      some (.failed false, last) ∧ isExplained last.events.reverse = false := by
  have unknown : endProgress.outcomeOf? ("S", 1, 1) = none := by
    rw [endProgress, Progress.outcomeOf?_remember, if_neg (by decide)]
    exact outcomeOf?_start _
  rw [endChoice, Expr.attempt]
  simp only [unknown]
  exact ⟨_, rfl, rfl⟩

theorem run_endTable : ∃ events, endTable.grammar.run "S" ['a'] = some (.failed false, events) ∧
    isExplained events = false := by
  obtain ⟨last, choiceFails, untold⟩ := attempt_endChoice
  have bodyFails : (Expr.seq endLetter endChoice).attempt (endTable.grammar.invoke 6) "S"
      (Cursor.start ['a']) .start = some (.failed false, last) := by
    rw [Expr.attempt, attempt_endLetter]
    simp only [choiceFails]
  have invoked : endTable.grammar.invoke (endTable.grammar.depthBound ['a']) "S"
      (Cursor.start ['a']) .start = some (.failed false, last) := by
    change endTable.grammar.invoke (6 + 1) _ _ _ = _
    rw [Grammar.invoke, rule_endTable]
    simp only [bodyFails]
  refine ⟨last.events.reverse, ?_, untold⟩
  rw [Grammar.run, invoked, Option.map_some]

/-- Without memory the `b` is expected behind the `a`, but the match is no syntax error: there is
no telling why it failed. -/
theorem matchText_unexplained_end :
    endTable.Arises ∧ ¬ endTable.grammar.IsLeftRecursive ∧
      (Expr.call "S").Settles endTable.grammar (Cursor.start ['a']) (.failed false)
        [("\"b\"", 1)] ∧
      ((matchText "S" ['a'] {}).run endTable).1.outcome = .error .unexplained := by
  refine ⟨.register _ _ _ .empty, ?_, ?_, ?_⟩
  · exact not_isLeftRecursive_of_isRankedBy
      (fun name => ["_expect_0", "_expect_1"].contains name)
      (fun name => endTable.grammar.names.idxOf name) rfl
  · apply Filter.eventually_atTop.mpr
    refine ⟨6, fun depth enough => ?_⟩
    obtain ⟨more, rfl⟩ := Nat.exists_eq_add_of_le' enough
    rfl
  · obtain ⟨events, result, untold⟩ := run_endTable
    have admitted : admission ['a'] {} = .ok () := admission_eq_ok rfl (by decide)
    have compiles : ((compile "S").run endTable).1 = .ok endTable.grammar := rfl
    rw [outcome_matchText admitted compiles]
    simp only [Grammar.matchText, result, failure, untold]
    rfl

end RuleTable

end QubitLang.Peg
