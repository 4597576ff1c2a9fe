import QubitLang.Proofs.Language.Rejection
import QubitLang.Proofs.Peg.Tables

/-! Matching ends, with a table of rules of which none comes back to itself, and with the grammar
of the language: the answer is never that a rule invokes itself. -/

namespace QubitLang

theorem Peg.Grammar.matchText_ne_leftRecursive {ν : Type} [BEq ν] [Hashable ν]
    {grammar : Grammar ν} {start : ν} {text : Text} {outcome : Outcome} {events : List Event}
    (result : grammar.run start text = some (outcome, events)) (trace : Bool) :
    (grammar.matchText start text trace).outcome ≠ .error .leftRecursive := by
  simp only [matchText, result]
  cases outcome with
  | matched _ _ | stuck => rintro ⟨⟩
  | failed explained =>
      simp only [failure]
      split <;> rintro ⟨⟩

theorem Peg.admission_ne_leftRecursive (text : Text) (options : Options) :
    admission text options ≠ .error .leftRecursive := by
  intro refused
  rcases eq_of_admission_eq_error refused with ⟨_, equal⟩ | equal <;> cases equal

/-! ## The language -/

namespace Language

theorem not_comesBack : ¬ grammar.ComesBack := by
  intro comesBack
  have isClosed : grammar.IsClosed Nonterminal.isNullable := grammar_isRanked.nullable_of_body
  exact isClosed.not_isLeftRecursive grammar_isRanked.rank_of_leftCall comesBack.isLeftRecursive

variable (start : Nonterminal) (source : Text) (options : Options)

theorem matchSource_ne_leftRecursive :
    (Parse.matchSource start source options).outcome ≠ .error (.unmatched .leftRecursive) := by
  obtain ⟨outcome, events, result⟩ := run_eq_some start source
  have ends := Peg.Grammar.matchText_ne_leftRecursive result options.trace
  unfold Parse.matchSource
  cases refused : Peg.admission source options with
  | error error =>
      rintro ⟨⟩
      exact Peg.admission_ne_leftRecursive source options refused
  | ok admitted => exact fun found => ends (Report.mapError_unmatched_eq_error_iff.mp found)

theorem tree_ne_leftRecursive :
    (Parse.tree source options).outcome ≠ .error (.unmatched .leftRecursive) := by
  intro found
  rcases Report.andThen_eq_error_iff.mp found with unmatched | ⟨value, _, assembled⟩
  · exact matchSource_ne_leftRecursive .program source options unmatched
  · split at assembled <;> cases assembled

theorem fragment_ne_leftRecursive (description rule : String) :
    (Parse.fragment start description rule source options).outcome ≠
      .error (.unmatched .leftRecursive) := by
  intro found
  rcases Report.andThen_eq_error_iff.mp found with unmatched | ⟨value, _, single⟩
  · exact matchSource_ne_leftRecursive start source options unmatched
  · split at single
    · split at single <;> cases single
    · cases single

end Language

namespace Peg.RuleTable

/-! ## Tables of rules -/

/-- Every match ends, with a value or an error, with a table from which a start rule compiles to a
grammar in which no rule is invoked inside itself before a character was matched. No more
invocations are inside one another than the bound that a match sets for them, and with more of
them the result is the same. The grammar of the language is such a grammar, so that every source
text has a tree or an error. -/
theorem matching_ends :
    (∀ {table : RuleTable}, table.Arises → ∀ {start : String},
      (∀ grammar, ((compile start).run table).1 = .ok grammar → ¬ grammar.ComesBack) →
        ∀ (text : Text) (options : Options),
          ((matchText start text options).run table).1.outcome ≠ .error .leftRecursive ∧
          ∀ grammar, ((compile start).run table).1 = .ok grammar → ∃ outcome after,
            grammar.run start text = some (outcome, after.events.reverse) ∧
            ∀ depth, grammar.depthBound text ≤ depth →
              grammar.invoke depth start (Cursor.start text) .start = some (outcome, after)) ∧
    ¬ Language.grammar.ComesBack ∧
    ∀ (source : Text) (options : Options),
      (Parse.program source options).outcome ≠ .error (.unmatched .leftRecursive) ∧
      (Parse.expression source options).outcome ≠ .error (.unmatched .leftRecursive) ∧
      (Parse.statement source options).outcome ≠ .error (.unmatched .leftRecursive) := by
  refine ⟨?_, Language.not_comesBack, fun source options => ⟨?_, ?_, ?_⟩⟩
  · intro table arises start never text options
    have ends : ∀ grammar, ((compile start).run table).1 = .ok grammar → ∃ outcome after,
        grammar.run start text = some (outcome, after.events.reverse) ∧
        ∀ depth, grammar.depthBound text ≤ depth →
          grammar.invoke depth start (Cursor.start text) .start = some (outcome, after) := by
      intro grammar compiles
      obtain ⟨own, complete, _⟩ := (arises.isSound.compile start).2 grammar compiles
      obtain ⟨outcome, _, after, _, invoked⟩ := complete.exists_invoke own (never grammar compiles)
        text start (Cursor.isIn_start text)
      refine ⟨outcome, after, ?_, invoked⟩
      simp only [Grammar.run, invoked _ (Nat.le_refl _), Option.map_some]
    refine ⟨?_, ends⟩
    rw [run_matchText]
    cases refused : admission text options with
    | error error =>
        rintro ⟨⟩
        exact admission_ne_leftRecursive text options refused
    | ok admitted =>
        rcases compiled : (compile start).run table with ⟨error | grammar, after⟩
        · rintro ⟨⟩
        · obtain ⟨outcome, last, result, _⟩ := ends grammar (by rw [compiled])
          exact Grammar.matchText_ne_leftRecursive result options.trace
  · intro found
    rcases Report.andThen_eq_error_iff.mp found with untreed | ⟨node, _, unbuilt⟩
    · exact Language.tree_ne_leftRecursive source options untreed
    · split at unbuilt <;> cases unbuilt
  · intro found
    rcases Report.andThen_eq_error_iff.mp found with unmatched | ⟨node, _, unbuilt⟩
    · exact Language.fragment_ne_leftRecursive _ source options _ _ unmatched
    · exact absurd unbuilt Language.ofOutcome_mapError_ne_unmatched
  · intro found
    rcases Report.andThen_eq_error_iff.mp found with unmatched | ⟨node, _, unbuilt⟩
    · exact Language.fragment_ne_leftRecursive _ source options _ _ unmatched
    · exact absurd unbuilt Language.ofOutcome_mapError_ne_unmatched

def idleTable : RuleTable :=
  ((register "S" (.tree "S") (.sequence [.star (.call "idle"), .plus (.call "idle"),
    .quotedLiteral "b"])).run
      ((register "idle" .silent (.opt (.quotedLiteral "a"))).run empty).2).2

/-- Repetitions of what may match nothing end as well. -/
theorem matching_ends_idle :
    idleTable.Arises ∧
      (∀ grammar, ((compile "S").run idleTable).1 = .ok grammar → ¬ grammar.ComesBack) ∧
      ((matchText "S" ['a', 'c'] {}).run idleTable).1.outcome ≠ .error .leftRecursive := by
  have arises : idleTable.Arises := .register _ _ _ (.register _ _ _ .empty)
  have never : ∀ grammar, ((compile "S").run idleTable).1 = .ok grammar →
      ¬ grammar.ComesBack := by
    rintro grammar ⟨⟩ comesBack
    have ranked : ¬ idleTable.grammar.IsLeftRecursive := not_isLeftRecursive_of_isRankedBy
      (fun name => ["idle", "_expect_0", "_expect_1"].contains name)
      (fun name => ["_expect_0", "_expect_1", "idle", "S"].idxOf name) rfl
    exact ranked comesBack.isLeftRecursive
  exact ⟨arises, never, (matching_ends.1 arises never ['a', 'c'] {}).1⟩

end Peg.RuleTable

end QubitLang
