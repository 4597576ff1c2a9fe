import QubitLang.Nesting
import QubitLang.Options
import QubitLang.Peg.Eval
import QubitLang.Report

namespace QubitLang.Peg

/-! Matching a rule against a text, and the error that a failed match is
reported as: what was expected at the furthest offset that was reached. -/

/-! ## Why a match failed -/

def expectationsOf (events : List Event) : Expectations :=
  events.foldl (fun expectations event =>
    match event with
    | .expected label offset => expectations.record offset label
    | _ => expectations) .none

def Event.reached? : Event → Option Nat
  | .failed offset _ | .passed offset => some offset
  | _ => none

def furthestOffset (events : List Event) : Nat :=
  (events.filterMap Event.reached?).foldl max 0

def failuresAt (offset : Nat) (events : List Event) : List Bool :=
  events.filterMap fun event =>
    match event with
    | .failed failed explained => if failed = offset then some explained else none
    | _ => none

/-- Where a match failed that expected nothing: the furthest offset, if anything
failed there, and otherwise the start of the text. -/
def failureOffset (events : List Event) : Nat :=
  let furthest := furthestOffset events
  if (failuresAt furthest events).isEmpty then 0 else furthest

/-- Whether the failures at the furthest offset can be told: behind the start of
the text each of them must be explained. -/
def isExplained (events : List Event) : Bool :=
  let furthest := furthestOffset events
  furthest == 0 || (failuresAt furthest events).all id

def syntaxErrorOf (text : Text) (events : List Event) : SyntaxError :=
  let expectations := expectationsOf events
  if expectations.furthest < 0 then
    SyntaxError.atOffset text (failureOffset events) []
  else expectations.error text

/-! ## Errors -/

inductive CompileError where
  | unknownStart (rule : String)
  | undefinedRule (rule : String)
  | improperClass
  /-- An alias was called before the rule that it stands for had a body. -/
  | unfilledAlias (rule : String)
  deriving DecidableEq, Repr

def CompileError.message : CompileError → String
  | .unknownStart rule => "no rule named " ++ Text.quoted rule.toList
  | .undefinedRule rule => "undefined nonterminal: " ++ rule
  | .improperClass => "improper character class"
  | .unfilledAlias rule => "undefined rule: " ++ rule

inductive MatchError where
  | rejected (error : SyntaxError)
  | tooManyFrames (overflow : FrameOverflow)
  | notCompiled (error : CompileError)
  | leftRecursive
  | noAlternative
  | unexplained
  /-- A rule or marker was to act while no match was in progress. -/
  | noMatchInProgress
  | notATree
  deriving DecidableEq, Repr

def MatchError.message : MatchError → String
  | .rejected error => error.message
  | .tooManyFrames overflow => overflow.message
  | .notCompiled error => error.message
  | .leftRecursive => "rule invokes itself before anything is matched"
  | .noAlternative => "choice without alternatives"
  | .unexplained => "match failed without a reason"
  | .noMatchInProgress => "grammar action invoked outside of a match call"
  | .notATree => "the match is not a tree"

def failure (text : Text) (events : List Event) : MatchError :=
  if isExplained events then .rejected (syntaxErrorOf text events) else .unexplained

/-! ## Matching -/

/-- What is checked before anything is matched: the nesting of the text, and
then whether the stack can be made high enough for the limit. -/
def admission (text : Text) (options : Options) : Except MatchError Unit :=
  match Nesting.check options.maxDepth text with
  | .error error => .error (.rejected error)
  | .ok () => options.reserveFrames.mapError .tooManyFrames

section Admission

variable {text : Text} {options : Options}

theorem admission_of_excess {offset : Nat}
    (excess : Nesting.firstExcess? options.maxDepth text = some offset) :
    admission text options =
      .error (.rejected (Nesting.error options.maxDepth text offset)) := by
  rw [admission, Nesting.check, excess]

theorem admission_of_full (shallow : Nesting.firstExcess? options.maxDepth text = none)
    (full : ¬ options.HasRoom) :
    admission text options = .error (.tooManyFrames ⟨options.frames⟩) := by
  rw [admission, Nesting.check, shallow, Options.reserveFrames_of_not_hasRoom full]
  rfl

theorem admission_eq_ok (shallow : Nesting.firstExcess? options.maxDepth text = none)
    (room : options.HasRoom) : admission text options = .ok () := by
  rw [admission, Nesting.check, shallow, options.reserveFrames_eq_ok_iff.mpr room]
  rfl

theorem admission_eq_ok_iff : admission text options = .ok () ↔
    Nesting.firstExcess? options.maxDepth text = none ∧ options.HasRoom := by
  refine ⟨fun admitted => ?_, fun ⟨shallow, room⟩ => admission_eq_ok shallow room⟩
  cases excess : Nesting.firstExcess? options.maxDepth text with
  | some offset => simp [admission_of_excess excess] at admitted
  | none =>
    refine ⟨rfl, Decidable.byContradiction fun full => ?_⟩
    simp [admission_of_full excess full] at admitted

theorem eq_of_admission_eq_error {cause : MatchError}
    (refused : admission text options = .error cause) :
    (∃ error, cause = .rejected error) ∨ cause = .tooManyFrames ⟨options.frames⟩ := by
  cases excess : Nesting.firstExcess? options.maxDepth text with
  | some offset =>
    rw [admission_of_excess excess] at refused
    exact .inl ⟨_, (Except.error.inj refused).symm⟩
  | none =>
    by_cases room : options.HasRoom
    · rw [admission_eq_ok excess room] at refused
      cases refused
    · rw [admission_of_full excess room] at refused
      exact .inr (Except.error.inj refused).symm

end Admission

variable {ν : Type} [BEq ν] [Hashable ν]

/-- Matches a rule at the head of a text, whose nesting is not checked here.
The result is the first value that the rule contributes, if any. -/
def Grammar.matchText (grammar : Grammar ν) (start : ν) (text : Text)
    (trace : Bool) : Report MatchError (Option Value) :=
  match grammar.run start text with
  | none => ⟨[], .error .leftRecursive⟩
  | some (outcome, events) =>
    { log := if trace then events.filterMap LogLine.ofEvent? else []
      outcome :=
        match outcome with
        | .matched _ values => .ok values.head?
        | .failed _ => .error (failure text events)
        | .stuck => .error .noAlternative }

/-- Matches a rule at the head of a text while no match is in progress, so that
nothing can be noted: the first event that a trace would have is an error. -/
def Grammar.matchDetached (grammar : Grammar ν) (start : ν) (text : Text) :
    Except MatchError (Option Value) :=
  let report := grammar.matchText start text true
  if report.log.isEmpty then report.outcome else .error .noMatchInProgress

end QubitLang.Peg
