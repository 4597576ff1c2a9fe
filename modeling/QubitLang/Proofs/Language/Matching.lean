import QubitLang.Parse
import QubitLang.Proofs.Language.Entries
import QubitLang.Proofs.Language.Nesting

/-! Matching a source text is reading its lexemes: it succeeds if all of them are read
and nothing is left of the text, and it fails with what was noted on the way. -/

namespace QubitLang

/-! ## Reports in turn -/

namespace Report

variable {ε ε' α β : Type} {report : Report ε α} {next : α → Report ε β} {result : β} {error : ε}

theorem andThen_eq_ok_iff : (report.andThen next).outcome = .ok result ↔
    ∃ value, report.outcome = .ok value ∧ (next value).outcome = .ok result := by
  cases outcome : report.outcome <;> simp [andThen, outcome]

theorem andThen_eq_error_iff : (report.andThen next).outcome = .error error ↔
    report.outcome = .error error ∨
      ∃ value, report.outcome = .ok value ∧ (next value).outcome = .error error := by
  cases outcome : report.outcome <;> simp [andThen, outcome]

theorem mapError_eq_ok_iff {change : ε → ε'} {value : α} :
    (report.mapError change).outcome = .ok value ↔ report.outcome = .ok value := by
  cases outcome : report.outcome <;> simp [mapError, outcome, Except.mapError]

theorem mapError_unmatched_eq_error_iff {report : Report Peg.MatchError α}
    {cause : Peg.MatchError} :
    (report.mapError ParseError.unmatched).outcome = .error (.unmatched cause) ↔
      report.outcome = .error cause := by
  cases outcome : report.outcome <;> simp [mapError, outcome, Except.mapError]

end Report

namespace Language

open Peg (Outcome Event Expectation)

/-! ## Matches -/

variable {start : Nonterminal} {source : Text} {lexemes : List Lexeme} {options : Options}
  {reading : Reading}

/-- Every match of a source text reads the lexemes that it splits into. -/
theorem exists_reading (entry : start.isEntry = true) (source : Text) :
    ∃ outcome events lexemes finish remainder result probes expected,
      grammar.run start source = some (outcome, events) ∧
      Splits 0 source lexemes finish remainder ∧ Scan.token? remainder = none ∧
      Reads finish (form start) lexemes result probes ∧
      EntryOutcome finish remainder start source result probes outcome expected ∧
      ∀ expectation, expectation ∈ events.filterMap Event.expectation? ↔
        expectation ∈ expected := by
  obtain ⟨outcome, events, result_eq⟩ := run_eq_some start source
  obtain ⟨expected, settled, same⟩ := Peg.Grammar.settles_of_run grammar_hasOwnSites result_eq
  obtain ⟨depth, tried⟩ := settled.exists_depth
  obtain ⟨lexemes, finish, remainder, splits, ends⟩ := Splits.exists_maximal 0 source
  obtain ⟨result, probes, reads, entryOutcome⟩ := reads_entry entry splits ends tried
  exact ⟨outcome, events, lexemes, finish, remainder, result, probes, expected, result_eq, splits,
    ends, reads, entryOutcome, same⟩

theorem exists_reading_of_matchText {trace : Bool} {value : Option Peg.Value}
    (entry : start.isEntry = true)
    (found : (grammar.matchText start source trace).outcome = .ok value) :
    ∃ lexemes reading values, SplitsInto source lexemes ∧
      Succeeds source.length (form start) lexemes reading ∧ reading.rest = [] ∧
      value = some (entryValue start source.length values) ∧
      Node.ofValues? values = some reading.nodes := by
  obtain ⟨outcome, events, lexemes, finish, remainder, result, probes, expected, result_eq, splits,
    _, reads, entryOutcome, _⟩ := exists_reading entry source
  rw [Peg.Grammar.matchText, result_eq] at found
  cases entryOutcome with
  | failed _ => cases found
  | @whole reading _ _ values _ isWhole nodes =>
      cases found
      obtain ⟨rest_eq, rfl⟩ := isWhole
      obtain ⟨rfl, splitsInto⟩ := splits.splitsInto
      exact ⟨lexemes, reading, values, splitsInto, ⟨_, reads⟩, rest_eq, rfl, nodes⟩

theorem matchText_eq_ok (entry : start.isEntry = true) (splits : SplitsInto source lexemes)
    (succeeds : Succeeds source.length (form start) lexemes reading) (whole : reading.rest = [])
    (trace : Bool) : ∃ values,
      (grammar.matchText start source trace).outcome =
          .ok (some (entryValue start source.length values)) ∧
        Node.ofValues? values = some reading.nodes := by
  obtain ⟨outcome, events, otherLexemes, finish, remainder, result, probes, expected, result_eq,
    otherSplits, ends, reads, entryOutcome, _⟩ := exists_reading entry source
  obtain ⟨rfl, rfl, rfl⟩ := splits.unique rfl otherSplits ends
  obtain ⟨_, otherReads⟩ := succeeds
  obtain ⟨rfl, rfl⟩ := reads.unique otherReads
  rw [Peg.Grammar.matchText, result_eq]
  cases entryOutcome with
  | failed notWhole => exact absurd ⟨whole, rfl⟩ (notWhole reading rfl)
  | whole _ nodes => exact ⟨_, rfl, nodes⟩

/-! ## Admission -/

theorem matchSource_of_excess {offset : Nat}
    (excess : Nesting.firstExcess? options.maxDepth source = some offset) :
    (Parse.matchSource start source options).outcome =
      .error (.unmatched (.rejected (Nesting.error options.maxDepth source offset))) := by
  rw [Parse.matchSource, Peg.admission_of_excess excess]

def overflow (options : Options) : ParseError := .unmatched (.tooManyFrames ⟨options.frames⟩)

theorem matchSource_of_full (shallow : Nesting.firstExcess? options.maxDepth source = none)
    (full : ¬ options.HasRoom) :
    (Parse.matchSource start source options).outcome = .error (overflow options) := by
  rw [Parse.matchSource, Peg.admission_of_full shallow full, overflow]

theorem matchSource_of_shallow (shallow : Nesting.firstExcess? options.maxDepth source = none)
    (room : options.HasRoom) :
    Parse.matchSource start source options =
      (grammar.matchText start source options.trace).mapError .unmatched := by
  rw [Parse.matchSource, Peg.admission_eq_ok shallow room]

/-- The lexemes of a source text that is matched: its brackets nest within the limit, and the
limit leaves room for a match. -/
structure IsLexed (source : Text) (options : Options) (lexemes : List Lexeme) : Prop where
  splits : SplitsInto source lexemes
  nests : NestsWithin options.maxDepth (lexemes.map Lexeme.token)
  room : options.HasRoom

theorem IsLexed.shallow (lexed : IsLexed source options lexemes) :
    Nesting.firstExcess? options.maxDepth source = none :=
  (Nesting.firstExcess?_eq_none_iff lexed.splits _).mpr lexed.nests

theorem exists_reading_of_matchSource {value : Option Peg.Value} (entry : start.isEntry = true)
    (found : (Parse.matchSource start source options).outcome = .ok value) :
    ∃ lexemes reading values, IsLexed source options lexemes ∧
      Succeeds source.length (form start) lexemes reading ∧ reading.rest = [] ∧
      value = some (entryValue start source.length values) ∧
      Node.ofValues? values = some reading.nodes := by
  cases admitted : Peg.admission source options with
  | error error =>
      rw [Parse.matchSource, admitted] at found
      cases found
  | ok =>
      have ⟨shallow, room⟩ := Peg.admission_eq_ok_iff.mp admitted
      rw [matchSource_of_shallow shallow room] at found
      have matched := Report.mapError_eq_ok_iff.mp found
      obtain ⟨lexemes, reading, values, splits, succeeds, whole, value_eq, nodes⟩ :=
        exists_reading_of_matchText entry matched
      have nests := (Nesting.firstExcess?_eq_none_iff splits _).mp shallow
      exact ⟨lexemes, reading, values, ⟨splits, nests, room⟩, succeeds, whole, value_eq, nodes⟩

theorem matchSource_eq_ok (entry : start.isEntry = true) (lexed : IsLexed source options lexemes)
    (succeeds : Succeeds source.length (form start) lexemes reading) (whole : reading.rest = []) :
    ∃ values, (Parse.matchSource start source options).outcome =
        .ok (some (entryValue start source.length values)) ∧
      Node.ofValues? values = some reading.nodes := by
  obtain ⟨values, matched, nodes⟩ :=
    matchText_eq_ok entry lexed.splits succeeds whole options.trace
  refine ⟨values, ?_, nodes⟩
  rw [matchSource_of_shallow lexed.shallow lexed.room]
  exact Report.mapError_eq_ok_iff.mpr matched

end Language

end QubitLang
