import QubitLang.Proofs.Language.Excess
import QubitLang.Proofs.Language.Productions
import QubitLang.Proofs.Language.Verdict

/-! The limit on nested brackets is a gate: it refuses a source text at the first bracket that
nests too deeply, and a text that it lets through is parsed as under any larger limit that leaves
room for a match. -/

namespace QubitLang

theorem Report.outcome_andThen {ε α β : Type} (report : Report ε α) (next : α → Report ε β) :
    (report.andThen next).outcome = report.outcome.bind fun value => (next value).outcome := by
  cases outcome : report.outcome <;> simp [andThen, outcome, Except.bind]

theorem Nesting.firstExcess?_eq_none_of_le {limit larger : Int} (le : limit ≤ larger)
    {text : Text} (within : firstExcess? limit text = none) : firstExcess? larger text = none := by
  have first := isFirstExcess_firstExcess? limit text
  rw [within] at first
  have nothing : IsFirstExcess larger text 0 none := fun offset start exceeds =>
    first offset start ⟨exceeds.1, Int.lt_of_le_of_lt le exceeds.2⟩
  exact nothing.unique (isFirstExcess_firstExcess? larger text)

namespace Language

variable {α : Type} {start entry : Nonterminal} {source : Text} {options other : Options}

def IsTooDeep (outcome : Except ParseError α) : Prop :=
  ∃ error, outcome = .error (.unmatched (.rejected error)) ∧ error.tooDeep = true

def DerivationOf (start : Nonterminal) (source : Text) (derivation : Derivation) : Prop :=
  ∃ lexemes, SplitsInto source lexemes ∧ derivation.tokens = lexemes.map Lexeme.token ∧
    Derives (.call start) [derivation]

/-- How parsing a source text depends on the limit. -/
structure IsGated (start : Nonterminal) (source : Text) (parse : Options → Report ParseError α) :
    Prop where
  tooDeep_iff : ∀ options, IsTooDeep (parse options).outcome ↔
    ∃ offset, Nesting.Exceeds options.maxDepth source offset
  /-- Nothing but this refusal depends on the limit, as long as there is room. -/
  same : ∀ options other, options.maxDepth ≤ other.maxDepth → other.HasRoom →
    ¬ IsTooDeep (parse options).outcome → (parse other).outcome = (parse options).outcome
  overflows : ∀ options, ¬ IsTooDeep (parse options).outcome → ¬ options.HasRoom →
    (parse options).outcome = .error (overflow options)
  derived : ∀ options value, (parse options).outcome = .ok value →
    ∃ derivation, DerivationOf start source derivation
  /-- A text that is accepted under some limit is accepted exactly under those with room that its
  derivation does not exceed. -/
  accepted_iff : ∀ options value, (parse options).outcome = .ok value →
    ∀ derivation, DerivationOf start source derivation → ∀ other : Options,
      (∃ found, (parse other).outcome = .ok found) ↔
        derivation.nesting ≤ other.maxDepth ∧ other.HasRoom

/-! ## The gate -/

theorem not_isTooDeep_bind {β : Type} {outcome : Except ParseError α}
    {next : α → Except ParseError β} (first : ¬ IsTooDeep outcome)
    (later : ∀ value, ¬ IsTooDeep (next value)) : ¬ IsTooDeep (outcome.bind next) := by
  cases outcome with
  | ok value => exact later value
  | error error =>
      rintro ⟨cause, equal, deep⟩
      cases equal
      exact first ⟨cause, rfl, deep⟩

/-- What a parser makes of a match does not depend on the options, and is no complaint about
the nesting. -/
def FollowsMatch (entry : Nonterminal) (parse : Text → Options → Report ParseError α) : Prop :=
  ∀ source, ∃ next : Option Peg.Value → Except ParseError α, (∀ value, ¬ IsTooDeep (next value)) ∧
    ∀ options, (parse source options).outcome =
      (Parse.matchSource entry source options).outcome.bind next

theorem followsMatch_matchSource (entry : Nonterminal) :
    FollowsMatch entry (Parse.matchSource entry) := by
  intro source
  refine ⟨.ok, fun value tooDeep => ?_, fun options => ?_⟩
  · obtain ⟨_, equal, _⟩ := tooDeep
    cases equal
  · cases (Parse.matchSource entry source options).outcome <;> rfl

theorem FollowsMatch.andThen {β : Type} {parse : Text → Options → Report ParseError α}
    (follows : FollowsMatch entry parse) {next : Text → α → Report ParseError β}
    (later : ∀ source value, ¬ IsTooDeep (next source value).outcome) :
    FollowsMatch entry fun source options => (parse source options).andThen (next source) := by
  intro source
  obtain ⟨first, firstNot, parse_eq⟩ := follows source
  refine ⟨fun value => (first value).bind fun result => (next source result).outcome,
    fun value => not_isTooDeep_bind (firstNot value) (later source), fun options => ?_⟩
  rw [Report.outcome_andThen, parse_eq]
  cases (Parse.matchSource entry source options).outcome <;> rfl

theorem outcome_matchSource (shallow : Nesting.firstExcess? options.maxDepth source = none)
    (room : options.HasRoom) :
    (Parse.matchSource entry source options).outcome =
      (grammar.matchText entry source false).outcome.mapError .unmatched := by
  rw [matchSource_of_shallow shallow room]
  simp only [Report.mapError, Peg.Grammar.matchText]
  cases grammar.run entry source <;> rfl

theorem not_isTooDeep_matchText (entry : Nonterminal) (source : Text) :
    ¬ IsTooDeep ((grammar.matchText entry source false).outcome.mapError .unmatched) := by
  rintro ⟨error, equal, deep⟩
  rw [Peg.Grammar.matchText] at equal
  cases ran : grammar.run entry source with
  | none =>
      rw [ran] at equal
      cases equal
  | some result =>
      obtain ⟨outcome, events⟩ := result
      rw [ran] at equal
      cases outcome with
      | matched _ _ | stuck => cases equal
      | failed explained =>
          simp only [Except.mapError, Peg.failure] at equal
          split at equal
          · cases equal
            rw [Peg.tooDeep_syntaxErrorOf] at deep
            cases deep
          · cases equal

theorem FollowsMatch.isTooDeep {parse : Text → Options → Report ParseError α}
    (follows : FollowsMatch entry parse) {offset : Nat}
    (excess : Nesting.firstExcess? options.maxDepth source = some offset) :
    IsTooDeep (parse source options).outcome := by
  obtain ⟨next, _, parse_eq⟩ := follows source
  rw [parse_eq, matchSource_of_excess excess]
  exact ⟨_, rfl, rfl⟩

theorem FollowsMatch.not_isTooDeep {parse : Text → Options → Report ParseError α}
    (follows : FollowsMatch entry parse)
    (shallow : Nesting.firstExcess? options.maxDepth source = none) :
    ¬ IsTooDeep (parse source options).outcome := by
  obtain ⟨next, notTooDeep, parse_eq⟩ := follows source
  rw [parse_eq]
  by_cases room : options.HasRoom
  · rw [outcome_matchSource shallow room]
    exact not_isTooDeep_bind (not_isTooDeep_matchText entry source) notTooDeep
  · rw [matchSource_of_full shallow room]
    rintro ⟨_, equal, _⟩
    cases equal

theorem FollowsMatch.same {parse : Text → Options → Report ParseError α}
    (follows : FollowsMatch entry parse) (room : options.HasRoom) (otherRoom : other.HasRoom)
    (shallow : Nesting.firstExcess? options.maxDepth source = none)
    (otherShallow : Nesting.firstExcess? other.maxDepth source = none) :
    (parse source other).outcome = (parse source options).outcome := by
  obtain ⟨next, _, parse_eq⟩ := follows source
  rw [parse_eq, parse_eq, outcome_matchSource shallow room,
    outcome_matchSource otherShallow otherRoom]

theorem FollowsMatch.overflows {parse : Text → Options → Report ParseError α}
    (follows : FollowsMatch entry parse)
    (shallow : Nesting.firstExcess? options.maxDepth source = none) (full : ¬ options.HasRoom) :
    (parse source options).outcome = .error (overflow options) := by
  obtain ⟨next, _, parse_eq⟩ := follows source
  rw [parse_eq, matchSource_of_full shallow full]
  rfl

/-! ## Derivations -/

def AcceptsBy (accepts : List Lexeme → Prop) (parse : Text → Options → Report ParseError α) :
    Prop :=
  ∀ source options, (∃ value, (parse source options).outcome = .ok value) ↔
    ∃ lexemes, IsLexed source options lexemes ∧ accepts lexemes

theorem exists_derivation {lexemes : List Lexeme} (splits : SplitsInto source lexemes)
    (spells : Spells (.call start) lexemes) :
    ∃ derivation, DerivationOf start source derivation := by
  obtain ⟨parts, derives, tokens_eq⟩ := generates_iff_exists_derives.mp spells
  cases derives with
  | @call _ inside body =>
      refine ⟨_, lexemes, splits, ?_, .call body⟩
      rw [← tokens_eq, Derivation.tokensAll_singleton]

theorem DerivationOf.nestsWithin_iff {derivation : Derivation}
    (isDerivation : DerivationOf start source derivation) {lexemes : List Lexeme}
    (splits : SplitsInto source lexemes) (limit : Nat) :
    NestsWithin limit (lexemes.map Lexeme.token) ↔ derivation.nesting ≤ limit := by
  obtain ⟨others, otherSplits, tokens_eq, derives⟩ := isDerivation
  obtain ⟨rfl, _, _⟩ := otherSplits.unique rfl splits rfl
  rw [← tokens_eq]
  refine (derives.deepens fun token member => ?_).nestsWithin_iff limit
  rw [tokens_eq] at member
  obtain ⟨lexeme, lexemeMember, rfl⟩ := List.mem_map.mp member
  exact splits.isLexical lexeme lexemeMember

theorem isGated {parse : Text → Options → Report ParseError α} {accepts : List Lexeme → Prop}
    (follows : FollowsMatch entry parse) (accepted : AcceptsBy accepts parse)
    (spells : ∀ lexemes, accepts lexemes → Spells (.call start) lexemes) (source : Text) :
    IsGated start source (parse source) where
  tooDeep_iff options := by
    have first := Nesting.isFirstExcess_firstExcess? options.maxDepth source
    cases excess : Nesting.firstExcess? options.maxDepth source with
    | none =>
        rw [excess] at first
        refine iff_of_false (follows.not_isTooDeep excess) ?_
        rintro ⟨offset, exceeds⟩
        exact first offset (Nat.zero_le offset) exceeds
    | some offset =>
        rw [excess] at first
        exact iff_of_true (follows.isTooDeep excess) ⟨offset, first.2.1⟩
  same options other le room notTooDeep := by
    cases excess : Nesting.firstExcess? options.maxDepth source with
    | some offset => exact absurd (follows.isTooDeep excess) notTooDeep
    | none =>
        exact follows.same (room.of_le le) room excess
          (Nesting.firstExcess?_eq_none_of_le (Int.ofNat_le.mpr le) excess)
  overflows options notTooDeep full := by
    cases excess : Nesting.firstExcess? options.maxDepth source with
    | some offset => exact absurd (follows.isTooDeep excess) notTooDeep
    | none => exact follows.overflows excess full
  derived options value parsed := by
    obtain ⟨lexemes, lexed, accepts⟩ := (accepted source options).mp ⟨value, parsed⟩
    exact exists_derivation lexed.splits (spells lexemes accepts)
  accepted_iff options value parsed derivation isDerivation other := by
    obtain ⟨lexemes, lexed, accepts⟩ := (accepted source options).mp ⟨value, parsed⟩
    rw [accepted source other, ← isDerivation.nestsWithin_iff lexed.splits]
    constructor
    · rintro ⟨others, otherLexed, _⟩
      -- A text splits in one way only, so its nesting does not depend on the limit.
      obtain ⟨rfl, _, _⟩ := otherLexed.splits.unique rfl lexed.splits rfl
      exact ⟨otherLexed.nests, otherLexed.room⟩
    · exact fun ⟨nests, room⟩ => ⟨lexemes, ⟨lexed.splits, nests, room⟩, accepts⟩

/-! ## The parsers -/

theorem followsMatch_tree :
    FollowsMatch .program fun source options => Parse.tree source options := by
  refine (followsMatch_matchSource .program).andThen fun source value => ?_
  split
  · rintro ⟨_, equal, _⟩
    cases equal
  · rintro ⟨_, equal, _⟩
    cases equal

theorem followsMatch_program :
    FollowsMatch .program fun source options => Parse.program source options := by
  refine followsMatch_tree.andThen fun source node => ?_
  split
  · rintro ⟨_, equal, _⟩
    cases equal
  · rintro ⟨_, equal, _⟩
    cases equal

theorem followsMatch_fragment (entry : Nonterminal) (description rule : String) :
    FollowsMatch entry (Parse.fragment entry description rule) := by
  refine (followsMatch_matchSource entry).andThen fun source value => ?_
  split
  · split
    · rintro ⟨_, equal, _⟩
      cases equal
    · rintro ⟨_, equal, _⟩
      cases equal
  · rintro ⟨_, equal, _⟩
    cases equal

theorem not_isTooDeep_unbuilt (result : Except BuildError α) :
    ¬ IsTooDeep (Report.ofOutcome (result.mapError .unbuilt)).outcome := by
  rintro ⟨_, equal, _⟩
  cases result <;> cases equal

theorem isGated_tree (source : Text) :
    IsGated .program source fun options => Parse.tree source options := by
  have accepted : AcceptsBy (Spells (.call .program)) fun source options =>
      Parse.tree source options := by
    intro source options
    rw [exists_tree_iff, InLanguage]
    constructor
    · rintro ⟨⟨lexemes, splits, generates, nests⟩, room⟩
      exact ⟨lexemes, ⟨splits, nests, room⟩, generates⟩
    · rintro ⟨lexemes, lexed, generates⟩
      exact ⟨⟨lexemes, lexed.splits, generates, lexed.nests⟩, lexed.room⟩
  exact isGated followsMatch_tree accepted (fun _ spells => spells) source

theorem isGated_program (source : Text) :
    IsGated .program source fun options => Parse.program source options := by
  have accepted : AcceptsBy
      (fun lexemes => anyOverlong lexemes = false ∧ ∃ items, DerivesItems lexemes items)
      fun source options => Parse.program source options := by
    intro source options
    constructor
    · rintro ⟨program, parsed⟩
      obtain ⟨lexemes, lexed, short, _, derives⟩ := parsed_program_iff.mp parsed
      exact ⟨lexemes, lexed, short, program.items, derives⟩
    · rintro ⟨lexemes, lexed, short, items, derives⟩
      exact ⟨⟨Span.whole source, items⟩,
        parsed_program_iff.mpr ⟨lexemes, lexed, short, rfl, derives⟩⟩
  exact isGated followsMatch_program accepted
    (fun _ derived => spells_program_iff.mpr derived.2) source

theorem isGated_expression (source : Text) :
    IsGated .expression source fun options => Parse.expression source options := by
  have accepted : AcceptsBy
      (fun lexemes => anyOverlong lexemes = false ∧
        ∃ last value, DerivesExpression lexemes [] last value)
      fun source options => Parse.expression source options := by
    intro source options
    constructor
    · rintro ⟨value, parsed⟩
      obtain ⟨lexemes, lexed, short, last, derives⟩ := parsed_expression_iff.mp parsed
      exact ⟨lexemes, lexed, short, last, value, derives⟩
    · rintro ⟨lexemes, lexed, short, last, value, derives⟩
      exact ⟨value, parsed_expression_iff.mpr ⟨lexemes, lexed, short, last, derives⟩⟩
  have follows := (followsMatch_fragment .expressionInput "expression" "expr").andThen
    fun _ node => not_isTooDeep_unbuilt node.expression
  exact isGated follows accepted (fun _ derived => spells_expression_iff.mpr derived.2) source

theorem isGated_statement (source : Text) :
    IsGated .statement source fun options => Parse.statement source options := by
  have accepted : AcceptsBy
      (fun lexemes => anyOverlong lexemes = false ∧
        ∃ statement, DerivesStatement lexemes [] statement)
      fun source options => Parse.statement source options := by
    intro source options
    constructor
    · rintro ⟨statement, parsed⟩
      obtain ⟨lexemes, lexed, short, derives⟩ := parsed_statement_iff.mp parsed
      exact ⟨lexemes, lexed, short, statement, derives⟩
    · rintro ⟨lexemes, lexed, short, statement, derives⟩
      exact ⟨statement, parsed_statement_iff.mpr ⟨lexemes, lexed, short, derives⟩⟩
  have follows := (followsMatch_fragment .statementInput "statement" "statement").andThen
    fun _ node => not_isTooDeep_unbuilt node.statement
  exact isGated follows accepted (fun _ derived => spells_statement_iff.mpr derived.2) source

/-- The check refuses a text exactly at the first bracket outside of comments that brings the
count of open brackets above the limit, and all that it does to the parsers is to refuse: the
limit matters otherwise only where it leaves no room for a match. -/
theorem nesting_gates (source : Text) :
    (∀ limit error, Nesting.check limit source = .error error ↔
      ∃ offset, (Nesting.Exceeds limit source offset ∧
        ∀ earlier < offset, ¬ Nesting.Exceeds limit source earlier) ∧
          error = Nesting.error limit source offset) ∧
    (∀ limit, Nesting.check limit source = .ok () ↔
      ∀ offset, ¬ Nesting.Exceeds limit source offset) ∧
    IsGated .program source (fun options => Parse.tree source options) ∧
    IsGated .program source (fun options => Parse.program source options) ∧
    IsGated .expression source (fun options => Parse.expression source options) ∧
    IsGated .statement source (fun options => Parse.statement source options) :=
  ⟨fun _ _ => Nesting.check_eq_error_iff, fun _ => Nesting.check_eq_ok_iff, isGated_tree source,
    isGated_program source, isGated_expression source, isGated_statement source⟩

/-- A definition is parsed within the usual limit, and not within a larger one without room. -/
theorem empty_definition_overflows :
    ({} : Options).maxDepth ≤ firstWithoutRoom.maxDepth ∧
      (∃ program, (Parse.program "def f() \x7b\x7d".toList {}).outcome = .ok program) ∧
      (Parse.program "def f() \x7b\x7d".toList firstWithoutRoom).outcome =
        .error (overflow firstWithoutRoom) := by
  have splits : SplitsInto "def f() \x7b\x7d".toList
      [(Token.keyword .define).lexemeAt 0, (Token.word ['f']).lexemeAt 4,
        (Token.sign .openParen).lexemeAt 5, (Token.sign .closeParen).lexemeAt 6,
        (Token.sign .openBrace).lexemeAt 8, (Token.sign .closeBrace).lexemeAt 9] := by
    iterate 6 refine Splits.cons_iff.mpr ⟨rfl, rfl, _, rfl, ?_⟩
    exact Splits.nil_iff.mpr ⟨rfl, rfl⟩
  have lexed : IsLexed "def f() \x7b\x7d".toList {} _ :=
    ⟨splits, nestsWithin_of_length_le (by decide), by decide⟩
  have parsed : ∃ program, (Parse.program "def f() \x7b\x7d".toList {}).outcome = .ok program :=
    ⟨⟨_, _⟩, parsed_program_iff.mpr ⟨_, lexed, rfl, rfl, .cons (.definition rfl
      (.withoutResult rfl rfl (.close rfl) rfl) rfl (.close rfl)) .stop⟩⟩
  have shallow :
      Nesting.firstExcess? firstWithoutRoom.maxDepth "def f() \x7b\x7d".toList = none := by decide
  exact ⟨by decide, parsed,
    program_eq_error (matchSource_of_full shallow firstWithoutRoom_not_hasRoom)⟩

end Language

end QubitLang
