import QubitLang.Proofs.Ast.Sameness
import QubitLang.Proofs.Language.Respanning
import QubitLang.Proofs.Language.Verdict

/-! Trivia has no meaning. Two texts that split completely into the same tokens are parsed
alike, whatever stands before, between and behind the tokens: into trees that differ in
their spans only, or not at all and for the same reason at the same token. -/

namespace QubitLang

def Span.forget (_ : Span) : Span := Span.point 0

theorem respans_forget : Respans Span.forget := fun _ _ => rfl

theorem map_respan_forget {lexemes others : List Lexeme}
    (tokens_eq : lexemes.map Lexeme.token = others.map Lexeme.token) :
    lexemes.map (Lexeme.respan Span.forget) = others.map (Lexeme.respan Span.forget) := by
  have forgotten (lexemes : List Lexeme) : lexemes.map (Lexeme.respan Span.forget) =
      (lexemes.map Lexeme.token).map fun token => ⟨token, Span.point 0⟩ := by
    rw [List.map_map]
    rfl
  rw [forgotten, forgotten, tokens_eq]

namespace Language

variable {source other : Text} {lexemes others : List Lexeme} {options : Options}

/-- Two texts that split completely into the same tokens, and so differ in nothing but
trivia. -/
structure Respaced (source other : Text) (lexemes others : List Lexeme) : Prop where
  splits : SplitsInto source lexemes
  otherSplits : SplitsInto other others
  tokens_eq : lexemes.map Lexeme.token = others.map Lexeme.token

/-! ## The same trees -/

theorem DerivesItems.same {items otherItems : List (Item Span)}
    (tokens_eq : lexemes.map Lexeme.token = others.map Lexeme.token)
    (derives : DerivesItems lexemes items) (otherDerives : DerivesItems others otherItems) :
    Item.sameAll items otherItems = true := by
  have left := derives.respan respans_forget
  rw [map_respan_forget tokens_eq] at left
  exact Item.sameAll_of_map_eq (left.unique (otherDerives.respan respans_forget))

theorem DerivesExpression.same {last otherLast : Span} {value otherValue : Expression Span}
    (tokens_eq : lexemes.map Lexeme.token = others.map Lexeme.token)
    (derives : DerivesExpression lexemes [] last value)
    (otherDerives : DerivesExpression others [] otherLast otherValue) :
    value.same otherValue = true := by
  have left := derives.respan respans_forget
  rw [map_respan_forget tokens_eq] at left
  exact Expression.same_of_map_eq (left.unique (otherDerives.respan respans_forget)).2.2

theorem DerivesStatement.same {statement otherStatement : Statement Span}
    (tokens_eq : lexemes.map Lexeme.token = others.map Lexeme.token)
    (derives : DerivesStatement lexemes [] statement)
    (otherDerives : DerivesStatement others [] otherStatement) :
    statement.same otherStatement = true := by
  have left := derives.respan respans_forget
  rw [map_respan_forget tokens_eq] at left
  exact Statement.same_of_map_eq (left.unique (otherDerives.respan respans_forget)).2

/-! ## The same errors -/

/-- Two syntax errors of the same kind that expect the same at the same token, where the
end of the text counts as the last token. -/
structure Twins (source other : Text) (lexemes others : List Lexeme)
    (error twin : SyntaxError) : Prop where
  tooDeep_eq : error.tooDeep = twin.tooDeep
  expected_eq : error.expected = twin.expected
  sameToken : ∃ index ≤ lexemes.length,
    error.offset = Lexeme.startOf source.length (lexemes.drop index) ∧
      twin.offset = Lexeme.startOf other.length (others.drop index)

theorem exists_error_of_excess (splits : SplitsInto source lexemes) {index : Nat}
    (excess : Nesting.excessIndex? options.maxDepth 0 (lexemes.map Lexeme.token) = some index)
    (start : Nonterminal) :
    ∃ error : SyntaxError, (Parse.matchSource start source options).outcome =
        .error (.unmatched (.rejected error)) ∧
      error.tooDeep = true ∧ error.expected = [] ∧
      error.offset = Lexeme.startOf source.length (lexemes.drop index) := by
  have found := Nesting.firstExcess?_eq splits options.maxDepth
  rw [excess] at found
  exact ⟨_, matchSource_of_excess found, rfl, rfl, rfl⟩

theorem Respaced.exists_twins_of_excess (respaced : Respaced source other lexemes others)
    (start : Nonterminal) {index : Nat}
    (excess : Nesting.excessIndex? options.maxDepth 0 (lexemes.map Lexeme.token) = some index) :
    ∃ error twin,
      (Parse.matchSource start source options).outcome = .error (.unmatched (.rejected error)) ∧
      (Parse.matchSource start other options).outcome = .error (.unmatched (.rejected twin)) ∧
      Twins source other lexemes others error twin := by
  obtain ⟨splits, otherSplits, tokens_eq⟩ := respaced
  obtain ⟨error, found, deep, nothing, offset_eq⟩ := exists_error_of_excess splits excess start
  rw [tokens_eq] at excess
  obtain ⟨twin, otherFound, otherDeep, otherNothing, otherOffset_eq⟩ :=
    exists_error_of_excess otherSplits excess start
  have inside := Nesting.lt_length_of_excessIndex? excess
  rw [← tokens_eq, List.length_map] at inside
  exact ⟨error, twin, found, otherFound, deep.trans otherDeep.symm,
    nothing.trans otherNothing.symm, index, Nat.le_of_lt inside, offset_eq, otherOffset_eq⟩

theorem Respaced.exists_twins (respaced : Respaced source other lexemes others)
    {start : Nonterminal} (entry : start.isEntry = true)
    (nests : NestsWithin options.maxDepth (lexemes.map Lexeme.token)) (room : options.HasRoom)
    (unspelled : ¬ Spells (form start) lexemes) :
    ∃ error twin,
      (Parse.matchSource start source options).outcome = .error (.unmatched (.rejected error)) ∧
      (Parse.matchSource start other options).outcome = .error (.unmatched (.rejected twin)) ∧
      Twins source other lexemes others error twin := by
  obtain ⟨splits, otherSplits, tokens_eq⟩ := respaced
  obtain ⟨index, error, rejected, tells⟩ := exists_tells entry splits unspelled options.trace
  have found := matchSource_eq_rejected
    ((Nesting.firstExcess?_eq_none_iff splits _).mpr nests) room rejected
  rw [Spells, tokens_eq] at unspelled
  rw [tokens_eq] at nests
  obtain ⟨otherIndex, twin, otherRejected, otherTells⟩ :=
    exists_tells entry otherSplits unspelled options.trace
  have otherFound := matchSource_eq_rejected
    ((Nesting.firstExcess?_eq_none_iff otherSplits _).mpr nests) room otherRejected
  have stops := tells.stops
  have inside := stops.index_le
  have expects := tells.expects
  rw [tokens_eq] at stops expects
  obtain rfl := stops.unique otherTells.stops
  rw [List.length_map] at inside
  exact ⟨error, twin, found, otherFound, tells.notTooDeep.trans otherTells.notTooDeep.symm,
    expects.unique tells.sorted otherTells.expects otherTells.sorted, index, inside,
    tells.offset_eq, otherTells.offset_eq⟩

/-! ## The same outcomes -/

/-- Two outcomes that agree: the same tree, or the same reason that there is none. -/
inductive Agree {α : Type} (same : α → α → Bool) (source other : Text)
    (lexemes others : List Lexeme) : Except ParseError α → Except ParseError α → Prop where
  | parsed {value twin : α} (equal : same value twin = true) :
      Agree same source other lexemes others (.ok value) (.ok twin)
  | rejected {error twin : SyntaxError} (twins : Twins source other lexemes others error twin) :
      Agree same source other lexemes others (.error (.unmatched (.rejected error)))
        (.error (.unmatched (.rejected twin)))
  | overflowing (frames : FrameOverflow) :
      Agree same source other lexemes others (.error (.unmatched (.tooManyFrames frames)))
        (.error (.unmatched (.tooManyFrames frames)))
  | overlong {count otherCount : Nat} :
      Agree same source other lexemes others
        (.error (.unbuilt (.qubit (.tooManyDigits count))))
        (.error (.unbuilt (.qubit (.tooManyDigits otherCount))))

theorem Agree.of_yields {α : Type} {same : α → α → Bool}
    {outcome otherOutcome : Except ParseError α} {value twin : α} (tokens_eq : lexemes.map Lexeme.token = others.map Lexeme.token)
    (yields : Yields lexemes outcome value) (otherYields : Yields others otherOutcome twin)
    (equal : same value twin = true) :
    Agree same source other lexemes others outcome otherOutcome := by
  rw [Yields] at yields otherYields
  rw [← anyOverlong_eq tokens_eq] at otherYields
  split at yields
  · rename_i overlong
    rw [if_pos overlong] at otherYields
    obtain ⟨count, rfl⟩ := yields
    obtain ⟨otherCount, rfl⟩ := otherYields
    exact .overlong
  · rename_i short
    rw [if_neg short] at otherYields
    subst yields otherYields
    exact .parsed equal

theorem Respaced.agree {α : Type} {same : α → α → Bool} {parse : Text → Except ParseError α}
    (respaced : Respaced source other lexemes others) (start : Nonterminal)
    (entry : start.isEntry = true) (hasTree : List Lexeme → α → Prop)
    (refuses : ∀ text cause, (Parse.matchSource start text options).outcome = .error cause →
      parse text = .error cause)
    (builds : ∀ text lexemes, IsLexed text options lexemes → Spells (form start) lexemes →
      ∃ value, hasTree lexemes value ∧ Yields lexemes (parse text) value)
    (sameTree : ∀ value twin, hasTree lexemes value → hasTree others twin →
      same value twin = true) :
    Agree same source other lexemes others (parse source) (parse other) := by
  have refuse {cause twinCause : ParseError}
      (found : (Parse.matchSource start source options).outcome = .error cause)
      (otherFound : (Parse.matchSource start other options).outcome = .error twinCause)
      (agree : Agree same source other lexemes others (.error cause) (.error twinCause)) :
      Agree same source other lexemes others (parse source) (parse other) := by
    rw [refuses source _ found, refuses other _ otherFound]
    exact agree
  cases excess : Nesting.excessIndex? options.maxDepth 0 (lexemes.map Lexeme.token) with
  | some index =>
      obtain ⟨error, twin, found, otherFound, twins⟩ :=
        respaced.exists_twins_of_excess start excess
      exact refuse found otherFound (.rejected twins)
  | none =>
      have nests : NestsWithin options.maxDepth (lexemes.map Lexeme.token) :=
        (Nesting.excessIndex?_eq_none_iff (Nat.zero_le _)).mp excess
      have otherNests := nests
      rw [respaced.tokens_eq] at otherNests
      by_cases room : options.HasRoom
      · by_cases spells : Spells (form start) lexemes
        · obtain ⟨value, tree, yields⟩ :=
            builds source lexemes ⟨respaced.splits, nests, room⟩ spells
          rw [Spells, respaced.tokens_eq] at spells
          obtain ⟨twin, otherTree, otherYields⟩ :=
            builds other others ⟨respaced.otherSplits, otherNests, room⟩ spells
          exact .of_yields respaced.tokens_eq yields otherYields
            (sameTree value twin tree otherTree)
        · obtain ⟨error, twin, found, otherFound, twins⟩ :=
            respaced.exists_twins entry nests room spells
          exact refuse found otherFound (.rejected twins)
      · have shallow := (Nesting.firstExcess?_eq_none_iff respaced.splits _).mpr nests
        have otherShallow :=
          (Nesting.firstExcess?_eq_none_iff respaced.otherSplits _).mpr otherNests
        exact refuse (matchSource_of_full shallow room) (matchSource_of_full otherShallow room)
          (.overflowing _)

/-- Texts that differ in trivia only are parsed alike. -/
theorem parse_respaced (respaced : Respaced source other lexemes others) (options : Options) :
    Agree Program.same source other lexemes others (Parse.program source options).outcome
        (Parse.program other options).outcome ∧
      Agree Expression.same source other lexemes others (Parse.expression source options).outcome
        (Parse.expression other options).outcome ∧
      Agree Statement.same source other lexemes others (Parse.statement source options).outcome
        (Parse.statement other options).outcome := by
  refine ⟨?_, ?_, ?_⟩
  · apply respaced.agree .program rfl fun lexemes program => DerivesItems lexemes program.items
    · intro text cause found
      exact program_eq_error found
    · intro text lexemes lexed spells
      obtain ⟨items, derives⟩ := spells_program_iff.mp (spells_call_iff.mpr spells)
      exact ⟨_, derives, lexed.yields_program derives⟩
    · intro value twin tree otherTree
      exact tree.same respaced.tokens_eq otherTree
  · apply respaced.agree .expressionInput rfl
      fun lexemes value => ∃ last, DerivesExpression lexemes [] last value
    · intro text cause found
      exact expression_eq_error found
    · intro text lexemes lexed spells
      obtain ⟨last, value, derives⟩ := spells_expression_iff.mp spells
      exact ⟨value, ⟨last, derives⟩, lexed.yields_expression derives⟩
    · rintro value twin ⟨last, tree⟩ ⟨otherLast, otherTree⟩
      exact tree.same respaced.tokens_eq otherTree
  · apply respaced.agree .statementInput rfl
      fun lexemes statement => DerivesStatement lexemes [] statement
    · intro text cause found
      exact statement_eq_error found
    · intro text lexemes lexed spells
      obtain ⟨statement, derives⟩ := spells_statement_iff.mp spells
      exact ⟨statement, derives, lexed.yields_statement derives⟩
    · intro statement twin tree otherTree
      exact tree.same respaced.tokens_eq otherTree

/-- A parenthesis that stays open, with nothing or much around its tokens. -/
theorem parse_respaced_open :
    ∃ lexemes others, Respaced ['(', '1'] [' ', '(', '#', '{', '\n', '1', ' '] lexemes others ∧
      Agree Expression.same ['(', '1'] [' ', '(', '#', '{', '\n', '1', ' '] lexemes others
        (Parse.expression ['(', '1'] {}).outcome
        (Parse.expression [' ', '(', '#', '{', '\n', '1', ' '] {}).outcome := by
  have splits : SplitsInto ['(', '1']
      [⟨.sign .openParen, ⟨0, 1, by decide⟩⟩, ⟨.number ['1'], ⟨1, 2, by decide⟩⟩] :=
    Splits.cons_iff.mpr ⟨rfl, rfl, _, rfl, Splits.cons_iff.mpr ⟨rfl, rfl, _, rfl,
      Splits.nil_iff.mpr ⟨rfl, rfl⟩⟩⟩
  have otherSplits : SplitsInto [' ', '(', '#', '{', '\n', '1', ' ']
      [⟨.sign .openParen, ⟨1, 2, by decide⟩⟩, ⟨.number ['1'], ⟨5, 6, by decide⟩⟩] :=
    Splits.cons_iff.mpr ⟨rfl, rfl, _, rfl, Splits.cons_iff.mpr ⟨rfl, rfl, _, rfl,
      Splits.nil_iff.mpr ⟨rfl, rfl⟩⟩⟩
  have respaced : Respaced ['(', '1'] [' ', '(', '#', '{', '\n', '1', ' '] _ _ :=
    ⟨splits, otherSplits, rfl⟩
  exact ⟨_, _, respaced, (parse_respaced respaced {}).2.1⟩

end Language

end QubitLang
