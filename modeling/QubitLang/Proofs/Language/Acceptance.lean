import QubitLang.Proofs.Language.Committed
import QubitLang.Proofs.Language.Derivable
import QubitLang.Proofs.Language.Matching

/-! A source text is accepted if its tokens are a sentence, its brackets do not nest too
deeply, and the limit leaves room for a match. What is built of it is the tree of the
sentence. -/

namespace QubitLang

def Span.whole (source : Text) : Span where
  start := 0
  stop := source.length

namespace Language

/-- A source text splits completely into the tokens of a sentence, whose brackets nest
within a limit. -/
def InLanguage (start : Nonterminal) (limit : Nat) (source : Text) : Prop :=
  ∃ lexemes, SplitsInto source lexemes ∧
    Generates (.call start) (lexemes.map Lexeme.token) ∧
    NestsWithin limit (lexemes.map Lexeme.token)

variable {finish : Nat} {form : Form} {stream lexemes : List Lexeme} {reading other : Reading}

theorem Succeeds.unique (left : Succeeds finish form stream reading)
    (right : Succeeds finish form stream other) : reading = other := by
  obtain ⟨_, left⟩ := left
  obtain ⟨_, right⟩ := right
  exact Option.some.inj (left.unique right).1

theorem Succeeds.spells (succeeds : Succeeds finish form stream reading)
    (whole : reading.rest = []) : Spells form stream := by
  obtain ⟨_, reads⟩ := succeeds
  obtain ⟨consumed, rfl, generates⟩ := reads.exists_generates reading rfl
  rw [whole, List.append_nil]
  exact generates

/-! ## Sentences have trees

The lexemes of a sentence have a tree, and only these have one. -/

theorem spells_program_iff : Spells (.call .program) lexemes ↔
    ∃ items, DerivesItems lexemes items := by
  constructor
  · exact fun spells => (spells_call_iff.mp spells).exists_items
  · rintro ⟨items, derives⟩
    obtain ⟨_, _, succeeds, _⟩ := @DerivesItems.succeeds 0 _ _ derives
    exact spells_call_iff.mpr (succeeds.spells rfl)

theorem spells_expression_iff : Spells (.call .expression) lexemes ↔
    ∃ last value, DerivesExpression lexemes [] last value := by
  constructor
  · intro spells
    obtain ⟨last, value, derives⟩ := spells.exists_value [] rfl
    exact ⟨last, value, List.append_nil lexemes ▸ derives⟩
  · rintro ⟨last, value, derives⟩
    obtain ⟨_, succeeds, _⟩ := @DerivesExpression.succeeds 0 _ _ _ _ derives
    exact succeeds.spells rfl

theorem spells_statement_iff : Spells (.call .statement) lexemes ↔
    ∃ statement, DerivesStatement lexemes [] statement := by
  constructor
  · intro spells
    obtain ⟨statement, derives⟩ := spells.exists_statement [] rfl
    exact ⟨statement, List.append_nil lexemes ▸ derives⟩
  · rintro ⟨statement, derives⟩
    obtain ⟨_, _, succeeds, _⟩ := @DerivesStatement.succeeds 0 _ _ _ derives
    exact succeeds.spells rfl

theorem Spells.exists_succeeds {start : Nonterminal} (entry : start.isEntry = true)
    (spells : Spells (Language.form start) lexemes) (finish : Nat) :
    ∃ reading, Succeeds finish (Language.form start) lexemes reading ∧ reading.rest = [] := by
  cases start with
  | program =>
      obtain ⟨items, derives⟩ := spells_program_iff.mp (spells_call_iff.mpr spells)
      obtain ⟨_, _, succeeds, _⟩ := derives.succeeds
      exact ⟨_, succeeds, rfl⟩
  | expressionInput =>
      obtain ⟨last, value, derives⟩ := spells_expression_iff.mp spells
      obtain ⟨_, succeeds, _⟩ := derives.succeeds
      exact ⟨_, succeeds, rfl⟩
  | statementInput =>
      obtain ⟨statement, derives⟩ := spells_statement_iff.mp spells
      obtain ⟨_, _, succeeds, _⟩ := derives.succeeds
      exact ⟨_, succeeds, rfl⟩
  | _ => cases entry

/-! ## Programs -/

variable {source : Text} {options : Options} {node : Node}

theorem exists_items_of_tree (found : (Parse.tree source options).outcome = .ok node) :
    ∃ lexemes items, IsLexed source options lexemes ∧ DerivesItems lexemes items ∧
      Builds node.tokens node.program ⟨Span.whole source, items⟩ := by
  obtain ⟨value, matched, assembled⟩ := Report.andThen_eq_ok_iff.mp found
  obtain ⟨lexemes, reading, values, lexed, succeeds, whole, rfl, nodes_eq⟩ :=
    exists_reading_of_matchSource rfl matched
  obtain ⟨items, derives⟩ := Spells.exists_items (succeeds.spells whole)
  obtain ⟨last, nodes, derived, builds⟩ := derives.succeeds
  obtain rfl := succeeds.unique derived
  refine ⟨lexemes, items, lexed, derives, ?_⟩
  simp only [entryValue, Option.bind_some, Node.ofValue?, nodes_eq, Option.map_some] at assembled
  cases assembled
  exact Node.builds_program "program" (Span.whole source) builds

theorem exists_tree {items : List (Item Span)} (lexed : IsLexed source options lexemes)
    (derives : DerivesItems lexemes items) :
    ∃ node, (Parse.tree source options).outcome = .ok node := by
  obtain ⟨last, nodes, derived, _⟩ := derives.succeeds
  obtain ⟨values, matched, nodes_eq⟩ := matchSource_eq_ok rfl lexed derived rfl
  refine ⟨.tree "program" (some (0, source.length)) nodes,
    Report.andThen_eq_ok_iff.mpr ⟨_, matched, ?_⟩⟩
  simp [entryValue, Node.ofValue?, nodes_eq]

/-! ## Fragments -/

variable {start : Nonterminal} {description rule : String}

theorem exists_reading_of_fragment (entry : start.isEntry = true) (fragment : start ≠ .program)
    (found : (Parse.fragment start description rule source options).outcome = .ok node) :
    ∃ lexemes reading, IsLexed source options lexemes ∧
      Succeeds source.length (Language.form start) lexemes reading ∧ reading.rest = [] ∧
      reading.nodes = [node] := by
  obtain ⟨value, matched, single⟩ := Report.andThen_eq_ok_iff.mp found
  obtain ⟨lexemes, reading, values, lexed, succeeds, whole, rfl, nodes_eq⟩ :=
    exists_reading_of_matchSource entry matched
  refine ⟨lexemes, reading, lexed, succeeds, whole, ?_⟩
  have value_eq : entryValue start source.length values = .list values := by
    cases start <;> first | rfl | cases fragment rfl
  rw [value_eq] at single
  simp only [nodes_eq] at single
  split at single
  · rename_i nodes_eq
    cases single
    exact Option.some.inj nodes_eq
  · cases single

theorem fragment_eq_ok (entry : start.isEntry = true) (fragment : start ≠ .program)
    (lexed : IsLexed source options lexemes)
    (succeeds : Succeeds source.length (Language.form start) lexemes reading)
    (whole : reading.rest = []) (single : reading.nodes = [node]) :
    (Parse.fragment start description rule source options).outcome = .ok node := by
  obtain ⟨values, matched, nodes_eq⟩ := matchSource_eq_ok entry lexed succeeds whole
  refine Report.andThen_eq_ok_iff.mpr ⟨_, matched, ?_⟩
  have value_eq : entryValue start source.length values = .list values := by
    cases start <;> first | rfl | cases fragment rfl
  simp [value_eq, nodes_eq, single]

theorem exists_value_of_fragment
    (found : (Parse.fragment .expressionInput description rule source options).outcome =
      .ok node) :
    ∃ lexemes last value, IsLexed source options lexemes ∧
      DerivesExpression lexemes [] last value ∧ Builds node.tokens node.expression value := by
  obtain ⟨lexemes, reading, lexed, succeeds, whole, single⟩ :=
    exists_reading_of_fragment rfl (by decide) found
  obtain ⟨last, value, derives⟩ := spells_expression_iff.mp (succeeds.spells whole)
  obtain ⟨other, derived, builds⟩ := derives.succeeds
  obtain rfl := succeeds.unique derived
  cases single
  exact ⟨lexemes, last, value, lexed, derives, builds⟩

theorem exists_statement_of_fragment
    (found : (Parse.fragment .statementInput description rule source options).outcome =
      .ok node) :
    ∃ lexemes statement, IsLexed source options lexemes ∧
      DerivesStatement lexemes [] statement ∧ Builds node.tokens node.statement statement := by
  obtain ⟨lexemes, reading, lexed, succeeds, whole, single⟩ :=
    exists_reading_of_fragment rfl (by decide) found
  obtain ⟨statement, derives⟩ := spells_statement_iff.mp (succeeds.spells whole)
  obtain ⟨last, other, derived, builds⟩ := derives.succeeds
  obtain rfl := succeeds.unique derived
  cases single
  exact ⟨lexemes, statement, lexed, derives, builds⟩

theorem exists_node_of_matchSource {value : Option Peg.Value} (entry : start.isEntry = true)
    (fragment : start ≠ .program)
    (found : (Parse.matchSource start source options).outcome = .ok value) :
    ∃ node, (Parse.fragment start description rule source options).outcome = .ok node := by
  obtain ⟨lexemes, reading, values, lexed, succeeds, whole, _⟩ :=
    exists_reading_of_matchSource entry found
  have single : ∃ node, reading.nodes = [node] := by
    have spells := succeeds.spells whole
    cases start with
    | expressionInput =>
        obtain ⟨last, value, derives⟩ := spells_expression_iff.mp spells
        obtain ⟨node, derived, _⟩ := derives.succeeds
        obtain rfl := succeeds.unique derived
        exact ⟨node, rfl⟩
    | statementInput =>
        obtain ⟨statement, derives⟩ := spells_statement_iff.mp spells
        obtain ⟨last, node, derived, _⟩ := derives.succeeds
        obtain rfl := succeeds.unique derived
        exact ⟨node, rfl⟩
    | program => exact absurd rfl fragment
    | _ => cases entry
  obtain ⟨node, single⟩ := single
  exact ⟨node, fragment_eq_ok entry fragment lexed succeeds whole single⟩

theorem exists_fragment_expression {last : Span} {value : Expression Span}
    (lexed : IsLexed source options lexemes)
    (derives : DerivesExpression lexemes [] last value) : ∃ node,
      (Parse.fragment .expressionInput description rule source options).outcome = .ok node := by
  obtain ⟨node, derived, _⟩ := derives.succeeds
  exact ⟨node, fragment_eq_ok rfl (by decide) lexed derived rfl rfl⟩

theorem exists_fragment_statement {statement : Statement Span}
    (lexed : IsLexed source options lexemes)
    (derives : DerivesStatement lexemes [] statement) : ∃ node,
      (Parse.fragment .statementInput description rule source options).outcome = .ok node := by
  obtain ⟨last, node, derived, _⟩ := derives.succeeds
  exact ⟨node, fragment_eq_ok rfl (by decide) lexed derived rfl rfl⟩

/-! ## Acceptance -/

theorem exists_tree_iff :
    (∃ node, (Parse.tree source options).outcome = .ok node) ↔
      InLanguage .program options.maxDepth source ∧ options.HasRoom := by
  constructor
  · rintro ⟨node, found⟩
    obtain ⟨lexemes, items, lexed, derives, _⟩ := exists_items_of_tree found
    have generates := spells_program_iff.mpr ⟨items, derives⟩
    exact ⟨⟨lexemes, lexed.splits, generates, lexed.nests⟩, lexed.room⟩
  · rintro ⟨⟨lexemes, splits, generates, nests⟩, room⟩
    obtain ⟨items, derives⟩ := spells_program_iff.mp generates
    exact exists_tree ⟨splits, nests, room⟩ derives

theorem exists_expression_iff :
    (∃ node, (Parse.fragment .expressionInput description rule source options).outcome =
        .ok node) ↔
      InLanguage .expression options.maxDepth source ∧ options.HasRoom := by
  constructor
  · rintro ⟨node, found⟩
    obtain ⟨lexemes, last, value, lexed, derives, _⟩ := exists_value_of_fragment found
    have generates := spells_expression_iff.mpr ⟨last, value, derives⟩
    exact ⟨⟨lexemes, lexed.splits, generates, lexed.nests⟩, lexed.room⟩
  · rintro ⟨⟨lexemes, splits, generates, nests⟩, room⟩
    obtain ⟨last, value, derives⟩ := spells_expression_iff.mp generates
    exact exists_fragment_expression ⟨splits, nests, room⟩ derives

theorem exists_statement_iff :
    (∃ node, (Parse.fragment .statementInput description rule source options).outcome =
        .ok node) ↔
      InLanguage .statement options.maxDepth source ∧ options.HasRoom := by
  constructor
  · rintro ⟨node, found⟩
    obtain ⟨lexemes, statement, lexed, derives, _⟩ := exists_statement_of_fragment found
    have generates := spells_statement_iff.mpr ⟨statement, derives⟩
    exact ⟨⟨lexemes, lexed.splits, generates, lexed.nests⟩, lexed.room⟩
  · rintro ⟨⟨lexemes, splits, generates, nests⟩, room⟩
    obtain ⟨statement, derives⟩ := spells_statement_iff.mp generates
    exact exists_fragment_statement ⟨splits, nests, room⟩ derives

theorem program_eq_ok_iff {program : Program Span} :
    (Parse.program source options).outcome = .ok program ↔
      ∃ node, (Parse.tree source options).outcome = .ok node ∧ node.program = .ok program := by
  rw [Parse.program, Report.andThen_eq_ok_iff]
  refine exists_congr fun node => and_congr_right fun _ => ?_
  cases node.program <;> simp

theorem ofOutcome_mapError_eq_ok_iff {α : Type} {result : Except BuildError α} {value : α} :
    (Report.ofOutcome (result.mapError ParseError.unbuilt)).outcome = .ok value ↔
      result = .ok value := by
  cases result <;> simp [Report.ofOutcome]

/-! ### What is not matched

What fails to be matched fails to be parsed for the same reason. -/

theorem tree_eq_error {cause : ParseError}
    (found : (Parse.matchSource .program source options).outcome = .error cause) :
    (Parse.tree source options).outcome = .error cause :=
  Report.andThen_eq_error_iff.mpr (.inl found)

theorem program_eq_error {cause : ParseError}
    (found : (Parse.matchSource .program source options).outcome = .error cause) :
    (Parse.program source options).outcome = .error cause :=
  Report.andThen_eq_error_iff.mpr (.inl (tree_eq_error found))

theorem fragment_eq_error {cause : ParseError}
    (found : (Parse.matchSource start source options).outcome = .error cause) :
    (Parse.fragment start description rule source options).outcome = .error cause :=
  Report.andThen_eq_error_iff.mpr (.inl found)

theorem expression_eq_error {cause : ParseError}
    (found : (Parse.matchSource .expressionInput source options).outcome = .error cause) :
    (Parse.expression source options).outcome = .error cause :=
  Report.andThen_eq_error_iff.mpr (.inl (fragment_eq_error found))

theorem statement_eq_error {cause : ParseError}
    (found : (Parse.matchSource .statementInput source options).outcome = .error cause) :
    (Parse.statement source options).outcome = .error cause :=
  Report.andThen_eq_error_iff.mpr (.inl (fragment_eq_error found))

/-- A parser accepts a source text exactly if the text is in the language of what it
parses and the limit leaves room for a match, and what it builds is the one tree that the
lexemes of the text have. Without room it accepts nothing: each text within the limit ends in
the same error. -/
theorem parse_accepts_language (source : Text) (options : Options) :
    ((∃ node, (Parse.tree source options).outcome = .ok node) ↔
        InLanguage .program options.maxDepth source ∧ options.HasRoom) ∧
      (∀ program, (Parse.program source options).outcome = .ok program →
        program.note = Span.whole source ∧ ∃ lexemes, SplitsInto source lexemes ∧
          ∀ items, DerivesItems lexemes items ↔ items = program.items) ∧
      ((∃ node, (Parse.fragment .expressionInput "expression" "expr" source options).outcome =
          .ok node) ↔ InLanguage .expression options.maxDepth source ∧ options.HasRoom) ∧
      (∀ value, (Parse.expression source options).outcome = .ok value →
        ∃ lexemes, SplitsInto source lexemes ∧
          ∀ other, (∃ last, DerivesExpression lexemes [] last other) ↔ other = value) ∧
      ((∃ node, (Parse.fragment .statementInput "statement" "statement" source
          options).outcome = .ok node) ↔
        InLanguage .statement options.maxDepth source ∧ options.HasRoom) ∧
      (∀ statement, (Parse.statement source options).outcome = .ok statement →
        ∃ lexemes, SplitsInto source lexemes ∧
          ∀ other, DerivesStatement lexemes [] other ↔ other = statement) ∧
      (Nesting.firstExcess? options.maxDepth source = none → ¬ options.HasRoom →
        (Parse.tree source options).outcome = .error (overflow options) ∧
        (Parse.fragment .expressionInput "expression" "expr" source options).outcome =
          .error (overflow options) ∧
        (Parse.fragment .statementInput "statement" "statement" source options).outcome =
          .error (overflow options)) := by
  refine ⟨exists_tree_iff, ?_, exists_expression_iff, ?_, exists_statement_iff, ?_, ?_⟩
  · intro program built
    obtain ⟨node, found, result_eq⟩ := program_eq_ok_iff.mp built
    obtain ⟨lexemes, items, lexed, derives, builds⟩ := exists_items_of_tree found
    obtain rfl := builds.eq_value result_eq
    refine ⟨rfl, lexemes, lexed.splits,
      fun other => ⟨fun derived => derived.unique derives, ?_⟩⟩
    rintro rfl
    exact derives
  · intro value built
    obtain ⟨node, found, result_eq⟩ := Report.andThen_eq_ok_iff.mp built
    obtain ⟨lexemes, last, tree, lexed, derives, builds⟩ := exists_value_of_fragment found
    obtain rfl := builds.eq_value (ofOutcome_mapError_eq_ok_iff.mp result_eq)
    refine ⟨lexemes, lexed.splits, fun other => ⟨?_, ?_⟩⟩
    · rintro ⟨_, derived⟩
      exact (derived.unique derives).2.2
    · rintro rfl
      exact ⟨last, derives⟩
  · intro statement built
    obtain ⟨node, found, result_eq⟩ := Report.andThen_eq_ok_iff.mp built
    obtain ⟨lexemes, tree, lexed, derives, builds⟩ := exists_statement_of_fragment found
    obtain rfl := builds.eq_value (ofOutcome_mapError_eq_ok_iff.mp result_eq)
    refine ⟨lexemes, lexed.splits,
      fun other => ⟨fun derived => (derived.unique derives).2, ?_⟩⟩
    rintro rfl
    exact derives
  · intro shallow full
    exact ⟨tree_eq_error (matchSource_of_full shallow full),
      fragment_eq_error (matchSource_of_full shallow full),
      fragment_eq_error (matchSource_of_full shallow full)⟩

def firstWithoutRoom : Options where
  maxDepth := 33554416

theorem firstWithoutRoom_not_hasRoom : ¬ firstWithoutRoom.HasRoom := by decide

/-- Without room not even the program without items is accepted. -/
theorem tree_nil_overflows :
    InLanguage .program firstWithoutRoom.maxDepth [] ∧
      (Parse.tree [] firstWithoutRoom).outcome = .error (overflow firstWithoutRoom) := by
  have shallow : Nesting.firstExcess? firstWithoutRoom.maxDepth [] = none := rfl
  have splits : SplitsInto [] [] := Splits.nil_iff.mpr ⟨rfl, rfl⟩
  have nests := (Nesting.firstExcess?_eq_none_iff splits _).mp shallow
  refine ⟨⟨[], splits, spells_program_iff.mpr ⟨[], .stop⟩, nests⟩, ?_⟩
  exact tree_eq_error (matchSource_of_full shallow firstWithoutRoom_not_hasRoom)

/-! ## Building -/

/-- A match tree is built, unless the index of a qubit literal is too long: no match
has a shape that cannot be built, and a fragment is always one node. -/
theorem build_of_match (source : Text) (options : Options) :
    (∀ node, (Parse.tree source options).outcome = .ok node →
      (node.HasOverlongIndex ∧ ∃ count, (Parse.program source options).outcome =
          .error (.unbuilt (.qubit (.tooManyDigits count)))) ∨
        ¬ node.HasOverlongIndex ∧ ∃ program,
          (Parse.program source options).outcome = .ok program) ∧
      (∀ value, (Parse.matchSource .expressionInput source options).outcome = .ok value →
        ∃ node, (Parse.fragment .expressionInput "expression" "expr" source options).outcome =
            .ok node ∧
          ((node.HasOverlongIndex ∧ ∃ count, (Parse.expression source options).outcome =
              .error (.unbuilt (.qubit (.tooManyDigits count)))) ∨
            ¬ node.HasOverlongIndex ∧ ∃ expression,
              (Parse.expression source options).outcome = .ok expression)) ∧
      ∀ value, (Parse.matchSource .statementInput source options).outcome = .ok value →
        ∃ node, (Parse.fragment .statementInput "statement" "statement" source
            options).outcome = .ok node ∧
          ((node.HasOverlongIndex ∧ ∃ count, (Parse.statement source options).outcome =
              .error (.unbuilt (.qubit (.tooManyDigits count)))) ∨
            ¬ node.HasOverlongIndex ∧ ∃ statement,
              (Parse.statement source options).outcome = .ok statement) := by
  refine ⟨?_, ?_, ?_⟩
  · intro node found
    obtain ⟨lexemes, items, _, _, builds⟩ := exists_items_of_tree found
    rcases builds.cases_node with ⟨overlong, count, result_eq⟩ | ⟨short, result_eq⟩
    · refine .inl ⟨overlong, count, Report.andThen_eq_error_iff.mpr (.inr ⟨node, found, ?_⟩)⟩
      rw [result_eq]
    · exact .inr ⟨short, _, program_eq_ok_iff.mpr ⟨node, found, result_eq⟩⟩
  · intro value matched
    obtain ⟨node, found⟩ := exists_node_of_matchSource rfl (by decide) matched
    obtain ⟨_, _, tree, _, _, builds⟩ := exists_value_of_fragment found
    refine ⟨node, found, ?_⟩
    rcases builds.cases_node with ⟨overlong, count, result_eq⟩ | ⟨short, result_eq⟩
    · refine .inl ⟨overlong, count, Report.andThen_eq_error_iff.mpr (.inr ⟨node, found, ?_⟩)⟩
      rw [result_eq]
      rfl
    · exact .inr ⟨short, tree, Report.andThen_eq_ok_iff.mpr
        ⟨node, found, ofOutcome_mapError_eq_ok_iff.mpr result_eq⟩⟩
  · intro value matched
    obtain ⟨node, found⟩ := exists_node_of_matchSource rfl (by decide) matched
    obtain ⟨_, tree, _, _, builds⟩ := exists_statement_of_fragment found
    refine ⟨node, found, ?_⟩
    rcases builds.cases_node with ⟨overlong, count, result_eq⟩ | ⟨short, result_eq⟩
    · refine .inl ⟨overlong, count, Report.andThen_eq_error_iff.mpr (.inr ⟨node, found, ?_⟩)⟩
      rw [result_eq]
      rfl
    · exact .inr ⟨short, tree, Report.andThen_eq_ok_iff.mpr
        ⟨node, found, ofOutcome_mapError_eq_ok_iff.mpr result_eq⟩⟩

end Language

end QubitLang
