import QubitLang.Proofs.Language.Acceptance
import QubitLang.Proofs.Language.Indices

/-! What is parsed, over the lexemes of a source text: the tree that they have, unless the
index of some qubit literal is too long. -/

namespace QubitLang

namespace Language

variable {source : Text} {options : Options} {lexemes : List Lexeme} {node : Node}

/-! ## Indices -/

def anyOverlong (lexemes : List Lexeme) : Bool :=
  lexemes.any fun lexeme => lexeme.token.isOverlong

theorem anyOverlong_append (lexemes others : List Lexeme) :
    anyOverlong (lexemes ++ others) = (anyOverlong lexemes || anyOverlong others) := List.any_append

theorem anyOverlong_eq {others : List Lexeme}
    (tokens_eq : lexemes.map Lexeme.token = others.map Lexeme.token) :
    anyOverlong lexemes = anyOverlong others := by
  have onTokens (lexemes : List Lexeme) :
      anyOverlong lexemes = (lexemes.map Lexeme.token).any Token.isOverlong := by
    rw [List.any_map]
    rfl
  rw [onTokens, onTokens, tokens_eq]

theorem any_isOverlong_of_tree (found : (Parse.tree source options).outcome = .ok node)
    (splits : SplitsInto source lexemes) :
    node.tokens.any isOverlong = lexemes.any fun lexeme => lexeme.token.isOverlong := by
  obtain ⟨value, matched, assembled⟩ := Report.andThen_eq_ok_iff.mp found
  obtain ⟨others, reading, values, lexed, ⟨_, reads⟩, whole, rfl, nodes_eq⟩ :=
    exists_reading_of_matchSource rfl matched
  obtain ⟨rfl, _, _⟩ := splits.unique rfl lexed.splits rfl
  obtain ⟨consumed, stream_eq, same⟩ := reads.any_isOverlong rfl reading rfl
  simp only [entryValue, Option.bind_some, Node.ofValue?, nodes_eq, Option.map_some] at assembled
  cases assembled
  rw [whole, List.append_nil] at stream_eq
  rw [Node.tokens_tree, stream_eq]
  exact same

theorem any_isOverlong_of_fragment {start : Nonterminal} {description rule : String}
    (entry : start.isEntry = true) (fragment : start ≠ .program)
    (found : (Parse.fragment start description rule source options).outcome = .ok node)
    (splits : SplitsInto source lexemes) :
    node.tokens.any isOverlong = lexemes.any fun lexeme => lexeme.token.isOverlong := by
  obtain ⟨others, reading, lexed, ⟨_, reads⟩, whole, single⟩ :=
    exists_reading_of_fragment entry fragment found
  obtain ⟨rfl, _, _⟩ := splits.unique rfl lexed.splits rfl
  have noIndex : (Language.form start).avoids (.sign .percent) = true :=
    avoids_percent fun rule kind => by cases start <;> cases entry <;> cases kind
  obtain ⟨consumed, stream_eq, same⟩ := reads.any_isOverlong noIndex reading rfl
  rw [whole, List.append_nil] at stream_eq
  rw [single, Node.tokensAll_cons, Node.tokensAll_nil, List.append_nil] at same
  rw [stream_eq]
  exact same

/-! ## Trees of source texts -/

/-- What comes of lexemes with a tree: this tree, unless an index is too long. -/
def Yields {α : Type} (lexemes : List Lexeme) (outcome : Except ParseError α) (value : α) : Prop :=
  if anyOverlong lexemes then
    ∃ count, outcome = .error (.unbuilt (.qubit (.tooManyDigits count)))
  else outcome = .ok value

theorem Yields.of_builds {α : Type} {tokens : List (String × Text)}
    {result : Except BuildError α} {outcome : Except ParseError α} {value : α}
    (builds : Builds tokens result value) (same : tokens.any isOverlong = anyOverlong lexemes)
    (outcome_eq : outcome = result.mapError .unbuilt) : Yields lexemes outcome value := by
  subst outcome_eq
  unfold Yields
  split
  · rename_i overlong
    obtain ⟨count, rfl⟩ := builds.exists_error (same.trans overlong)
    exact ⟨count, rfl⟩
  · rename_i short
    rw [builds.eq_ok (same.trans (Bool.not_eq_true _ ▸ short))]
    rfl

theorem Yields.eq_ok {α : Type} {outcome : Except ParseError α} {value : α}
    (yields : Yields lexemes outcome value) (short : anyOverlong lexemes = false) :
    outcome = .ok value := by
  rwa [Yields, short, if_neg Bool.false_ne_true] at yields

theorem IsLexed.yields_program {items : List (Item Span)}
    (lexed : IsLexed source options lexemes) (derives : DerivesItems lexemes items) :
    Yields lexemes (Parse.program source options).outcome ⟨Span.whole source, items⟩ := by
  obtain ⟨node, found⟩ := exists_tree lexed derives
  obtain ⟨others, otherItems, same, otherDerives, builds⟩ := exists_items_of_tree found
  obtain ⟨rfl, _, _⟩ := same.splits.unique rfl lexed.splits rfl
  obtain rfl := derives.unique otherDerives
  apply Yields.of_builds builds (any_isOverlong_of_tree found lexed.splits)
  cases built : node.program <;> simp [Parse.program, Report.andThen, found, built]

theorem IsLexed.yields_expression {last : Span} {value : Expression Span}
    (lexed : IsLexed source options lexemes) (derives : DerivesExpression lexemes [] last value) :
    Yields lexemes (Parse.expression source options).outcome value := by
  obtain ⟨node, found⟩ : ∃ node, (Parse.fragment .expressionInput "expression" "expr" source
      options).outcome = .ok node := exists_fragment_expression lexed derives
  obtain ⟨others, _, other, same, otherDerives, builds⟩ := exists_value_of_fragment found
  obtain ⟨rfl, _, _⟩ := same.splits.unique rfl lexed.splits rfl
  obtain ⟨_, _, rfl⟩ := derives.unique otherDerives
  apply Yields.of_builds builds (any_isOverlong_of_fragment rfl (by decide) found lexed.splits)
  rw [Parse.expression, Report.andThen, found]
  rfl

theorem IsLexed.yields_statement {statement : Statement Span}
    (lexed : IsLexed source options lexemes) (derives : DerivesStatement lexemes [] statement) :
    Yields lexemes (Parse.statement source options).outcome statement := by
  obtain ⟨node, found⟩ : ∃ node, (Parse.fragment .statementInput "statement" "statement" source
      options).outcome = .ok node := exists_fragment_statement lexed derives
  obtain ⟨others, other, same, otherDerives, builds⟩ := exists_statement_of_fragment found
  obtain ⟨rfl, _, _⟩ := same.splits.unique rfl lexed.splits rfl
  obtain ⟨_, rfl⟩ := derives.unique otherDerives
  apply Yields.of_builds builds (any_isOverlong_of_fragment rfl (by decide) found lexed.splits)
  rw [Parse.statement, Report.andThen, found]
  rfl

/-- A program is parsed exactly if it is the tree of the lexemes of the source text, and
none of its indices is too long. -/
theorem parsed_program_iff {program : Program Span} :
    (Parse.program source options).outcome = .ok program ↔
      ∃ lexemes, IsLexed source options lexemes ∧ anyOverlong lexemes = false ∧
        program.note = Span.whole source ∧ DerivesItems lexemes program.items := by
  constructor
  · intro parsed
    obtain ⟨node, found, built⟩ := program_eq_ok_iff.mp parsed
    obtain ⟨lexemes, items, lexed, derives, builds⟩ := exists_items_of_tree found
    obtain ⟨short, rfl⟩ := builds.eq_ok_iff.mp built
    rw [any_isOverlong_of_tree found lexed.splits] at short
    exact ⟨lexemes, lexed, short, rfl, derives⟩
  · rintro ⟨lexemes, lexed, short, note_eq, derives⟩
    rw [(lexed.yields_program derives).eq_ok short, ← note_eq]

theorem parsed_expression_iff {value : Expression Span} :
    (Parse.expression source options).outcome = .ok value ↔
      ∃ lexemes, IsLexed source options lexemes ∧ anyOverlong lexemes = false ∧
        ∃ last, DerivesExpression lexemes [] last value := by
  constructor
  · intro parsed
    obtain ⟨node, found, built⟩ := Report.andThen_eq_ok_iff.mp parsed
    obtain ⟨lexemes, last, tree, lexed, derives, builds⟩ := exists_value_of_fragment found
    obtain ⟨short, rfl⟩ := builds.eq_ok_iff.mp (ofOutcome_mapError_eq_ok_iff.mp built)
    rw [any_isOverlong_of_fragment rfl (by decide) found lexed.splits] at short
    exact ⟨lexemes, lexed, short, last, derives⟩
  · rintro ⟨lexemes, lexed, short, last, derives⟩
    exact (lexed.yields_expression derives).eq_ok short

theorem parsed_statement_iff {statement : Statement Span} :
    (Parse.statement source options).outcome = .ok statement ↔
      ∃ lexemes, IsLexed source options lexemes ∧ anyOverlong lexemes = false ∧
        DerivesStatement lexemes [] statement := by
  constructor
  · intro parsed
    obtain ⟨node, found, built⟩ := Report.andThen_eq_ok_iff.mp parsed
    obtain ⟨lexemes, tree, lexed, derives, builds⟩ := exists_statement_of_fragment found
    obtain ⟨short, rfl⟩ := builds.eq_ok_iff.mp (ofOutcome_mapError_eq_ok_iff.mp built)
    rw [any_isOverlong_of_fragment rfl (by decide) found lexed.splits] at short
    exact ⟨lexemes, lexed, short, derives⟩
  · rintro ⟨lexemes, lexed, short, derives⟩
    exact (lexed.yields_statement derives).eq_ok short

end Language

end QubitLang
