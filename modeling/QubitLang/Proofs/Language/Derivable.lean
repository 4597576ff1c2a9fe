import QubitLang.Proofs.Language.Derivation
import QubitLang.Proofs.Language.Firsts

/-! Every sentence of the grammar has a tree. Of the many ways to generate a sentence,
the tree follows one in which a name is a callee wherever it can be. -/

namespace QubitLang.Language

/-- Lexemes whose tokens a form generates. -/
def Spells (form : Form) (lexemes : List Lexeme) : Prop :=
  Generates form (lexemes.map Lexeme.token)

/-! ## Lexemes by form -/

section

variable {label other : Label} {name : Nonterminal} {left right body : Form}
  {lexemes rest tail : List Lexeme}

theorem spells_terminal_iff : Spells (.terminal label) lexemes ↔
    ∃ first, lexemes = [first] ∧ first.token.reads label = true := by
  rw [Spells, generates_terminal_iff]
  constructor
  · rintro ⟨token, tokens_eq, reads⟩
    obtain ⟨first, rfl, rfl⟩ := List.map_eq_singleton_iff.mp tokens_eq
    exact ⟨first, rfl, reads⟩
  · rintro ⟨first, rfl, reads⟩
    exact ⟨first.token, rfl, reads⟩

theorem spells_call_iff : Spells (.call name) lexemes ↔ Spells (form name) lexemes :=
  generates_call_iff

theorem spells_seq_iff : Spells (.seq left right) lexemes ↔
    ∃ first second, lexemes = first ++ second ∧ Spells left first ∧ Spells right second := by
  rw [Spells, generates_seq_iff]
  constructor
  · rintro ⟨head, tail, tokens_eq, leftSentence, rightSentence⟩
    obtain ⟨first, second, rfl, rfl, rfl⟩ := List.map_eq_append_iff.mp tokens_eq
    exact ⟨first, second, rfl, leftSentence, rightSentence⟩
  · rintro ⟨first, second, rfl, leftSpells, rightSpells⟩
    exact ⟨_, _, List.map_append, leftSpells, rightSpells⟩

theorem spells_alt_iff : Spells (.alt left right) lexemes ↔
    Spells left lexemes ∨ Spells right lexemes :=
  generates_alt_iff

theorem spells_star_iff : Spells (.star body) lexemes ↔
    lexemes = [] ∨ ∃ first more, lexemes = first ++ more ∧ Spells body first ∧
      Spells (.star body) more := by
  rw [Spells, generates_star_iff, List.map_eq_nil_iff]
  constructor
  · rintro (rfl | ⟨head, tail, tokens_eq, bodySentence, moreSentences⟩)
    · exact .inl rfl
    · obtain ⟨first, more, rfl, rfl, rfl⟩ := List.map_eq_append_iff.mp tokens_eq
      exact .inr ⟨first, more, rfl, bodySentence, moreSentences⟩
  · rintro (rfl | ⟨first, more, rfl, bodySpells, moreSpells⟩)
    · exact .inl rfl
    · exact .inr ⟨_, _, List.map_append, bodySpells, moreSpells⟩

theorem spells_opt_iff : Spells (.opt body) lexemes ↔ lexemes = [] ∨ Spells body lexemes := by
  rw [Spells, generates_opt_iff, List.map_eq_nil_iff]
  rfl

theorem spells_terminal_seq_iff : Spells (.seq (.terminal label) right) lexemes ↔
    ∃ first rest, lexemes = first :: rest ∧ first.token.reads label = true ∧
      Spells right rest := by
  rw [spells_seq_iff]
  constructor
  · rintro ⟨_, rest, rfl, head, tail⟩
    obtain ⟨first, rfl, reads⟩ := spells_terminal_iff.mp head
    exact ⟨first, rest, rfl, reads, tail⟩
  · rintro ⟨first, rest, rfl, reads, tail⟩
    exact ⟨[first], rest, rfl, spells_terminal_iff.mpr ⟨first, rfl, reads⟩, tail⟩

theorem spells_name_seq_iff : Spells (.seq (.call .identifier) right) lexemes ↔
    ∃ first rest, lexemes = first :: rest ∧ first.token.reads .identifier = true ∧
      Spells right rest := by
  rw [← spells_terminal_seq_iff, spells_seq_iff, spells_seq_iff]
  simp only [spells_call_iff]
  rfl

/-! ## What cannot come next -/

/-- What a solid form spells begins with none of the labels that its first labels
exclude. -/
theorem Spells.exists_cons (spells : Spells body lexemes) (solid : body.isSolid = true)
    (apart : body.firsts.all fun other => !other.overlaps label) :
    ∃ first rest, lexemes = first :: rest ∧ first.token.reads label = false := by
  obtain ⟨_, _, other, tokens_eq, member, reads⟩ := spells.exists_first solid
  obtain ⟨first, rest, rfl, rfl, rfl⟩ := List.map_eq_cons_iff.mp tokens_eq
  have disjoint := List.all_eq_true.mp apart other member
  refine ⟨first, rest, rfl, ?_⟩
  rw [← startsWith_cons label first rest]
  exact startsWith_of_reads reads (by simpa using disjoint)

theorem Spells.startsWith_star (spells : Spells (.star body) lexemes)
    (solid : body.isSolid = true) (apart : body.firsts.all fun other => !other.overlaps label)
    (behind : startsWith label tail = false) : startsWith label (lexemes ++ tail) = false := by
  rcases spells_star_iff.mp spells with rfl | ⟨head, more, rfl, headSpells, _⟩
  · exact behind
  · obtain ⟨first, rest, rfl, refused⟩ := headSpells.exists_cons solid apart
    exact refused

theorem Spells.dropComma_append {comma : List Lexeme} (spells : Spells (.opt (.sign .comma)) comma)
    (behind : startsWith (.sign .comma) tail = false) : dropComma (comma ++ tail) = tail := by
  rcases spells_opt_iff.mp spells with rfl | present
  · cases tail with
    | nil => rfl
    | cons first rest =>
        rw [startsWith_cons] at behind
        rw [List.nil_append, dropComma, behind, if_neg Bool.false_ne_true]
  · obtain ⟨first, rfl, reads⟩ := spells_terminal_iff.mp present
    rw [List.cons_append, dropComma, reads, if_pos rfl, List.nil_append]

end

/-! ## Expressions -/

theorem exists_literal? {first : Lexeme} {label : Label}
    (member : label ∈ Nonterminal.literal.firsts) (reads : first.token.reads label = true) :
    ∃ value, literal? first = some value := by
  unfold literal?
  split
  · exact ⟨_, rfl⟩
  · split
    · exact ⟨_, rfl⟩
    · split
      · exact ⟨_, rfl⟩
      · split
        · exact ⟨_, rfl⟩
        · simp only [Nonterminal.firsts, List.mem_cons, List.not_mem_nil, or_false] at member
          rcases member with rfl | rfl | rfl | rfl <;> contradiction

theorem Spells.exists_literal {lexemes : List Lexeme} (spells : Spells (.call .literal) lexemes) :
    ∃ first value, lexemes = [first] ∧ literal? first = some value := by
  have alone : ∃ first label, lexemes = [first] ∧ label ∈ Nonterminal.literal.firsts ∧
      first.token.reads label = true := by
    rcases spells_alt_iff.mp (spells_call_iff.mp spells) with number | spells
    · obtain ⟨first, rfl, reads⟩ := spells_terminal_iff.mp (spells_call_iff.mp number)
      exact ⟨first, _, rfl, by decide, reads⟩
    · rcases spells_alt_iff.mp spells with qubit | spells
      · obtain ⟨first, rfl, reads⟩ := spells_terminal_iff.mp (spells_call_iff.mp qubit)
        exact ⟨first, _, rfl, by decide, reads⟩
      · rcases spells_alt_iff.mp spells with affirmed | denied
        · obtain ⟨first, rfl, reads⟩ := spells_terminal_iff.mp (spells_call_iff.mp affirmed)
          exact ⟨first, _, rfl, by decide, reads⟩
        · obtain ⟨first, rfl, reads⟩ := spells_terminal_iff.mp (spells_call_iff.mp denied)
          exact ⟨first, _, rfl, by decide, reads⟩
  obtain ⟨first, label, rfl, member, reads⟩ := alone
  obtain ⟨value, found⟩ := exists_literal? member reads
  exact ⟨first, value, rfl, found⟩

abbrev Form.arguments : Form := .star (.seq (.call .expression) (.opt (.sign .comma)))

theorem Spells.exists_call {lexemes : List Lexeme} (spells : Spells (.call .call) lexemes) :
    ∃ callee opening inside closing, lexemes = callee :: opening :: (inside ++ [closing]) ∧
      callee.token.reads .identifier = true ∧ opening.token.reads (.sign .openParen) = true ∧
      Spells .arguments inside ∧ closing.token.reads (.sign .closeParen) = true := by
  obtain ⟨callee, tail, rfl, isName, opened⟩ := spells_name_seq_iff.mp (spells_call_iff.mp spells)
  obtain ⟨opening, rest, rfl, opens, behind⟩ := spells_terminal_seq_iff.mp opened
  obtain ⟨inside, last, rfl, arguments, closed⟩ := spells_seq_iff.mp behind
  obtain ⟨closing, rfl, closes⟩ := spells_terminal_iff.mp closed
  exact ⟨callee, opening, inside, closing, rfl, isName, opens, arguments, closes⟩

theorem Spells.expression_cases {lexemes : List Lexeme}
    (spells : Spells (.call .expression) lexemes) :
    (∃ opening inside closing, lexemes = opening :: (inside ++ [closing]) ∧
        opening.token.reads (.sign .openParen) = true ∧ Spells (.call .expression) inside ∧
        closing.token.reads (.sign .closeParen) = true) ∨
      Spells (.call .call) lexemes ∨
      (∃ first value, lexemes = [first] ∧ literal? first = some value) ∨
      ∃ first, lexemes = [first] ∧ first.token.reads .identifier = true := by
  rcases spells_alt_iff.mp (spells_call_iff.mp spells) with grouped | spells
  · obtain ⟨opening, rest, rfl, opens, spells⟩ := spells_terminal_seq_iff.mp grouped
    obtain ⟨inside, last, rfl, value, closed⟩ := spells_seq_iff.mp spells
    obtain ⟨closing, rfl, closes⟩ := spells_terminal_iff.mp closed
    exact .inl ⟨opening, inside, closing, rfl, opens, value, closes⟩
  · rcases spells_alt_iff.mp spells with called | spells
    · exact .inr (.inl called)
    · rcases spells_alt_iff.mp spells with literal | name
      · exact .inr (.inr (.inl literal.exists_literal))
      · exact .inr (.inr (.inr (spells_terminal_iff.mp (spells_call_iff.mp name))))

theorem Spells.asArguments {lexemes : List Lexeme} (spells : Spells (.call .expression) lexemes) :
    Spells .arguments lexemes := by
  refine spells_star_iff.mpr (.inr ⟨lexemes, [], (List.append_nil _).symm, ?_,
    spells_star_iff.mpr (.inl rfl)⟩)
  exact spells_seq_iff.mpr ⟨lexemes, [], (List.append_nil _).symm, spells,
    spells_opt_iff.mpr (.inl rfl)⟩

theorem Spells.no_comma {lexemes : List Lexeme} {closing : Lexeme}
    (spells : Spells .arguments lexemes) (rest : List Lexeme)
    (closes : closing.token.reads (.sign .closeParen) = true) :
    startsWith (.sign .comma) (lexemes ++ closing :: rest) = false :=
  spells.startsWith_star rfl (by decide) (startsWith_of_reads closes rfl)

theorem Spells.length_pos {form : Form} {lexemes : List Lexeme} (spells : Spells form lexemes)
    (solid : form.isSolid = true) : 0 < lexemes.length := by
  obtain ⟨_, _, _, tokens_eq, _, _⟩ := spells.exists_first solid
  have sizes := congrArg List.length tokens_eq
  rw [List.length_map, List.length_cons] at sizes
  omega

theorem Spells.exists_group {lexemes rest : List Lexeme} {closing : Lexeme}
    (spells : Spells .arguments lexemes) (closes : closing.token.reads (.sign .closeParen) = true)
    (opened : startsWith (.sign .openParen) (lexemes ++ closing :: rest) = true) :
    ∃ opening inside ending comma more,
      lexemes = opening :: (inside ++ ending :: (comma ++ more)) ∧
      opening.token.reads (.sign .openParen) = true ∧ Spells .arguments inside ∧
      ending.token.reads (.sign .closeParen) = true ∧ Spells (.opt (.sign .comma)) comma ∧
      Spells .arguments more := by
  rcases spells_star_iff.mp spells with rfl | ⟨first, more, rfl, firstSpells, moreSpells⟩
  · have refused : startsWith (.sign .openParen) (closing :: rest) = false :=
      startsWith_of_reads closes rfl
    rw [List.nil_append, refused] at opened
    cases opened
  · obtain ⟨value, comma, rfl, valueSpells, commaSpells⟩ := spells_seq_iff.mp firstSpells
    rcases valueSpells.expression_cases with ⟨opening, inside, ending, rfl, opens, inner, ends⟩ |
      called | ⟨first, value, rfl, found⟩ | ⟨first, rfl, isName⟩
    · exact ⟨opening, inside, ending, comma, more, by simp, opens, inner.asArguments, ends,
        commaSpells, moreSpells⟩
    · obtain ⟨callee, opening, inside, ending, rfl, isName, _⟩ := called.exists_call
      cases Token.overlaps_of_reads isName opened
    · have reads : first.token.reads (.sign .openParen) = true := opened
      rw [not_reads_of_literal? found (.inr (.inl rfl))] at reads
      cases reads
    · cases Token.overlaps_of_reads isName opened

mutual

/-- An expression has a tree, unless it is a name in front of a parenthesis. -/
theorem Spells.exists_expression {lexemes : List Lexeme} (rest : List Lexeme)
    (spells : Spells (.call .expression) lexemes) :
    (∃ last value, DerivesExpression (lexemes ++ rest) rest last value) ∨
      ∃ first, lexemes = [first] ∧ first.token.reads .identifier = true ∧
        startsWith (.sign .openParen) rest = true := by
  rcases spells.expression_cases with ⟨opening, inside, closing, rfl, opens, value, closes⟩ |
    called | ⟨first, value, rfl, found⟩ | ⟨first, rfl, isName⟩
  · have alone : startsWith (.sign .openParen) (closing :: rest) = false :=
      startsWith_of_reads closes rfl
    rcases value.exists_expression (closing :: rest) with ⟨last, tree, derives⟩ | ⟨_, _, _, opened⟩
    · refine .inl ⟨closing.span, tree, ?_⟩
      rw [List.cons_append, List.append_assoc]
      exact .parenthesised opens derives closes
    · rw [alone] at opened
      cases opened
  · obtain ⟨callee, opening, inside, closing, rfl, isName, opens, arguments, closes⟩ :=
      called.exists_call
    obtain ⟨last, values, derives⟩ := arguments.exists_arguments rest closes
    have call := DerivesExpression.call isName opens derives
    exact .inl ⟨last, _, by simpa using call⟩
  · exact .inl ⟨_, value, .literal found⟩
  · cases opened : startsWith (.sign .openParen) rest with
    | false => exact .inl ⟨_, _, .name isName opened⟩
    | true => exact .inr ⟨first, rfl, isName, rfl⟩
termination_by (lexemes.length, 0)

/-- Arguments have trees. A name in front of an argument in parentheses is the callee
of a call instead of an argument. -/
theorem Spells.exists_arguments {lexemes : List Lexeme} {closing : Lexeme} (rest : List Lexeme)
    (spells : Spells .arguments lexemes)
    (closes : closing.token.reads (.sign .closeParen) = true) :
    ∃ last values, DerivesArguments (lexemes ++ closing :: rest) rest last values := by
  rcases spells_star_iff.mp spells with rfl | ⟨first, more, rfl, firstSpells, moreSpells⟩
  · exact ⟨_, [], .close closes⟩
  · obtain ⟨value, comma, rfl, valueSpells, commaSpells⟩ := spells_seq_iff.mp firstSpells
    have nonempty := valueSpells.length_pos rfl
    have dropped := commaSpells.dropComma_append (moreSpells.no_comma rest closes)
    rw [List.append_assoc, List.append_assoc]
    rcases valueSpells.exists_expression (comma ++ (more ++ closing :: rest)) with
      ⟨inner, tree, derives⟩ | ⟨name, rfl, isName, opened⟩
    · obtain ⟨last, values, others⟩ := moreSpells.exists_arguments rest closes
      rw [← dropped] at others
      exact ⟨last, tree :: values, .cons derives others⟩
    · -- A name in front of a parenthesis: without a comma, what follows are its arguments.
      rcases spells_opt_iff.mp commaSpells with rfl | present
      · obtain ⟨opening, inside, ending, behind, further, rfl, opens, arguments, ends,
          behindSpells, furtherSpells⟩ := Spells.exists_group moreSpells closes opened
        have dropped := behindSpells.dropComma_append (furtherSpells.no_comma rest closes)
        obtain ⟨inner, values, derives⟩ :=
          arguments.exists_arguments (behind ++ (further ++ closing :: rest)) ends
        obtain ⟨last, laterValues, others⟩ := furtherSpells.exists_arguments rest closes
        rw [← dropped] at others
        have call := DerivesArguments.cons (.call isName opens derives) others
        exact ⟨last, _, by simpa using call⟩
      · obtain ⟨sign, rfl, reads⟩ := spells_terminal_iff.mp present
        cases Token.overlaps_of_reads reads opened
termination_by (lexemes.length, 1)
decreasing_by
  all_goals
    subst_vars
    simp only [Prod.lex_def, List.length_append, List.length_cons] at *
    omega

end

theorem Spells.exists_value {lexemes : List Lexeme} (rest : List Lexeme)
    (spells : Spells (.call .expression) lexemes)
    (alone : startsWith (.sign .openParen) rest = false) :
    ∃ last value, DerivesExpression (lexemes ++ rest) rest last value := by
  rcases spells.exists_expression rest with derived | ⟨_, _, _, opened⟩
  · exact derived
  · rw [alone] at opened
    cases opened

/-! ## Statements -/

theorem Spells.exists_type {lexemes : List Lexeme} (spells : Spells (.call .type) lexemes) :
    ∃ word type, lexemes = [word] ∧ word.token.reads (.typeWord type) = true := by
  rcases spells_alt_iff.mp (spells_call_iff.mp spells) with number | spells
  · obtain ⟨word, rfl, reads⟩ := spells_terminal_iff.mp (spells_call_iff.mp number)
    exact ⟨word, _, rfl, reads⟩
  · rcases spells_alt_iff.mp spells with qubit | bit
    · obtain ⟨word, rfl, reads⟩ := spells_terminal_iff.mp (spells_call_iff.mp qubit)
      exact ⟨word, _, rfl, reads⟩
    · obtain ⟨word, rfl, reads⟩ := spells_terminal_iff.mp (spells_call_iff.mp bit)
      exact ⟨word, _, rfl, reads⟩

theorem Spells.exists_block {lexemes : List Lexeme} (spells : Spells (.call .block) lexemes) :
    ∃ opening inside closing, lexemes = opening :: (inside ++ [closing]) ∧
      opening.token.reads (.sign .openBrace) = true ∧ Spells (.star (.call .statement)) inside ∧
      closing.token.reads (.sign .closeBrace) = true := by
  obtain ⟨opening, rest, rfl, opens, behind⟩ :=
    spells_terminal_seq_iff.mp (spells_call_iff.mp spells)
  obtain ⟨inside, last, rfl, statements, closed⟩ := spells_seq_iff.mp behind
  obtain ⟨closing, rfl, closes⟩ := spells_terminal_iff.mp closed
  exact ⟨opening, inside, closing, rfl, opens, statements, closes⟩

theorem Spells.exists_guarded {lexemes : List Lexeme} {label : Label}
    (spells : Spells (.seq (.terminal label) (.seq (.call .expression) (.call .block))) lexemes) :
    ∃ keyword value opening inside closing,
      lexemes = keyword :: (value ++ opening :: (inside ++ [closing])) ∧
      keyword.token.reads label = true ∧ Spells (.call .expression) value ∧
      opening.token.reads (.sign .openBrace) = true ∧ Spells (.star (.call .statement)) inside ∧
      closing.token.reads (.sign .closeBrace) = true := by
  obtain ⟨keyword, rest, rfl, reads, behind⟩ := spells_terminal_seq_iff.mp spells
  obtain ⟨value, block, rfl, valueSpells, blockSpells⟩ := spells_seq_iff.mp behind
  obtain ⟨opening, inside, closing, rfl, opens, statements, closes⟩ := blockSpells.exists_block
  exact ⟨keyword, value, opening, inside, closing, rfl, reads, valueSpells, opens, statements,
    closes⟩

theorem Spells.exists_simple {lexemes : List Lexeme} (rest : List Lexeme)
    (spells : Spells (.choice (.call .variableDeclaration)
      [.call .assignment, .call .call, .call .returnStatement]) lexemes)
    {semicolon : Lexeme} (ends : semicolon.token.reads (.sign .semicolon) = true) :
    ∃ statement, DerivesStatement (lexemes ++ semicolon :: rest) rest statement := by
  have alone : startsWith (.sign .openParen) (semicolon :: rest) = false :=
    startsWith_of_reads ends rfl
  rcases spells_alt_iff.mp spells with declared | spells
  · obtain ⟨keyword, lexemes, rfl, declares, named⟩ :=
      spells_terminal_seq_iff.mp (spells_call_iff.mp declared)
    obtain ⟨name, lexemes, rfl, isName, separated⟩ := spells_name_seq_iff.mp named
    obtain ⟨colon, lexemes, rfl, separates, typed⟩ := spells_terminal_seq_iff.mp separated
    obtain ⟨head, lexemes, rfl, typeSpells, assigned⟩ := spells_seq_iff.mp typed
    obtain ⟨word, type, rfl, isType⟩ := typeSpells.exists_type
    obtain ⟨equals, value, rfl, assigns, valueSpells⟩ := spells_terminal_seq_iff.mp assigned
    obtain ⟨last, tree, derives⟩ := valueSpells.exists_value (semicolon :: rest) alone
    have statement := DerivesStatement.declare declares isName separates isType assigns derives ends
    exact ⟨_, by simpa using statement⟩
  · rcases spells_alt_iff.mp spells with assigned | spells
    · obtain ⟨name, lexemes, rfl, isName, behind⟩ :=
        spells_name_seq_iff.mp (spells_call_iff.mp assigned)
      obtain ⟨equals, value, rfl, assigns, valueSpells⟩ := spells_terminal_seq_iff.mp behind
      obtain ⟨last, tree, derives⟩ := valueSpells.exists_value (semicolon :: rest) alone
      exact ⟨_, .assign isName assigns derives ends⟩
    · rcases spells_alt_iff.mp spells with called | returned
      · obtain ⟨callee, opening, inside, closing, rfl, isName, opens, arguments, closes⟩ :=
          called.exists_call
        obtain ⟨last, values, derives⟩ := arguments.exists_arguments (semicolon :: rest) closes
        have statement := DerivesStatement.call isName opens derives ends
        exact ⟨_, by simpa using statement⟩
      · obtain ⟨keyword, value, rfl, returns, valueSpells⟩ :=
          spells_terminal_seq_iff.mp (spells_call_iff.mp returned)
        obtain ⟨last, tree, derives⟩ := valueSpells.exists_value (semicolon :: rest) alone
        exact ⟨_, .giveBack returns derives ends⟩

mutual

/-- A statement has a tree in front of anything but `else`. -/
theorem Spells.exists_statement {lexemes : List Lexeme} (rest : List Lexeme)
    (spells : Spells (.call .statement) lexemes)
    (alone : startsWith (.keyword .elseWord) rest = false) :
    ∃ statement, DerivesStatement (lexemes ++ rest) rest statement := by
  rcases spells_alt_iff.mp (spells_call_iff.mp spells) with simple | spells
  · obtain ⟨first, last, rfl, firstSpells, ended⟩ := spells_seq_iff.mp simple
    obtain ⟨semicolon, rfl, ends⟩ := spells_terminal_iff.mp ended
    obtain ⟨statement, derives⟩ := firstSpells.exists_simple rest ends
    exact ⟨statement, by simpa using derives⟩
  · rcases spells_alt_iff.mp spells with tested | repeated
    · obtain ⟨head, other, rfl, headSpells, otherSpells⟩ :=
        spells_seq_iff.mp (spells_call_iff.mp tested)
      obtain ⟨keyword, value, opening, inside, closing, rfl, tests, valueSpells, opens,
        statementsSpell, closes⟩ := Spells.exists_guarded (spells_call_iff.mp headSpells)
      obtain ⟨last, condition, derives⟩ := valueSpells.exists_value
        (opening :: (inside ++ closing :: (other ++ rest))) (startsWith_of_reads opens rfl)
      obtain ⟨inner, body, statements⟩ := statementsSpell.exists_statements (other ++ rest) closes
      rcases spells_opt_iff.mp otherSpells with rfl | otherSpells
      · have statement := DerivesStatement.ifThen tests derives opens statements alone
        exact ⟨_, by simpa using statement⟩
      · obtain ⟨separator, block, rfl, separates, blockSpells⟩ :=
          spells_terminal_seq_iff.mp (spells_call_iff.mp otherSpells)
        obtain ⟨otherOpening, otherInside, otherClosing, rfl, otherOpens, otherSpell,
          otherCloses⟩ := blockSpells.exists_block
        obtain ⟨last, otherwise, otherStatements⟩ := otherSpell.exists_statements rest otherCloses
        have statement := DerivesStatement.ifThenElse tests (by simpa using derives) opens
          (by simpa using statements) separates otherOpens otherStatements
        exact ⟨_, by simpa using statement⟩
    · obtain ⟨keyword, value, opening, inside, closing, rfl, repeats, valueSpells, opens,
        statementsSpell, closes⟩ := Spells.exists_guarded (spells_call_iff.mp repeated)
      obtain ⟨last, condition, derives⟩ := valueSpells.exists_value
        (opening :: (inside ++ closing :: rest)) (startsWith_of_reads opens rfl)
      obtain ⟨inner, body, statements⟩ := statementsSpell.exists_statements rest closes
      have statement := DerivesStatement.loop repeats derives opens statements
      exact ⟨_, by simpa using statement⟩
termination_by (lexemes.length, 0)
decreasing_by
  all_goals
    subst_vars
    simp only [Prod.lex_def, List.length_append, List.length_cons] at *
    omega

theorem Spells.exists_statements {lexemes : List Lexeme} {closing : Lexeme} (rest : List Lexeme)
    (spells : Spells (.star (.call .statement)) lexemes)
    (closes : closing.token.reads (.sign .closeBrace) = true) :
    ∃ last statements, DerivesStatements (lexemes ++ closing :: rest) rest last statements := by
  rcases spells_star_iff.mp spells with rfl | ⟨first, more, rfl, firstSpells, moreSpells⟩
  · exact ⟨_, [], .close closes⟩
  · have nonempty := firstSpells.length_pos rfl
    have alone : startsWith (.keyword .elseWord) (more ++ closing :: rest) = false :=
      moreSpells.startsWith_star rfl (by decide) (startsWith_of_reads closes rfl)
    obtain ⟨statement, derives⟩ := firstSpells.exists_statement (more ++ closing :: rest) alone
    obtain ⟨last, statements, others⟩ := moreSpells.exists_statements rest closes
    rw [List.append_assoc]
    exact ⟨last, _, .cons derives others⟩
termination_by (lexemes.length, 1)
decreasing_by
  all_goals
    subst_vars
    simp only [Prod.lex_def, List.length_append] at *
    omega

end

/-! ## Items -/

theorem Spells.exists_parameter {lexemes : List Lexeme}
    (spells : Spells (.call .parameter) lexemes) :
    ∃ name colon word type comma, lexemes = name :: colon :: word :: comma ∧
      name.token.reads .identifier = true ∧ colon.token.reads (.sign .colon) = true ∧
      word.token.reads (.typeWord type) = true ∧ Spells (.opt (.sign .comma)) comma := by
  obtain ⟨name, tail, rfl, isName, separated⟩ := spells_name_seq_iff.mp (spells_call_iff.mp spells)
  obtain ⟨colon, tail, rfl, separates, typed⟩ := spells_terminal_seq_iff.mp separated
  obtain ⟨head, comma, rfl, typeSpells, commaSpells⟩ := spells_seq_iff.mp typed
  obtain ⟨word, type, rfl, isType⟩ := typeSpells.exists_type
  exact ⟨name, colon, word, type, comma, rfl, isName, separates, isType, commaSpells⟩

theorem Spells.exists_parameters {lexemes : List Lexeme} {closing : Lexeme} (rest : List Lexeme)
    (spells : Spells (.star (.call .parameter)) lexemes)
    (closes : closing.token.reads (.sign .closeParen) = true) :
    ∃ last parameters, DerivesParameters (lexemes ++ closing :: rest) rest last parameters := by
  rcases spells_star_iff.mp spells with rfl | ⟨first, more, rfl, firstSpells, moreSpells⟩
  · exact ⟨_, [], .close closes⟩
  · have noComma : startsWith (.sign .comma) (more ++ closing :: rest) = false :=
      moreSpells.startsWith_star rfl (by decide) (startsWith_of_reads closes rfl)
    obtain ⟨name, colon, word, type, comma, rfl, isName, separates, isType, commaSpells⟩ :=
      firstSpells.exists_parameter
    have dropped := commaSpells.dropComma_append noComma
    obtain ⟨last, parameters, others⟩ := moreSpells.exists_parameters rest closes
    rw [← dropped] at others
    have derives := DerivesParameters.cons isName separates isType others
    exact ⟨last, _, by simpa using derives⟩
termination_by lexemes.length
decreasing_by
  subst_vars
  simp only [List.length_append, List.length_cons]
  omega

/-- A prototype has a tree in front of anything but an arrow. -/
theorem Spells.exists_prototype {lexemes : List Lexeme} (rest : List Lexeme)
    (spells : Spells (.call .prototype) lexemes)
    (alone : startsWith (.sign .arrow) rest = false) :
    ∃ last signature, DerivesPrototype (lexemes ++ rest) rest last signature := by
  obtain ⟨name, tail, rfl, isName, opened⟩ := spells_name_seq_iff.mp (spells_call_iff.mp spells)
  obtain ⟨opening, tail, rfl, opens, behind⟩ := spells_terminal_seq_iff.mp opened
  obtain ⟨inside, tail, rfl, insideSpells, closed⟩ := spells_seq_iff.mp behind
  obtain ⟨closing, result, rfl, closes, resultSpells⟩ := spells_terminal_seq_iff.mp closed
  have repeated : Spells (.star (.call .parameter)) inside := by
    rcases spells_opt_iff.mp (spells_call_iff.mp insideSpells) with rfl | present
    · exact spells_star_iff.mpr (.inl rfl)
    · exact spells_star_iff.mpr (.inr (spells_seq_iff.mp present))
  obtain ⟨last, parameters, derives⟩ := repeated.exists_parameters (result ++ rest) closes
  rcases spells_opt_iff.mp resultSpells with rfl | present
  · have signature := DerivesPrototype.withoutResult isName opens derives alone
    exact ⟨_, _, by simpa using signature⟩
  · obtain ⟨arrow, typed, rfl, separates, typeSpells⟩ :=
      spells_terminal_seq_iff.mp (spells_call_iff.mp present)
    obtain ⟨word, type, rfl, isType⟩ := typeSpells.exists_type
    have signature := DerivesPrototype.withResult isName opens (by simpa using derives) separates
      isType
    exact ⟨_, _, by simpa using signature⟩

theorem Spells.exists_item {lexemes : List Lexeme} (rest : List Lexeme)
    (spells : Spells (.call .item) lexemes) :
    ∃ item, DerivesItem (lexemes ++ rest) rest item := by
  rcases spells_alt_iff.mp (spells_call_iff.mp spells) with declared | defined
  · obtain ⟨keyword, tail, rfl, declares, behind⟩ :=
      spells_terminal_seq_iff.mp (spells_call_iff.mp declared)
    obtain ⟨head, last, rfl, headSpells, ended⟩ := spells_seq_iff.mp behind
    obtain ⟨semicolon, rfl, ends⟩ := spells_terminal_iff.mp ended
    obtain ⟨_, signature, derives⟩ := headSpells.exists_prototype (semicolon :: rest)
      (startsWith_of_reads ends rfl)
    have item := DerivesItem.declaration declares derives ends
    exact ⟨_, by simpa using item⟩
  · obtain ⟨keyword, tail, rfl, defines, behind⟩ :=
      spells_terminal_seq_iff.mp (spells_call_iff.mp defined)
    obtain ⟨head, block, rfl, headSpells, blockSpells⟩ := spells_seq_iff.mp behind
    obtain ⟨opening, inside, closing, rfl, opens, statementsSpell, closes⟩ :=
      blockSpells.exists_block
    obtain ⟨_, signature, derives⟩ := headSpells.exists_prototype
      (opening :: (inside ++ closing :: rest)) (startsWith_of_reads opens rfl)
    obtain ⟨last, body, statements⟩ := statementsSpell.exists_statements rest closes
    have item := DerivesItem.definition defines derives opens statements
    exact ⟨_, by simpa using item⟩

theorem Spells.exists_items {lexemes : List Lexeme}
    (spells : Spells (.star (.call .item)) lexemes) :
    ∃ items, DerivesItems lexemes items := by
  rcases spells_star_iff.mp spells with rfl | ⟨first, more, rfl, firstSpells, moreSpells⟩
  · exact ⟨[], .stop⟩
  · have nonempty := firstSpells.length_pos rfl
    obtain ⟨item, derives⟩ := firstSpells.exists_item more
    obtain ⟨items, others⟩ := moreSpells.exists_items
    exact ⟨item :: items, .cons derives others⟩
termination_by lexemes.length
decreasing_by
  subst_vars
  rw [List.length_append]
  omega

end QubitLang.Language
