import QubitLang.Proofs.Ast.Tokens
import QubitLang.Proofs.Language.Derivation
import QubitLang.Proofs.Language.Firsts

/-! Lexemes with the canonical tokens of a printable tree have that tree, up to its
annotations. -/

namespace QubitLang

open Lexical QubitLang.Language

variable {α : Type}

/-! ## Lexemes of known tokens -/

section

variable {lexeme : Lexeme}

theorem reads_name {name : Text} (token_eq : lexeme.token = .word name)
    (isName : isIdentifier name = true) : lexeme.token.reads .identifier = true := by
  rw [token_eq]
  exact isName

theorem reads_keyword {reserved : Keyword} (token_eq : lexeme.token = .keyword reserved) :
    lexeme.token.reads (.keyword reserved) = true := by
  rw [token_eq]
  exact beq_self_eq_true _

theorem reads_typeName {type : BaseType} (token_eq : lexeme.token = .typeName type) :
    lexeme.token.reads (.typeWord type) = true := by
  rw [token_eq]
  exact beq_self_eq_true _

theorem reads_sign {mark : Sign} (token_eq : lexeme.token = .sign mark)
    (other : (mark != .percent) = true) : lexeme.token.reads (.sign mark) = true := by
  rw [token_eq, Token.reads, other, Bool.and_true]
  exact beq_self_eq_true _

end

/-- The lexemes of parts with commas between them. A comma behind the first part is all
that stands between it and the others. -/
theorem exists_of_commaSeparated {lexemes : List Lexeme} {part : List Token}
    {parts : List (List Token)}
    (tokens_eq : lexemes.map Lexeme.token = Token.commaSeparated (part :: parts)) :
    ∃ first more others, lexemes = first ++ more ∧ first.map Lexeme.token = part ∧
      others.map Lexeme.token = Token.commaSeparated parts ∧
      ∀ (closing : Lexeme) (rest : List Lexeme),
        closing.token.reads (.sign .closeParen) = true →
          dropComma (more ++ closing :: rest) = others ++ closing :: rest ∧
            startsWith (.sign .openParen) (more ++ closing :: rest) = false := by
  cases parts with
  | nil =>
      refine ⟨lexemes, [], [], (List.append_nil _).symm, ?_, rfl, fun closing rest closes => ?_⟩
      · rwa [Token.commaSeparated_singleton] at tokens_eq
      · have noComma : closing.token.reads (.sign .comma) = false :=
          @startsWith_of_reads _ rest _ _ closes rfl
        exact ⟨by simp [dropComma, noComma], startsWith_of_reads closes rfl⟩
  | cons second parts =>
      rw [Token.commaSeparated_cons_cons, List.map_eq_append_iff] at tokens_eq
      obtain ⟨first, more, rfl, first_eq, more_eq⟩ := tokens_eq
      obtain ⟨comma, others, rfl, comma_eq, others_eq⟩ := List.map_eq_cons_iff.mp more_eq
      have isComma := reads_sign comma_eq rfl
      refine ⟨first, comma :: others, others, rfl, first_eq, others_eq, fun closing rest _ => ?_⟩
      exact ⟨by simp [dropComma, isComma], startsWith_of_reads isComma rfl⟩

/-! ## Expressions -/

mutual

theorem Expression.exists_derives : ∀ {expression : Expression α} {lexemes rest : List Lexeme},
    expression.isPrintable = true → lexemes.map Lexeme.token = expression.tokens →
      startsWith (.sign .openParen) rest = false → ∃ last value,
        DerivesExpression (lexemes ++ rest) rest last value ∧ expression.same value = true
  | .number _ text, _, _, printable, tokens_eq, _ => by
      obtain ⟨first, rfl, first_eq⟩ := List.map_eq_singleton_iff.mp tokens_eq
      have isNumber : isNumber text = true := printable
      refine ⟨_, .number first.span text, .literal ?_, by simp [same]⟩
      simp [literal?, first_eq, Token.reads, Token.spelling, isNumber]
  | .qubit _ index, _, _, _, tokens_eq, _ => by
      obtain ⟨first, rfl, first_eq⟩ := List.map_eq_singleton_iff.mp tokens_eq
      refine ⟨_, .qubit first.span index, .literal ?_, by simp [same]⟩
      simp [literal?, first_eq, Token.ofIndex, Token.reads, Token.index, Token.spelling,
        isDigits_toDigits, digitsValue_toDigits]
  | .boolean _ value, _, _, _, tokens_eq, _ => by
      obtain ⟨first, rfl, first_eq⟩ := List.map_eq_singleton_iff.mp tokens_eq
      refine ⟨_, .boolean first.span value, .literal ?_, by simp [same]⟩
      rw [literal?, first_eq]
      cases value <;> rfl
  | .identifier _ name, _, _, printable, tokens_eq, alone => by
      obtain ⟨first, rfl, first_eq⟩ := List.map_eq_singleton_iff.mp tokens_eq
      refine ⟨_, _, .name (reads_name first_eq printable) alone, ?_⟩
      simp [same, first_eq, Token.spelling]
  | .call _ callee arguments, _, rest, printable, tokens_eq, _ => by
      rw [isPrintable, Bool.and_eq_true] at printable
      simp only [tokens, List.map_eq_cons_iff, List.map_eq_append_iff, List.map_eq_nil_iff]
        at tokens_eq
      obtain ⟨first, _, rfl, first_eq, opening, _, rfl, opening_eq, inside, _, rfl, inside_eq,
        closing, _, rfl, closing_eq, rfl⟩ := tokens_eq
      obtain ⟨last, values, derives, sameValues⟩ :=
        exists_derivesArguments rest printable.2 inside_eq (reads_sign closing_eq rfl)
      have derived := DerivesExpression.call (reads_name first_eq printable.1)
        (reads_sign opening_eq rfl) derives
      simp only [List.cons_append, List.append_assoc, List.nil_append]
      exact ⟨last, _, derived, by simp [same, first_eq, Token.spelling, sameValues]⟩

theorem Expression.exists_derivesArguments : ∀ {expressions : List (Expression α)}
    {lexemes : List Lexeme} {closing : Lexeme} (rest : List Lexeme),
    Expression.allPrintable expressions = true →
      lexemes.map Lexeme.token = Token.commaSeparated (Expression.tokensEach expressions) →
        closing.token.reads (.sign .closeParen) = true → ∃ last values,
          DerivesArguments (lexemes ++ closing :: rest) rest last values ∧
            Expression.sameAll expressions values = true
  | [], _, _, _, _, tokens_eq, closes => by
      obtain rfl := List.map_eq_nil_iff.mp tokens_eq
      exact ⟨_, _, .close closes, rfl⟩
  | expression :: _, _, closing, rest, printable, tokens_eq, closes => by
      rw [allPrintable, Bool.and_eq_true] at printable
      obtain ⟨first, more, others, rfl, first_eq, others_eq, between⟩ :=
        exists_of_commaSeparated tokens_eq
      obtain ⟨drops, alone⟩ := between closing rest closes
      obtain ⟨_, value, derives, sameValue⟩ := exists_derives printable.1 first_eq alone
      obtain ⟨last, values, othersDerive, sameValues⟩ :=
        exists_derivesArguments rest printable.2 others_eq closes
      rw [← drops] at othersDerive
      refine ⟨last, value :: values, ?_, by simp [sameAll, sameValue, sameValues]⟩
      rw [List.append_assoc]
      exact .cons derives othersDerive

end

/-! ## Statements -/

theorem startsWith_else {stream rest : List Lexeme} {last : Span}
    {statements : List (Statement Span)}
    (derives : DerivesStatements stream rest last statements) :
    startsWith (.keyword .elseWord) stream = false := by
  cases derives with
  | close closes => exact startsWith_of_reads closes rfl
  | cons first _ =>
      cases first with
      | declare head | assign head | call head | giveBack head | ifThen head | ifThenElse head
      | loop head => exact startsWith_of_reads head rfl

theorem exists_of_block {lexemes : List Lexeme} {body : List Token}
    (tokens_eq : lexemes.map Lexeme.token = Token.block body) :
    ∃ opening inside closing, lexemes = opening :: (inside ++ [closing]) ∧
      opening.token.reads (.sign .openBrace) = true ∧ inside.map Lexeme.token = body ∧
      closing.token.reads (.sign .closeBrace) = true := by
  simp only [Token.block, List.map_eq_cons_iff, List.map_eq_append_iff, List.map_eq_nil_iff]
    at tokens_eq
  obtain ⟨opening, _, rfl, opening_eq, inside, _, rfl, inside_eq, closing, _, rfl, closing_eq,
    rfl⟩ := tokens_eq
  exact ⟨opening, inside, closing, rfl, reads_sign opening_eq rfl, inside_eq,
    reads_sign closing_eq rfl⟩

theorem Expression.exists_derives_until {expression : Expression α} {lexemes : List Lexeme}
    {mark : Sign} (rest : List Lexeme) (printable : expression.isPrintable = true)
    (other : (mark != .percent) = true) (closed : (mark != .openParen) = true)
    (tokens_eq : lexemes.map Lexeme.token = expression.tokens ++ [.sign mark]) :
    ∃ inside closing last value, lexemes = inside ++ [closing] ∧
      closing.token.reads (.sign mark) = true ∧
      DerivesExpression (inside ++ closing :: rest) (closing :: rest) last value ∧
        expression.same value = true := by
  simp only [List.map_eq_append_iff, List.map_eq_singleton_iff] at tokens_eq
  obtain ⟨inside, _, rfl, inside_eq, closing, rfl, closing_eq⟩ := tokens_eq
  have closes := reads_sign closing_eq other
  have alone : startsWith (.sign .openParen) (closing :: rest) = false :=
    startsWith_of_reads closes (by simpa [Label.overlaps] using closed)
  obtain ⟨last, value, derives, sameValue⟩ := exists_derives printable inside_eq alone
  exact ⟨inside, closing, last, value, rfl, closes, derives, sameValue⟩

mutual

theorem Statement.exists_derives : ∀ {statement : Statement α} {lexemes rest : List Lexeme},
    statement.isPrintable = true → lexemes.map Lexeme.token = statement.tokens →
      startsWith (.keyword .elseWord) rest = false → ∃ value,
        DerivesStatement (lexemes ++ rest) rest value ∧ statement.same value = true
  | .declare _ name type initial, _, rest, printable, tokens_eq, _ => by
      rw [isPrintable, Bool.and_eq_true] at printable
      simp only [tokens, List.map_eq_cons_iff] at tokens_eq
      obtain ⟨keyword, _, rfl, keyword_eq, first, _, rfl, first_eq, colon, _, rfl, colon_eq, word,
        _, rfl, word_eq, equals, tail, rfl, equals_eq, tail_eq⟩ := tokens_eq
      obtain ⟨inside, semicolon, last, value, rfl, ends, derives, sameValue⟩ :=
        Expression.exists_derives_until rest printable.2 rfl rfl tail_eq
      have derived := DerivesStatement.declare (reads_keyword keyword_eq)
        (reads_name first_eq printable.1) (reads_sign colon_eq rfl) (reads_typeName word_eq)
        (reads_sign equals_eq rfl) derives ends
      simp only [List.cons_append, List.append_assoc, List.nil_append]
      exact ⟨_, derived, by simp [same, first_eq, Token.spelling, sameValue]⟩
  | .assign _ target value, _, rest, printable, tokens_eq, _ => by
      rw [isPrintable, Bool.and_eq_true] at printable
      simp only [tokens, List.map_eq_cons_iff] at tokens_eq
      obtain ⟨first, _, rfl, first_eq, equals, tail, rfl, equals_eq, tail_eq⟩ := tokens_eq
      obtain ⟨inside, semicolon, last, value, rfl, ends, derives, sameValue⟩ :=
        Expression.exists_derives_until rest printable.2 rfl rfl tail_eq
      have derived := DerivesStatement.assign (reads_name first_eq printable.1)
        (reads_sign equals_eq rfl) derives ends
      simp only [List.cons_append, List.append_assoc, List.nil_append]
      exact ⟨_, derived, by simp [same, first_eq, Token.spelling, sameValue]⟩
  | .call note callee arguments, _, rest, printable, tokens_eq, _ => by
      rw [isPrintable, Bool.and_eq_true] at printable
      simp only [tokens, Expression.tokens, List.cons_append, List.append_assoc, List.nil_append,
        List.map_eq_cons_iff, List.map_eq_append_iff, List.map_eq_nil_iff] at tokens_eq
      obtain ⟨first, _, rfl, first_eq, opening, _, rfl, opening_eq, inside, _, rfl, inside_eq,
        closing, _, rfl, closing_eq, semicolon, _, rfl, semicolon_eq, rfl⟩ := tokens_eq
      obtain ⟨last, values, derives, sameValues⟩ := Expression.exists_derivesArguments
        (semicolon :: rest) printable.2 inside_eq (reads_sign closing_eq rfl)
      have derived := DerivesStatement.call (reads_name first_eq printable.1)
        (reads_sign opening_eq rfl) derives (reads_sign semicolon_eq rfl)
      simp only [List.cons_append, List.append_assoc, List.nil_append]
      exact ⟨_, derived, by simp [same, first_eq, Token.spelling, sameValues]⟩
  | .giveBack _ value, _, rest, printable, tokens_eq, _ => by
      simp only [tokens, List.map_eq_cons_iff] at tokens_eq
      obtain ⟨keyword, tail, rfl, keyword_eq, tail_eq⟩ := tokens_eq
      obtain ⟨inside, semicolon, last, value, rfl, ends, derives, sameValue⟩ :=
        Expression.exists_derives_until rest printable rfl rfl tail_eq
      have derived := DerivesStatement.giveBack (reads_keyword keyword_eq) derives ends
      simp only [List.cons_append, List.append_assoc, List.nil_append]
      exact ⟨_, derived, by simp [same, sameValue]⟩
  | .ifThen _ condition body, _, rest, printable, tokens_eq, alone => by
      rw [isPrintable, Bool.and_eq_true] at printable
      simp only [tokens, List.map_eq_cons_iff, List.map_eq_append_iff] at tokens_eq
      obtain ⟨keyword, _, rfl, keyword_eq, inside, block, rfl, inside_eq, block_eq⟩ := tokens_eq
      obtain ⟨opening, statements, closing, rfl, opens, statements_eq, closes⟩ :=
        exists_of_block block_eq
      obtain ⟨last, values, bodyDerives, sameBody⟩ :=
        exists_derivesStatements rest printable.2 statements_eq closes
      obtain ⟨_, value, derives, sameValue⟩ := Expression.exists_derives printable.1 inside_eq
        (startsWith_of_reads opens rfl)
      have derived := DerivesStatement.ifThen (reads_keyword keyword_eq) derives opens bodyDerives
        alone
      simp only [List.cons_append, List.append_assoc, List.nil_append]
      exact ⟨_, derived, by simp [same, sameValue, sameBody]⟩
  | .ifThenElse _ condition body otherwise, _, rest, printable, tokens_eq, _ => by
      rw [isPrintable, Bool.and_eq_true, Bool.and_eq_true] at printable
      simp only [tokens, List.map_eq_cons_iff, List.map_eq_append_iff] at tokens_eq
      obtain ⟨keyword, _, rfl, keyword_eq, inside, _, rfl, inside_eq, block, _, rfl, block_eq,
        separator, other, rfl, separator_eq, other_eq⟩ := tokens_eq
      obtain ⟨opening, statements, closing, rfl, opens, statements_eq, closes⟩ :=
        exists_of_block block_eq
      obtain ⟨otherOpening, others, otherClosing, rfl, otherOpens, others_eq, otherCloses⟩ :=
        exists_of_block other_eq
      obtain ⟨last, otherValues, otherDerives, sameOthers⟩ :=
        exists_derivesStatements rest printable.2 others_eq otherCloses
      obtain ⟨_, values, bodyDerives, sameBody⟩ := exists_derivesStatements
        (separator :: otherOpening :: (others ++ otherClosing :: rest)) printable.1.2 statements_eq
        closes
      obtain ⟨_, value, derives, sameValue⟩ := Expression.exists_derives printable.1.1 inside_eq
        (startsWith_of_reads opens rfl)
      have derived := DerivesStatement.ifThenElse (reads_keyword keyword_eq) derives opens
        bodyDerives (reads_keyword separator_eq) otherOpens otherDerives
      simp only [List.cons_append, List.append_assoc, List.nil_append]
      exact ⟨_, derived, by simp [same, sameValue, sameBody, sameOthers]⟩
  | .loop _ condition body, _, rest, printable, tokens_eq, _ => by
      rw [isPrintable, Bool.and_eq_true] at printable
      simp only [tokens, List.map_eq_cons_iff, List.map_eq_append_iff] at tokens_eq
      obtain ⟨keyword, _, rfl, keyword_eq, inside, block, rfl, inside_eq, block_eq⟩ := tokens_eq
      obtain ⟨opening, statements, closing, rfl, opens, statements_eq, closes⟩ :=
        exists_of_block block_eq
      obtain ⟨last, values, bodyDerives, sameBody⟩ :=
        exists_derivesStatements rest printable.2 statements_eq closes
      obtain ⟨_, value, derives, sameValue⟩ := Expression.exists_derives printable.1 inside_eq
        (startsWith_of_reads opens rfl)
      have derived := DerivesStatement.loop (reads_keyword keyword_eq) derives opens bodyDerives
      simp only [List.cons_append, List.append_assoc, List.nil_append]
      exact ⟨_, derived, by simp [same, sameValue, sameBody]⟩

theorem Statement.exists_derivesStatements : ∀ {statements : List (Statement α)}
    {lexemes : List Lexeme} {closing : Lexeme} (rest : List Lexeme),
    Statement.allPrintable statements = true →
      lexemes.map Lexeme.token = Statement.tokensAll statements →
        closing.token.reads (.sign .closeBrace) = true → ∃ last values,
          DerivesStatements (lexemes ++ closing :: rest) rest last values ∧
            Statement.sameAll statements values = true
  | [], _, _, _, _, tokens_eq, closes => by
      obtain rfl := List.map_eq_nil_iff.mp tokens_eq
      exact ⟨_, _, .close closes, rfl⟩
  | statement :: _, _, _, rest, printable, tokens_eq, closes => by
      rw [allPrintable, Bool.and_eq_true] at printable
      rw [tokensAll, List.map_eq_append_iff] at tokens_eq
      obtain ⟨first, others, rfl, first_eq, others_eq⟩ := tokens_eq
      obtain ⟨last, values, othersDerive, sameValues⟩ :=
        exists_derivesStatements rest printable.2 others_eq closes
      obtain ⟨value, derives, sameValue⟩ :=
        exists_derives printable.1 first_eq (startsWith_else othersDerive)
      refine ⟨last, value :: values, ?_, by simp [sameAll, sameValue, sameValues]⟩
      rw [List.append_assoc]
      exact .cons derives othersDerive

end

/-! ## Items -/

theorem exists_derivesParameters : ∀ {parameters : List (Parameter α)} {lexemes : List Lexeme}
    {closing : Lexeme} (rest : List Lexeme),
    (parameters.all fun parameter => isIdentifier parameter.name) = true →
      lexemes.map Lexeme.token = Token.commaSeparated (parameters.map Parameter.tokens) →
        closing.token.reads (.sign .closeParen) = true → ∃ last values,
          DerivesParameters (lexemes ++ closing :: rest) rest last values ∧
            Parameter.sameAll parameters values = true
  | [], _, _, _, _, tokens_eq, closes => by
      obtain rfl := List.map_eq_nil_iff.mp tokens_eq
      exact ⟨_, _, .close closes, rfl⟩
  | parameter :: _, _, closing, rest, printable, tokens_eq, closes => by
      rw [List.all_cons, Bool.and_eq_true] at printable
      obtain ⟨part, more, others, rfl, part_eq, others_eq, between⟩ :=
        exists_of_commaSeparated tokens_eq
      simp only [Parameter.tokens, List.map_eq_cons_iff, List.map_eq_nil_iff] at part_eq
      obtain ⟨first, _, rfl, first_eq, colon, _, rfl, colon_eq, word, _, rfl, word_eq, rfl⟩ :=
        part_eq
      obtain ⟨last, values, othersDerive, sameValues⟩ :=
        exists_derivesParameters rest printable.2 others_eq closes
      rw [← (between closing rest closes).1] at othersDerive
      have derived := DerivesParameters.cons (reads_name first_eq printable.1)
        (reads_sign colon_eq rfl) (reads_typeName word_eq) othersDerive
      simp only [List.cons_append, List.nil_append]
      exact ⟨last, _, derived, by
        simp [Parameter.sameAll, Parameter.same, first_eq, Token.spelling, sameValues]⟩

theorem Prototype.exists_derives {prototype : Prototype α} {lexemes rest : List Lexeme}
    (printable : prototype.isPrintable = true)
    (tokens_eq : lexemes.map Lexeme.token = prototype.tokens)
    (alone : startsWith (.sign .arrow) rest = false) : ∃ last value,
      DerivesPrototype (lexemes ++ rest) rest last value ∧ prototype.same value = true := by
  rw [isPrintable, Bool.and_eq_true] at printable
  simp only [tokens, List.map_eq_cons_iff, List.map_eq_append_iff] at tokens_eq
  obtain ⟨first, _, rfl, first_eq, opening, _, rfl, opening_eq, inside, _, rfl, inside_eq, closing,
    result, rfl, closing_eq, result_eq⟩ := tokens_eq
  obtain ⟨last, values, derives, sameValues⟩ := exists_derivesParameters (result ++ rest)
    printable.2 inside_eq (reads_sign closing_eq rfl)
  simp only [List.cons_append, List.append_assoc]
  cases returnType_eq : prototype.returnType with
  | none =>
      rw [returnType_eq] at result_eq
      obtain rfl := List.map_eq_nil_iff.mp result_eq
      have derived := DerivesPrototype.withoutResult (reads_name first_eq printable.1)
        (reads_sign opening_eq rfl) derives alone
      exact ⟨last, _, derived, by
        simp [same, first_eq, Token.spelling, sameValues, returnType_eq]⟩
  | some type =>
      rw [returnType_eq] at result_eq
      simp only [Token.result, List.map_eq_cons_iff, List.map_eq_nil_iff] at result_eq
      obtain ⟨arrow, _, rfl, arrow_eq, word, _, rfl, word_eq, rfl⟩ := result_eq
      have derived := DerivesPrototype.withResult (reads_name first_eq printable.1)
        (reads_sign opening_eq rfl) derives (reads_sign arrow_eq rfl) (reads_typeName word_eq)
      exact ⟨_, _, derived, by
        simp [same, first_eq, Token.spelling, sameValues, returnType_eq]⟩

theorem Item.exists_derives {item : Item α} {lexemes : List Lexeme} (rest : List Lexeme)
    (printable : item.isPrintable = true)
    (tokens_eq : lexemes.map Lexeme.token = item.tokens) : ∃ value,
      DerivesItem (lexemes ++ rest) rest value ∧ item.same value = true := by
  cases item with
  | declaration note prototype =>
      simp only [tokens, List.map_eq_cons_iff, List.map_eq_append_iff, List.map_eq_nil_iff]
        at tokens_eq
      obtain ⟨keyword, _, rfl, keyword_eq, inside, _, rfl, inside_eq, semicolon, _, rfl,
        semicolon_eq, rfl⟩ := tokens_eq
      have ends := reads_sign semicolon_eq rfl
      have alone : startsWith (.sign .arrow) (semicolon :: rest) = false :=
        startsWith_of_reads ends rfl
      obtain ⟨_, value, derives, sameValue⟩ := Prototype.exists_derives printable inside_eq alone
      have derived := DerivesItem.declaration (reads_keyword keyword_eq) derives ends
      simp only [List.cons_append, List.append_assoc, List.nil_append]
      exact ⟨_, derived, by simp [same, sameValue]⟩
  | definition note prototype body =>
      rw [isPrintable, Bool.and_eq_true] at printable
      simp only [tokens, List.map_eq_cons_iff, List.map_eq_append_iff] at tokens_eq
      obtain ⟨keyword, _, rfl, keyword_eq, inside, block, rfl, inside_eq, block_eq⟩ := tokens_eq
      obtain ⟨opening, statements, closing, rfl, opens, statements_eq, closes⟩ :=
        exists_of_block block_eq
      obtain ⟨last, values, bodyDerives, sameBody⟩ :=
        Statement.exists_derivesStatements rest printable.2 statements_eq closes
      obtain ⟨_, value, derives, sameValue⟩ := Prototype.exists_derives printable.1 inside_eq
        (startsWith_of_reads opens rfl)
      have derived := DerivesItem.definition (reads_keyword keyword_eq) derives opens bodyDerives
      simp only [List.cons_append, List.append_assoc, List.nil_append]
      exact ⟨_, derived, by simp [same, sameValue, sameBody]⟩

theorem exists_derivesItems : ∀ {items : List (Item α)} {lexemes : List Lexeme},
    items.all Item.isPrintable = true → lexemes.map Lexeme.token = items.flatMap Item.tokens →
      ∃ values, DerivesItems lexemes values ∧ Item.sameAll items values = true
  | [], _, _, tokens_eq => by
      obtain rfl := List.map_eq_nil_iff.mp tokens_eq
      exact ⟨_, .stop, rfl⟩
  | item :: _, _, printable, tokens_eq => by
      rw [List.all_cons, Bool.and_eq_true] at printable
      rw [List.flatMap_cons, List.map_eq_append_iff] at tokens_eq
      obtain ⟨first, others, rfl, first_eq, others_eq⟩ := tokens_eq
      obtain ⟨values, othersDerive, sameValues⟩ := exists_derivesItems printable.2 others_eq
      obtain ⟨value, derives, sameValue⟩ := Item.exists_derives others printable.1 first_eq
      exact ⟨_, .cons derives othersDerive, by simp [Item.sameAll, sameValue, sameValues]⟩

end QubitLang
