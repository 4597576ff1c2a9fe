import QubitLang.Proofs.Ast.Tokens
import QubitLang.Proofs.Language.Indices
import QubitLang.Proofs.Render.Shallow

/-! The tree of lexemes of a source text is printable, and its canonical tokens nest no
deeper than the lexemes. -/

namespace QubitLang

open Lexical QubitLang.Language

/-! ## Lexemes -/

def Label.isBracket : Label → Bool
  | .sign .openParen | .sign .closeParen | .sign .openBrace | .sign .closeBrace => true
  | _ => false

theorem Token.flat_of_reads {token : Token} {label : Label} (reads : token.reads label = true)
    (other : label.isBracket = false) : ∀ depth, token.depthAfter depth = depth := by
  cases token with
  | sign mark =>
      cases label with
      | sign otherMark =>
          simp only [Token.reads, Bool.and_eq_true, beq_iff_eq] at reads
          rw [← reads.1] at other
          cases mark with
          | openParen | closeParen | openBrace | closeBrace => cases other
          | _ => exact fun _ => rfl
      | _ => cases reads
  | _ => exact fun _ => rfl

theorem Token.eq_sign_of_reads {token : Token} {mark : Sign} (lexical : token.isLexical = true)
    (reads : token.reads (.sign mark) = true) (notPercent : mark ≠ .percent) :
    token = .sign mark := by
  cases token with
  | sign other =>
      rw [Token.reads, Bool.and_eq_true, beq_iff_eq] at reads
      rw [reads.1]
  | any label => cases lexical
  | qubit digits =>
      cases mark with
      | percent => exact absurd rfl notPercent
      | _ => cases reads
  | word _ | number _ => cases reads

theorem Lexeme.token_eq_sign {lexeme : Lexeme} {mark : Sign} (fit : lexeme.isFit = true)
    (reads : lexeme.token.reads (.sign mark) = true) (notPercent : mark ≠ .percent) :
    lexeme.token = .sign mark := by
  rw [isFit, Bool.and_eq_true] at fit
  exact Token.eq_sign_of_reads fit.1 reads notPercent

section

variable {lexeme opening closing : Lexeme} {tokens others : List Token}

theorem NoDeeper.ungroup (opensFit : opening.isFit = true) (closesFit : closing.isFit = true)
    (opens : opening.token.reads (.sign .openParen) = true)
    (closes : closing.token.reads (.sign .closeParen) = true)
    (inside : NoDeeper tokens others) :
    NoDeeper tokens (opening.token :: (others ++ [closing.token])) := by
  rw [opening.token_eq_sign opensFit opens (by decide),
    closing.token_eq_sign closesFit closes (by decide)]
  exact inside.unwrap (fun _ => rfl) fun _ => rfl

theorem NoDeeper.group (opensFit : opening.isFit = true) (closesFit : closing.isFit = true)
    (opens : opening.token.reads (.sign .openParen) = true)
    (closes : closing.token.reads (.sign .closeParen) = true)
    (inside : NoDeeper tokens others) :
    NoDeeper (.sign .openParen :: (tokens ++ [.sign .closeParen]))
      (opening.token :: (others ++ [closing.token])) := by
  rw [opening.token_eq_sign opensFit opens (by decide),
    closing.token_eq_sign closesFit closes (by decide)]
  exact inside.wrap (fun _ => rfl) fun _ => rfl

theorem NoDeeper.block (opensFit : opening.isFit = true) (closesFit : closing.isFit = true)
    (opens : opening.token.reads (.sign .openBrace) = true)
    (closes : closing.token.reads (.sign .closeBrace) = true)
    (inside : NoDeeper tokens others) :
    NoDeeper (Token.block tokens) (opening.token :: (others ++ [closing.token])) := by
  rw [opening.token_eq_sign opensFit opens (by decide),
    closing.token_eq_sign closesFit closes (by decide)]
  exact inside.wrap (fun _ => rfl) fun _ => rfl

theorem NoDeeper.token {token : Token} {label : Label}
    (flat : ∀ depth, token.depthAfter depth = depth) (reads : lexeme.token.reads label = true)
    (other : label.isBracket = false) (later : NoDeeper tokens others) :
    NoDeeper (token :: tokens) (lexeme.token :: others) :=
  later.cons flat (Token.flat_of_reads reads other)

end

theorem NoDeeper.commaSeparated {part others more : List Token} {parts : List (List Token)}
    (first : NoDeeper part others) (later : NoDeeper (Token.commaSeparated parts) more) :
    NoDeeper (Token.commaSeparated (part :: parts)) (others ++ more) := by
  cases parts with
  | nil =>
      have whole := first.append later
      rwa [Token.commaSeparated, List.intercalate_nil, List.append_nil,
        ← Token.commaSeparated_singleton part] at whole
  | cons second parts =>
      have comma : NoDeeper (.sign .comma :: Token.commaSeparated (second :: parts)) more :=
        later.insert fun _ => rfl
      rw [Token.commaSeparated_cons_cons]
      exact first.append comma

theorem exists_dropComma (stream : List Lexeme) :
    ∃ comma, stream = comma ++ dropComma stream ∧ NoDeeper [] (comma.map Lexeme.token) := by
  cases stream with
  | nil => exact ⟨[], rfl, .nil⟩
  | cons first rest =>
      cases isComma : first.token.reads (.sign .comma) with
      | false => exact ⟨[], by simp [dropComma, isComma], .nil⟩
      | true =>
          refine ⟨[first], by simp [dropComma, isComma], ?_⟩
          exact NoDeeper.nil.drop (Token.flat_of_reads isComma rfl)

theorem isIdentifier_of_reads {token : Token} (reads : token.reads .identifier = true) :
    isIdentifier token.spelling = true := by
  cases token with
  | word spelling => exact reads
  | any label =>
      obtain rfl : label = .identifier := beq_iff_eq.mp reads
      decide
  | _ => cases reads

/-! ## Expressions -/

theorem canonical_of_literal? {first : Lexeme} {value : Expression Span}
    (found : literal? first = some value) (fit : first.isFit = true) :
    value.isPrintable = true ∧ NoDeeper value.tokens [first.token] := by
  rw [Lexeme.isFit, Bool.and_eq_true] at fit
  rcases literal?_cases found with ⟨reads, rfl⟩ | ⟨reads, rfl⟩ | ⟨reads, rfl⟩ | ⟨reads, rfl⟩
  · refine ⟨?_, NoDeeper.nil.token (fun _ => rfl) reads rfl⟩
    cases token_eq : first.token with
    | number spelling =>
        rw [token_eq] at reads
        exact reads
    | _ => simp_all [Token.reads, Token.isLexical]
  · refine ⟨?_, NoDeeper.nil.token (fun _ => rfl) reads rfl⟩
    cases token_eq : first.token with
    | qubit digits =>
        rw [token_eq] at reads fit
        have short : digits.length ≤ maxIndexDigits := by
          simpa [Token.isOverlong] using fit.2
        have digits_le := length_toDigits_digitsValue reads
        exact decide_eq_true (Nat.le_trans digits_le short)
    | _ => simp_all [Token.reads, Token.isLexical]
  · exact ⟨rfl, NoDeeper.nil.token (fun _ => rfl) reads rfl⟩
  · exact ⟨rfl, NoDeeper.nil.token (fun _ => rfl) reads rfl⟩

namespace Language

mutual

theorem DerivesExpression.exists_canonical : ∀ {stream rest : List Lexeme} {last : Span}
    {value : Expression Span}, DerivesExpression stream rest last value →
      stream.all Lexeme.isFit = true → ∃ consumed, stream = consumed ++ rest ∧
        value.isPrintable = true ∧ NoDeeper value.tokens (consumed.map Lexeme.token)
  | _, _, _, _, .literal found, fit => by
      rw [List.all_cons, Bool.and_eq_true] at fit
      obtain ⟨printable, shallow⟩ := canonical_of_literal? found fit.1
      exact ⟨[_], rfl, printable, shallow⟩
  | _, _, _, _, .name isName _, _ =>
      ⟨[_], rfl, isIdentifier_of_reads isName, NoDeeper.nil.token (fun _ => rfl) isName rfl⟩
  | _, rest, _, _, @DerivesExpression.parenthesised _ _ _ opening closing _ opens body closes,
    fit => by
      rw [List.all_cons, Bool.and_eq_true] at fit
      obtain ⟨consumed, rfl, printable, shallow⟩ := body.exists_canonical fit.2
      rw [List.all_append, List.all_cons, Bool.and_eq_true, Bool.and_eq_true] at fit
      refine ⟨opening :: (consumed ++ [closing]), by simp, printable, ?_⟩
      rw [List.map_cons, List.map_append]
      exact shallow.ungroup fit.1 fit.2.2.1 opens closes
  | _, rest, _, _, @DerivesExpression.call _ _ _ callee opening _ isName opens values_eq, fit => by
      rw [List.all_cons, List.all_cons, Bool.and_eq_true, Bool.and_eq_true] at fit
      obtain ⟨inside, closing, rfl, closes, printable, shallow⟩ :=
        values_eq.exists_canonical fit.2.2
      rw [List.all_append, List.all_cons, Bool.and_eq_true, Bool.and_eq_true] at fit
      refine ⟨callee :: opening :: (inside ++ [closing]), by simp, ?_, ?_⟩
      · rw [Expression.isPrintable, isIdentifier_of_reads isName, printable, Bool.and_self]
      · rw [List.map_cons, List.map_cons, List.map_append, Expression.tokens]
        exact (shallow.group fit.2.1 fit.2.2.2.1 opens closes).token (fun _ => rfl) isName rfl

theorem DerivesArguments.exists_canonical : ∀ {stream rest : List Lexeme} {last : Span}
    {values : List (Expression Span)}, DerivesArguments stream rest last values →
      stream.all Lexeme.isFit = true → ∃ inside closing, stream = inside ++ closing :: rest ∧
        closing.token.reads (.sign .closeParen) = true ∧
        Expression.allPrintable values = true ∧
        NoDeeper (Token.commaSeparated (Expression.tokensEach values))
          (inside.map Lexeme.token)
  | _, _, _, _, .close closes, _ => ⟨[], _, rfl, closes, rfl, .nil⟩
  | _, rest, _, _, @DerivesArguments.cons _ middle _ _ _ _ _ first others, fit => by
      obtain ⟨consumed, rfl, printable, shallow⟩ := first.exists_canonical fit
      obtain ⟨comma, middle_eq, commaShallow⟩ := exists_dropComma middle
      rw [List.all_append, middle_eq, List.all_append, Bool.and_eq_true, Bool.and_eq_true] at fit
      obtain ⟨inside, closing, later_eq, closes, othersPrintable, othersShallow⟩ :=
        others.exists_canonical fit.2.2
      refine ⟨consumed ++ (comma ++ inside), closing, ?_, closes, ?_, ?_⟩
      · rw [middle_eq, later_eq]
        simp
      · rw [Expression.allPrintable, printable, othersPrintable, Bool.and_self]
      · rw [List.map_append, List.map_append, Expression.tokensEach]
        exact shallow.commaSeparated (commaShallow.append othersShallow)

end

theorem DerivesExpression.exists_canonical_until {stream rest : List Lexeme} {ending : Lexeme}
    {last : Span} {value : Expression Span} {mark : Sign}
    (derives : DerivesExpression stream (ending :: rest) last value)
    (fit : stream.all Lexeme.isFit = true) (ends : ending.token.reads (.sign mark) = true)
    (other : (Label.sign mark).isBracket = false)
    (flat : ∀ depth, (Token.sign mark).depthAfter depth = depth) :
    ∃ inside, stream = inside ++ ending :: rest ∧ value.isPrintable = true ∧
      NoDeeper (value.tokens ++ [.sign mark]) ((inside ++ [ending]).map Lexeme.token) := by
  obtain ⟨inside, rfl, printable, shallow⟩ := derives.exists_canonical fit
  refine ⟨inside, rfl, printable, ?_⟩
  rw [List.map_append]
  exact shallow.append (NoDeeper.nil.token flat ends other)

/-! ## Statements -/

theorem exists_canonical_block {stream rest : List Lexeme} {statements : List (Statement Span)}
    {opening : Lexeme} (opensFit : opening.isFit = true)
    (opens : opening.token.reads (.sign .openBrace) = true)
    (fit : stream.all Lexeme.isFit = true)
    (canonical : ∃ inside closing, stream = inside ++ closing :: rest ∧
      closing.token.reads (.sign .closeBrace) = true ∧
      Statement.allPrintable statements = true ∧
      NoDeeper (Statement.tokensAll statements) (inside.map Lexeme.token)) :
    ∃ block, opening :: stream = block ++ rest ∧ Statement.allPrintable statements = true ∧
      NoDeeper (Token.block (Statement.tokensAll statements)) (block.map Lexeme.token) := by
  obtain ⟨inside, closing, rfl, closes, printable, shallow⟩ := canonical
  simp only [List.all_append, List.all_cons, Bool.and_eq_true] at fit
  refine ⟨opening :: (inside ++ [closing]), by simp, printable, ?_⟩
  rw [List.map_cons, List.map_append]
  exact shallow.block opensFit fit.2.1 opens closes

mutual

theorem DerivesStatement.exists_canonical : ∀ {stream rest : List Lexeme}
    {statement : Statement Span}, DerivesStatement stream rest statement →
      stream.all Lexeme.isFit = true → ∃ consumed, stream = consumed ++ rest ∧
        statement.isPrintable = true ∧ NoDeeper statement.tokens (consumed.map Lexeme.token)
  | _, rest, _, @DerivesStatement.declare _ _ _ keyword name colon word equals semicolon _ _
      declares isName separates isType assigns value ends, fit => by
      simp only [List.all_cons, Bool.and_eq_true] at fit
      obtain ⟨inside, rfl, printable, shallow⟩ :=
        value.exists_canonical_until fit.2.2.2.2.2 ends rfl fun _ => rfl
      refine ⟨keyword :: name :: colon :: word :: equals :: (inside ++ [semicolon]), by simp, ?_,
        ?_⟩
      · rw [Statement.isPrintable, isIdentifier_of_reads isName, printable, Bool.and_self]
      · exact ((((shallow.token (fun _ => rfl) assigns rfl).token (fun _ => rfl) isType rfl).token
          (fun _ => rfl) separates rfl).token (fun _ => rfl) isName rfl).token (fun _ => rfl)
            declares rfl
  | _, rest, _, @DerivesStatement.assign _ _ _ target equals semicolon _ isName assigns body ends,
    fit => by
      simp only [List.all_cons, Bool.and_eq_true] at fit
      obtain ⟨inside, rfl, printable, shallow⟩ :=
        body.exists_canonical_until fit.2.2 ends rfl fun _ => rfl
      refine ⟨target :: equals :: (inside ++ [semicolon]), by simp, ?_, ?_⟩
      · rw [Statement.isPrintable, isIdentifier_of_reads isName, printable, Bool.and_self]
      · exact (shallow.token (fun _ => rfl) assigns rfl).token (fun _ => rfl) isName rfl
  | _, rest, _, @DerivesStatement.call _ _ last callee opening semicolon _ isName opens arguments
      ends, fit => by
      have call := DerivesExpression.call isName opens arguments
      obtain ⟨inside, stream_eq, printable, shallow⟩ :=
        call.exists_canonical_until fit ends rfl fun _ => rfl
      exact ⟨inside ++ [semicolon], by simp [stream_eq], printable, shallow⟩
  | _, rest, _, @DerivesStatement.giveBack _ _ _ keyword semicolon _ returns body ends, fit => by
      simp only [List.all_cons, Bool.and_eq_true] at fit
      obtain ⟨inside, rfl, printable, shallow⟩ :=
        body.exists_canonical_until fit.2 ends rfl fun _ => rfl
      exact ⟨keyword :: (inside ++ [semicolon]), by simp, printable,
        shallow.token (fun _ => rfl) returns rfl⟩
  | _, rest, _, @DerivesStatement.ifThen _ _ _ _ _ keyword opening _ _ tests value opens
      statements _, fit => by
      rw [List.all_cons, Bool.and_eq_true] at fit
      obtain ⟨inside, rfl, printable, shallow⟩ := value.exists_canonical fit.2
      simp only [List.all_append, List.all_cons, Bool.and_eq_true] at fit
      obtain ⟨body, block_eq, bodyPrintable, bodyShallow⟩ :=
        exists_canonical_block fit.2.2.1 opens fit.2.2.2 (statements.exists_canonical fit.2.2.2)
      refine ⟨keyword :: (inside ++ body), by simp [block_eq], ?_, ?_⟩
      · rw [Statement.isPrintable, printable, bodyPrintable, Bool.and_self]
      · rw [List.map_cons, List.map_append]
        exact (shallow.append bodyShallow).token (fun _ => rfl) tests rfl
  | _, rest, _, @DerivesStatement.ifThenElse _ _ _ _ _ _ keyword opening separator otherOpening
      _ _ _ tests value opens _ statements separates otherOpens otherStatements, fit => by
      rw [List.all_cons, Bool.and_eq_true] at fit
      obtain ⟨inside, rfl, printable, shallow⟩ := value.exists_canonical fit.2
      simp only [List.all_append, List.all_cons, Bool.and_eq_true] at fit
      obtain ⟨body, block_eq, bodyPrintable, bodyShallow⟩ :=
        exists_canonical_block fit.2.2.1 opens fit.2.2.2 (statements.exists_canonical fit.2.2.2)
      have blockFit : (opening :: _).all Lexeme.isFit = true :=
        List.all_cons ▸ Bool.and_eq_true_iff.mpr fit.2.2
      rw [block_eq] at blockFit
      simp only [List.all_append, List.all_cons, Bool.and_eq_true] at blockFit
      obtain ⟨other, other_eq, otherPrintable, otherShallow⟩ :=
        exists_canonical_block blockFit.2.2.1 otherOpens blockFit.2.2.2
          (otherStatements.exists_canonical blockFit.2.2.2)
      refine ⟨keyword :: (inside ++ (body ++ separator :: other)), ?_, ?_, ?_⟩
      · simp [block_eq, other_eq]
      · rw [Statement.isPrintable, printable, bodyPrintable, otherPrintable, Bool.and_self,
          Bool.and_self]
      · rw [List.map_cons, List.map_append, List.map_append, List.map_cons]
        exact (shallow.append (bodyShallow.append (otherShallow.token (fun _ => rfl) separates
          rfl))).token (fun _ => rfl) tests rfl
  | _, rest, _, @DerivesStatement.loop _ _ _ _ _ keyword opening _ _ repeats value opens
      statements, fit => by
      rw [List.all_cons, Bool.and_eq_true] at fit
      obtain ⟨inside, rfl, printable, shallow⟩ := value.exists_canonical fit.2
      simp only [List.all_append, List.all_cons, Bool.and_eq_true] at fit
      obtain ⟨body, block_eq, bodyPrintable, bodyShallow⟩ :=
        exists_canonical_block fit.2.2.1 opens fit.2.2.2 (statements.exists_canonical fit.2.2.2)
      refine ⟨keyword :: (inside ++ body), by simp [block_eq], ?_, ?_⟩
      · rw [Statement.isPrintable, printable, bodyPrintable, Bool.and_self]
      · rw [List.map_cons, List.map_append]
        exact (shallow.append bodyShallow).token (fun _ => rfl) repeats rfl

theorem DerivesStatements.exists_canonical : ∀ {stream rest : List Lexeme} {last : Span}
    {statements : List (Statement Span)}, DerivesStatements stream rest last statements →
      stream.all Lexeme.isFit = true → ∃ inside closing, stream = inside ++ closing :: rest ∧
        closing.token.reads (.sign .closeBrace) = true ∧
        Statement.allPrintable statements = true ∧
        NoDeeper (Statement.tokensAll statements) (inside.map Lexeme.token)
  | _, _, _, _, .close closes, _ => ⟨[], _, rfl, closes, rfl, .nil⟩
  | _, _, _, _, .cons first others, fit => by
      obtain ⟨consumed, rfl, printable, shallow⟩ := first.exists_canonical fit
      rw [List.all_append, Bool.and_eq_true] at fit
      obtain ⟨inside, closing, rfl, closes, othersPrintable, othersShallow⟩ :=
        others.exists_canonical fit.2
      refine ⟨consumed ++ inside, closing, by simp, closes, ?_, ?_⟩
      · rw [Statement.allPrintable, printable, othersPrintable, Bool.and_self]
      · rw [List.map_append, Statement.tokensAll]
        exact shallow.append othersShallow

end

/-! ## Items -/

theorem DerivesParameters.exists_canonical {stream rest : List Lexeme} {last : Span}
    {parameters : List (Parameter Span)} (derives : DerivesParameters stream rest last parameters) :
    stream.all Lexeme.isFit = true → ∃ inside closing, stream = inside ++ closing :: rest ∧
      closing.token.reads (.sign .closeParen) = true ∧
      (parameters.all fun parameter => isIdentifier parameter.name) = true ∧
      NoDeeper (Token.commaSeparated (parameters.map Parameter.tokens))
        (inside.map Lexeme.token) := by
  induction derives with
  | @close rest closing closes => exact fun _ => ⟨[], closing, rfl, closes, rfl, .nil⟩
  | @cons stream rest last name colon word type parameters isName separates isType _ induction =>
      intro fit
      obtain ⟨comma, stream_eq, commaShallow⟩ := exists_dropComma stream
      simp only [List.all_cons, Bool.and_eq_true] at fit
      rw [stream_eq, List.all_append, Bool.and_eq_true] at fit
      obtain ⟨inside, closing, later_eq, closes, printable, othersShallow⟩ :=
        induction fit.2.2.2.2
      have first : NoDeeper (Parameter.tokens ⟨Span.upTo name.span.start
          (some (throughComma word.span stream)), name.token.spelling, type⟩)
          [name.token, colon.token, word.token] :=
        ((NoDeeper.nil.token (fun _ => rfl) isType rfl).token (fun _ => rfl) separates rfl).token
          (fun _ => rfl) isName rfl
      refine ⟨name :: colon :: word :: (comma ++ inside), closing, ?_, closes, ?_, ?_⟩
      · rw [stream_eq, later_eq]
        simp
      · rw [List.all_cons, isIdentifier_of_reads isName, printable, Bool.and_self]
      · have whole := first.commaSeparated (commaShallow.append othersShallow)
        simpa using whole

theorem DerivesPrototype.exists_canonical {stream rest : List Lexeme} {last : Span}
    {prototype : Prototype Span} (derives : DerivesPrototype stream rest last prototype)
    (fit : stream.all Lexeme.isFit = true) : ∃ consumed, stream = consumed ++ rest ∧
      prototype.isPrintable = true ∧ NoDeeper prototype.tokens (consumed.map Lexeme.token) := by
  cases derives with
  | @withoutResult stream rest last name opening parameters isName opens inside _ =>
      simp only [List.all_cons, Bool.and_eq_true] at fit
      obtain ⟨heads, closing, rfl, closes, printable, shallow⟩ := inside.exists_canonical fit.2.2
      simp only [List.all_append, List.all_cons, Bool.and_eq_true] at fit
      refine ⟨name :: opening :: (heads ++ [closing]), by simp, ?_, ?_⟩
      · rw [Prototype.isPrintable, isIdentifier_of_reads isName, printable, Bool.and_self]
      · rw [List.map_cons, List.map_cons, List.map_append]
        exact (shallow.group fit.2.1 fit.2.2.2.1 opens closes).token (fun _ => rfl) isName rfl
  | @withResult stream rest _ name opening arrow word type parameters isName opens inside separates
      isType =>
      simp only [List.all_cons, Bool.and_eq_true] at fit
      obtain ⟨heads, closing, rfl, closes, printable, shallow⟩ := inside.exists_canonical fit.2.2
      simp only [List.all_append, List.all_cons, Bool.and_eq_true] at fit
      have result : NoDeeper [.sign .arrow, .typeName type] [arrow.token, word.token] :=
        (NoDeeper.nil.token (fun _ => rfl) isType rfl).token (fun _ => rfl) separates rfl
      refine ⟨name :: opening :: (heads ++ [closing, arrow, word]), by simp, ?_, ?_⟩
      · rw [Prototype.isPrintable, isIdentifier_of_reads isName, printable, Bool.and_self]
      · have group := (shallow.group fit.2.1 fit.2.2.2.1 opens closes).append result
        have whole := @NoDeeper.token name _ _ (.word name.token.spelling) _ (fun _ => rfl) isName
          rfl group
        simpa [Prototype.tokens, Token.result] using whole

theorem DerivesItem.exists_canonical {stream rest : List Lexeme} {item : Item Span}
    (derives : DerivesItem stream rest item) (fit : stream.all Lexeme.isFit = true) :
    ∃ consumed, stream = consumed ++ rest ∧ item.isPrintable = true ∧
      NoDeeper item.tokens (consumed.map Lexeme.token) := by
  cases derives with
  | @declaration _ _ _ keyword semicolon _ declares head ends =>
      rw [List.all_cons, Bool.and_eq_true] at fit
      obtain ⟨inside, rfl, printable, shallow⟩ := head.exists_canonical fit.2
      have ending : NoDeeper [.sign .semicolon] [semicolon.token] :=
        NoDeeper.nil.token (fun _ => rfl) ends rfl
      refine ⟨keyword :: (inside ++ [semicolon]), by simp, printable, ?_⟩
      rw [List.map_cons, List.map_append]
      exact (shallow.append ending).token (fun _ => rfl) declares rfl
  | @definition _ _ _ _ _ keyword opening _ _ defines head opens statements =>
      rw [List.all_cons, Bool.and_eq_true] at fit
      obtain ⟨inside, rfl, printable, shallow⟩ := head.exists_canonical fit.2
      simp only [List.all_append, List.all_cons, Bool.and_eq_true] at fit
      obtain ⟨body, block_eq, bodyPrintable, bodyShallow⟩ := exists_canonical_block fit.2.2.1 opens
        fit.2.2.2 (statements.exists_canonical fit.2.2.2)
      refine ⟨keyword :: (inside ++ body), by simp [block_eq], ?_, ?_⟩
      · rw [Item.isPrintable, printable, bodyPrintable, Bool.and_self]
      · rw [List.map_cons, List.map_append]
        exact (shallow.append bodyShallow).token (fun _ => rfl) defines rfl

/-- The items of a source text are printable, and take no deeper brackets than it does. -/
theorem DerivesItems.canonical {stream : List Lexeme} {items : List (Item Span)}
    (derives : DerivesItems stream items) : stream.all Lexeme.isFit = true →
      items.all Item.isPrintable = true ∧
        NoDeeper (items.flatMap Item.tokens) (stream.map Lexeme.token) := by
  induction derives with
  | stop => exact fun _ => ⟨rfl, .nil⟩
  | cons first _ induction =>
      intro fit
      obtain ⟨consumed, rfl, printable, shallow⟩ := first.exists_canonical fit
      rw [List.all_append, Bool.and_eq_true] at fit
      obtain ⟨othersPrintable, othersShallow⟩ := induction fit.2
      refine ⟨by rw [List.all_cons, printable, othersPrintable, Bool.and_self], ?_⟩
      rw [List.flatMap_cons, List.map_append]
      exact shallow.append othersShallow

end Language

end QubitLang
