import QubitLang.Proofs.Language.Derivation

/-! Derivations look at the spans of lexemes only to put them together. Lexemes with the
same tokens and other spans have the same tree with these spans. -/

namespace QubitLang

def Lexeme.respan (change : Span → Span) (lexeme : Lexeme) : Lexeme :=
  ⟨lexeme.token, change lexeme.span⟩

/-- Whether a change of spans keeps what reaches from one span to another. -/
def Respans (change : Span → Span) : Prop :=
  ∀ first last : Span, change (Span.upTo first.start (some last)) =
    Span.upTo (change first).start (some (change last))

@[simp] theorem Lexeme.respan_token (change : Span → Span) (lexeme : Lexeme) :
    (lexeme.respan change).token = lexeme.token := rfl

theorem map_token_respan (change : Span → Span) (lexemes : List Lexeme) :
    (lexemes.map (Lexeme.respan change)).map Lexeme.token = lexemes.map Lexeme.token := by
  rw [List.map_map]
  rfl

theorem startsWith_respan (change : Span → Span) (label : Label) (lexemes : List Lexeme) :
    startsWith label (lexemes.map (Lexeme.respan change)) = startsWith label lexemes := by
  cases lexemes <;> rfl

namespace Language

variable {change : Span → Span} {stream rest : List Lexeme} {last : Span}

theorem dropComma_respan (change : Span → Span) (lexemes : List Lexeme) :
    dropComma (lexemes.map (Lexeme.respan change)) =
      (dropComma lexemes).map (Lexeme.respan change) := by
  cases lexemes with
  | nil => rfl
  | cons first rest =>
      cases comma : first.token.reads (.sign .comma) <;> simp [dropComma, comma]

theorem throughComma_respan (change : Span → Span) (last : Span) (lexemes : List Lexeme) :
    throughComma (change last) (lexemes.map (Lexeme.respan change)) =
      change (throughComma last lexemes) := by
  cases lexemes with
  | nil => rfl
  | cons first rest =>
      cases comma : first.token.reads (.sign .comma) <;>
        simp [throughComma, comma, Lexeme.respan]

theorem literal?_respan (change : Span → Span) (lexeme : Lexeme) :
    literal? (lexeme.respan change) = (literal? lexeme).map (Expression.map change) := by
  cases number : lexeme.token.reads .number with
  | true => simp [literal?, number, Lexeme.respan, Expression.map]
  | false =>
      cases index : lexeme.token.reads (.sign .percent) with
      | true => simp [literal?, number, index, Lexeme.respan, Expression.map]
      | false =>
          cases holds : lexeme.token.reads (.keyword .trueWord) with
          | true => simp [literal?, number, index, holds, Lexeme.respan, Expression.map]
          | false =>
              cases fails : lexeme.token.reads (.keyword .falseWord) <;>
                simp [literal?, number, index, holds, fails, Lexeme.respan, Expression.map]

mutual

theorem DerivesExpression.respan (respans : Respans change) : ∀ {stream rest : List Lexeme}
    {last : Span} {value : Expression Span}, DerivesExpression stream rest last value →
      DerivesExpression (stream.map (Lexeme.respan change)) (rest.map (Lexeme.respan change))
        (change last) (value.map change)
  | _, _, _, _, @DerivesExpression.literal _ first _ found => by
      have same := literal?_respan change first
      rw [found] at same
      exact .literal same
  | _, _, _, _, @DerivesExpression.name rest first isName alone =>
      @DerivesExpression.name _ (first.respan change) isName
        ((startsWith_respan change _ rest).trans alone)
  | _, _, _, _, @DerivesExpression.parenthesised _ _ _ opening closing _ opens body closes =>
      @DerivesExpression.parenthesised _ _ _ (opening.respan change) (closing.respan change) _
        opens (body.respan respans) closes
  | _, _, _, _, @DerivesExpression.call _ _ _ callee opening _ isName opens values => by
      rw [Expression.map, respans]
      exact @DerivesExpression.call _ _ _ (callee.respan change) (opening.respan change) _
        isName opens (values.respan respans)

theorem DerivesArguments.respan (respans : Respans change) : ∀ {stream rest : List Lexeme}
    {last : Span} {values : List (Expression Span)}, DerivesArguments stream rest last values →
      DerivesArguments (stream.map (Lexeme.respan change)) (rest.map (Lexeme.respan change))
        (change last) (Expression.mapAll change values)
  | _, _, _, _, @DerivesArguments.close _ closing closes =>
      @DerivesArguments.close _ (closing.respan change) closes
  | _, _, _, _, .cons first others => by
      have inside := others.respan respans
      rw [← dropComma_respan] at inside
      exact .cons (first.respan respans) inside

end

mutual

theorem DerivesStatement.respan (respans : Respans change) : ∀ {stream rest : List Lexeme}
    {statement : Statement Span}, DerivesStatement stream rest statement →
      DerivesStatement (stream.map (Lexeme.respan change)) (rest.map (Lexeme.respan change))
        (statement.map change)
  | _, _, _, @DerivesStatement.declare _ _ _ keyword name colon word equals semicolon _ _ declares
      isName separates isType assigns value ends => by
      rw [Statement.map, respans]
      exact @DerivesStatement.declare _ _ _ (keyword.respan change) (name.respan change)
        (colon.respan change) (word.respan change) (equals.respan change)
        (semicolon.respan change) _ _ declares isName separates isType assigns
        (value.respan respans) ends
  | _, _, _, @DerivesStatement.assign _ _ _ target equals semicolon _ isName assigns body ends => by
      rw [Statement.map, respans]
      exact @DerivesStatement.assign _ _ _ (target.respan change) (equals.respan change)
        (semicolon.respan change) _ isName assigns (body.respan respans) ends
  | _, _, _, @DerivesStatement.call _ _ _ callee opening semicolon _ isName opens values ends => by
      rw [Statement.map, respans]
      exact @DerivesStatement.call _ _ _ (callee.respan change) (opening.respan change)
        (semicolon.respan change) _ isName opens (values.respan respans) ends
  | _, _, _, @DerivesStatement.giveBack _ _ _ keyword semicolon _ returns body ends => by
      rw [Statement.map, respans]
      exact @DerivesStatement.giveBack _ _ _ (keyword.respan change) (semicolon.respan change) _
        returns (body.respan respans) ends
  | _, _, _, @DerivesStatement.ifThen _ _ rest _ _ keyword opening _ _ tests value opens
      statements alone => by
      rw [Statement.map, respans]
      exact @DerivesStatement.ifThen _ _ _ _ _ (keyword.respan change) (opening.respan change) _ _
        tests (value.respan respans) opens (statements.respan respans)
        ((startsWith_respan change _ rest).trans alone)
  | _, _, _, @DerivesStatement.ifThenElse _ _ _ _ _ _ keyword opening separator otherOpening _ _ _
      tests value opens _ statements separates otherOpens otherStatements => by
      rw [Statement.map, respans]
      exact @DerivesStatement.ifThenElse _ _ _ _ _ _ (keyword.respan change)
        (opening.respan change) (separator.respan change) (otherOpening.respan change) _ _ _ tests
        (value.respan respans) opens _ (statements.respan respans) separates otherOpens
        (otherStatements.respan respans)
  | _, _, _, @DerivesStatement.loop _ _ _ _ _ keyword opening _ _ tests value opens
      statements => by
      rw [Statement.map, respans]
      exact @DerivesStatement.loop _ _ _ _ _ (keyword.respan change) (opening.respan change) _ _
        tests (value.respan respans) opens (statements.respan respans)

theorem DerivesStatements.respan (respans : Respans change) : ∀ {stream rest : List Lexeme}
    {last : Span} {statements : List (Statement Span)},
      DerivesStatements stream rest last statements →
        DerivesStatements (stream.map (Lexeme.respan change)) (rest.map (Lexeme.respan change))
          (change last) (Statement.mapAll change statements)
  | _, _, _, _, @DerivesStatements.close _ closing closes =>
      @DerivesStatements.close _ (closing.respan change) closes
  | _, _, _, _, .cons first others => .cons (first.respan respans) (others.respan respans)

end

theorem DerivesParameters.respan (respans : Respans change) {stream rest : List Lexeme}
    {last : Span} {parameters : List (Parameter Span)}
    (derives : DerivesParameters stream rest last parameters) :
    DerivesParameters (stream.map (Lexeme.respan change)) (rest.map (Lexeme.respan change))
      (change last) (parameters.map (Parameter.map change)) := by
  induction derives with
  | @close _ closing closes => exact @DerivesParameters.close _ (closing.respan change) closes
  | @cons stream _ _ name colon word _ _ isName separates isType _ induction =>
      rw [← dropComma_respan] at induction
      simp only [List.map_cons, Parameter.map, respans _ _, ← throughComma_respan]
      exact @DerivesParameters.cons _ _ _ (name.respan change) (colon.respan change)
        (word.respan change) _ _ isName separates isType induction

theorem DerivesPrototype.respan (respans : Respans change) {stream rest : List Lexeme}
    {last : Span} {prototype : Prototype Span}
    (derives : DerivesPrototype stream rest last prototype) :
    DerivesPrototype (stream.map (Lexeme.respan change)) (rest.map (Lexeme.respan change))
      (change last) (prototype.map change) := by
  cases derives with
  | @withoutResult _ _ _ name opening _ isName opens parameters alone =>
      rw [Prototype.map, respans]
      exact @DerivesPrototype.withoutResult _ _ _ (name.respan change) (opening.respan change) _
        isName opens (parameters.respan respans) ((startsWith_respan change _ rest).trans alone)
  | @withResult _ _ _ name opening arrow word _ _ isName opens parameters separates isType =>
      rw [Prototype.map, respans]
      exact @DerivesPrototype.withResult _ _ _ (name.respan change) (opening.respan change)
        (arrow.respan change) (word.respan change) _ _ isName opens (parameters.respan respans)
        separates isType

theorem DerivesItem.respan (respans : Respans change) {stream rest : List Lexeme}
    {item : Item Span} (derives : DerivesItem stream rest item) :
    DerivesItem (stream.map (Lexeme.respan change)) (rest.map (Lexeme.respan change))
      (item.map change) := by
  cases derives with
  | @declaration _ _ _ keyword semicolon _ declares head ends =>
      rw [Item.map, respans]
      exact @DerivesItem.declaration _ _ _ (keyword.respan change) (semicolon.respan change) _
        declares (head.respan respans) ends
  | @definition _ _ _ _ _ keyword opening _ _ defines head opens statements =>
      rw [Item.map, respans]
      exact @DerivesItem.definition _ _ _ _ _ (keyword.respan change) (opening.respan change) _ _
        defines (head.respan respans) opens (statements.respan respans)

theorem DerivesItems.respan (respans : Respans change) {stream : List Lexeme}
    {items : List (Item Span)} (derives : DerivesItems stream items) :
    DerivesItems (stream.map (Lexeme.respan change)) (items.map (Item.map change)) := by
  induction derives with
  | stop => exact .stop
  | cons first _ induction => exact .cons (first.respan respans) induction

end Language

end QubitLang
