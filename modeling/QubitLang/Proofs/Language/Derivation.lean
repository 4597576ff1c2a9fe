import QubitLang.Ast.Basic
import QubitLang.Binary64
import QubitLang.Proofs.Language.Token

/-! The trees that the grammar gives to lexemes, with the spans of their nodes. Only
calls are ambiguous in the grammar, and here a name in front of an opening
parenthesis is always the callee of a call; so no lexemes have two trees. -/

namespace QubitLang.Language

/-! ## Lexemes -/

def dropComma : List Lexeme → List Lexeme
  | [] => []
  | first :: rest => if first.token.reads (.sign .comma) then rest else first :: rest

def throughComma (last : Span) : List Lexeme → Span
  | [] => last
  | first :: _ => if first.token.reads (.sign .comma) then first.span else last

def Token.index (token : Token) : Nat := digitsValue (token.spelling.drop 1)

/-- The expression that a lexeme is by itself, unless it is a name. -/
def literal? (lexeme : Lexeme) : Option (Expression Span) :=
  if lexeme.token.reads .number then some (.number lexeme.span lexeme.token.spelling)
  else if lexeme.token.reads (.sign .percent) then
    some (.qubit lexeme.span (Token.index lexeme.token))
  else if lexeme.token.reads (.keyword .trueWord) then some (.boolean lexeme.span true)
  else if lexeme.token.reads (.keyword .falseWord) then some (.boolean lexeme.span false)
  else none

theorem literal?_cases {first : Lexeme} {value : Expression Span}
    (found : literal? first = some value) :
    (first.token.reads .number = true ∧ value = .number first.span first.token.spelling) ∨
    (first.token.reads (.sign .percent) = true ∧
      value = .qubit first.span (Token.index first.token)) ∨
    (first.token.reads (.keyword .trueWord) = true ∧ value = .boolean first.span true) ∨
    (first.token.reads (.keyword .falseWord) = true ∧ value = .boolean first.span false) := by
  unfold literal? at found
  split_ifs at found with number index holds fails <;> cases found
  · exact .inl ⟨number, rfl⟩
  · exact .inr (.inl ⟨index, rfl⟩)
  · exact .inr (.inr (.inl ⟨holds, rfl⟩))
  · exact .inr (.inr (.inr ⟨fails, rfl⟩))

/-! ## Derivations

Each relation takes a tree from the head of some lexemes and leaves the rest. The
span is that of the last lexeme that was taken. -/

mutual

inductive DerivesExpression :
    List Lexeme → List Lexeme → Span → Expression Span → Prop where
  | literal {rest : List Lexeme}
      {first : Lexeme} {value : Expression Span} (found : literal? first = some value) :
      DerivesExpression (first :: rest) rest first.span value
  | name {rest : List Lexeme}
      {first : Lexeme} (isName : first.token.reads .identifier = true)
      (alone : startsWith (.sign .openParen) rest = false) :
      DerivesExpression (first :: rest) rest first.span
        (.identifier first.span first.token.spelling)
  | parenthesised {stream rest : List Lexeme} {inner : Span}
      {opening closing : Lexeme} {value : Expression Span}
      (opens : opening.token.reads (.sign .openParen) = true)
      (body : DerivesExpression stream (closing :: rest) inner value)
      (closes : closing.token.reads (.sign .closeParen) = true) :
      DerivesExpression (opening :: stream) rest closing.span value
  | call {stream rest : List Lexeme} {last : Span}
      {callee opening : Lexeme} {values : List (Expression Span)}
      (isName : callee.token.reads .identifier = true)
      (opens : opening.token.reads (.sign .openParen) = true)
      (values_eq : DerivesArguments stream rest last values) :
      DerivesExpression (callee :: opening :: stream) rest last
        (.call (Span.upTo callee.span.start (some last)) callee.token.spelling values)

/-- Arguments up to the parenthesis that closes them. A comma behind one of them
is dropped. -/
inductive DerivesArguments :
    List Lexeme → List Lexeme → Span → List (Expression Span) → Prop where
  | close {rest : List Lexeme}
      {closing : Lexeme} (closes : closing.token.reads (.sign .closeParen) = true) :
      DerivesArguments (closing :: rest) rest closing.span []
  | cons {stream middle rest : List Lexeme} {last inner : Span}
      {value : Expression Span} {values : List (Expression Span)}
      (first : DerivesExpression stream middle inner value)
      (others : DerivesArguments (dropComma middle) rest last values) :
      DerivesArguments stream rest last (value :: values)

end

mutual

inductive DerivesStatement :
    List Lexeme → List Lexeme → Statement Span → Prop where
  | declare {stream rest : List Lexeme} {last : Span}
      {keyword name colon word equals semicolon : Lexeme} {type : BaseType}
      {initial : Expression Span}
      (declares : keyword.token.reads (.keyword .var) = true)
      (isName : name.token.reads .identifier = true)
      (separates : colon.token.reads (.sign .colon) = true)
      (isType : word.token.reads (.typeWord type) = true)
      (assigns : equals.token.reads (.sign .equals) = true)
      (value : DerivesExpression stream (semicolon :: rest) last initial)
      (ends : semicolon.token.reads (.sign .semicolon) = true) :
      DerivesStatement (keyword :: name :: colon :: word :: equals :: stream) rest
        (.declare (Span.upTo keyword.span.start (some last)) name.token.spelling type initial)
  | assign {stream rest : List Lexeme} {last : Span}
      {target equals semicolon : Lexeme} {value : Expression Span}
      (isName : target.token.reads .identifier = true)
      (assigns : equals.token.reads (.sign .equals) = true)
      (body : DerivesExpression stream (semicolon :: rest) last value)
      (ends : semicolon.token.reads (.sign .semicolon) = true) :
      DerivesStatement (target :: equals :: stream) rest
        (.assign (Span.upTo target.span.start (some last)) target.token.spelling value)
  | call {stream rest : List Lexeme} {last : Span}
      {callee opening semicolon : Lexeme} {values : List (Expression Span)}
      (isName : callee.token.reads .identifier = true)
      (opens : opening.token.reads (.sign .openParen) = true)
      (arguments : DerivesArguments stream (semicolon :: rest) last values)
      (ends : semicolon.token.reads (.sign .semicolon) = true) :
      DerivesStatement (callee :: opening :: stream) rest
        (.call (Span.upTo callee.span.start (some last)) callee.token.spelling values)
  | giveBack {stream rest : List Lexeme} {last : Span}
      {keyword semicolon : Lexeme} {value : Expression Span}
      (returns : keyword.token.reads (.keyword .returnWord) = true)
      (body : DerivesExpression stream (semicolon :: rest) last value)
      (ends : semicolon.token.reads (.sign .semicolon) = true) :
      DerivesStatement (keyword :: stream) rest
        (.giveBack (Span.upTo keyword.span.start (some last)) value)
  | ifThen {stream block rest : List Lexeme} {last inner : Span}
      {keyword opening : Lexeme} {condition : Expression Span}
      {body : List (Statement Span)}
      (tests : keyword.token.reads (.keyword .ifWord) = true)
      (value : DerivesExpression stream (opening :: block) inner condition)
      (opens : opening.token.reads (.sign .openBrace) = true)
      (statements : DerivesStatements block rest last body)
      (alone : startsWith (.keyword .elseWord) rest = false) :
      DerivesStatement (keyword :: stream) rest
        (.ifThen (Span.upTo keyword.span.start (some last)) condition body)
  | ifThenElse {stream block other rest : List Lexeme} {last inner : Span}
      {keyword opening separator otherOpening : Lexeme} {condition : Expression Span}
      {body otherwise : List (Statement Span)}
      (tests : keyword.token.reads (.keyword .ifWord) = true)
      (value : DerivesExpression stream (opening :: block) inner condition)
      (opens : opening.token.reads (.sign .openBrace) = true)
      {bodyLast : Span}
      (statements : DerivesStatements block (separator :: otherOpening :: other) bodyLast body)
      (separates : separator.token.reads (.keyword .elseWord) = true)
      (otherOpens : otherOpening.token.reads (.sign .openBrace) = true)
      (otherStatements : DerivesStatements other rest last otherwise) :
      DerivesStatement (keyword :: stream) rest
        (.ifThenElse (Span.upTo keyword.span.start (some last)) condition body otherwise)
  | loop {stream block rest : List Lexeme} {last inner : Span}
      {keyword opening : Lexeme} {condition : Expression Span}
      {body : List (Statement Span)}
      (repeats : keyword.token.reads (.keyword .whileWord) = true)
      (value : DerivesExpression stream (opening :: block) inner condition)
      (opens : opening.token.reads (.sign .openBrace) = true)
      (statements : DerivesStatements block rest last body) :
      DerivesStatement (keyword :: stream) rest
        (.loop (Span.upTo keyword.span.start (some last)) condition body)

/-- Statements up to the brace that closes their block. -/
inductive DerivesStatements :
    List Lexeme → List Lexeme → Span → List (Statement Span) → Prop where
  | close {rest : List Lexeme}
      {closing : Lexeme} (closes : closing.token.reads (.sign .closeBrace) = true) :
      DerivesStatements (closing :: rest) rest closing.span []
  | cons {stream middle rest : List Lexeme} {last : Span}
      {statement : Statement Span} {statements : List (Statement Span)}
      (first : DerivesStatement stream middle statement)
      (others : DerivesStatements middle rest last statements) :
      DerivesStatements stream rest last (statement :: statements)

end

/-- Parameters up to the parenthesis that closes them. A comma behind one of them
belongs to it. -/
inductive DerivesParameters :
    List Lexeme → List Lexeme → Span → List (Parameter Span) → Prop where
  | close {rest : List Lexeme}
      {closing : Lexeme} (closes : closing.token.reads (.sign .closeParen) = true) :
      DerivesParameters (closing :: rest) rest closing.span []
  | cons {stream rest : List Lexeme} {last : Span}
      {name colon word : Lexeme} {type : BaseType} {parameters : List (Parameter Span)}
      (isName : name.token.reads .identifier = true)
      (separates : colon.token.reads (.sign .colon) = true)
      (isType : word.token.reads (.typeWord type) = true)
      (others : DerivesParameters (dropComma stream) rest last parameters) :
      DerivesParameters (name :: colon :: word :: stream) rest last
        (⟨Span.upTo name.span.start (some (throughComma word.span stream)),
          name.token.spelling, type⟩ :: parameters)

inductive DerivesPrototype :
    List Lexeme → List Lexeme → Span → Prototype Span → Prop where
  | withoutResult {stream rest : List Lexeme} {last : Span}
      {name opening : Lexeme} {parameters : List (Parameter Span)}
      (isName : name.token.reads .identifier = true)
      (opens : opening.token.reads (.sign .openParen) = true)
      (parameters_eq : DerivesParameters stream rest last parameters)
      (alone : startsWith (.sign .arrow) rest = false) :
      DerivesPrototype (name :: opening :: stream) rest last
        ⟨Span.upTo name.span.start (some last), name.token.spelling, parameters, none⟩
  | withResult {stream rest : List Lexeme} {inner : Span}
      {name opening arrow word : Lexeme} {type : BaseType}
      {parameters : List (Parameter Span)}
      (isName : name.token.reads .identifier = true)
      (opens : opening.token.reads (.sign .openParen) = true)
      (parameters_eq : DerivesParameters stream (arrow :: word :: rest) inner parameters)
      (separates : arrow.token.reads (.sign .arrow) = true)
      (isType : word.token.reads (.typeWord type) = true) :
      DerivesPrototype (name :: opening :: stream) rest word.span
        ⟨Span.upTo name.span.start (some word.span), name.token.spelling, parameters,
          some type⟩

inductive DerivesItem : List Lexeme → List Lexeme → Item Span → Prop where
  | declaration {stream rest : List Lexeme} {inner : Span}
      {keyword semicolon : Lexeme} {signature : Prototype Span}
      (declares : keyword.token.reads (.keyword .external) = true)
      (head : DerivesPrototype stream (semicolon :: rest) inner signature)
      (ends : semicolon.token.reads (.sign .semicolon) = true) :
      DerivesItem (keyword :: stream) rest
        (.declaration (Span.upTo keyword.span.start (some semicolon.span)) signature)
  | definition {stream block rest : List Lexeme} {last inner : Span}
      {keyword opening : Lexeme} {signature : Prototype Span}
      {body : List (Statement Span)}
      (defines : keyword.token.reads (.keyword .define) = true)
      (head : DerivesPrototype stream (opening :: block) inner signature)
      (opens : opening.token.reads (.sign .openBrace) = true)
      (statements : DerivesStatements block rest last body) :
      DerivesItem (keyword :: stream) rest
        (.definition (Span.upTo keyword.span.start (some last)) signature body)

inductive DerivesItems : List Lexeme → List (Item Span) → Prop where
  | stop
      : DerivesItems [] []
  | cons {stream rest : List Lexeme}
      {item : Item Span} {items : List (Item Span)} (first : DerivesItem stream rest item)
      (others : DerivesItems rest items) : DerivesItems stream (item :: items)

/-! ## Uniqueness -/

theorem not_reads_of_literal? {first : Lexeme} {value : Expression Span} {label : Label}
    (found : literal? first = some value)
    (label_eq : label = .identifier ∨ label = .sign .openParen ∨ label = .sign .closeParen) :
    first.token.reads label = false := by
  cases reads : first.token.reads label with
  | false => rfl
  | true =>
      rcases literal?_cases found with ⟨other, _⟩ | ⟨other, _⟩ | ⟨other, _⟩ | ⟨other, _⟩
      all_goals
        have overlap := Token.overlaps_of_reads reads other
        rcases label_eq with rfl | rfl | rfl <;> cases overlap

theorem DerivesExpression.not_closeParen {first : Lexeme} {stream rest : List Lexeme}
    {last : Span} {value : Expression Span}
    (derives : DerivesExpression (first :: stream) rest last value) :
    first.token.reads (.sign .closeParen) = false := by
  cases closes : first.token.reads (.sign .closeParen) with
  | false => rfl
  | true =>
      cases derives with
      | literal found =>
          rw [not_reads_of_literal? found (.inr (.inr rfl))] at closes
          cases closes
      | name isName _ | call isName _ _ => cases Token.overlaps_of_reads isName closes
      | parenthesised opens _ _ => cases Token.overlaps_of_reads opens closes

mutual

theorem DerivesExpression.unique : ∀ {stream rest rest' : List Lexeme} {last last' : Span}
    {value value' : Expression Span}, DerivesExpression stream rest last value →
      DerivesExpression stream rest' last' value' → rest = rest' ∧ last = last' ∧ value = value'
  | _, _, _, _, _, _, _, .literal found, right => by
      cases right with
      | literal other =>
          rw [found] at other
          cases other
          exact ⟨rfl, rfl, rfl⟩
      | name isName _ | call isName _ _ =>
          rw [not_reads_of_literal? found (.inl rfl)] at isName
          cases isName
      | parenthesised opens _ _ =>
          rw [not_reads_of_literal? found (.inr (.inl rfl))] at opens
          cases opens
  | _, _, _, _, _, _, _, .name isName alone, right => by
      cases right with
      | literal other =>
          rw [not_reads_of_literal? other (.inl rfl)] at isName
          cases isName
      | name _ _ => exact ⟨rfl, rfl, rfl⟩
      | parenthesised opens _ _ => cases Token.overlaps_of_reads isName opens
      | call _ opens _ =>
          rw [startsWith_cons, opens] at alone
          cases alone
  | _, _, _, _, _, _, _, .parenthesised opens body closes, right => by
      cases right with
      | literal other =>
          rw [not_reads_of_literal? other (.inr (.inl rfl))] at opens
          cases opens
      | name isName _ | call isName _ _ => cases Token.overlaps_of_reads isName opens
      | parenthesised _ otherBody _ =>
          obtain ⟨rest_eq, rfl, rfl⟩ := body.unique otherBody
          cases rest_eq
          exact ⟨rfl, rfl, rfl⟩
  | _, _, _, _, _, _, _, .call isName opens values_eq, right => by
      cases right with
      | literal other =>
          rw [not_reads_of_literal? other (.inl rfl)] at isName
          cases isName
      | name _ alone =>
          rw [startsWith_cons, opens] at alone
          cases alone
      | parenthesised otherOpens _ _ => cases Token.overlaps_of_reads isName otherOpens
      | call _ _ otherValues =>
          obtain ⟨rfl, rfl, rfl⟩ := values_eq.unique otherValues
          exact ⟨rfl, rfl, rfl⟩

theorem DerivesArguments.unique : ∀ {stream rest rest' : List Lexeme} {last last' : Span}
    {values values' : List (Expression Span)}, DerivesArguments stream rest last values →
      DerivesArguments stream rest' last' values' →
        rest = rest' ∧ last = last' ∧ values = values'
  | _, _, _, _, _, _, _, .close closes, right => by
      cases right with
      | close _ => exact ⟨rfl, rfl, rfl⟩
      | cons first _ => exact absurd closes (by rw [first.not_closeParen]; nofun)
  | _, _, _, _, _, _, _, .cons first others, right => by
      cases right with
      | close closes => exact absurd closes (by rw [first.not_closeParen]; nofun)
      | cons otherFirst otherOthers =>
          obtain ⟨rfl, _, rfl⟩ := first.unique otherFirst
          obtain ⟨rfl, rfl, rfl⟩ := others.unique otherOthers
          exact ⟨rfl, rfl, rfl⟩

end

theorem type_unique {token : Token} {type other : BaseType}
    (left : token.reads (.typeWord type) = true) (right : token.reads (.typeWord other) = true) :
    type = other := by
  simpa [Label.overlaps] using Token.overlaps_of_reads left right

theorem DerivesStatement.not_closeBrace {first : Lexeme} {stream rest : List Lexeme}
    {statement : Statement Span} (derives : DerivesStatement (first :: stream) rest statement) :
    first.token.reads (.sign .closeBrace) = false := by
  cases closes : first.token.reads (.sign .closeBrace) with
  | false => rfl
  | true =>
      cases derives with
      | declare head | assign head | call head | giveBack head | ifThen head
      | ifThenElse head | loop head => cases Token.overlaps_of_reads head closes

mutual

theorem DerivesStatement.unique : ∀ {stream rest rest' : List Lexeme}
    {statement statement' : Statement Span}, DerivesStatement stream rest statement →
      DerivesStatement stream rest' statement' → rest = rest' ∧ statement = statement'
  | _, _, _, _, _, .declare head _ _ isType _ value _, right => by
      cases right with
      | declare _ _ _ otherType _ otherValue _ =>
          cases type_unique isType otherType
          obtain ⟨rest_eq, rfl, rfl⟩ := value.unique otherValue
          cases rest_eq
          exact ⟨rfl, rfl⟩
      | assign other | call other | giveBack other | ifThen other | ifThenElse other
      | loop other => cases Token.overlaps_of_reads head other
  | _, _, _, _, _, .assign head assigns value _, right => by
      cases right with
      | assign _ _ otherValue _ =>
          obtain ⟨rest_eq, rfl, rfl⟩ := value.unique otherValue
          cases rest_eq
          exact ⟨rfl, rfl⟩
      | call _ opens => cases Token.overlaps_of_reads assigns opens
      | declare other | giveBack other | ifThen other | ifThenElse other | loop other =>
          cases Token.overlaps_of_reads head other
  | _, _, _, _, _, .call head opens arguments _, right => by
      cases right with
      | assign _ assigns => cases Token.overlaps_of_reads assigns opens
      | call _ _ otherArguments _ =>
          obtain ⟨rest_eq, rfl, rfl⟩ := arguments.unique otherArguments
          cases rest_eq
          exact ⟨rfl, rfl⟩
      | declare other | giveBack other | ifThen other | ifThenElse other | loop other =>
          cases Token.overlaps_of_reads head other
  | _, _, _, _, _, .giveBack head value _, right => by
      cases right with
      | giveBack _ otherValue _ =>
          obtain ⟨rest_eq, rfl, rfl⟩ := value.unique otherValue
          cases rest_eq
          exact ⟨rfl, rfl⟩
      | declare other | assign other | call other | ifThen other | ifThenElse other
      | loop other => cases Token.overlaps_of_reads head other
  | _, _, _, _, _, .ifThen head value _ statements alone, right => by
      cases right with
      | ifThen _ otherValue _ otherStatements _ =>
          obtain ⟨block_eq, _, rfl⟩ := value.unique otherValue
          cases block_eq
          obtain ⟨rfl, rfl, rfl⟩ := statements.unique otherStatements
          exact ⟨rfl, rfl⟩
      | ifThenElse _ otherValue _ otherStatements separates _ _ =>
          obtain ⟨block_eq, _, rfl⟩ := value.unique otherValue
          cases block_eq
          obtain ⟨rfl, _, _⟩ := statements.unique otherStatements
          rw [startsWith_cons, separates] at alone
          cases alone
      | declare other | assign other | call other | giveBack other | loop other =>
          cases Token.overlaps_of_reads head other
  | _, _, _, _, _, .ifThenElse head value _ statements separates _ elseStatements, right => by
      cases right with
      | ifThen _ otherValue _ otherStatements alone =>
          obtain ⟨block_eq, _, rfl⟩ := value.unique otherValue
          cases block_eq
          obtain ⟨rfl, _, _⟩ := statements.unique otherStatements
          rw [startsWith_cons, separates] at alone
          cases alone
      | ifThenElse _ otherValue _ otherStatements _ _ otherElse =>
          obtain ⟨block_eq, _, rfl⟩ := value.unique otherValue
          cases block_eq
          obtain ⟨else_eq, _, rfl⟩ := statements.unique otherStatements
          cases else_eq
          obtain ⟨rfl, rfl, rfl⟩ := elseStatements.unique otherElse
          exact ⟨rfl, rfl⟩
      | declare other | assign other | call other | giveBack other | loop other =>
          cases Token.overlaps_of_reads head other
  | _, _, _, _, _, .loop head value _ statements, right => by
      cases right with
      | loop _ otherValue _ otherStatements =>
          obtain ⟨block_eq, _, rfl⟩ := value.unique otherValue
          cases block_eq
          obtain ⟨rfl, rfl, rfl⟩ := statements.unique otherStatements
          exact ⟨rfl, rfl⟩
      | declare other | assign other | call other | giveBack other | ifThen other
      | ifThenElse other => cases Token.overlaps_of_reads head other

theorem DerivesStatements.unique : ∀ {stream rest rest' : List Lexeme} {last last' : Span}
    {statements statements' : List (Statement Span)},
    DerivesStatements stream rest last statements →
      DerivesStatements stream rest' last' statements' →
        rest = rest' ∧ last = last' ∧ statements = statements'
  | _, _, _, _, _, _, _, .close closes, right => by
      cases right with
      | close _ => exact ⟨rfl, rfl, rfl⟩
      | cons first _ => exact absurd closes (by rw [first.not_closeBrace]; nofun)
  | _, _, _, _, _, _, _, .cons first others, right => by
      cases right with
      | close closes => exact absurd closes (by rw [first.not_closeBrace]; nofun)
      | cons otherFirst otherOthers =>
          obtain ⟨rfl, rfl⟩ := first.unique otherFirst
          obtain ⟨rfl, rfl, rfl⟩ := others.unique otherOthers
          exact ⟨rfl, rfl, rfl⟩

end

theorem DerivesParameters.unique {stream rest rest' : List Lexeme} {last last' : Span}
    {parameters parameters' : List (Parameter Span)}
    (left : DerivesParameters stream rest last parameters)
    (right : DerivesParameters stream rest' last' parameters') :
    rest = rest' ∧ last = last' ∧ parameters = parameters' := by
  induction left generalizing rest' last' parameters' with
  | close closes =>
      cases right with
      | close _ => exact ⟨rfl, rfl, rfl⟩
      | cons isName => cases Token.overlaps_of_reads closes isName
  | cons isName _ isType _ induction =>
      cases right with
      | close closes => cases Token.overlaps_of_reads closes isName
      | cons _ _ otherType otherOthers =>
          cases type_unique isType otherType
          obtain ⟨rfl, rfl, rfl⟩ := induction otherOthers
          exact ⟨rfl, rfl, rfl⟩

theorem DerivesPrototype.unique {stream rest rest' : List Lexeme} {last last' : Span}
    {signature signature' : Prototype Span} (left : DerivesPrototype stream rest last signature)
    (right : DerivesPrototype stream rest' last' signature') :
    rest = rest' ∧ last = last' ∧ signature = signature' := by
  cases left with
  | withoutResult _ _ parameters alone =>
      cases right with
      | withoutResult _ _ otherParameters _ =>
          obtain ⟨rfl, rfl, rfl⟩ := parameters.unique otherParameters
          exact ⟨rfl, rfl, rfl⟩
      | withResult _ _ otherParameters separates _ =>
          obtain ⟨rfl, _, _⟩ := parameters.unique otherParameters
          rw [startsWith_cons, separates] at alone
          cases alone
  | withResult _ _ parameters separates isType =>
      cases right with
      | withoutResult _ _ otherParameters alone =>
          obtain ⟨rfl, _, _⟩ := parameters.unique otherParameters
          rw [startsWith_cons, separates] at alone
          cases alone
      | withResult _ _ otherParameters _ otherType =>
          obtain ⟨rest_eq, _, rfl⟩ := parameters.unique otherParameters
          cases rest_eq
          cases type_unique isType otherType
          exact ⟨rfl, rfl, rfl⟩

theorem DerivesItem.unique {stream rest rest' : List Lexeme} {item item' : Item Span}
    (left : DerivesItem stream rest item) (right : DerivesItem stream rest' item') :
    rest = rest' ∧ item = item' := by
  cases left with
  | declaration declares head ends =>
      cases right with
      | declaration _ otherHead _ =>
          obtain ⟨rest_eq, _, rfl⟩ := head.unique otherHead
          cases rest_eq
          exact ⟨rfl, rfl⟩
      | definition defines => cases Token.overlaps_of_reads declares defines
  | definition defines head opens statements =>
      cases right with
      | declaration declares => cases Token.overlaps_of_reads declares defines
      | definition _ otherHead _ otherStatements =>
          obtain ⟨block_eq, _, rfl⟩ := head.unique otherHead
          cases block_eq
          obtain ⟨rfl, rfl, rfl⟩ := statements.unique otherStatements
          exact ⟨rfl, rfl⟩

theorem DerivesItems.unique {stream : List Lexeme} {items items' : List (Item Span)}
    (left : DerivesItems stream items) (right : DerivesItems stream items') :
    items = items' := by
  induction left generalizing items' with
  | stop =>
      cases right with
      | stop => rfl
      | cons first _ => cases first
  | cons first _ induction =>
      cases right with
      | stop => cases first
      | cons otherFirst otherOthers =>
          obtain ⟨rfl, rfl⟩ := first.unique otherFirst
          rw [induction otherOthers]

end QubitLang.Language
