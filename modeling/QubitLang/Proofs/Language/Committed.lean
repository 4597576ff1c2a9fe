import QubitLang.Proofs.Ast.Building
import QubitLang.Proofs.Language.Derivation
import QubitLang.Proofs.Language.Firsts

/-! What has a tree is read, by committed choice, into nodes from which that tree is
built. -/

namespace QubitLang.Language

open Node (tokenAt treeAt)

variable {finish : Nat}

/-! ## Readings of parts -/

section

variable {form left right body : Form} {name : Nonterminal} {stream middle rest : List Lexeme}
  {first : Lexeme} {label : Label} {last inner : Span} {nodes more : List Node}
  {reading : Reading}

theorem succeeds_terminal (reads : first.token.reads label = true) :
    Succeeds finish (.terminal label) (first :: rest) ⟨rest, some first.span, []⟩ :=
  ⟨_, .hit reads⟩

theorem fails_terminal (refused : startsWith label stream = false) :
    Fails finish (.terminal label) stream :=
  ⟨_, .miss refused⟩

theorem fails_terminal_of_reads {other : Label} (reads : first.token.reads other = true)
    (apart : other.overlaps label = false) : Fails finish (.terminal label) (first :: rest) :=
  fails_terminal (startsWith_of_reads reads apart)

theorem Succeeds.seq {before : Option Span}
    (head : Succeeds finish left stream ⟨middle, before, nodes⟩)
    (tail : Succeeds finish right middle ⟨rest, some last, more⟩) :
    Succeeds finish (.seq left right) stream ⟨rest, some last, nodes ++ more⟩ := by
  obtain ⟨_, head⟩ := head
  obtain ⟨_, tail⟩ := tail
  exact ⟨_, .seq head tail⟩

theorem Succeeds.seq_opt (head : Succeeds finish left stream ⟨middle, some inner, nodes⟩)
    (absent : Fails finish body middle) :
    Succeeds finish (.seq left (.opt body)) stream ⟨middle, some inner, nodes⟩ := by
  obtain ⟨_, head⟩ := head
  obtain ⟨_, absent⟩ := absent
  have reads := Reads.seq head (.optNone absent)
  rw [show Reading.followedBy _ (.nothing middle) = ⟨middle, some inner, nodes⟩ by
    simp [Reading.followedBy, Reading.nothing]] at reads
  exact ⟨_, reads⟩

theorem Succeeds.opt (present : Succeeds finish body stream reading) :
    Succeeds finish (.opt body) stream reading := by
  obtain ⟨_, present⟩ := present
  exact ⟨_, .optSome present⟩

theorem Succeeds.altFirst (head : Succeeds finish left stream reading) :
    Succeeds finish (.alt left right) stream reading := by
  obtain ⟨_, head⟩ := head
  exact ⟨_, .altFirst head⟩

theorem Fails.altSecond (head : Fails finish left stream)
    (other : Succeeds finish right stream reading) :
    Succeeds finish (.alt left right) stream reading := by
  obtain ⟨_, head⟩ := head
  obtain ⟨_, other⟩ := other
  exact ⟨_, .altSecond head other⟩

theorem Fails.alt (head : Fails finish left stream) (other : Fails finish right stream) :
    Fails finish (.alt left right) stream := by
  obtain ⟨_, head⟩ := head
  obtain ⟨_, other⟩ := other
  exact ⟨_, .altSecond head other⟩

theorem Fails.seqFirst (head : Fails finish left stream) :
    Fails finish (.seq left right) stream := by
  obtain ⟨_, head⟩ := head
  exact ⟨_, .seqFirstFails head⟩

theorem Succeeds.seqFails (head : Succeeds finish left stream reading)
    (tail : Fails finish right reading.rest) : Fails finish (.seq left right) stream := by
  obtain ⟨_, head⟩ := head
  obtain ⟨_, tail⟩ := tail
  exact ⟨_, .seqSecondFails head tail⟩

theorem Fails.call (body : Fails finish (Language.form name) stream) :
    Fails finish (.call name) stream := by
  obtain ⟨_, body⟩ := body
  exact ⟨_, .callFails body⟩

theorem Succeeds.silent (kind : (definition name).1 = .silent)
    (body : Succeeds finish (Language.form name) stream reading) :
    Succeeds finish (.call name) stream reading := by
  obtain ⟨_, body⟩ := body
  have reads := Reads.call body
  rw [show reading.asRule finish name stream = reading by
    simp [Reading.asRule, nodesOf, kind]] at reads
  exact ⟨_, reads⟩

theorem Succeeds.tree {node : String} {before : Option Span}
    (kind : (definition name).1 = .tree node)
    (body : Succeeds finish (Language.form name) (first :: stream) ⟨rest, before, nodes⟩) :
    Succeeds finish (.call name) (first :: stream)
      ⟨rest, before, [treeAt node (Span.upTo first.span.start before) nodes]⟩ := by
  obtain ⟨_, body⟩ := body
  have reads := Reads.call body
  rw [show Reading.asRule finish name (first :: stream) _ =
      ⟨rest, before, [treeAt node (Span.upTo first.span.start before) nodes]⟩ by
    simp [Reading.asRule, nodesOf, kind, treeAt, Lexeme.startOf]] at reads
  exact ⟨_, reads⟩

theorem succeeds_token {node : String} (kind : (definition name).1 = .token node)
    (form_eq : Language.form name = .terminal label) (reads : first.token.reads label = true) :
    Succeeds finish (.call name) (first :: rest)
      ⟨rest, some first.span, [tokenAt node first.span first.token.spelling]⟩ := by
  have body : Succeeds finish (Language.form name) (first :: rest)
      ⟨rest, some first.span, []⟩ := by
    rw [form_eq]
    exact succeeds_terminal reads
  obtain ⟨_, body⟩ := body
  have reads := Reads.call body
  rw [show Reading.asRule finish name (first :: rest) _ =
      ⟨rest, some first.span, [tokenAt node first.span first.token.spelling]⟩ by
    simp [Reading.asRule, nodesOf, kind, tokenAt, Lexeme.startOf, firstSpelling]] at reads
  exact ⟨_, reads⟩

theorem succeeds_identifier (isName : first.token.reads .identifier = true) :
    Succeeds finish (.call .identifier) (first :: rest)
      ⟨rest, some first.span, [tokenAt "IDENT" first.span first.token.spelling]⟩ :=
  succeeds_token rfl rfl isName

theorem Fails.starThen (absent : Fails finish body stream)
    (tail : Succeeds finish right stream ⟨rest, some last, nodes⟩) :
    Succeeds finish (.seq (.star body) right) stream ⟨rest, some last, nodes⟩ := by
  obtain ⟨_, absent⟩ := absent
  obtain ⟨_, tail⟩ := tail
  exact ⟨_, .seq (.starStop absent) tail⟩

theorem Succeeds.starThen {before : Option Span}
    (head : Succeeds finish body stream ⟨middle, before, nodes⟩)
    (tail : Succeeds finish (.seq (.star body) right) middle ⟨rest, some last, more⟩) :
    Succeeds finish (.seq (.star body) right) stream ⟨rest, some last, nodes ++ more⟩ := by
  obtain ⟨_, head⟩ := head
  obtain ⟨_, tail⟩ := tail
  generalize reading_eq : (⟨rest, some last, more⟩ : Reading) = reading at tail
  generalize outcome_eq : some reading = outcome at tail
  cases tail with
  | seqFirstFails _ | seqSecondFails _ _ => cases outcome_eq
  | @seq _ _ _ repeated behind _ _ others second =>
      cases outcome_eq
      have reads := Reads.seq (Reads.starStep head others) second
      rw [Reading.followedBy_assoc, ← reading_eq] at reads
      exact ⟨_, reads⟩

end

/-! ## Expressions -/

theorem exists_digits_of_reads {token : Token} (reads : token.reads (.sign .percent) = true) :
    ∃ digits, token.spelling = '%' :: digits ∧ Lexical.isDigits digits = true := by
  cases token with
  | qubit digits => exact ⟨digits, rfl, reads⟩
  | sign mark =>
      simp only [Token.reads, Bool.and_eq_true, beq_iff_eq] at reads
      cases reads.1
      cases reads.2
  | any label =>
      cases beq_iff_eq.mp reads
      exact ⟨['0'], rfl, by decide⟩
  | word _ | number _ => cases reads

theorem builds_name {first : Lexeme} :
    Builds [("IDENT", first.token.spelling)]
      (tokenAt "IDENT" first.span first.token.spelling).name first.token.spelling :=
  Builds.of_ok (by decide) _ _

theorem expression_tokenAt (rule : String) (span : Span) (text : Text) :
    (tokenAt rule span text).expression =
      Node.literal (tokenAt rule span text) span rule text := by
  have located := Node.span_tokenAt rule span text
  simp only [tokenAt] at located ⊢
  rw [Node.expression, located]
  rfl

theorem builds_qubit {first : Lexeme} (reads : first.token.reads (.sign .percent) = true) :
    Builds [("QUBIT", first.token.spelling)]
      (tokenAt "QUBIT" first.span first.token.spelling).expression
      (.qubit first.span (Token.index first.token)) := by
  obtain ⟨digits, spelling_eq, isDigits⟩ := exists_digits_of_reads reads
  rw [expression_tokenAt, Token.index, spelling_eq]
  change Builds _ (((qubitIndex ('%' :: digits)).mapError BuildError.qubit).map _) _
  by_cases overlong : maxIndexDigits < digits.length
  · simp [Builds, isOverlong, qubitIndex, isDigits, overlong, Except.map]
  · simp [Builds, isOverlong, qubitIndex, isDigits, overlong, Except.map]

theorem succeeds_literal {first : Lexeme} {rest : List Lexeme} {value : Expression Span}
    (found : literal? first = some value) :
    ∃ label node, first.token.reads label = true ∧ label ∈ Nonterminal.literal.firsts ∧
      Succeeds finish (.call .literal) (first :: rest) ⟨rest, some first.span, [node]⟩ ∧
      Builds node.tokens node.expression value := by
  rcases literal?_cases found with ⟨reads, rfl⟩ | ⟨reads, rfl⟩ | ⟨reads, rfl⟩ | ⟨reads, rfl⟩
  · refine ⟨_, _, reads, by decide, .silent rfl (.altFirst (succeeds_token rfl rfl reads)), ?_⟩
    rw [expression_tokenAt, Node.tokens_tokenAt]
    exact Builds.of_ok (by decide) _ _
  · refine ⟨_, _, reads, by decide, .silent rfl (Fails.altSecond (fails_of_reads rfl reads rfl)
      (.altFirst (succeeds_token rfl rfl reads))), ?_⟩
    rw [Node.tokens_tokenAt]
    exact builds_qubit reads
  · refine ⟨_, _, reads, by decide, .silent rfl (Fails.altSecond (fails_of_reads rfl reads rfl)
      (Fails.altSecond (fails_of_reads rfl reads rfl)
        (.altFirst (succeeds_token rfl rfl reads)))), ?_⟩
    rw [expression_tokenAt, Node.tokens_tokenAt]
    exact Builds.of_ok (by decide) _ _
  · refine ⟨_, _, reads, by decide, .silent rfl (Fails.altSecond (fails_of_reads rfl reads rfl)
      (Fails.altSecond (fails_of_reads rfl reads rfl)
        (Fails.altSecond (fails_of_reads rfl reads rfl) (succeeds_token rfl rfl reads)))), ?_⟩
    rw [expression_tokenAt, Node.tokens_tokenAt]
    exact Builds.of_ok (by decide) _ _

theorem Succeeds.throughComma {left : Form} {stream middle : List Lexeme} {inner : Span}
    {nodes : List Node} (head : Succeeds finish left stream ⟨middle, some inner, nodes⟩) :
    Succeeds finish (.seq left (.opt (.sign .comma))) stream
      ⟨dropComma middle, some (Language.throughComma inner middle), nodes⟩ := by
  cases middle with
  | nil => exact head.seq_opt (fails_terminal rfl)
  | cons first rest =>
      cases comma : first.token.reads (.sign .comma) with
      | false =>
          rw [dropComma, Language.throughComma, comma]
          exact head.seq_opt (fails_terminal (by rw [startsWith_cons, comma]))
      | true =>
          rw [dropComma, Language.throughComma, comma, ← List.append_nil nodes]
          exact head.seq (.opt (succeeds_terminal comma))

mutual

theorem DerivesExpression.succeeds : ∀ {stream rest : List Lexeme} {last : Span}
    {value : Expression Span}, DerivesExpression stream rest last value →
      ∃ node, Succeeds finish (.call .expression) stream ⟨rest, some last, [node]⟩ ∧
        Builds node.tokens node.expression value
  | _, _, _, _, .literal found => by
      obtain ⟨label, node, reads, member, succeeds, builds⟩ := succeeds_literal found
      have noParen : ∀ label ∈ Nonterminal.literal.firsts,
          label.overlaps (.sign .openParen) = false := by decide
      have noCall : ∀ label ∈ Nonterminal.literal.firsts,
          (Nonterminal.call.firsts.all fun other => !label.overlaps other) = true := by decide
      exact ⟨node, .silent rfl
        (Fails.altSecond (.seqFirst (fails_terminal_of_reads reads (noParen label member)))
          (Fails.altSecond (fails_of_reads rfl reads (noCall label member))
            (.altFirst succeeds))), builds⟩
  | _, _, _, _, .name isName alone => by
      refine ⟨_, .silent rfl (Fails.altSecond ?_ (Fails.altSecond ?_ (Fails.altSecond ?_
        (succeeds_identifier isName)))), ?_⟩
      · exact .seqFirst (fails_terminal_of_reads isName rfl)
      · exact .call ((succeeds_identifier isName).seqFails (.seqFirst (fails_terminal alone)))
      · exact fails_of_reads rfl isName rfl
      · rw [expression_tokenAt, Node.tokens_tokenAt]
        exact Builds.of_ok (by decide) _ _
  | _, _, _, _, .parenthesised opens body closes => by
      obtain ⟨node, succeeds, builds⟩ := body.succeeds
      have inside := succeeds.seq (succeeds_terminal closes)
      exact ⟨node, .silent rfl (.altFirst ((succeeds_terminal opens).seq inside)), builds⟩
  | _, _, _, _, .call isName opens values_eq => by
      obtain ⟨nodes, succeeds, builds⟩ := values_eq.succeeds
      have body := (succeeds_identifier isName).seq ((succeeds_terminal opens).seq succeeds)
      exact ⟨_, .silent rfl (Fails.altSecond (.seqFirst (fails_terminal_of_reads isName rfl))
        (.altFirst (.tree rfl body))), Node.builds_call builds_name builds⟩

theorem DerivesArguments.succeeds : ∀ {stream rest : List Lexeme} {last : Span}
    {values : List (Expression Span)}, DerivesArguments stream rest last values →
      ∃ nodes, Succeeds finish (.seq (.star (.seq (.call .expression) (.opt (.sign .comma))))
          (.sign .closeParen)) stream ⟨rest, some last, nodes⟩ ∧
        Builds (Node.tokensAll nodes) (Node.expressions nodes) values
  | _, _, _, _, .close closes =>
      ⟨[], Fails.starThen (.seqFirst (fails_of_reads rfl closes rfl)) (succeeds_terminal closes),
        by rw [Node.expressions]; exact Builds.ok _⟩
  | _, _, _, _, .cons first others => by
      obtain ⟨node, succeeds, builds⟩ := first.succeeds
      obtain ⟨nodes, laterSucceeds, laterBuilds⟩ := others.succeeds
      refine ⟨node :: nodes, succeeds.throughComma.starThen laterSucceeds, ?_⟩
      rw [Node.expressions, Node.tokensAll_cons]
      exact builds.bind laterBuilds.map

end

/-! ## Statements -/

theorem succeeds_type {first : Lexeme} (rest : List Lexeme) {type : BaseType}
    (reads : first.token.reads (.typeWord type) = true) :
    ∃ node, Succeeds finish (.call .type) (first :: rest) ⟨rest, some first.span, [node]⟩ ∧
      Builds node.tokens node.baseType type := by
  have tree : Succeeds finish (.call (.typeWord type)) (first :: rest)
      ⟨rest, some first.span, [treeAt (type.spelling ++ "_type")
        (Span.upTo first.span.start (some first.span)) []]⟩ :=
    .tree rfl (succeeds_terminal reads)
  refine ⟨treeAt (type.spelling ++ "_type") (Span.upTo first.span.start (some first.span)) [],
    .silent rfl ?_, ?_⟩
  · cases type with
    | number => exact .altFirst tree
    | qubit => exact Fails.altSecond (fails_of_reads rfl reads rfl) (.altFirst tree)
    | bit =>
        exact Fails.altSecond (fails_of_reads rfl reads rfl)
          (Fails.altSecond (fails_of_reads rfl reads rfl) tree)
  · rw [Node.tokens_treeAt]
    cases type <;> exact Builds.ok _

theorem succeeds_simple {stream rest : List Lexeme} {before : Option Span} {semicolon : Lexeme}
    {nodes : List Node}
    (inside : Succeeds finish (.choice (.call .variableDeclaration)
        [.call .assignment, .call .call, .call .returnStatement]) stream
      ⟨semicolon :: rest, before, nodes⟩)
    (ends : semicolon.token.reads (.sign .semicolon) = true) :
    Succeeds finish (.call .statement) stream ⟨rest, some semicolon.span, nodes⟩ := by
  have body := inside.seq (succeeds_terminal ends)
  rw [List.append_nil] at body
  exact .silent rfl (.altFirst body)

theorem fails_simple {first : Lexeme} {rest : List Lexeme} {label : Label}
    (reads : first.token.reads label = true)
    (compound : label = .keyword .ifWord ∨ label = .keyword .whileWord) :
    Fails finish (.seq (.choice (.call .variableDeclaration)
      [.call .assignment, .call .call, .call .returnStatement]) (.sign .semicolon))
      (first :: rest) := by
  have apart : ∀ name ∈ [Nonterminal.variableDeclaration, .assignment, .call,
      .returnStatement], (name.firsts.all fun other => !label.overlaps other) = true := by
    rcases compound with rfl | rfl <;> decide
  refine .seqFirst (.alt ?_ (.alt ?_ (.alt ?_ ?_))) <;>
    exact fails_of_reads rfl reads (apart _ (by decide))

/-- An assignment begins with a name, as a call does, but goes on with another sign. -/
theorem fails_assignment {callee opening : Lexeme} {rest : List Lexeme}
    (isName : callee.token.reads .identifier = true)
    (opens : opening.token.reads (.sign .openParen) = true) :
    Fails finish (.call .assignment) (callee :: opening :: rest) :=
  .call ((succeeds_identifier isName).seqFails (.seqFirst (fails_terminal_of_reads opens rfl)))

theorem succeeds_block {stream rest : List Lexeme} {last : Span} {opening : Lexeme}
    {nodes : List Node} (opens : opening.token.reads (.sign .openBrace) = true)
    (inside : Succeeds finish (.seq (.star (.call .statement)) (.sign .closeBrace)) stream
      ⟨rest, some last, nodes⟩) :
    Succeeds finish (.call .block) (opening :: stream) ⟨rest, some last, nodes⟩ :=
  .silent rfl ((succeeds_terminal opens).seq inside)

mutual

theorem DerivesStatement.succeeds : ∀ {stream rest : List Lexeme} {statement : Statement Span},
    DerivesStatement stream rest statement →
      ∃ last node, Succeeds finish (.call .statement) stream ⟨rest, some last, [node]⟩ ∧
        Builds node.tokens node.statement statement
  | _, _, _, .declare declares isName separates isType assigns value ends => by
      obtain ⟨valueNode, valueSucceeds, valueBuilds⟩ := value.succeeds
      obtain ⟨typeNode, typeSucceeds, typeBuilds⟩ := succeeds_type _ isType
      have body := (succeeds_terminal declares).seq ((succeeds_identifier isName).seq
        ((succeeds_terminal separates).seq (typeSucceeds.seq
          ((succeeds_terminal assigns).seq valueSucceeds))))
      exact ⟨_, _, succeeds_simple (.altFirst (.tree rfl body)) ends,
        Node.builds_declare builds_name typeBuilds valueBuilds⟩
  | _, _, _, .assign isName assigns value ends => by
      obtain ⟨valueNode, valueSucceeds, valueBuilds⟩ := value.succeeds
      have body := (succeeds_identifier isName).seq
        ((succeeds_terminal assigns).seq valueSucceeds)
      exact ⟨_, _, succeeds_simple (Fails.altSecond (fails_of_reads rfl isName rfl)
        (.altFirst (.tree rfl body))) ends, Node.builds_assign builds_name valueBuilds⟩
  | _, _, _, .call isName opens arguments ends => by
      obtain ⟨nodes, argumentsSucceed, argumentsBuild⟩ := arguments.succeeds
      have body := (succeeds_identifier isName).seq
        ((succeeds_terminal opens).seq argumentsSucceed)
      exact ⟨_, _, succeeds_simple (Fails.altSecond (fails_of_reads rfl isName rfl)
        (Fails.altSecond (fails_assignment isName opens) (.altFirst (.tree rfl body)))) ends,
        Node.builds_callStatement builds_name argumentsBuild⟩
  | _, _, _, .giveBack returns value ends => by
      obtain ⟨valueNode, valueSucceeds, valueBuilds⟩ := value.succeeds
      have body := (succeeds_terminal returns).seq valueSucceeds
      exact ⟨_, _, succeeds_simple (Fails.altSecond (fails_of_reads rfl returns rfl)
        (Fails.altSecond (fails_of_reads rfl returns rfl)
          (Fails.altSecond (fails_of_reads rfl returns rfl) (.tree rfl body)))) ends,
        Node.builds_giveBack valueBuilds⟩
  | _, _, _, .ifThen tests condition opens statements alone => by
      obtain ⟨conditionNode, conditionSucceeds, conditionBuilds⟩ := condition.succeeds
      obtain ⟨nodes, statementsSucceed, statementsBuild⟩ := statements.succeeds
      have head := (succeeds_terminal tests).seq
        (conditionSucceeds.seq (succeeds_block opens statementsSucceed))
      have noElse : Fails finish (.call .elseBlock) _ := .call (.seqFirst (fails_terminal alone))
      have headTree : Succeeds finish (.call .ifBlock) _ _ := .tree rfl head
      have body := headTree.seq_opt noElse
      exact ⟨_, _, .silent rfl (Fails.altSecond (fails_simple tests (.inl rfl))
        (.altFirst (.tree rfl body))),
        Node.builds_ifThen (Node.builds_ifBlock conditionBuilds statementsBuild)⟩
  | _, _, _, .ifThenElse tests condition opens statements separates otherOpens others => by
      obtain ⟨conditionNode, conditionSucceeds, conditionBuilds⟩ := condition.succeeds
      obtain ⟨nodes, statementsSucceed, statementsBuild⟩ := statements.succeeds
      obtain ⟨otherNodes, othersSucceed, othersBuild⟩ := others.succeeds
      have head := (succeeds_terminal tests).seq
        (conditionSucceeds.seq (succeeds_block opens statementsSucceed))
      have other := (succeeds_terminal separates).seq
        (succeeds_block otherOpens othersSucceed)
      have otherTree : Succeeds finish (.call .elseBlock) _ _ := .tree rfl other
      have headTree : Succeeds finish (.call .ifBlock) _ _ := .tree rfl head
      have body := headTree.seq (.opt otherTree)
      exact ⟨_, _, .silent rfl (Fails.altSecond (fails_simple tests (.inl rfl))
        (.altFirst (.tree rfl body))),
        Node.builds_ifThenElse (Node.builds_ifBlock conditionBuilds statementsBuild)
          (Node.builds_elseBlock othersBuild)⟩
  | _, _, _, .loop repeats condition opens statements => by
      obtain ⟨conditionNode, conditionSucceeds, conditionBuilds⟩ := condition.succeeds
      obtain ⟨nodes, statementsSucceed, statementsBuild⟩ := statements.succeeds
      have body := (succeeds_terminal repeats).seq
        (conditionSucceeds.seq (succeeds_block opens statementsSucceed))
      exact ⟨_, _, .silent rfl (Fails.altSecond (fails_simple repeats (.inr rfl))
        (Fails.altSecond (fails_of_reads rfl repeats rfl) (.tree rfl body))),
        Node.builds_loop conditionBuilds statementsBuild⟩

theorem DerivesStatements.succeeds : ∀ {stream rest : List Lexeme} {last : Span}
    {statements : List (Statement Span)}, DerivesStatements stream rest last statements →
      ∃ nodes, Succeeds finish (.seq (.star (.call .statement)) (.sign .closeBrace)) stream
          ⟨rest, some last, nodes⟩ ∧
        Builds (Node.tokensAll nodes) (Node.statements nodes) statements
  | _, _, _, _, .close closes =>
      ⟨[], Fails.starThen (fails_of_reads rfl closes rfl) (succeeds_terminal closes),
        by rw [Node.statements]; exact Builds.ok _⟩
  | _, _, _, _, .cons first others => by
      obtain ⟨last, node, succeeds, builds⟩ := first.succeeds
      obtain ⟨nodes, laterSucceeds, laterBuilds⟩ := others.succeeds
      refine ⟨node :: nodes, succeeds.starThen laterSucceeds, ?_⟩
      rw [Node.statements, Node.tokensAll_cons]
      exact builds.bind laterBuilds.map

end

/-! ## Items -/

theorem Succeeds.ofStar {body : Form} {stream : List Lexeme} {reading : Reading}
    (repeated : Succeeds finish (.star body) stream reading) :
    Succeeds finish (.opt (.seq body (.star body))) stream reading := by
  obtain ⟨_, repeated⟩ := repeated
  cases repeated with
  | starStop last => exact ⟨_, .optNone (.seqFirstFails last)⟩
  | starStep first others => exact ⟨_, .optSome (.seq first others)⟩

theorem succeeds_parameter {name colon word : Lexeme} {stream : List Lexeme} {type : BaseType}
    (isName : name.token.reads .identifier = true)
    (separates : colon.token.reads (.sign .colon) = true)
    (isType : word.token.reads (.typeWord type) = true) :
    ∃ node, Succeeds finish (.call .parameter) (name :: colon :: word :: stream)
        ⟨dropComma stream, some (throughComma word.span stream), [node]⟩ ∧
      Builds node.tokens node.parameter ⟨Span.upTo name.span.start
        (some (throughComma word.span stream)), name.token.spelling, type⟩ := by
  obtain ⟨typeNode, typeSucceeds, typeBuilds⟩ := succeeds_type stream isType
  have body : Succeeds finish (form .parameter) _ _ := (succeeds_identifier isName).seq
    ((succeeds_terminal separates).seq typeSucceeds.throughComma)
  exact ⟨_, .tree rfl body, Node.builds_parameter builds_name typeBuilds⟩

/-- The grammar has a rule for parameters without the parenthesis behind them. -/
theorem DerivesParameters.succeeds {stream rest : List Lexeme} {last : Span}
    {parameters : List (Parameter Span)} (derives : DerivesParameters stream rest last parameters) :
    ∃ before closing nodes, closing.token.reads (.sign .closeParen) = true ∧
      last = closing.span ∧
      Succeeds finish (.star (.call .parameter)) stream ⟨closing :: rest, before, nodes⟩ ∧
      Builds (Node.tokensAll nodes) (nodes.mapM Node.parameter) parameters := by
  induction derives with
  | @close rest closing closes =>
      have absent : Fails finish (.call .parameter) (_ :: rest) := fails_of_reads rfl closes rfl
      obtain ⟨_, absent⟩ := absent
      exact ⟨none, _, [], closes, rfl, ⟨_, .starStop absent⟩, Builds.ok _⟩
  | @cons stream rest last name colon word type parameters isName separates isType _ induction =>
      obtain ⟨before, closing, nodes, closes, last_eq, ⟨_, succeeds⟩, builds⟩ := induction
      obtain ⟨node, ⟨_, head⟩, headBuilds⟩ := succeeds_parameter isName separates isType
      exact ⟨_, closing, node :: nodes, closes, last_eq, ⟨_, .starStep head succeeds⟩,
        headBuilds.mapM_cons builds⟩

theorem DerivesParameters.exists_cons {stream rest : List Lexeme} {last : Span}
    {parameters : List (Parameter Span)} (derives : DerivesParameters stream rest last parameters) :
    ∃ first tail, stream = first :: tail := by
  cases derives with
  | close | cons => exact ⟨_, _, rfl⟩

theorem DerivesPrototype.succeeds {stream rest : List Lexeme} {last : Span}
    {signature : Prototype Span} (derives : DerivesPrototype stream rest last signature) :
    ∃ node, Succeeds finish (.call .prototype) stream ⟨rest, some last, [node]⟩ ∧
      Builds node.tokens node.prototype signature := by
  cases derives with
  | @withoutResult stream rest last name opening parameters isName opens inside alone =>
      obtain ⟨first, tail, rfl⟩ := inside.exists_cons
      obtain ⟨before, closing, nodes, closes, rfl, succeeds, builds⟩ := inside.succeeds
      have parts : Succeeds finish (.call .parameters) _ _ := .tree rfl succeeds.ofStar
      have absent : Fails finish (.call .returnType) rest :=
        .call (.seqFirst (fails_terminal alone))
      have body := (succeeds_identifier isName).seq ((succeeds_terminal opens).seq
        (parts.seq ((succeeds_terminal closes).seq_opt absent)))
      exact ⟨_, .tree rfl body, Node.builds_prototype builds_name builds⟩
  | @withResult stream rest inner name opening arrow word type parameters isName opens inside
      separates isType =>
      obtain ⟨first, tail, rfl⟩ := inside.exists_cons
      obtain ⟨before, closing, nodes, closes, rfl, succeeds, builds⟩ := inside.succeeds
      obtain ⟨typeNode, typeSucceeds, typeBuilds⟩ := succeeds_type _ isType
      have parts : Succeeds finish (.call .parameters) _ _ := .tree rfl succeeds.ofStar
      have result : Succeeds finish (.call .returnType) _ _ :=
        .tree rfl ((succeeds_terminal separates).seq typeSucceeds)
      have body := (succeeds_identifier isName).seq ((succeeds_terminal opens).seq
        (parts.seq ((succeeds_terminal closes).seq (.opt result))))
      exact ⟨_, .tree rfl body, Node.builds_prototypeWithResult builds_name builds
        (Node.builds_returnType typeBuilds)⟩

theorem DerivesItem.succeeds {stream rest : List Lexeme} {item : Item Span}
    (derives : DerivesItem stream rest item) :
    ∃ last node, Succeeds finish (.call .item) stream ⟨rest, some last, [node]⟩ ∧
      Builds node.tokens node.item item := by
  cases derives with
  | declaration declares head ends =>
      obtain ⟨node, succeeds, builds⟩ := head.succeeds
      have body : Succeeds finish (form .declaration) _ _ :=
        (succeeds_terminal declares).seq (succeeds.seq (succeeds_terminal ends))
      exact ⟨_, _, .silent rfl (.altFirst (.tree rfl body)), Node.builds_declaration builds⟩
  | definition defines head opens statements =>
      obtain ⟨node, succeeds, builds⟩ := head.succeeds
      obtain ⟨nodes, statementsSucceed, statementsBuild⟩ := statements.succeeds
      have body : Succeeds finish (form .definition) _ _ := (succeeds_terminal defines).seq
        (succeeds.seq (succeeds_block opens statementsSucceed))
      exact ⟨_, _, .silent rfl (Fails.altSecond (fails_of_reads rfl defines rfl)
        (.tree rfl body)), Node.builds_definition builds statementsBuild⟩

theorem DerivesItems.succeeds {stream : List Lexeme} {items : List (Item Span)}
    (derives : DerivesItems stream items) :
    ∃ last nodes, Succeeds finish (form .program) stream ⟨[], last, nodes⟩ ∧
      Builds (Node.tokensAll nodes) (nodes.mapM Node.item) items := by
  induction derives with
  | stop =>
      have absent : Fails finish (.call .item) [] := fails_of_misses .item rfl fun _ _ => rfl
      obtain ⟨_, absent⟩ := absent
      exact ⟨none, [], ⟨_, .starStop absent⟩, Builds.ok _⟩
  | cons first others induction =>
      obtain ⟨inner, node, ⟨_, head⟩, headBuilds⟩ := first.succeeds
      obtain ⟨last, nodes, ⟨_, succeeds⟩, builds⟩ := induction
      exact ⟨_, node :: nodes, ⟨_, .starStep head succeeds⟩, headBuilds.mapM_cons builds⟩

end QubitLang.Language
