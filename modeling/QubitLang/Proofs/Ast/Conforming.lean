import QubitLang.Proofs.Ast.Answers

/-! Building from any match tree. Statements, items and programs are built exactly from the trees
that conform to the schema, and otherwise the error is that of a node. -/

namespace QubitLang

section

variable {α : Type} {nodes : List Node} (located : ∀ node ∈ nodes, node.IsLocated)

include located

/-! ## Statements -/

def AnswersStatement (nodes : List Node) (node : Node) : Prop :=
  Answers nodes (node.conforms .statement) (Statement.IsFrom · node) node.statement

def AnswersStatements (nodes list : List Node) : Prop :=
  Answers nodes (Node.conformAll [] none (some .statement) list) (Statement.AreFrom · list)
    (Node.statements list)

def IsBlockOf (node : Node) (parts : Expression Span × List (Statement Span)) : Prop :=
  ∃ first rest, node.IsTree "if_block" (first :: rest) ∧ parts.1.IsFrom first ∧
    Statement.AreFrom parts.2 rest

def IsAlternativeOf (node : Node) (statements : List (Statement Span)) : Prop :=
  ∃ children, node.IsTree "else_block" children ∧ Statement.AreFrom statements children

structure AnswersParts (nodes : List Node) (node : Node) : Prop where
  statement : AnswersStatement nodes node
  ifBlock : Answers nodes (node.conforms .ifBlock) (IsBlockOf node) node.ifBlock
  elseBlock : Answers nodes (node.conforms .elseBlock) (IsAlternativeOf node) node.elseBlock

omit located in
theorem answers_statements {list : List Node} (each : ∀ node ∈ list, AnswersStatement nodes node) :
    AnswersStatements nodes list := by
  rw [AnswersStatements, Node.statements_eq_mapM]
  exact (answers_mapM each).imp fun _ made => Statement.areFrom_iff.mpr made

theorem answers_declare {location : Location} {children : List Node}
    (within : (Node.tree "variable_declaration" location children).nodes ⊆ nodes) :
    AnswersStatement nodes (.tree "variable_declaration" location children) := by
  unfold AnswersStatement
  by_cases shape : ∃ first second third, children = [first, second, third]
  · obtain ⟨first, second, third, rfl⟩ := shape
    obtain ⟨firstWithin, inside⟩ := Node.subset_of_cons (Node.nodesAll_subset within)
    obtain ⟨secondWithin, inside⟩ := Node.subset_of_cons inside
    obtain ⟨thirdWithin, _⟩ := Node.subset_of_cons inside
    rw [Node.statement]
    refine answers_span located within fun span span_eq => ?_
    refine (answers_name located firstWithin).bind fun name isName => ?_
    refine (answers_baseType located secondWithin).bind fun type isType => ?_
    refine (answers_expression located thirdWithin).bind fun initial made => .ok ?_
    simp only [Statement.IsFrom]
    exact ⟨span_eq, first, second, third, ⟨location, rfl⟩, isName, isType, made⟩
  · rw [Node.statement]
    · refine answers_broken located within (eq_false_of_ne_true fun fits => shape ?_)
      exact List.length_eq_three.mp (Node.length_eq_of_conformAll fits)
    · exact fun first second third equal => shape ⟨first, second, third, equal⟩

theorem answers_assign {location : Location} {children : List Node}
    (within : (Node.tree "assignment" location children).nodes ⊆ nodes) :
    AnswersStatement nodes (.tree "assignment" location children) := by
  unfold AnswersStatement
  by_cases shape : ∃ first second, children = [first, second]
  · obtain ⟨first, second, rfl⟩ := shape
    obtain ⟨firstWithin, inside⟩ := Node.subset_of_cons (Node.nodesAll_subset within)
    obtain ⟨secondWithin, _⟩ := Node.subset_of_cons inside
    rw [Node.statement]
    refine answers_span located within fun span span_eq => ?_
    refine (answers_name located firstWithin).bind fun name isName => ?_
    refine (answers_expression located secondWithin).bind fun value made => .ok ?_
    simp only [Statement.IsFrom]
    exact ⟨span_eq, first, second, ⟨location, rfl⟩, isName, made⟩
  · rw [Node.statement]
    · refine answers_broken located within (eq_false_of_ne_true fun fits => shape ?_)
      exact List.length_eq_two.mp (Node.length_eq_of_conformAll fits)
    · exact fun first second equal => shape ⟨first, second, equal⟩

theorem answers_callStatement {location : Location} {children : List Node}
    (within : (Node.tree "call_expr" location children).nodes ⊆ nodes) :
    AnswersStatement nodes (.tree "call_expr" location children) := by
  unfold AnswersStatement
  have each : ∀ child ∈ children, Answers nodes (child.conforms .expression)
      (Expression.IsFrom · child) child.expression := fun child member =>
    answers_expression located (Node.subset_of_mem (Node.nodesAll_subset within) child member)
  rw [Node.statement]
  refine answers_span located within fun span span_eq => ?_
  refine (answers_callParts located within each).last fun parts isCall => .ok ?_
  obtain ⟨first, rest, rfl, isName, areFrom⟩ := isCall
  simp only [Statement.IsFrom]
  exact ⟨span_eq, first, rest, ⟨location, rfl⟩, isName, areFrom⟩

theorem answers_giveBack {location : Location} {children : List Node}
    (within : (Node.tree "return_stmt" location children).nodes ⊆ nodes) :
    AnswersStatement nodes (.tree "return_stmt" location children) := by
  unfold AnswersStatement
  by_cases shape : ∃ inner, children = [inner]
  · obtain ⟨inner, rfl⟩ := shape
    obtain ⟨innerWithin, _⟩ := Node.subset_of_cons (Node.nodesAll_subset within)
    rw [Node.statement]
    refine answers_span located within fun span span_eq => ?_
    refine (answers_expression located innerWithin).bind fun value made => .ok ?_
    simp only [Statement.IsFrom]
    exact ⟨span_eq, inner, ⟨location, rfl⟩, made⟩
  · rw [Node.statement]
    · refine answers_broken located within (eq_false_of_ne_true fun fits => shape ?_)
      exact List.length_eq_one_iff.mp (Node.length_eq_of_conformAll fits)
    · exact fun inner equal => shape ⟨inner, equal⟩

theorem answers_loop {location : Location} {children : List Node}
    (within : (Node.tree "while_stmt" location children).nodes ⊆ nodes)
    (body : AnswersStatements nodes children.tail) :
    AnswersStatement nodes (.tree "while_stmt" location children) := by
  unfold AnswersStatement
  cases children with
  | nil =>
      rw [Node.statement]
      exact answers_broken located within rfl
  | cons condition rest =>
      obtain ⟨conditionWithin, _⟩ := Node.subset_of_cons (Node.nodesAll_subset within)
      rw [Node.statement]
      refine (answers_expression located conditionWithin).bind fun value made => ?_
      refine answers_span located within fun span span_eq => ?_
      refine body.last fun statements areFrom => .ok ?_
      simp only [Statement.IsFrom]
      exact ⟨span_eq, condition, rest, ⟨location, rfl⟩, made, areFrom⟩

theorem answers_if {location : Location} {children : List Node}
    (within : (Node.tree "if_stmt" location children).nodes ⊆ nodes)
    (inner : ∀ child ∈ children, AnswersParts nodes child) :
    AnswersStatement nodes (.tree "if_stmt" location children) := by
  unfold AnswersStatement
  by_cases single : ∃ block, children = [block]
  · obtain ⟨block, rfl⟩ := single
    rw [Node.statement]
    refine (inner block (by simp)).ifBlock.bind fun parts isBlock => ?_
    refine answers_span located within fun span span_eq => .ok ?_
    obtain ⟨first, rest, isTree, isCondition, areFrom⟩ := isBlock
    simp only [Statement.IsFrom]
    exact ⟨span_eq, block, first, rest, ⟨location, rfl⟩, isTree, isCondition, areFrom⟩
  by_cases double : ∃ block alternative, children = [block, alternative]
  · obtain ⟨block, alternative, rfl⟩ := double
    rw [Node.statement]
    refine (inner block (by simp)).ifBlock.bind fun parts isBlock => ?_
    refine (inner alternative (by simp)).elseBlock.bind fun otherwise isAlternative => ?_
    refine answers_span located within fun span span_eq => .ok ?_
    obtain ⟨first, rest, isTree, isCondition, areFrom⟩ := isBlock
    obtain ⟨others, isOther, othersFrom⟩ := isAlternative
    simp only [Statement.IsFrom]
    exact ⟨span_eq, block, first, rest, alternative, others, ⟨location, rfl⟩, isTree, isCondition,
      areFrom, isOther, othersFrom⟩
  · rw [Node.statement]
    · refine answers_broken located within (eq_false_of_ne_true fun fits => ?_)
      obtain length_eq | ⟨_, length_eq⟩ := Node.length_of_conformAll fits
      · exact single (List.length_eq_one_iff.mp length_eq)
      · exact double (List.length_eq_two.mp length_eq)
    · exact fun block equal => single ⟨block, equal⟩
    · exact fun block alternative equal => double ⟨block, alternative, equal⟩

theorem answers_ifBlock {rule : String} {location : Location} {children : List Node}
    (within : (Node.tree rule location children).nodes ⊆ nodes)
    (body : AnswersStatements nodes children.tail) :
    Answers nodes ((Node.tree rule location children).conforms .ifBlock)
      (IsBlockOf (.tree rule location children)) (Node.tree rule location children).ifBlock := by
  by_cases isBlock : rule = "if_block"
  · subst isBlock
    cases children with
    | nil =>
        rw [Node.ifBlock]
        exact answers_broken located within rfl
    | cons condition rest =>
        obtain ⟨conditionWithin, _⟩ := Node.subset_of_cons (Node.nodesAll_subset within)
        rw [Node.ifBlock]
        refine (answers_expression located conditionWithin).bind fun value made => ?_
        exact body.last fun statements areFrom => .ok
          ⟨condition, rest, ⟨location, rfl⟩, made, areFrom⟩
  · rw [Node.ifBlock]
    · refine answers_broken located within (Node.conforms_tree_eq_false ?_)
      simpa [Construct.trees] using isBlock
    · rintro _ _ _ ⟨⟩
      exact isBlock rfl
    · rintro _ ⟨⟩
      exact isBlock rfl

theorem answers_elseBlock {rule : String} {location : Location} {children : List Node}
    (within : (Node.tree rule location children).nodes ⊆ nodes)
    (body : AnswersStatements nodes children) :
    Answers nodes ((Node.tree rule location children).conforms .elseBlock)
      (IsAlternativeOf (.tree rule location children))
      (Node.tree rule location children).elseBlock := by
  by_cases isBlock : rule = "else_block"
  · subst isBlock
    rw [Node.elseBlock]
    exact body.imp fun statements areFrom => ⟨children, ⟨location, rfl⟩, areFrom⟩
  · rw [Node.elseBlock]
    · refine answers_broken located within (Node.conforms_tree_eq_false ?_)
      simpa [Construct.trees] using isBlock
    · rintro _ _ ⟨⟩
      exact isBlock rfl

theorem answers_misplaced {rule : String} {location : Location} {children : List Node}
    (within : (Node.tree rule location children).nodes ⊆ nodes)
    (misplaced : rule ∉ Construct.statement.trees.map Prod.fst) :
    AnswersStatement nodes (.tree rule location children) := by
  unfold AnswersStatement
  have others : rule ≠ "variable_declaration" ∧ rule ≠ "assignment" ∧ rule ≠ "call_expr" ∧
      rule ≠ "return_stmt" ∧ rule ≠ "if_stmt" ∧ rule ≠ "while_stmt" := by
    simpa [Construct.trees] using misplaced
  rw [Node.statement]
  · exact answers_broken located within (Node.conforms_tree_eq_false misplaced)
  all_goals simp [others]

/-- By recursion on the node. A tree has statements in places that differ from rule to rule, so
all nodes inside it are taken to be known. -/
theorem answers_parts : ∀ {node : Node}, node.nodes ⊆ nodes → AnswersParts nodes node
  | .token rule ends text, within =>
      { statement := by
          unfold AnswersStatement
          rw [Node.statement]
          exact answers_broken located within rfl
        ifBlock := by
          rw [Node.ifBlock]
          · exact answers_broken located within rfl
          · rintro _ _ _ ⟨⟩
          · rintro _ ⟨⟩
        elseBlock := by
          rw [Node.elseBlock]
          · exact answers_broken located within rfl
          · rintro _ _ ⟨⟩ }
  | .tree rule location children, within => by
      have inner : ∀ child ∈ children, AnswersParts nodes child := fun child member =>
        answers_parts (Node.subset_of_mem (Node.nodesAll_subset within) child member)
      have body : AnswersStatements nodes children :=
        answers_statements fun child member => (inner child member).statement
      have tail : AnswersStatements nodes children.tail :=
        answers_statements fun child member => (inner child (List.mem_of_mem_tail member)).statement
      refine ⟨?_, answers_ifBlock located within tail, answers_elseBlock located within body⟩
      by_cases placed : rule ∈ Construct.statement.trees.map Prod.fst
      · simp only [Construct.trees, List.map_cons, List.map_nil, List.mem_cons, List.not_mem_nil,
          or_false] at placed
        obtain rfl | rfl | rfl | rfl | rfl | rfl := placed
        · exact answers_declare located within
        · exact answers_assign located within
        · exact answers_callStatement located within
        · exact answers_giveBack located within
        · exact answers_if located within inner
        · exact answers_loop located within tail
      · exact answers_misplaced located within placed

/-! ## Items -/

theorem answers_childrenOf {node : Node} {rule : String} {construct : Construct}
    {isFrom : α → Prop} {next : List Node → Except BuildError α} (within : node.nodes ⊆ nodes)
    (tokens_eq : construct.tokens = []) (rules_eq : construct.trees.map Prod.fst = [rule])
    (second : ∀ location children, node = .tree rule location children →
      Answers nodes (node.conforms construct) isFrom (next children)) :
    Answers nodes (node.conforms construct) isFrom (node.childrenOf rule >>= next) := by
  by_cases placed : ∃ location children, node = .tree rule location children
  · obtain ⟨location, children, rfl⟩ := placed
    rw [Node.childrenOf, if_pos rfl]
    exact second location children rfl
  · have refused : node.conforms construct = false := by
      refine Node.conforms_eq_false tokens_eq ?_
      intro other member children ⟨location, equal⟩
      rw [rules_eq, List.mem_singleton] at member
      exact placed ⟨location, children, member ▸ equal⟩
    have broken_eq : node.childrenOf rule = node.broken ("expected " ++ rule) := by
      cases node with
      | token other location text => rfl
      | tree other location children =>
          have other_ne : other ≠ rule := by
            rintro rfl
            exact placed ⟨location, children, rfl⟩
          rw [Node.childrenOf, if_neg other_ne]
    have broken :
        Answers nodes (node.conforms construct) (fun _ => False) (node.childrenOf rule) := by
      rw [broken_eq]
      exact answers_broken located within refused
    exact broken.last fun _ impossible => impossible.elim

theorem answers_parameter {node : Node} (within : node.nodes ⊆ nodes) :
    Answers nodes (node.conforms .parameter) (Parameter.IsFrom · node) node.parameter := by
  refine answers_childrenOf located within rfl rfl ?_
  rintro location children rfl
  by_cases shape : ∃ first second, children = [first, second]
  · obtain ⟨first, second, rfl⟩ := shape
    obtain ⟨firstWithin, inside⟩ := Node.subset_of_cons (Node.nodesAll_subset within)
    obtain ⟨secondWithin, _⟩ := Node.subset_of_cons inside
    refine (answers_name located firstWithin).bind fun name isName => ?_
    refine answers_span located within fun span span_eq => ?_
    refine (answers_baseType located secondWithin).bind fun type isType => .ok ?_
    exact ⟨span_eq, first, second, ⟨location, rfl⟩, isName, isType⟩
  · split
    · exact absurd ⟨_, _, rfl⟩ shape
    · refine answers_broken located within (eq_false_of_ne_true fun fits => shape ?_)
      exact List.length_eq_two.mp (Node.length_eq_of_conformAll fits)

def IsReturnOf (node : Node) (type : BaseType) : Prop :=
  ∃ inner, node.IsTree "return_decl" [inner] ∧ inner.IsType type

theorem answers_returnType {node : Node} (within : node.nodes ⊆ nodes) :
    Answers nodes (node.conforms .returnType) (IsReturnOf node) node.returnType := by
  refine answers_childrenOf located within rfl rfl ?_
  rintro location children rfl
  by_cases shape : ∃ inner, children = [inner]
  · obtain ⟨inner, rfl⟩ := shape
    obtain ⟨innerWithin, _⟩ := Node.subset_of_cons (Node.nodesAll_subset within)
    change Answers nodes (inner.conforms .type && true) _ inner.baseType
    rw [Bool.and_true]
    exact (answers_baseType located innerWithin).imp fun type isType =>
      ⟨inner, ⟨location, rfl⟩, isType⟩
  · split
    · exact absurd ⟨_, rfl⟩ shape
    · refine answers_broken located within (eq_false_of_ne_true fun fits => shape ?_)
      exact List.length_eq_one_iff.mp (Node.length_eq_of_conformAll fits)

def AreParametersOf (node : Node) (parameters : List (Parameter Span)) : Prop :=
  ∃ children, node.IsTree "arg_decls" children ∧
    List.Forall₂ Parameter.IsFrom parameters children

theorem answers_parameters {node : Node} (within : node.nodes ⊆ nodes) :
    Answers nodes (node.conforms .parameters) (AreParametersOf node)
      (node.childrenOf "arg_decls" >>= fun children => children.mapM Node.parameter) := by
  refine answers_childrenOf located within rfl rfl ?_
  rintro location children rfl
  have each : ∀ child ∈ children, Answers nodes (child.conforms .parameter)
      (Parameter.IsFrom · child) child.parameter := fun child member =>
    answers_parameter located (Node.subset_of_mem (Node.nodesAll_subset within) child member)
  exact (answers_mapM each).imp fun parameters areFrom => ⟨children, ⟨location, rfl⟩, areFrom⟩

theorem answers_prototype {node : Node} (within : node.nodes ⊆ nodes) :
    Answers nodes (node.conforms .prototype) (Prototype.IsFrom · node) node.prototype := by
  refine answers_childrenOf located within rfl rfl ?_
  rintro location children rfl
  split
  · rename_i first second
    obtain ⟨firstWithin, inside⟩ := Node.subset_of_cons (Node.nodesAll_subset within)
    obtain ⟨secondWithin, _⟩ := Node.subset_of_cons inside
    refine (answers_name located firstWithin).bind fun name isName => ?_
    rw [← bind_assoc]
    refine (answers_parameters located secondWithin).bind fun parameters areFrom => ?_
    refine answers_span located within fun span span_eq => .ok ?_
    obtain ⟨list, isList, areFrom⟩ := areFrom
    exact ⟨span_eq, first, second, [], list, ⟨location, rfl⟩, isName, isList, areFrom, rfl⟩
  · rename_i first second third
    obtain ⟨firstWithin, inside⟩ := Node.subset_of_cons (Node.nodesAll_subset within)
    obtain ⟨secondWithin, inside⟩ := Node.subset_of_cons inside
    obtain ⟨thirdWithin, _⟩ := Node.subset_of_cons inside
    refine (answers_name located firstWithin).bind fun name isName => ?_
    rw [← bind_assoc]
    refine (answers_parameters located secondWithin).bind fun parameters areFrom => ?_
    refine (answers_returnType located thirdWithin).bind fun type isReturn => ?_
    refine answers_span located within fun span span_eq => .ok ?_
    obtain ⟨list, isList, areFrom⟩ := areFrom
    obtain ⟨inner, isTree, isType⟩ := isReturn
    exact ⟨span_eq, first, second, [third], list, ⟨location, rfl⟩, isName, isList, areFrom,
      third, inner, rfl, isTree, isType⟩
  · rename_i noPair noTriple
    refine answers_broken located within (eq_false_of_ne_true fun fits => ?_)
    obtain length_eq | ⟨_, length_eq⟩ := Node.length_of_conformAll fits
    · obtain ⟨first, second, equal⟩ := List.length_eq_two.mp length_eq
      exact noPair first second equal
    · obtain ⟨first, second, third, equal⟩ := List.length_eq_three.mp length_eq
      exact noTriple first second third equal

theorem answers_item {node : Node} (within : node.nodes ⊆ nodes) :
    Answers nodes (node.conforms .item) (Item.IsFrom · node) node.item := by
  unfold Node.item
  split
  · rename_i location signature
    obtain ⟨signatureWithin, _⟩ := Node.subset_of_cons (Node.nodesAll_subset within)
    refine answers_span located within fun span span_eq => ?_
    refine (answers_prototype located signatureWithin).bind fun prototype made => .ok ?_
    exact ⟨span_eq, signature, ⟨location, rfl⟩, made⟩
  · rename_i location children noSingle
    refine answers_broken located within (eq_false_of_ne_true fun fits => ?_)
    obtain ⟨signature, rfl⟩ := List.length_eq_one_iff.mp (Node.length_eq_of_conformAll fits)
    exact noSingle signature rfl
  · rename_i location signature body
    obtain ⟨signatureWithin, inside⟩ := Node.subset_of_cons (Node.nodesAll_subset within)
    have statements : AnswersStatements nodes body := answers_statements fun child member =>
      (answers_parts located (Node.subset_of_mem inside child member)).statement
    refine (answers_prototype located signatureWithin).bind fun prototype made => ?_
    refine statements.last fun body areFrom => ?_
    refine answers_span located within fun span span_eq => .ok ?_
    exact ⟨span_eq, signature, _, ⟨location, rfl⟩, made, areFrom⟩
  · exact answers_broken located within rfl
  · rename_i noSingle noDeclaration noFull noEmpty
    refine answers_broken located within (Node.conforms_eq_false rfl ?_)
    rintro rule member children ⟨location, rfl⟩
    simp only [Construct.trees, List.map_cons, List.map_nil, List.mem_cons, List.not_mem_nil,
      or_false] at member
    obtain rfl | rfl := member
    · exact noDeclaration location children rfl
    · cases children with
      | nil => exact noEmpty location rfl
      | cons signature body => exact noFull location signature body rfl

theorem answers_program {rule : String} {location : Location} {children : List Node}
    (within : (Node.tree rule location children).nodes ⊆ nodes) :
    Answers nodes (Node.tree rule location children).conformsProgram
      (Program.IsFrom · (.tree rule location children))
      (Node.tree rule location children).program := by
  have each : ∀ child ∈ children, Answers nodes (child.conforms .item) (Item.IsFrom · child)
      child.item := fun child member =>
    answers_item located (Node.subset_of_mem (Node.nodesAll_subset within) child member)
  refine (answers_mapM each).last fun items areFrom => ?_
  refine answers_span located within fun span span_eq => .ok ?_
  exact ⟨span_eq, rule, children, ⟨location, rfl⟩, areFrom⟩

end

/-! ## Hand-made trees -/

namespace Node

/-- An expression, a statement and a program are built from a tree exactly if it conforms to the
schema. All their spans are then those of the nodes they are made from, and otherwise the fault
is that of a node. A program is built from a tree, whatever the name of its rule. -/
theorem builds_conforming {root : Node} (wellFormed : root.IsWellFormed) :
    Answers root.nodes (root.conforms .expression) (Expression.IsFrom · root) root.expression ∧
      Answers root.nodes (root.conforms .statement) (Statement.IsFrom · root) root.statement ∧
        ∀ rule location children, root = .tree rule location children →
          Answers root.nodes root.conformsProgram (Program.IsFrom · root) root.program := by
  refine ⟨answers_expression wellFormed.located (List.Subset.refl _),
    (answers_parts wellFormed.located (List.Subset.refl _)).statement, ?_⟩
  rintro rule location children rfl
  exact answers_program wellFormed.located (List.Subset.refl _)

def operationTree : Node :=
  .tree "start" (some (0, 19)) [
    .tree "definition" (some (0, 19)) [
      .tree "prototype" (some (4, 7)) [
        .token "IDENT" (.between 4 5) ['f'],
        .tree "arg_decls" (some (6, 6)) []],
      .tree "return_stmt" (some (9, 18)) [
        .token "QUBIT" (.between 16 18) ['%', '3']]]]

theorem operationTree_builds : operationTree.IsWellFormed ∧
    Answers operationTree.nodes true (Program.IsFrom · operationTree) operationTree.program ∧
      Answers operationTree.nodes false (Statement.IsFrom · operationTree)
        operationTree.statement := by
  have wellFormed : operationTree.IsWellFormed :=
    { located := by
        simp [operationTree, nodes, nodesAll, IsLocated, location]
      tokens := by
        rintro rule ends text member
        simp only [operationTree, nodes, nodesAll, List.append_nil, List.nil_append,
          List.cons_append, List.mem_cons, List.not_mem_nil, or_false, reduceCtorEq, false_or,
          token.injEq] at member
        obtain ⟨rfl, _⟩ | ⟨rfl, _⟩ := member <;> decide }
  obtain ⟨_, statement, program⟩ := builds_conforming wellFormed
  exact ⟨wellFormed, program _ _ _ rfl, statement⟩

end Node

end QubitLang
