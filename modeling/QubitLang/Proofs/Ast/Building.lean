import QubitLang.Ast.OfNode

/-! What is built from a match tree of the right shape: a tree, unless the index of
some qubit literal has too many digits. -/

namespace QubitLang

variable {α β : Type}

/-! ## Results whose error is changed -/

section

variable {ε ε' : Type}

@[simp] theorem mapError_ok (change : ε → ε') (value : α) :
    (Except.ok value : Except ε α).mapError change = .ok value := rfl

@[simp] theorem mapError_error (change : ε → ε') (error : ε) :
    (Except.error error : Except ε α).mapError change = .error (change error) := rfl

end

/-! ## Tokens of match trees -/

mutual

def Node.tokens : Node → List (String × Text)
  | .tree _ _ children => Node.tokensAll children
  | .token rule _ text => [(rule, text)]

def Node.tokensAll : List Node → List (String × Text)
  | [] => []
  | node :: rest => node.tokens ++ Node.tokensAll rest

end

@[simp] theorem Node.tokensAll_nil : Node.tokensAll [] = [] := by
  simp [Node.tokensAll]

@[simp] theorem Node.tokensAll_cons (node : Node) (rest : List Node) :
    Node.tokensAll (node :: rest) = node.tokens ++ Node.tokensAll rest := by
  simp [Node.tokensAll]

@[simp] theorem Node.tokensAll_append (nodes others : List Node) :
    Node.tokensAll (nodes ++ others) = Node.tokensAll nodes ++ Node.tokensAll others := by
  induction nodes with
  | nil => simp
  | cons node nodes induction => simp [induction]

@[simp] theorem Node.tokens_tree (rule : String) (location : Location) (children : List Node) :
    (Node.tree rule location children).tokens = Node.tokensAll children := by
  simp [Node.tokens]

@[simp] theorem Node.tokens_token (rule : String) (ends : Ends) (text : Text) :
    (Node.token rule ends text).tokens = [(rule, text)] := by
  simp [Node.tokens]

def isOverlong : String × Text → Bool
  | (rule, text) => rule == "QUBIT" && decide (maxIndexDigits < text.length - 1)

/-! ## Results of building -/

/-- What is built from nodes with some tokens: the value, unless one of the tokens
is an overlong qubit literal. -/
def Builds (tokens : List (String × Text)) (result : Except BuildError α) (value : α) : Prop :=
  if tokens.any isOverlong then ∃ count, result = .error (.qubit (.tooManyDigits count))
  else result = .ok value

namespace Builds

variable {tokens more : List (String × Text)} {result : Except BuildError α} {value : α}

theorem ok (value : α) : Builds [] (.ok value) value := rfl

theorem of_ok {rule : String} (other : rule ≠ "QUBIT") (text : Text) (value : α) :
    Builds [(rule, text)] (.ok value) value := by
  simp [Builds, isOverlong, other]

theorem bind {next : α → Except BuildError β} {last : β} (first : Builds tokens result value)
    (second : Builds more (next value) last) : Builds (tokens ++ more) (result >>= next) last := by
  unfold Builds at first second ⊢
  rw [List.any_append]
  cases early : tokens.any isOverlong with
  | true =>
      rw [early, if_pos rfl] at first
      obtain ⟨count, rfl⟩ := first
      exact ⟨count, rfl⟩
  | false =>
      rw [early, if_neg Bool.false_ne_true] at first
      subst first
      exact second

theorem map {change : α → β} (first : Builds tokens result value) :
    Builds tokens (result >>= fun value => pure (change value)) (change value) := by
  unfold Builds at first ⊢
  cases overlong : tokens.any isOverlong with
  | true =>
      rw [overlong, if_pos rfl] at first
      obtain ⟨count, rfl⟩ := first
      exact ⟨count, rfl⟩
  | false =>
      rw [overlong, if_neg Bool.false_ne_true] at first
      subst first
      rfl

theorem eq_ok (builds : Builds tokens result value) (short : tokens.any isOverlong = false) :
    result = .ok value := by
  rwa [Builds, short, if_neg Bool.false_ne_true] at builds

theorem exists_error (builds : Builds tokens result value)
    (overlong : tokens.any isOverlong = true) :
    ∃ count, result = .error (.qubit (.tooManyDigits count)) := by
  rwa [Builds, overlong, if_pos rfl] at builds

theorem eq_ok_iff {found : α} (builds : Builds tokens result value) :
    result = .ok found ↔ tokens.any isOverlong = false ∧ value = found := by
  cases overlong : tokens.any isOverlong with
  | true =>
      obtain ⟨count, rfl⟩ := builds.exists_error overlong
      simp
  | false =>
      rw [builds.eq_ok overlong]
      simp

theorem eq_value {found : α} (builds : Builds tokens result value)
    (result_eq : result = .ok found) :
    found = value := by
  subst result_eq
  unfold Builds at builds
  split at builds
  · obtain ⟨_, ⟨⟩⟩ := builds
  · exact Except.ok.inj builds

end Builds

/-! ## Overlong indices -/

def Node.HasOverlongIndex (node : Node) : Prop :=
  ∃ text, ("QUBIT", text) ∈ node.tokens ∧ maxIndexDigits < (text.drop 1).length

theorem Node.any_isOverlong_iff (node : Node) :
    node.tokens.any isOverlong = true ↔ node.HasOverlongIndex := by
  simp only [List.any_eq_true, isOverlong, HasOverlongIndex, Bool.and_eq_true, beq_iff_eq,
    decide_eq_true_eq, List.length_drop, Prod.exists]
  constructor
  · rintro ⟨rule, text, member, rfl, long⟩
    exact ⟨text, member, long⟩
  · rintro ⟨text, member, long⟩
    exact ⟨"QUBIT", text, member, rfl, long⟩

theorem Builds.cases_node {node : Node} {result : Except BuildError α} {value : α}
    (builds : Builds node.tokens result value) :
    (node.HasOverlongIndex ∧ ∃ count, result = .error (.qubit (.tooManyDigits count))) ∨
      ¬ node.HasOverlongIndex ∧ result = .ok value := by
  cases overlong : node.tokens.any isOverlong with
  | true => exact .inl ⟨node.any_isOverlong_iff.mp overlong, builds.exists_error overlong⟩
  | false =>
      refine .inr ⟨fun long => ?_, builds.eq_ok overlong⟩
      rw [node.any_isOverlong_iff.mpr long] at overlong
      cases overlong

/-! ## Located nodes -/

namespace Node

def tokenAt (rule : String) (span : Span) (text : Text) : Node :=
  .token rule (.between span.start span.stop) text

def treeAt (rule : String) (span : Span) (children : List Node) : Node :=
  .tree rule (some (span.start, span.stop)) children

theorem spanBetween_offsets (span : Span) :
    spanBetween (span.start, span.stop) = .ok span := by
  have ordered := span.start_le_stop
  simp [spanBetween, Span.ofOffsets, ordered]

@[simp] theorem span_tokenAt (rule : String) (span : Span) (text : Text) :
    (tokenAt rule span text).span = .ok span :=
  spanBetween_offsets span

/-- The span of a tree, in the form in which builders go on with it. -/
@[simp] theorem span_tree (rule : String) (span : Span) (children : List Node) :
    (tree rule (some (span.start, span.stop)) children).span = pure span :=
  spanBetween_offsets span

@[simp] theorem tokens_tokenAt (rule : String) (span : Span) (text : Text) :
    (tokenAt rule span text).tokens = [(rule, text)] :=
  tokens_token _ _ _

@[simp] theorem tokens_treeAt (rule : String) (span : Span) (children : List Node) :
    (treeAt rule span children).tokens = tokensAll children :=
  tokens_tree _ _ _

/-! ## What is built from trees

Each shape of tree is built from what is built from the nodes inside. -/

variable {span : Span} {callee name type value condition block alternative : Node}
  {nodes : List Node} {text : Text} {base : BaseType} {expression : Expression Span}
  {expressions : List (Expression Span)} {body otherwise : List (Statement Span)}

theorem builds_callParts (node : Node) (head : Builds callee.tokens callee.name text)
    (inside : Builds (tokensAll nodes) (Node.expressions nodes) expressions) :
    Builds (callee.tokens ++ tokensAll nodes) (node.callParts (callee :: nodes))
      (text, expressions) := by
  rw [callParts]
  exact head.bind inside.map

theorem expression_call :
    (treeAt "call_expr" span (callee :: nodes)).expression = (do
      let (text, expressions) ←
        (treeAt "call_expr" span (callee :: nodes)).callParts (callee :: nodes)
      return .call span text expressions) := by
  simp [treeAt, Node.expression]

theorem builds_call (head : Builds callee.tokens callee.name text)
    (inside : Builds (tokensAll nodes) (Node.expressions nodes) expressions) :
    Builds (treeAt "call_expr" span (callee :: nodes)).tokens
      (treeAt "call_expr" span (callee :: nodes)).expression (.call span text expressions) := by
  rw [tokens_treeAt, tokensAll_cons, expression_call]
  exact (builds_callParts _ head inside).map

attribute [local simp] Node.statement

theorem statement_call :
    (treeAt "call_expr" span (callee :: nodes)).statement = (do
      let (text, expressions) ←
        (treeAt "call_expr" span (callee :: nodes)).callParts (callee :: nodes)
      return .call span text expressions) := by
  simp [treeAt]

theorem builds_callStatement (head : Builds callee.tokens callee.name text)
    (inside : Builds (tokensAll nodes) (Node.expressions nodes) expressions) :
    Builds (treeAt "call_expr" span (callee :: nodes)).tokens
      (treeAt "call_expr" span (callee :: nodes)).statement (.call span text expressions) := by
  rw [tokens_treeAt, tokensAll_cons, statement_call]
  exact (builds_callParts _ head inside).map

theorem statement_declare :
    (treeAt "variable_declaration" span [name, type, value]).statement = (do
      let text ← name.name
      let base ← type.baseType
      return .declare span text base (← value.expression)) := by
  simp [treeAt]

theorem builds_declare (first : Builds name.tokens name.name text)
    (second : Builds type.tokens type.baseType base)
    (third : Builds value.tokens value.expression expression) :
    Builds (treeAt "variable_declaration" span [name, type, value]).tokens
      (treeAt "variable_declaration" span [name, type, value]).statement
      (.declare span text base expression) := by
  rw [tokens_treeAt, tokensAll_cons, tokensAll_cons, tokensAll_cons, tokensAll_nil,
    List.append_nil, statement_declare]
  exact first.bind (second.bind third.map)

theorem statement_assign : (treeAt "assignment" span [name, value]).statement = (do
    let text ← name.name
    return .assign span text (← value.expression)) := by
  simp [treeAt]

theorem builds_assign (first : Builds name.tokens name.name text)
    (second : Builds value.tokens value.expression expression) :
    Builds (treeAt "assignment" span [name, value]).tokens
      (treeAt "assignment" span [name, value]).statement (.assign span text expression) := by
  rw [tokens_treeAt, tokensAll_cons, tokensAll_cons, tokensAll_nil, List.append_nil,
    statement_assign]
  exact first.bind second.map

theorem statement_giveBack : (treeAt "return_stmt" span [value]).statement = (do
    return .giveBack span (← value.expression)) := by
  simp [treeAt]

theorem builds_giveBack (inside : Builds value.tokens value.expression expression) :
    Builds (treeAt "return_stmt" span [value]).tokens
      (treeAt "return_stmt" span [value]).statement (.giveBack span expression) := by
  rw [tokens_treeAt, tokensAll_cons, tokensAll_nil, List.append_nil, statement_giveBack]
  exact inside.map

theorem builds_ifBlock (first : Builds condition.tokens condition.expression expression)
    (others : Builds (tokensAll nodes) (Node.statements nodes) body) :
    Builds (treeAt "if_block" span (condition :: nodes)).tokens
      (treeAt "if_block" span (condition :: nodes)).ifBlock (expression, body) := by
  rw [tokens_treeAt, tokensAll_cons, treeAt, Node.ifBlock]
  exact first.bind others.map

theorem builds_elseBlock (others : Builds (tokensAll nodes) (Node.statements nodes) body) :
    Builds (treeAt "else_block" span nodes).tokens (treeAt "else_block" span nodes).elseBlock
      body := by
  rw [tokens_treeAt, treeAt, Node.elseBlock]
  exact others

theorem statement_ifThen : (treeAt "if_stmt" span [block]).statement = (do
    let (condition, body) ← block.ifBlock
    return .ifThen span condition body) := by
  simp [treeAt]

theorem builds_ifThen (inside : Builds block.tokens block.ifBlock (expression, body)) :
    Builds (treeAt "if_stmt" span [block]).tokens (treeAt "if_stmt" span [block]).statement
      (.ifThen span expression body) := by
  rw [tokens_treeAt, tokensAll_cons, tokensAll_nil, statement_ifThen]
  exact inside.bind (.ok _)

theorem statement_ifThenElse : (treeAt "if_stmt" span [block, alternative]).statement = (do
    let (condition, body) ← block.ifBlock
    let otherwise ← alternative.elseBlock
    return .ifThenElse span condition body otherwise) := by
  simp [treeAt]

theorem builds_ifThenElse (inside : Builds block.tokens block.ifBlock (expression, body))
    (other : Builds alternative.tokens alternative.elseBlock otherwise) :
    Builds (treeAt "if_stmt" span [block, alternative]).tokens
      (treeAt "if_stmt" span [block, alternative]).statement
      (.ifThenElse span expression body otherwise) := by
  rw [tokens_treeAt, tokensAll_cons, tokensAll_cons, tokensAll_nil, List.append_nil,
    statement_ifThenElse]
  exact inside.bind other.map

theorem statement_loop : (treeAt "while_stmt" span (condition :: nodes)).statement = (do
    let condition ← condition.expression
    return .loop span condition (← Node.statements nodes)) := by
  simp [treeAt]

theorem builds_loop (first : Builds condition.tokens condition.expression expression)
    (others : Builds (tokensAll nodes) (Node.statements nodes) body) :
    Builds (treeAt "while_stmt" span (condition :: nodes)).tokens
      (treeAt "while_stmt" span (condition :: nodes)).statement (.loop span expression body) := by
  rw [tokens_treeAt, tokensAll_cons, statement_loop]
  exact first.bind others.map

/-! ## Items -/

variable {parameters signature result : Node} {heads : List (Parameter Span)}
  {head : Prototype Span}

theorem builds_parameter (first : Builds name.tokens name.name text)
    (second : Builds type.tokens type.baseType base) :
    Builds (treeAt "arg_decl" span [name, type]).tokens
      (treeAt "arg_decl" span [name, type]).parameter ⟨span, text, base⟩ := by
  rw [tokens_treeAt, tokensAll_cons, tokensAll_cons, tokensAll_nil, List.append_nil]
  rw [treeAt, Node.parameter, span_tree]
  exact first.bind second.map

theorem builds_returnType (inside : Builds type.tokens type.baseType base) :
    Builds (treeAt "return_decl" span [type]).tokens
      (treeAt "return_decl" span [type]).returnType base := by
  rw [tokens_treeAt, tokensAll_cons, tokensAll_nil, List.append_nil]
  exact inside

theorem builds_prototype {inner : Span} (first : Builds name.tokens name.name text)
    (second : Builds (tokensAll nodes) (nodes.mapM Node.parameter) heads) :
    Builds (treeAt "prototype" span [name, treeAt "arg_decls" inner nodes]).tokens
      (treeAt "prototype" span [name, treeAt "arg_decls" inner nodes]).prototype
      ⟨span, text, heads, none⟩ := by
  rw [tokens_treeAt, tokensAll_cons, tokensAll_cons, tokensAll_nil, List.append_nil,
    tokens_treeAt]
  rw [treeAt, Node.prototype, span_tree]
  exact first.bind second.map

theorem builds_prototypeWithResult {inner : Span} (first : Builds name.tokens name.name text)
    (second : Builds (tokensAll nodes) (nodes.mapM Node.parameter) heads)
    (third : Builds result.tokens result.returnType base) :
    Builds (treeAt "prototype" span [name, treeAt "arg_decls" inner nodes, result]).tokens
      (treeAt "prototype" span [name, treeAt "arg_decls" inner nodes, result]).prototype
      ⟨span, text, heads, some base⟩ := by
  rw [tokens_treeAt, tokensAll_cons, tokensAll_cons, tokensAll_cons, tokensAll_nil,
    List.append_nil, tokens_treeAt]
  rw [treeAt, Node.prototype, span_tree]
  exact first.bind (second.bind third.map)

theorem builds_declaration (inside : Builds signature.tokens signature.prototype head) :
    Builds (treeAt "declaration" span [signature]).tokens
      (treeAt "declaration" span [signature]).item (.declaration span head) := by
  rw [tokens_treeAt, tokensAll_cons, tokensAll_nil, List.append_nil]
  rw [treeAt, Node.item, span_tree]
  exact inside.map

theorem builds_definition (inside : Builds signature.tokens signature.prototype head)
    (others : Builds (tokensAll nodes) (Node.statements nodes) body) :
    Builds (treeAt "definition" span (signature :: nodes)).tokens
      (treeAt "definition" span (signature :: nodes)).item (.definition span head body) := by
  rw [tokens_treeAt, tokensAll_cons]
  rw [treeAt, Node.item, span_tree]
  exact inside.bind others.map

theorem builds_program {items : List (Item Span)} (rule : String) (span : Span)
    (inside : Builds (tokensAll nodes) (nodes.mapM Node.item) items) :
    Builds (treeAt rule span nodes).tokens (treeAt rule span nodes).program ⟨span, items⟩ := by
  rw [tokens_treeAt]
  rw [treeAt, Node.program, span_tree]
  exact inside.map

end Node

theorem Builds.mapM_cons {build : Node → Except BuildError α} {node : Node} {nodes : List Node}
    {value : α} {values : List α} (first : Builds node.tokens (build node) value)
    (others : Builds (Node.tokensAll nodes) (nodes.mapM build) values) :
    Builds (Node.tokensAll (node :: nodes)) ((node :: nodes).mapM build) (value :: values) := by
  rw [Node.tokensAll_cons, List.mapM_cons]
  exact first.bind others.map

end QubitLang
