import QubitLang.Proofs.Ast.Schema

/-! What a builder answers on any match tree: a value exactly if the tree conforms to the schema,
and otherwise the fault of one of its nodes. Here for names, types and expressions. -/

namespace QubitLang

/-! ## Answers of builders -/

variable {α β : Type}

/-- An error is the fault of a node: it has its rule and its span, or complains about its text. -/
inductive BuildError.IsFaultOf (node : Node) : BuildError → Prop where
  | broken {description : String} {span : Span} (span_eq : node.span = .ok span) :
      IsFaultOf node (.brokenInvariant ⟨description, some node.rule, some span⟩)
  | qubit {text : Text} {error : QubitError} (token : node.IsToken "QUBIT" text)
      (refused : qubitIndex text = .error error) : IsFaultOf node (.qubit error)

/-- A builder ends with a value exactly if something fits, and otherwise with the fault of one
of the nodes. -/
def Answers (nodes : List Node) (fits : Bool) (isFrom : α → Prop) : Except BuildError α → Prop
  | .ok value => fits = true ∧ isFrom value
  | .error error => fits = false ∧ ∃ node ∈ nodes, error.IsFaultOf node

namespace Answers

variable {nodes : List Node} {fits otherFits : Bool} {isFrom : α → Prop} {otherIsFrom : β → Prop}
  {result : Except BuildError α} {next : α → Except BuildError β}

theorem ok {value : α} (made : isFrom value) : Answers nodes true isFrom (.ok value) := ⟨rfl, made⟩

theorem bind (first : Answers nodes fits isFrom result)
    (second : ∀ value, isFrom value → Answers nodes otherFits otherIsFrom (next value)) :
    Answers nodes (fits && otherFits) otherIsFrom (result >>= next) := by
  cases result with
  | error error =>
      obtain ⟨refused, fault⟩ := first
      exact ⟨by rw [refused, Bool.false_and], fault⟩
  | ok value =>
      obtain ⟨accepted, made⟩ := first
      rw [accepted, Bool.true_and]
      exact second value made

theorem imp {other : α → Prop} (answers : Answers nodes fits isFrom result)
    (weaken : ∀ value, isFrom value → other value) : Answers nodes fits other result := by
  cases result with
  | error error => exact answers
  | ok value => exact ⟨answers.1, weaken value answers.2⟩

theorem last (first : Answers nodes fits isFrom result)
    (second : ∀ value, isFrom value → Answers nodes true otherIsFrom (next value)) :
    Answers nodes fits otherIsFrom (result >>= next) := by
  rw [← Bool.and_true fits]
  exact first.bind second

end Answers

/-! ## Nodes in their places -/

namespace Node

variable {nodes children rest : List Node} {node : Node} {rule : String} {location : Location}

theorem mem_nodes (node : Node) : node ∈ node.nodes := by
  cases node <;> simp [Node.nodes]

theorem nodesAll_subset (within : (Node.tree rule location children).nodes ⊆ nodes) :
    nodesAll children ⊆ nodes := by
  rw [Node.nodes] at within
  exact fun _ member => within (.tail _ member)

theorem subset_of_cons (within : nodesAll (node :: rest) ⊆ nodes) :
    node.nodes ⊆ nodes ∧ nodesAll rest ⊆ nodes := by
  rwa [nodesAll, List.append_subset] at within

theorem subset_of_mem : ∀ {list : List Node}, nodesAll list ⊆ nodes → ∀ child ∈ list,
    child.nodes ⊆ nodes
  | _ :: _, within, _, .head _ => (subset_of_cons within).1
  | _ :: _, within, child, .tail _ member => subset_of_mem (subset_of_cons within).2 child member

theorem conforms_tree_eq_false {construct : Construct}
    (misplaced : rule ∉ construct.trees.map Prod.fst) :
    (Node.tree rule location children).conforms construct = false := by
  have lookup_eq : construct.trees.lookup rule = none := by
    rw [List.lookup_eq_none_iff]
    intro entry member
    rw [bne_iff_ne]
    rintro rfl
    exact misplaced (List.mem_map_of_mem member)
  rw [conforms, lookup_eq]

theorem conforms_eq_false {construct : Construct} {node : Node} (noToken : construct.tokens = [])
    (noTree : ∀ rule ∈ construct.trees.map Prod.fst, ∀ children, ¬ node.IsTree rule children) :
    node.conforms construct = false := by
  cases node with
  | token rule ends text => simp [conforms, noToken]
  | tree rule location children =>
      exact conforms_tree_eq_false fun member => noTree rule member children ⟨location, rfl⟩

theorem length_of_conformAll : ∀ {children : List Node} {leading : List Construct}
    {optional : Option Construct}, conformAll leading optional none children = true →
    children.length = leading.length ∨
      optional.isSome ∧ children.length = leading.length + 1
  | [], leading, optional, fits => by
      rw [conformAll, List.isEmpty_iff] at fits
      exact .inl (by rw [fits]; rfl)
  | node :: rest, construct :: leading, optional, fits => by
      rw [conformAll, Bool.and_eq_true] at fits
      simpa using length_of_conformAll fits.2
  | node :: rest, [], some construct, fits => by
      rw [conformAll, Bool.and_eq_true] at fits
      obtain length_eq | ⟨no, _⟩ := length_of_conformAll fits.2
      · exact .inr ⟨rfl, by simpa using length_eq⟩
      · cases no
  | node :: rest, [], none, fits => by
      simp [conformAll] at fits

theorem length_eq_of_conformAll {leading : List Construct}
    (fits : conformAll leading none none children = true) : children.length = leading.length :=
  (length_of_conformAll fits).resolve_right fun ⟨no, _⟩ => Bool.false_ne_true no

theorem hasStart_of_location {place : Int × Int} (location_eq : node.location = some place) :
    node.hasStart = true := by
  cases node with
  | tree rule location children => exact congrArg Option.isSome location_eq
  | token rule ends text =>
      obtain ⟨start, start_eq, _⟩ := Option.bind_eq_some_iff.mp location_eq
      exact congrArg Option.isSome start_eq

theorem span_of_location {place : Int × Int} (location_eq : node.location = some place) :
    node.span = spanBetween place := by
  simp only [span, location_eq]

theorem IsLocated.exists_span (located : node.IsLocated) : ∃ span, node.span = .ok span ∧
    ∀ description, (node.broken description : Except BuildError α) =
      .error (.brokenInvariant ⟨description, some node.rule, some span⟩) := by
  obtain ⟨start, stop, location_eq, ordered⟩ := located
  obtain ⟨span, span_eq⟩ : ∃ span, spanBetween (start, stop) = .ok span := by
    rw [spanBetween, Span.ofOffsets, dif_pos ordered]
    exact ⟨_, rfl⟩
  rw [← span_of_location location_eq] at span_eq
  refine ⟨span, span_eq, fun description => ?_⟩
  rw [broken, if_pos (hasStart_of_location location_eq), span_eq]
  rfl

end Node

/-! ## Lists of nodes -/

namespace Node

theorem expressions_eq_mapM : ∀ list : List Node, expressions list = list.mapM expression
  | [] => by
      rw [expressions, List.mapM_nil]
  | node :: rest => by
      rw [expressions, List.mapM_cons, expressions_eq_mapM rest]

theorem statements_eq_mapM : ∀ list : List Node, statements list = list.mapM statement
  | [] => by
      rw [statements, List.mapM_nil]
  | node :: rest => by
      rw [statements, List.mapM_cons, statements_eq_mapM rest]

end Node

theorem answers_mapM {nodes : List Node} {construct : Construct}
    {build : Node → Except BuildError α} {isFrom : α → Node → Prop} : ∀ {list : List Node},
    (∀ node ∈ list, Answers nodes (node.conforms construct) (isFrom · node) (build node)) →
    Answers nodes (Node.conformAll [] none (some construct) list) (List.Forall₂ isFrom · list)
      (list.mapM build)
  | [], _ => by
      rw [List.mapM_nil]
      exact .ok .nil
  | node :: rest, each => by
      rw [List.mapM_cons, Node.conformAll]
      refine (each node List.mem_cons_self).bind fun value made => ?_
      refine (answers_mapM fun other member => each other (.tail _ member)).last
        fun values areFrom => .ok (.cons made areFrom)

/-! ## Names and types -/

section

variable {nodes : List Node} {node : Node} {isFrom : α → Prop}
  (located : ∀ node ∈ nodes, node.IsLocated)

include located

theorem answers_broken {fits : Bool} {description : String} (within : node.nodes ⊆ nodes)
    (refused : fits = false) : Answers nodes fits isFrom (node.broken description) := by
  have member := within node.mem_nodes
  obtain ⟨span, span_eq, broken_eq⟩ := (located node member).exists_span (α := α)
  rw [broken_eq]
  exact ⟨refused, node, member, .broken span_eq⟩

theorem answers_span {fits : Bool} {next : Span → Except BuildError α}
    (within : node.nodes ⊆ nodes)
    (second : ∀ span, node.span = .ok span → Answers nodes fits isFrom (next span)) :
    Answers nodes fits isFrom (node.span >>= next) := by
  obtain ⟨span, span_eq, _⟩ := (located node (within node.mem_nodes)).exists_span (α := α)
  rw [span_eq]
  exact second span span_eq

theorem answers_name (within : node.nodes ⊆ nodes) :
    Answers nodes (node.conforms .name) (node.IsToken "IDENT") node.name := by
  unfold Node.name
  split
  · rename_i ends text
    have fits : (Node.token "IDENT" ends text).conforms .name = true := rfl
    rw [fits]
    exact .ok ⟨ends, rfl⟩
  · rename_i other
    have refused : node.conforms .name = false := by
      cases node with
      | tree rule location children => rfl
      | token rule ends text =>
          have noName : rule ≠ "IDENT" := by
            rintro rfl
            exact other ends text rfl
          simp [Node.conforms, Construct.tokens, noName]
    exact answers_broken located within refused

theorem answers_baseType (within : node.nodes ⊆ nodes) :
    Answers nodes (node.conforms .type) node.IsType node.baseType := by
  unfold Node.baseType
  split
  · exact ⟨rfl, _, _, rfl⟩
  · exact ⟨rfl, _, _, rfl⟩
  · exact ⟨rfl, _, _, rfl⟩
  · rename_i noNumber noQubit noBit
    refine answers_broken located within (Node.conforms_eq_false rfl ?_)
    rintro rule member children ⟨location, rfl⟩
    simp only [Construct.trees, List.map_cons, List.map_nil, List.mem_cons, List.not_mem_nil,
      or_false] at member
    obtain rfl | rfl | rfl := member
    · exact noNumber location children rfl
    · exact noQubit location children rfl
    · exact noBit location children rfl

end

/-! ## Qubit literals -/

theorem isQubitText_eq_true_iff {text : Text} :
    isQubitText text = true ↔ ∃ index, qubitIndex text = .ok index := by
  unfold isQubitText qubitIndex
  split
  · rename_i digits
    have digits_eq : (digits.all Char.isDigit && decide (1 ≤ digits.length)) =
        Lexical.isDigits digits := by
      cases digits <;> simp [Lexical.isDigits]
    rw [digits_eq, Bool.and_eq_true, decide_eq_true_iff]
    by_cases areDigits : Lexical.isDigits digits = true
    · by_cases long : maxIndexDigits < digits.length
      · simp [areDigits, long]
      · simp [areDigits, long, Nat.not_lt.mp long]
    · simp [areDigits]
  · simp

section

variable {nodes : List Node} (located : ∀ node ∈ nodes, node.IsLocated)

include located

theorem answers_literal {rule : String} {ends : Ends} {text : Text} {span : Span}
    (within : (Node.token rule ends text).nodes ⊆ nodes)
    (span_eq : (Node.token rule ends text).span = .ok span) :
    Answers nodes ((Node.token rule ends text).conforms .expression)
      (Expression.IsFrom · (.token rule ends text))
      (Node.literal (.token rule ends text) span rule text) := by
  unfold Node.literal
  split
  · refine ⟨by simp [Node.conforms, Construct.tokens], ?_⟩
    simp only [Expression.IsFrom]
    exact ⟨span_eq, ends, rfl⟩
  · refine ⟨by simp [Node.conforms, Construct.tokens], ?_⟩
    simp only [Expression.IsFrom]
    exact ⟨span_eq, ends, rfl⟩
  · cases index_eq : qubitIndex text with
    | ok index =>
        have fits := isQubitText_eq_true_iff.mpr ⟨index, index_eq⟩
        refine ⟨by simp [Node.conforms, Construct.tokens, fits], ?_⟩
        simp only [Expression.IsFrom]
        exact ⟨span_eq, text, ⟨ends, rfl⟩, index_eq⟩
    | error error =>
        have refused : isQubitText text = false := by
          rw [← Bool.not_eq_true, isQubitText_eq_true_iff, index_eq]
          rintro ⟨_, equal⟩
          cases equal
        refine ⟨by simp [Node.conforms, refused], _, within (Node.mem_nodes _), ?_⟩
        exact .qubit ⟨ends, rfl⟩ index_eq
  · refine ⟨by simp [Node.conforms, Construct.tokens], ?_⟩
    simp only [Expression.IsFrom]
    exact ⟨span_eq, text, ends, rfl⟩
  · refine ⟨by simp [Node.conforms, Construct.tokens], ?_⟩
    simp only [Expression.IsFrom]
    exact ⟨span_eq, text, ends, rfl⟩
  · rename_i noName noNumber noQubit noTrue noFalse
    have refused : (Node.token rule ends text).conforms .expression = false := by
      have others : rule ≠ "IDENT" ∧ rule ≠ "NUMBER" ∧ rule ≠ "QUBIT" ∧ rule ≠ "TRUE" ∧
          rule ≠ "FALSE" := ⟨noName, noNumber, noQubit, noTrue, noFalse⟩
      simp [Node.conforms, Construct.tokens, others]
    exact answers_broken located within refused

/-! ## Expressions -/

def IsCallOf (children : List Node) (parts : Text × List (Expression Span)) : Prop :=
  ∃ first rest, children = first :: rest ∧ first.IsToken "IDENT" parts.1 ∧
    Expression.AreFrom parts.2 rest

omit located in
theorem answers_expressions {list : List Node} (each : ∀ node ∈ list,
    Answers nodes (node.conforms .expression) (Expression.IsFrom · node) node.expression) :
    Answers nodes (Node.conformAll [] none (some .expression) list) (Expression.AreFrom · list)
      (Node.expressions list) := by
  rw [Node.expressions_eq_mapM]
  exact (answers_mapM each).imp fun _ made => Expression.areFrom_iff.mpr made

theorem answers_callParts {location : Location} {rule : String} {children : List Node}
    (within : (Node.tree rule location children).nodes ⊆ nodes)
    (each : ∀ child ∈ children,
      Answers nodes (child.conforms .expression) (Expression.IsFrom · child) child.expression) :
    Answers nodes (Node.conformAll [.name] none (some .expression) children) (IsCallOf children)
      ((Node.tree rule location children).callParts children) := by
  cases children with
  | nil =>
      rw [Node.callParts]
      exact answers_broken located within rfl
  | cons callee arguments =>
      obtain ⟨calleeWithin, _⟩ := Node.subset_of_cons (Node.nodesAll_subset within)
      rw [Node.callParts, Node.conformAll]
      refine (answers_name located calleeWithin).bind fun name isName => ?_
      exact (answers_expressions fun child member => each child (.tail _ member)).last
        fun made areFrom => .ok ⟨callee, arguments, rfl, isName, areFrom⟩

/-- By recursion on the node, since the arguments of a call are expressions. -/
theorem answers_expression : ∀ {node : Node}, node.nodes ⊆ nodes →
    Answers nodes (node.conforms .expression) (Expression.IsFrom · node) node.expression
  | .token rule ends text, within => by
      rw [Node.expression]
      exact answers_span located within fun span span_eq => answers_literal located within span_eq
  | .tree rule location children, within => by
      by_cases isCall : rule = "call_expr"
      · subst isCall
        have each : ∀ child ∈ children, Answers nodes (child.conforms .expression)
            (Expression.IsFrom · child) child.expression := fun child member =>
          answers_expression (Node.subset_of_mem (Node.nodesAll_subset within) child member)
        rw [Node.expression, if_pos rfl]
        refine (answers_callParts located within each).last fun parts isCall => ?_
        refine answers_span located within fun span span_eq => .ok ?_
        obtain ⟨first, rest, rfl, isName, areFrom⟩ := isCall
        simp only [Expression.IsFrom]
        exact ⟨span_eq, first, rest, ⟨location, rfl⟩, isName, areFrom⟩
      · rw [Node.expression, if_neg isCall]
        refine answers_broken located within (Node.conforms_tree_eq_false ?_)
        simpa [Construct.trees] using isCall

end

end QubitLang
