import QubitLang.Ast.Basic
import QubitLang.Lexical.Qubit
import QubitLang.Node

namespace QubitLang

/-! From match trees to program trees. A match tree that the grammar produced
always has the right shape; a hand-made one is checked node by node, and the
first fault that is met is reported. -/

structure BrokenInvariant where
  description : String
  rule : Option String
  span : Option Span
  deriving DecidableEq, Repr

def BrokenInvariant.message (broken : BrokenInvariant) : String :=
  match broken.rule, broken.span with
  | none, _ => broken.description
  | some rule, none => s!"{broken.description} (rule {Text.quoted rule.toList})"
  | some rule, some span =>
    s!"{broken.description} (rule {Text.quoted rule.toList} at [{span.start}, {span.stop}))"

inductive BuildError where
  | brokenInvariant (broken : BrokenInvariant)
  | invalidSpan (invalid : InvalidSpan)
  | unlocatedTree
  | unlocatedToken (rule : String) (text : Text)
  | qubit (error : QubitError)
  deriving DecidableEq, Repr

def BuildError.message : BuildError → String
  | .brokenInvariant broken => broken.message
  | .invalidSpan invalid => invalid.message
  | .unlocatedTree => "location object Tree carries no offsets"
  | .unlocatedToken rule text =>
    s!"location object Token({Text.quoted rule.toList}, {text.quoted}) carries no offsets"
  | .qubit error => error.message

namespace Node

/-! ## Spans and faults -/

def spanBetween (location : Int × Int) : Except BuildError Span :=
  (Span.ofOffsets location.1 location.2).mapError .invalidSpan

def span (node : Node) : Except BuildError Span :=
  match node.location, node with
  | some location, _ => spanBetween location
  | none, .tree _ _ _ => .error .unlocatedTree
  | none, .token rule _ text => .error (.unlocatedToken rule text)

/-- Reports a fault at a node. If it has a start, its offsets must bound a
span. -/
def broken {α : Type} (description : String) (node : Node) : Except BuildError α :=
  if node.hasStart then do
    let span ← node.span
    .error (.brokenInvariant ⟨description, some node.rule, some span⟩)
  else .error (.brokenInvariant ⟨description, some node.rule, none⟩)

def childrenOf (rule : String) (node : Node) : Except BuildError (List Node) :=
  match node with
  | .tree actual _ children =>
    if actual = rule then .ok children else node.broken ("expected " ++ rule)
  | .token _ _ _ => node.broken ("expected " ++ rule)

def name (node : Node) : Except BuildError Text :=
  match node with
  | .token "IDENT" _ text => .ok text
  | _ => node.broken "expected IDENT token"

def baseType (node : Node) : Except BuildError BaseType :=
  match node with
  | .tree "number_type" _ _ => .ok .number
  | .tree "qubit_type" _ _ => .ok .qubit
  | .tree "bit_type" _ _ => .ok .bit
  | _ => node.broken "expected a type"

/-! ## Expressions -/

def literal (node : Node) (span : Span) (rule : String) (text : Text) :
    Except BuildError (Expression Span) :=
  match rule with
  | "IDENT" => .ok (.identifier span text)
  | "NUMBER" => .ok (.number span text)
  | "QUBIT" => ((qubitIndex text).mapError .qubit).map (.qubit span)
  | "TRUE" => .ok (.boolean span true)
  | "FALSE" => .ok (.boolean span false)
  | _ => node.broken "unexpected token in expression"

mutual

def expression (node : Node) : Except BuildError (Expression Span) :=
  match node with
  | .token rule ends text => do
    let span ← (Node.token rule ends text).span
    literal (.token rule ends text) span rule text
  | .tree rule location children =>
    if rule = "call_expr" then do
      let (callee, arguments) ← callParts (.tree rule location children) children
      let span ← (Node.tree rule location children).span
      return .call span callee arguments
    else (Node.tree rule location children).broken "expected an expression"

def callParts (node : Node) (children : List Node) :
    Except BuildError (Text × List (Expression Span)) :=
  match children with
  | [] => node.broken "call missing its callee"
  | callee :: arguments => do
    let callee ← callee.name
    let arguments ← expressions arguments
    return (callee, arguments)

def expressions (nodes : List Node) : Except BuildError (List (Expression Span)) :=
  match nodes with
  | [] => return []
  | node :: rest => do
    let first ← expression node
    return first :: (← expressions rest)

end

/-! ## Statements -/

mutual

def statement (node : Node) : Except BuildError (Statement Span) :=
  match node with
  | .token rule ends text =>
    (Node.token rule ends text).broken "expected a statement"
  | .tree rule location children =>
    let node := Node.tree rule location children
    match rule with
    | "variable_declaration" =>
      match children with
      | [name, type, initial] => do
        let span ← node.span
        let name ← name.name
        let type ← type.baseType
        return .declare span name type (← initial.expression)
      | _ => node.broken "variable declaration expects name, type and initializer"
    | "assignment" =>
      match children with
      | [target, value] => do
        let span ← node.span
        let target ← target.name
        return .assign span target (← value.expression)
      | _ => node.broken "assignment expects a target and a value"
    | "call_expr" => do
      let span ← node.span
      let (callee, arguments) ← node.callParts children
      return .call span callee arguments
    | "return_stmt" =>
      match children with
      | [value] => do
        let span ← node.span
        return .giveBack span (← value.expression)
      | _ => node.broken "return requires exactly one expression"
    | "if_stmt" =>
      match children with
      | [block] => do
        let (condition, body) ← ifBlock block
        return .ifThen (← node.span) condition body
      | [block, alternative] => do
        let (condition, body) ← ifBlock block
        let otherwise ← elseBlock alternative
        return .ifThenElse (← node.span) condition body otherwise
      | _ => node.broken "if statement expects an if block and optional else block"
    | "while_stmt" =>
      match children with
      | [] => node.broken "while statement missing its condition"
      | condition :: body => do
        let condition ← condition.expression
        let span ← node.span
        return .loop span condition (← statements body)
    | _ => node.broken "expected a statement"

def ifBlock (node : Node) :
    Except BuildError (Expression Span × List (Statement Span)) :=
  match node with
  | .tree "if_block" _ (condition :: body) => do
    let condition ← condition.expression
    return (condition, ← statements body)
  | .tree "if_block" location [] =>
    (Node.tree "if_block" location []).broken "if block missing its condition"
  | node => node.broken "expected if_block"

def elseBlock (node : Node) : Except BuildError (List (Statement Span)) :=
  match node with
  | .tree "else_block" _ body => statements body
  | node => node.broken "expected else_block"

def statements (nodes : List Node) : Except BuildError (List (Statement Span)) :=
  match nodes with
  | [] => return []
  | node :: rest => do
    let first ← statement node
    return first :: (← statements rest)

end

/-! ## Items -/

def parameter (node : Node) : Except BuildError (Parameter Span) := do
  match ← node.childrenOf "arg_decl" with
  | [name, type] =>
    let name ← name.name
    let span ← node.span
    return ⟨span, name, ← type.baseType⟩
  | _ => node.broken "arg_decl expects a name and a type"

def returnType (node : Node) : Except BuildError BaseType := do
  match ← node.childrenOf "return_decl" with
  | [type] => type.baseType
  | _ => node.broken "return_decl missing its type"

def prototype (node : Node) : Except BuildError (Prototype Span) := do
  match ← node.childrenOf "prototype" with
  | [name, parameters] =>
    let name ← name.name
    let parameters ← (← parameters.childrenOf "arg_decls").mapM parameter
    return ⟨← node.span, name, parameters, none⟩
  | [name, parameters, result] =>
    let name ← name.name
    let parameters ← (← parameters.childrenOf "arg_decls").mapM parameter
    let result ← result.returnType
    return ⟨← node.span, name, parameters, some result⟩
  | _ => node.broken "prototype expects name, arguments and optional return type"

def item (node : Node) : Except BuildError (Item Span) :=
  match node with
  | .tree "declaration" _ [signature] => do
    let span ← node.span
    return .declaration span (← signature.prototype)
  | .tree "declaration" _ _ =>
    node.broken "declaration must hold exactly a prototype"
  | .tree "definition" _ (signature :: body) => do
    let signature ← signature.prototype
    let body ← statements body
    return .definition (← node.span) signature body
  | .tree "definition" _ [] => node.broken "definition missing prototype"
  | _ => node.broken "expected declaration or definition"

/-- The program of a whole match tree, whatever the rule of its root. -/
def program (node : Node) : Except BuildError (Program Span) :=
  match node with
  | .tree _ _ children => do
    let items ← children.mapM item
    return ⟨← node.span, items⟩
  | .token _ _ _ => node.broken "expected a program"

end Node

end QubitLang
