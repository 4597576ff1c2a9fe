import Mathlib.Data.List.Forall2
import QubitLang.Ast.OfNode
import QubitLang.Language.Grammar

/-! The schema of match trees: which nodes stand for which constructs, and what the tree of a
construct is made from. The spans of the tree are those of the nodes. -/

namespace QubitLang

/-! ## Nodes of a tree -/

namespace Node

mutual

def nodes : Node → List Node
  | .tree rule location children => .tree rule location children :: nodesAll children
  | .token rule ends text => [.token rule ends text]

def nodesAll : List Node → List Node
  | [] => []
  | node :: rest => node.nodes ++ nodesAll rest

end

def IsLocated (node : Node) : Prop :=
  ∃ start stop, node.location = some (start, stop) ∧ 0 ≤ start ∧ start ≤ stop

def treeRules : List String :=
  Language.Nonterminal.all.filterMap fun name =>
    match (Language.definition name).1 with
    | .tree rule => some rule
    | _ => none

/-- A tree that may be made by hand: each of its nodes has its place, and none of its tokens is
named as a tree. -/
structure IsWellFormed (root : Node) : Prop where
  located : ∀ node ∈ root.nodes, node.IsLocated
  tokens : ∀ rule ends text, .token rule ends text ∈ root.nodes → rule ∉ treeRules

end Node

/-! ## The schema -/

inductive Construct where
  | name
  | type
  | expression
  | statement
  | ifBlock
  | elseBlock
  | parameter
  | parameters
  | returnType
  | prototype
  | item
  deriving DecidableEq, Repr

inductive Content where
  | anything
  /-- Some constructs in turn, then perhaps one more, then any number of another one. -/
  | parts (leading : List Construct) (optional repeated : Option Construct)
  deriving DecidableEq, Repr

def isQubitText : Text → Bool
  | '%' :: digits =>
    digits.all Char.isDigit && decide (1 ≤ digits.length) && decide (digits.length ≤ maxIndexDigits)
  | _ => false

namespace Construct

def tokens : Construct → List String
  | .name => ["IDENT"]
  | .expression => ["IDENT", "NUMBER", "QUBIT", "TRUE", "FALSE"]
  | _ => []

def trees : Construct → List (String × Content)
  | .name => []
  | .type => [("number_type", .anything), ("qubit_type", .anything), ("bit_type", .anything)]
  | .expression => [("call_expr", .parts [.name] none (some .expression))]
  | .statement =>
    [("variable_declaration", .parts [.name, .type, .expression] none none),
      ("assignment", .parts [.name, .expression] none none),
      ("call_expr", .parts [.name] none (some .expression)),
      ("return_stmt", .parts [.expression] none none),
      ("if_stmt", .parts [.ifBlock] (some .elseBlock) none),
      ("while_stmt", .parts [.expression] none (some .statement))]
  | .ifBlock => [("if_block", .parts [.expression] none (some .statement))]
  | .elseBlock => [("else_block", .parts [] none (some .statement))]
  | .parameter => [("arg_decl", .parts [.name, .type] none none)]
  | .parameters => [("arg_decls", .parts [] none (some .parameter))]
  | .returnType => [("return_decl", .parts [.type] none none)]
  | .prototype => [("prototype", .parts [.name, .parameters] (some .returnType) none)]
  | .item =>
    [("declaration", .parts [.prototype] none none),
      ("definition", .parts [.prototype] none (some .statement))]

end Construct

namespace Node

mutual

def conforms (construct : Construct) : Node → Bool
  | .token rule _ text =>
    construct.tokens.contains rule && (rule != "QUBIT" || isQubitText text)
  | .tree rule _ children =>
    match construct.trees.lookup rule with
    | none => false
    | some .anything => true
    | some (.parts leading optional repeated) => conformAll leading optional repeated children

/-- Whether nodes stand for some constructs in turn, then perhaps for one more, and then for
any number of another one. -/
def conformAll (leading : List Construct) (optional repeated : Option Construct) :
    List Node → Bool
  | [] => leading.isEmpty
  | node :: rest =>
    match leading, optional, repeated with
    | construct :: leading, optional, repeated =>
      node.conforms construct && conformAll leading optional repeated rest
    | [], some construct, repeated =>
      node.conforms construct && conformAll [] none repeated rest
    | [], none, some construct =>
      node.conforms construct && conformAll [] none (some construct) rest
    | [], none, none => false

end

/-- Whether a tree is a program. The name of its rule does not matter. -/
def conformsProgram : Node → Bool
  | .tree _ _ children => conformAll [] none (some .item) children
  | .token _ _ _ => false

end Node

/-! ## Trees from nodes -/

namespace Node

def IsToken (node : Node) (rule : String) (text : Text) : Prop :=
  ∃ ends, node = .token rule ends text

def IsTree (node : Node) (rule : String) (children : List Node) : Prop :=
  ∃ location, node = .tree rule location children

def IsType (node : Node) (type : BaseType) : Prop :=
  ∃ children, node.IsTree (type.spelling ++ "_type") children

end Node

mutual

def Expression.IsFrom : Expression Span → Node → Prop
  | .number span text, node => node.span = .ok span ∧ node.IsToken "NUMBER" text
  | .qubit span index, node =>
    node.span = .ok span ∧ ∃ text, node.IsToken "QUBIT" text ∧ qubitIndex text = .ok index
  | .boolean span value, node =>
    node.span = .ok span ∧ ∃ text, node.IsToken (if value then "TRUE" else "FALSE") text
  | .identifier span name, node => node.span = .ok span ∧ node.IsToken "IDENT" name
  | .call span callee arguments, node =>
    node.span = .ok span ∧ ∃ first rest, node.IsTree "call_expr" (first :: rest) ∧
      first.IsToken "IDENT" callee ∧ Expression.AreFrom arguments rest

def Expression.AreFrom : List (Expression Span) → List Node → Prop
  | [], nodes => nodes = []
  | expression :: others, nodes =>
    ∃ node rest, nodes = node :: rest ∧ expression.IsFrom node ∧ Expression.AreFrom others rest

end

theorem Expression.areFrom_iff : ∀ {expressions : List (Expression Span)} {nodes : List Node},
    Expression.AreFrom expressions nodes ↔ List.Forall₂ Expression.IsFrom expressions nodes
  | [], nodes => by
      rw [Expression.AreFrom, List.forall₂_nil_left_iff]
  | expression :: others, nodes => by
      simp only [Expression.AreFrom, List.forall₂_cons_left_iff, Expression.areFrom_iff]
      grind

mutual

def Statement.IsFrom : Statement Span → Node → Prop
  | .declare span name type initial, node =>
    node.span = .ok span ∧ ∃ first second third,
      node.IsTree "variable_declaration" [first, second, third] ∧ first.IsToken "IDENT" name ∧
        second.IsType type ∧ initial.IsFrom third
  | .assign span target value, node =>
    node.span = .ok span ∧ ∃ first second, node.IsTree "assignment" [first, second] ∧
      first.IsToken "IDENT" target ∧ value.IsFrom second
  | .call span callee arguments, node =>
    node.span = .ok span ∧ ∃ first rest, node.IsTree "call_expr" (first :: rest) ∧
      first.IsToken "IDENT" callee ∧ Expression.AreFrom arguments rest
  | .giveBack span value, node =>
    node.span = .ok span ∧ ∃ inner, node.IsTree "return_stmt" [inner] ∧ value.IsFrom inner
  | .ifThen span condition body, node =>
    node.span = .ok span ∧ ∃ block first rest, node.IsTree "if_stmt" [block] ∧
      block.IsTree "if_block" (first :: rest) ∧ condition.IsFrom first ∧
        Statement.AreFrom body rest
  | .ifThenElse span condition body otherwise, node =>
    node.span = .ok span ∧ ∃ block first rest alternative others,
      node.IsTree "if_stmt" [block, alternative] ∧
        block.IsTree "if_block" (first :: rest) ∧ condition.IsFrom first ∧
          Statement.AreFrom body rest ∧ alternative.IsTree "else_block" others ∧
            Statement.AreFrom otherwise others
  | .loop span condition body, node =>
    node.span = .ok span ∧ ∃ first rest, node.IsTree "while_stmt" (first :: rest) ∧
      condition.IsFrom first ∧ Statement.AreFrom body rest

def Statement.AreFrom : List (Statement Span) → List Node → Prop
  | [], nodes => nodes = []
  | statement :: others, nodes =>
    ∃ node rest, nodes = node :: rest ∧ statement.IsFrom node ∧ Statement.AreFrom others rest

end

theorem Statement.areFrom_iff : ∀ {statements : List (Statement Span)} {nodes : List Node},
    Statement.AreFrom statements nodes ↔ List.Forall₂ Statement.IsFrom statements nodes
  | [], nodes => by
      rw [Statement.AreFrom, List.forall₂_nil_left_iff]
  | statement :: others, nodes => by
      simp only [Statement.AreFrom, List.forall₂_cons_left_iff, Statement.areFrom_iff]
      grind

def Parameter.IsFrom (parameter : Parameter Span) (node : Node) : Prop :=
  node.span = .ok parameter.note ∧ ∃ first second, node.IsTree "arg_decl" [first, second] ∧
    first.IsToken "IDENT" parameter.name ∧ second.IsType parameter.type

def Prototype.IsFrom (prototype : Prototype Span) (node : Node) : Prop :=
  node.span = .ok prototype.note ∧ ∃ first second rest nodes,
    node.IsTree "prototype" (first :: second :: rest) ∧ first.IsToken "IDENT" prototype.name ∧
      second.IsTree "arg_decls" nodes ∧ List.Forall₂ Parameter.IsFrom prototype.parameters nodes ∧
        match prototype.returnType with
        | none => rest = []
        | some type => ∃ result inner, rest = [result] ∧ result.IsTree "return_decl" [inner] ∧
            inner.IsType type

def Item.IsFrom (item : Item Span) (node : Node) : Prop :=
  node.span = .ok item.note ∧
    match item with
    | .declaration _ prototype => ∃ signature, node.IsTree "declaration" [signature] ∧
        prototype.IsFrom signature
    | .definition _ prototype body => ∃ signature rest,
        node.IsTree "definition" (signature :: rest) ∧ prototype.IsFrom signature ∧
          Statement.AreFrom body rest

def Program.IsFrom (program : Program Span) (node : Node) : Prop :=
  node.span = .ok program.note ∧ ∃ rule children, node.IsTree rule children ∧
    List.Forall₂ Item.IsFrom program.items children

end QubitLang
