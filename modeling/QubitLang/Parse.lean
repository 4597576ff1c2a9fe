import QubitLang.Ast.OfNode
import QubitLang.Language.Grammar
import QubitLang.Peg.Match

namespace QubitLang

inductive ParseError where
  | unmatched (error : Peg.MatchError)
  | unbuilt (error : BuildError)
  deriving DecidableEq, Repr

namespace Parse

open QubitLang.Language (Nonterminal)

/-! ## Matching -/

def matchSource (start : Nonterminal) (source : Text) (options : Options) :
    Report ParseError (Option Peg.Value) :=
  match Peg.admission source options with
  | .error error => ⟨[], .error (.unmatched error)⟩
  | .ok () =>
    (Language.grammar.matchText start source options.trace).mapError .unmatched

def tree (source : Text) (options : Options := {}) : Report ParseError Node :=
  (matchSource .program source options).andThen fun value =>
    match value.bind Node.ofValue? with
    | some (.tree rule location children) =>
      ⟨[.assembled children.length source.length],
        .ok (.tree rule location children)⟩
    | _ => ⟨[], .error (.unmatched .notATree)⟩

/-- The one node that a fragment matches; `description` and `rule` say what the
fragment is. -/
def fragment (start : Nonterminal) (description rule : String) (source : Text)
    (options : Options) : Report ParseError Node :=
  (matchSource start source options).andThen fun value =>
    match value with
    | some (.list members) =>
      match Node.ofValues? members with
      | some [node] => ⟨[], .ok node⟩
      | _ =>
        ⟨[], .error (.unbuilt (.brokenInvariant
          ⟨s!"{description} matched {members.length} nodes", some rule, none⟩))⟩
    | _ => ⟨[], .error (.unmatched .notATree)⟩

/-! ## Building -/

def program (source : Text) (options : Options := {}) :
    Report ParseError (Program Span) :=
  (tree source options).andThen fun node =>
    match node.program with
    | .ok program => ⟨[.built program.items.length], .ok program⟩
    | .error error => ⟨[], .error (.unbuilt error)⟩

def expression (source : Text) (options : Options := {}) :
    Report ParseError (Expression Span) :=
  (fragment .expressionInput "expression" "expr" source options).andThen fun node =>
    .ofOutcome (node.expression.mapError .unbuilt)

def statement (source : Text) (options : Options := {}) :
    Report ParseError (Statement Span) :=
  (fragment .statementInput "statement" "statement" source options).andThen
    fun node => .ofOutcome (node.statement.mapError .unbuilt)

end Parse

end QubitLang
