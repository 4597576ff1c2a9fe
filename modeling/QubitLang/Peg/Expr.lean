import QubitLang.Lexical.Shape
import QubitLang.Peg.Regex

namespace QubitLang.Peg

/-! Parsing expressions. An ordered choice commits to its first alternative that
matches; sequences, repetitions and lookaheads are the usual ones. -/

/-! ## Terminals -/

inductive Terminal where
  | literal (text : Text)
  | oneOf (members : CharClass) (negated : Bool)
  | anyCharacter
  | shape (kind : Lexical.Shape)
  | regex (expression : Regex)
  deriving DecidableEq, Repr

def Terminal.split? : Terminal → Text → Option (Text × Text)
  | .literal spelling, text =>
    (Lexical.afterPrefix? spelling text).map fun rest => (spelling, rest)
  | .oneOf members negated, first :: rest =>
    if members.includes first != negated then some ([first], rest) else none
  | .oneOf _ _, [] => none
  | .anyCharacter, first :: rest => some ([first], rest)
  | .anyCharacter, [] => none
  | .shape kind, text => kind.split? text
  | .regex expression, text => expression.pattern.split? text

def Terminal.isProper : Terminal → Bool
  | .oneOf members _ => members.isProper
  | .regex expression => expression.isProper
  | .literal _ | .anyCharacter | .shape _ => true

/-! ## Expressions -/

inductive Expr (ν : Type) where
  | empty
  | never
  /-- A choice without alternatives. Unlike `never` it does not fail: a match
  that reaches it cannot go on. -/
  | noAlternative
  | terminal (accepted : Terminal)
  | call (rule : ν)
  | seq (first second : Expr ν)
  | alt (first second : Expr ν)
  /-- The result of the body is remembered per offset. The site tells apart the
  expressions of one rule that are remembered. -/
  | remember (site : Nat) (body : Expr ν)
  | star (body : Expr ν)
  | plus (body : Expr ν)
  | opt (body : Expr ν)
  | ahead (body : Expr ν)
  | notAhead (body : Expr ν)
  deriving DecidableEq, Repr

namespace Expr

variable {ν : Type}

def literal (text : String) : Expr ν := .terminal (.literal text.toList)

def shape (kind : Lexical.Shape) : Expr ν := .terminal (.shape kind)

/-- All parts, one after the other. One part stands for itself. -/
def sequence : List (Expr ν) → Expr ν
  | [] => .empty
  | [part] => part
  | part :: rest => .seq part (sequence rest)

def firstOf : List (Expr ν) → Expr ν
  | [] => .noAlternative
  | [alternative] => alternative
  | alternative :: rest => .alt alternative (firstOf rest)

def branches : Expr ν → List (Expr ν)
  | .noAlternative => []
  | .alt first second => first :: second.branches
  | alternative => [alternative]

/-- What an expression contributes to a choice: a choice all its alternatives,
any other expression itself. -/
def alternatives : Expr ν → List (Expr ν)
  | .remember _ body => body.branches
  | alternative => [alternative]

/-- An ordered choice. A single part stands for itself; otherwise the result is
remembered, and choices among the parts are merged into it, even if no more than
one alternative is left. -/
def choice : List (Expr ν) → Expr ν
  | [part] => part
  | parts => .remember 0 (firstOf (parts.flatMap alternatives))

def expecting (marker : ν) (body : Expr ν) : Expr ν :=
  choice [body, .seq (.call marker) .never]

def isRepeat : Expr ν → Bool
  | .star _ | .plus _ | .opt _ => true
  | _ => false

/-- Gives the remembered expressions the sites `site`, `site + 1` and so on
from left to right, and the first site that is still free. -/
def numberFrom (site : Nat) : Expr ν → Expr ν × Nat
  | .seq first second =>
    let (first, middle) := first.numberFrom site
    let (second, next) := second.numberFrom middle
    (.seq first second, next)
  | .alt first second =>
    let (first, middle) := first.numberFrom site
    let (second, next) := second.numberFrom middle
    (.alt first second, next)
  | .remember _ body =>
    let (body, next) := body.numberFrom (site + 1)
    (.remember site body, next)
  | .star body => let (body, next) := body.numberFrom site; (.star body, next)
  | .plus body => let (body, next) := body.numberFrom site; (.plus body, next)
  | .opt body => let (body, next) := body.numberFrom site; (.opt body, next)
  | .ahead body => let (body, next) := body.numberFrom site; (.ahead body, next)
  | .notAhead body => let (body, next) := body.numberFrom site; (.notAhead body, next)
  | .empty => (.empty, site)
  | .never => (.never, site)
  | .noAlternative => (.noAlternative, site)
  | .terminal accepted => (.terminal accepted, site)
  | .call rule => (.call rule, site)

def numbered (expr : Expr ν) : Expr ν := (expr.numberFrom 0).1

def calls : Expr ν → List ν
  | .empty | .never | .noAlternative | .terminal _ => []
  | .call rule => [rule]
  | .seq first second | .alt first second => first.calls ++ second.calls
  | .remember _ body | .star body | .plus body | .opt body | .ahead body
  | .notAhead body => body.calls

def terminals : Expr ν → List Terminal
  | .empty | .never | .noAlternative | .call _ => []
  | .terminal accepted => [accepted]
  | .seq first second | .alt first second => first.terminals ++ second.terminals
  | .remember _ body | .star body | .plus body | .opt body | .ahead body
  | .notAhead body => body.terminals

end Expr

end QubitLang.Peg
