import QubitLang.Language.Label
import QubitLang.Peg.Grammar

namespace QubitLang.Language

/-! The grammar of the language:

    program      := (declaration | definition)*
    declaration  := "extern" prototype ";"
    definition   := "def" prototype "{" statement* "}"
    prototype    := IDENT "(" (IDENT ":" type ","?)* ")" ("->" type)?
    type         := "number" | "qubit" | "bit"
    statement    := (variable declaration | assignment | call | return) ";"
                  | if | while
    expression   := "(" expression ")" | call | literal | IDENT
    call         := IDENT "(" (expression ","?)* ")"
    literal      := NUMBER | QUBIT | "true" | "false"

Trivia may stand between any two tokens. It is matched at the head of what may
follow, so that no node begins or ends with it. -/

inductive Nonterminal where
  | trivia
  | wordContinue
  | reserved
  | identifier
  | number
  | qubit
  | trueLiteral
  | falseLiteral
  | expression
  | call
  | literal
  | type
  | typeWord (type : BaseType)
  | statement
  | variableDeclaration
  | assignment
  | returnStatement
  | ifStatement
  | ifBlock
  | elseBlock
  | whileStatement
  | block
  | prototype
  | parameters
  | parameter
  | returnType
  | declaration
  | definition
  | item
  | program
  | expressionInput
  | statementInput
  | marker (label : Label)
  deriving DecidableEq, Repr, Hashable

namespace Nonterminal

def all : List Nonterminal :=
  [.trivia, .wordContinue, .reserved, .identifier, .number, .qubit, .trueLiteral,
    .falseLiteral, .expression, .call, .literal, .type, .statement,
    .variableDeclaration, .assignment, .returnStatement, .ifStatement, .ifBlock,
    .elseBlock, .whileStatement, .block, .prototype, .parameters, .parameter,
    .returnType, .declaration, .definition, .item, .program, .expressionInput,
    .statementInput] ++
    BaseType.all.map .typeWord ++ Label.all.map .marker

theorem mem_all (name : Nonterminal) : name ∈ all := by
  cases name with
  | typeWord type => simp [all, BaseType.mem_all]
  | marker label => simp [all, Label.mem_all]
  | _ => simp [all]

end Nonterminal

/-! ## Parts of rules -/

abbrev Expr := Peg.Expr Nonterminal

open Peg.Expr (literal shape sequence choice star opt notAhead)

def expecting (label : Label) (body : Expr) : Expr :=
  .expecting (.marker label) body

def sign (mark : Sign) : Expr := expecting (.sign mark) (literal mark.spelling)

/-- A word that does not go on behind its spelling. -/
def wholeWord (spelling : String) : Expr :=
  sequence [literal spelling, notAhead (.call .wordContinue)]

def keyword (word : Keyword) : Expr :=
  expecting (.keyword word) (wholeWord word.spelling)

def trivia : Expr := .call .trivia

def endOfText : Expr := notAhead (.terminal .anyCharacter)

/-! ## Rules -/

def definition : Nonterminal → Peg.RuleKind × Expr
  | .trivia => (.silent, shape .trivia)
  | .wordContinue => (.silent, shape .wordContinue)
  | .reserved => (.silent, shape .reserved)
  | .identifier =>
    (.token "IDENT",
      expecting .identifier
        (sequence [notAhead (.call .reserved), shape .identifier]))
  | .number => (.token "NUMBER", expecting .number (shape .number))
  | .qubit =>
    (.token "QUBIT", sequence [sign .percent, expecting .digit (shape .digits)])
  | .trueLiteral => (.token "TRUE", keyword .trueWord)
  | .falseLiteral => (.token "FALSE", keyword .falseWord)
  | .expression =>
    -- A call comes before a name, because both begin with an identifier.
    (.silent,
      choice
        [sequence
          [sign .openParen, trivia, .call .expression, trivia, sign .closeParen],
          .call .call, .call .literal, .call .identifier])
  | .call =>
    (.tree "call_expr",
      sequence
        [.call .identifier, trivia, sign .openParen,
          star (sequence
            [trivia, .call .expression, opt (sequence [trivia, sign .comma])]),
          trivia, sign .closeParen])
  | .literal =>
    (.silent,
      choice [.call .number, .call .qubit, .call .trueLiteral, .call .falseLiteral])
  | .type =>
    (.silent,
      choice
        [.call (.typeWord .number), .call (.typeWord .qubit), .call (.typeWord .bit)])
  | .typeWord type =>
    (.tree (type.spelling ++ "_type"),
      expecting (.typeWord type) (wholeWord type.spelling))
  | .statement =>
    (.silent,
      choice
        [sequence
          [choice
            [.call .variableDeclaration, .call .assignment, .call .call,
              .call .returnStatement],
            trivia, sign .semicolon],
          .call .ifStatement, .call .whileStatement])
  | .variableDeclaration =>
    (.tree "variable_declaration",
      sequence
        [keyword .var, trivia, .call .identifier, trivia, sign .colon, trivia,
          .call .type, trivia, sign .equals, trivia, .call .expression])
  | .assignment =>
    (.tree "assignment",
      sequence
        [.call .identifier, trivia, sign .equals, trivia, .call .expression])
  | .returnStatement =>
    (.tree "return_stmt",
      sequence [keyword .returnWord, trivia, .call .expression])
  | .ifStatement =>
    (.tree "if_stmt",
      sequence [.call .ifBlock, opt (sequence [trivia, .call .elseBlock])])
  | .ifBlock =>
    (.tree "if_block",
      sequence [keyword .ifWord, trivia, .call .expression, trivia, .call .block])
  | .elseBlock =>
    (.tree "else_block", sequence [keyword .elseWord, trivia, .call .block])
  | .whileStatement =>
    (.tree "while_stmt",
      sequence [keyword .whileWord, trivia, .call .expression, trivia, .call .block])
  | .block =>
    (.silent,
      sequence
        [sign .openBrace, star (sequence [trivia, .call .statement]), trivia,
          sign .closeBrace])
  | .prototype =>
    (.tree "prototype",
      sequence
        [.call .identifier, trivia, sign .openParen, trivia, .call .parameters,
          trivia, sign .closeParen, opt (sequence [trivia, .call .returnType])])
  | .parameters =>
    (.tree "arg_decls",
      opt (sequence
        [.call .parameter, star (sequence [trivia, .call .parameter])]))
  | .parameter =>
    (.tree "arg_decl",
      sequence
        [.call .identifier, trivia, sign .colon, trivia, .call .type,
          opt (sequence [trivia, sign .comma])])
  | .returnType =>
    (.tree "return_decl", sequence [sign .arrow, trivia, .call .type])
  | .declaration =>
    (.tree "declaration",
      sequence
        [keyword .external, trivia, .call .prototype, trivia, sign .semicolon])
  | .definition =>
    (.tree "definition",
      sequence [keyword .define, trivia, .call .prototype, trivia, .call .block])
  | .item => (.silent, choice [.call .declaration, .call .definition])
  | .program =>
    (.tree "program",
      sequence [trivia, star (sequence [.call .item, trivia]), endOfText])
  | .expressionInput =>
    (.entry,
      sequence [trivia, .call .expression, trivia, expecting .endOfInput endOfText])
  | .statementInput =>
    (.entry,
      sequence [trivia, .call .statement, trivia, expecting .endOfInput endOfText])
  | .marker label => (.marker label.text, .empty)

def rule (name : Nonterminal) : Peg.Rule Nonterminal :=
  .ofBody (definition name).1 (definition name).2

def grammar : Peg.Grammar Nonterminal where
  names := Nonterminal.all
  rule name := some (rule name)

end QubitLang.Language
