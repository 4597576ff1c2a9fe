import Mathlib.Algebra.Group.Nat.Defs
import QubitLang.Ast.Same
import QubitLang.Lexical.Qubit
import QubitLang.Proofs.Language.Token

/-! The canonical tokens of trees: no parentheses but those of calls, a comma between
two arguments but none behind the last, and indices without leading zeros. -/

namespace QubitLang

open Lexical

variable {α β : Type}

namespace Token

def keyword (reserved : Keyword) : Token := .word reserved.spelling.toList

def typeName (type : BaseType) : Token := .word type.spelling.toList

def boolean (value : Bool) : Token := .keyword (if value then .trueWord else .falseWord)

def ofIndex (index : Nat) : Token := .qubit (Nat.toDigits 10 index)

def commaSeparated (parts : List (List Token)) : List Token :=
  [Token.sign .comma].intercalate parts

theorem commaSeparated_singleton (part : List Token) : commaSeparated [part] = part := by
  simp [commaSeparated, List.intercalate]

theorem commaSeparated_cons_cons (part second : List Token) (parts : List (List Token)) :
    commaSeparated (part :: second :: parts) =
      part ++ .sign .comma :: commaSeparated (second :: parts) := by
  simp [commaSeparated, List.intercalate]

end Token

/-! ## Tokens -/

mutual

def Expression.tokens : Expression α → List Token
  | .number _ text => [.number text]
  | .qubit _ index => [.ofIndex index]
  | .boolean _ value => [.boolean value]
  | .identifier _ name => [.word name]
  | .call _ callee arguments =>
    .word callee :: .sign .openParen ::
      (Token.commaSeparated (Expression.tokensEach arguments) ++ [.sign .closeParen])

def Expression.tokensEach : List (Expression α) → List (List Token)
  | [] => []
  | expression :: rest => expression.tokens :: Expression.tokensEach rest

end

def Token.block (body : List Token) : List Token :=
  .sign .openBrace :: (body ++ [.sign .closeBrace])

mutual

def Statement.tokens : Statement α → List Token
  | .declare _ name type initial =>
    .keyword .var :: .word name :: .sign .colon :: .typeName type :: .sign .equals ::
      (initial.tokens ++ [.sign .semicolon])
  | .assign _ target value =>
    .word target :: .sign .equals :: (value.tokens ++ [.sign .semicolon])
  | .call note callee arguments =>
    (Expression.call note callee arguments).tokens ++ [.sign .semicolon]
  | .giveBack _ value => .keyword .returnWord :: (value.tokens ++ [.sign .semicolon])
  | .ifThen _ condition body =>
    .keyword .ifWord :: (condition.tokens ++ Token.block (Statement.tokensAll body))
  | .ifThenElse _ condition body otherwise =>
    .keyword .ifWord :: (condition.tokens ++ (Token.block (Statement.tokensAll body) ++
      .keyword .elseWord :: Token.block (Statement.tokensAll otherwise)))
  | .loop _ condition body =>
    .keyword .whileWord :: (condition.tokens ++ Token.block (Statement.tokensAll body))

def Statement.tokensAll : List (Statement α) → List Token
  | [] => []
  | statement :: rest => statement.tokens ++ Statement.tokensAll rest

end

def Parameter.tokens (parameter : Parameter α) : List Token :=
  [.word parameter.name, .sign .colon, .typeName parameter.type]

def Token.result : Option BaseType → List Token
  | none => []
  | some type => [.sign .arrow, .typeName type]

def Prototype.tokens (prototype : Prototype α) : List Token :=
  .word prototype.name :: .sign .openParen ::
    (Token.commaSeparated (prototype.parameters.map Parameter.tokens) ++
      .sign .closeParen :: Token.result prototype.returnType)

def Item.tokens : Item α → List Token
  | .declaration _ prototype =>
    .keyword .external :: (prototype.tokens ++ [.sign .semicolon])
  | .definition _ prototype body =>
    .keyword .define :: (prototype.tokens ++ Token.block (Statement.tokensAll body))

def Program.tokens (program : Program α) : List Token :=
  program.items.flatMap Item.tokens

/-! ## Printable trees -/

mutual

/-- Whether the names of an expression are names, its numbers numbers, and its
indices short enough to be read. -/
def Expression.isPrintable : Expression α → Bool
  | .number _ text => isNumber text
  | .qubit _ index => decide ((Nat.toDigits 10 index).length ≤ maxIndexDigits)
  | .boolean _ _ => true
  | .identifier _ name => isIdentifier name
  | .call _ callee arguments => isIdentifier callee && Expression.allPrintable arguments

def Expression.allPrintable : List (Expression α) → Bool
  | [] => true
  | expression :: rest => expression.isPrintable && Expression.allPrintable rest

end

mutual

def Statement.isPrintable : Statement α → Bool
  | .declare _ name _ initial => isIdentifier name && initial.isPrintable
  | .assign _ target value => isIdentifier target && value.isPrintable
  | .call _ callee arguments => isIdentifier callee && Expression.allPrintable arguments
  | .giveBack _ value => value.isPrintable
  | .ifThen _ condition body | .loop _ condition body =>
    condition.isPrintable && Statement.allPrintable body
  | .ifThenElse _ condition body otherwise =>
    condition.isPrintable && Statement.allPrintable body && Statement.allPrintable otherwise

def Statement.allPrintable : List (Statement α) → Bool
  | [] => true
  | statement :: rest => statement.isPrintable && Statement.allPrintable rest

end

def Prototype.isPrintable (prototype : Prototype α) : Bool :=
  isIdentifier prototype.name &&
    prototype.parameters.all fun parameter => isIdentifier parameter.name

def Item.isPrintable : Item α → Bool
  | .declaration _ prototype => prototype.isPrintable
  | .definition _ prototype body => prototype.isPrintable && Statement.allPrintable body

def Program.isPrintable (program : Program α) : Bool :=
  program.items.all Item.isPrintable

/-! ## Indices -/

theorem digitsValue_toDigits (index : Nat) : digitsValue (Nat.toDigits 10 index) = index := by
  have value_eq : digitsValue (Nat.toDigits 10 index) =
      Nat.ofDigitChars 10 (Nat.toDigits 10 index) 0 := by
    simp only [digitsValue, Nat.ofDigitChars_eq_foldl, Nat.mul_comm 10]
  rw [value_eq, Nat.ofDigitChars_ten_toDigits]

theorem isDigits_toDigits (index : Nat) : isDigits (Nat.toDigits 10 index) = true := by
  refine isDigits_iff.mpr ⟨Nat.toDigits_ne_nil, List.all_eq_true.mpr fun digit member => ?_⟩
  exact Nat.isDigit_of_mem_toDigits (by decide) (by decide) member

theorem foldl_digits_lt : ∀ {digits : Text} {value bound : Nat},
    digits.all Char.isDigit = true → value < bound →
      digits.foldl (fun value digit => value * 10 + (digit.toNat - '0'.toNat)) value <
        bound * 10 ^ digits.length
  | [], _, _, _, within => by simpa using within
  | digit :: rest, value, bound, all, within => by
      rw [List.all_cons, Bool.and_eq_true] at all
      have small : digit.toNat - '0'.toNat < 10 := by
        have inRange := all.1
        simp only [Char.isDigit, Bool.and_eq_true, decide_eq_true_eq] at inRange
        have upper : digit.toNat ≤ 57 := inRange.2
        have zero : '0'.toNat = 48 := rfl
        omega
      have next : value * 10 + (digit.toNat - '0'.toNat) < bound * 10 := by omega
      have later := foldl_digits_lt all.2 next
      rwa [List.length_cons, Nat.pow_succ', ← Nat.mul_assoc]

theorem digitsValue_lt {digits : Text} (all : digits.all Char.isDigit = true) :
    digitsValue digits < 10 ^ digits.length := by
  have below := foldl_digits_lt all Nat.one_pos
  rwa [Nat.one_mul] at below

theorem length_toDigits_digitsValue {digits : Text} (isDigits : isDigits digits = true) :
    (Nat.toDigits 10 (digitsValue digits)).length ≤ digits.length := by
  obtain ⟨nonempty, all⟩ := isDigits_iff.mp isDigits
  exact (Nat.length_toDigits_le_iff (by decide) (List.length_pos_iff.mpr nonempty)).mpr
    (digitsValue_lt all)

/-! ## Short indices -/

def Token.isOverlong : Token → Bool
  | .qubit digits => decide (maxIndexDigits < digits.length)
  | _ => false

def Lexeme.isFit (lexeme : Lexeme) : Bool :=
  lexeme.token.isLexical && !lexeme.token.isOverlong

theorem Token.any_isOverlong_commaSeparated (parts : List (List Token)) :
    (Token.commaSeparated parts).any isOverlong = parts.any fun part => part.any isOverlong := by
  induction parts with
  | nil => rfl
  | cons part parts induction =>
      cases parts with
      | nil => simp [commaSeparated_singleton]
      | cons second parts =>
          rw [commaSeparated_cons_cons, List.any_append, List.any_cons, induction]
          rfl

mutual

theorem Expression.not_any_isOverlong : ∀ {expression : Expression α},
    expression.isPrintable = true → expression.tokens.any Token.isOverlong = false
  | .number _ _, _ | .boolean _ _, _ | .identifier _ _, _ => rfl
  | .qubit _ index, printable => by
      have short : (Nat.toDigits 10 index).length ≤ maxIndexDigits := of_decide_eq_true printable
      simp [tokens, Token.ofIndex, Token.isOverlong, short]
  | .call _ _ arguments, printable => by
      rw [isPrintable, Bool.and_eq_true] at printable
      have inside := Expression.not_any_isOverlong_each printable.2
      simp [tokens, Token.isOverlong, Token.any_isOverlong_commaSeparated, inside]

theorem Expression.not_any_isOverlong_each : ∀ {expressions : List (Expression α)},
    Expression.allPrintable expressions = true →
      ((Expression.tokensEach expressions).any fun part => part.any Token.isOverlong) = false
  | [], _ => rfl
  | expression :: rest, printable => by
      rw [allPrintable, Bool.and_eq_true] at printable
      rw [tokensEach, List.any_cons, not_any_isOverlong printable.1,
        not_any_isOverlong_each printable.2, Bool.or_self]

end

theorem Token.any_isOverlong_block (body : List Token) :
    (Token.block body).any isOverlong = body.any isOverlong := by
  simp [block, isOverlong]

mutual

theorem Statement.not_any_isOverlong : ∀ {statement : Statement α},
    statement.isPrintable = true → statement.tokens.any Token.isOverlong = false
  | .declare _ _ _ initial, printable | .assign _ _ initial, printable => by
      rw [isPrintable, Bool.and_eq_true] at printable
      have inside := Expression.not_any_isOverlong printable.2
      simp [tokens, Token.isOverlong, Token.keyword, Token.typeName, inside]
  | .call note callee arguments, printable => by
      have inside := @Expression.not_any_isOverlong _ (.call note callee arguments) printable
      simp [tokens, Token.isOverlong, inside]
  | .giveBack _ value, printable => by
      have inside := Expression.not_any_isOverlong printable
      simp [tokens, Token.isOverlong, Token.keyword, inside]
  | .ifThen _ condition body, printable | .loop _ condition body, printable => by
      rw [isPrintable, Bool.and_eq_true] at printable
      have inside := Expression.not_any_isOverlong printable.1
      have statements := Statement.not_any_isOverlong_all printable.2
      simp [tokens, Token.isOverlong, Token.keyword, Token.any_isOverlong_block, inside,
        statements]
  | .ifThenElse _ condition body otherwise, printable => by
      rw [isPrintable, Bool.and_eq_true, Bool.and_eq_true] at printable
      have inside := Expression.not_any_isOverlong printable.1.1
      have statements := Statement.not_any_isOverlong_all printable.1.2
      have others := Statement.not_any_isOverlong_all printable.2
      simp [tokens, Token.isOverlong, Token.keyword, Token.any_isOverlong_block, inside,
        statements, others]

theorem Statement.not_any_isOverlong_all : ∀ {statements : List (Statement α)},
    Statement.allPrintable statements = true →
      (Statement.tokensAll statements).any Token.isOverlong = false
  | [], _ => rfl
  | statement :: rest, printable => by
      rw [allPrintable, Bool.and_eq_true] at printable
      rw [tokensAll, List.any_append, not_any_isOverlong printable.1,
        not_any_isOverlong_all printable.2, Bool.or_self]

end

theorem Prototype.not_any_isOverlong (prototype : Prototype α) :
    prototype.tokens.any Token.isOverlong = false := by
  have result : (Token.result prototype.returnType).any Token.isOverlong = false := by
    cases prototype.returnType <;> rfl
  have parts : ((prototype.parameters.map Parameter.tokens).any fun part =>
      part.any Token.isOverlong) = false := by
    simp [Parameter.tokens, Token.isOverlong, Token.typeName]
  rw [tokens, List.any_cons, List.any_cons, List.any_append, List.any_cons,
    Token.any_isOverlong_commaSeparated, parts, result]
  rfl

theorem Program.not_any_isOverlong {program : Program α} (printable : program.isPrintable = true) :
    program.tokens.any Token.isOverlong = false := by
  rw [tokens, List.any_flatMap, List.any_eq_false]
  intro item member
  have fine := List.all_eq_true.mp printable item member
  cases item with
  | declaration note prototype =>
      simp [Item.tokens, Token.isOverlong, Token.keyword, prototype.not_any_isOverlong]
  | definition note prototype body =>
      rw [Item.isPrintable, Bool.and_eq_true] at fine
      have statements := Statement.not_any_isOverlong_all fine.2
      simp [Item.tokens, Token.isOverlong, Token.keyword, Token.any_isOverlong_block,
        prototype.not_any_isOverlong, statements]

end QubitLang
