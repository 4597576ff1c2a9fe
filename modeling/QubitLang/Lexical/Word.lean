import QubitLang.Text.Basic
import QubitLang.Text.IdentifierStart
import QubitLang.Text.IdentifierContinue

namespace QubitLang

/-! Words: runs of identifier characters. Some of them are reserved, and the
others are the names of a program. -/

/-! ## Reserved words -/

inductive Keyword where
  | define
  | external
  | ifWord
  | elseWord
  | whileWord
  | var
  | returnWord
  | trueWord
  | falseWord
  deriving DecidableEq, Repr, Hashable

namespace Keyword

def spelling : Keyword → String
  | .define => "def"
  | .external => "extern"
  | .ifWord => "if"
  | .elseWord => "else"
  | .whileWord => "while"
  | .var => "var"
  | .returnWord => "return"
  | .trueWord => "true"
  | .falseWord => "false"

def all : List Keyword :=
  [.define, .external, .ifWord, .elseWord, .whileWord, .var, .returnWord,
    .trueWord, .falseWord]

theorem mem_all (keyword : Keyword) : keyword ∈ all := by
  cases keyword <;> decide

end Keyword

/-! ## Types -/

/-- The types of the language. Their words are not reserved. -/
inductive BaseType where
  | number
  | qubit
  | bit
  deriving DecidableEq, Repr, Hashable

namespace BaseType

def spelling : BaseType → String
  | .number => "number"
  | .qubit => "qubit"
  | .bit => "bit"

def all : List BaseType := [.number, .qubit, .bit]

theorem mem_all (type : BaseType) : type ∈ all := by
  cases type <;> decide

end BaseType

namespace Lexical

/-! ## Words -/

def isIdentifierStart (character : Char) : Bool :=
  CodePoints.identifierStart.includes character.toNat

def isIdentifierContinue (character : Char) : Bool :=
  CodePoints.identifierContinue.includes character.toNat

/-- Splits off the longest word at the head of a text: a character that may
begin an identifier and all that may follow it. Reserved words are words. -/
def word? : Text → Option (Text × Text)
  | [] => none
  | first :: rest =>
    if isIdentifierStart first then
      some (first :: rest.takeWhile isIdentifierContinue,
        rest.dropWhile isIdentifierContinue)
    else none

def wordContinue? : Text → Option (Text × Text)
  | [] => none
  | first :: rest =>
    if isIdentifierContinue first then some ([first], rest) else none

def afterPrefix? : (spelling text : Text) → Option Text
  | [], text => some text
  | _ :: _, [] => none
  | expected :: spelling, actual :: text =>
    if expected = actual then afterPrefix? spelling text else none

/-- Splits off a keyword, unless the word goes on behind it: the head of
`iffy` is not `if`. -/
def keyword? (keyword : Keyword) (text : Text) : Option (Text × Text) :=
  match afterPrefix? keyword.spelling.toList text with
  | none => none
  | some rest =>
    if (wordContinue? rest).isSome then none
    else some (keyword.spelling.toList, rest)

def reserved? (text : Text) : Option (Text × Text) :=
  Keyword.all.findSome? fun keyword => keyword? keyword text

def isWord : Text → Bool
  | [] => false
  | first :: rest => isIdentifierStart first && rest.all isIdentifierContinue

def isReserved (text : Text) : Bool :=
  Keyword.all.any fun keyword => keyword.spelling.toList == text

def isIdentifier (text : Text) : Bool :=
  isWord text && !isReserved text

end Lexical

end QubitLang
