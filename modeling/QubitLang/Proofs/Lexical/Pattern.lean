import QubitLang.Lexical.Pattern
import QubitLang.Lexical.Shape

/-! The lexical classes as patterns. -/

namespace QubitLang.Lexical

namespace Pattern

def headed (starts continues : Char → Bool) : Pattern := .seq (.one starts) (.star (.one continues))

def spelled : Text → Pattern
  | [] => .empty
  | character :: rest => .seq (.one (· == character)) (spelled rest)

def firstOf : List Pattern → Pattern
  | [] => .one fun _ => false
  | [pattern] => pattern
  | pattern :: rest => .alt pattern (firstOf rest)

def point : Pattern := .one (· == '.')

def digits : Pattern := headed Char.isDigit Char.isDigit

def number : Pattern :=
  firstOf [.seq digits (.seq point (.star (.one Char.isDigit))), .seq point digits, digits]

def trivia : Pattern :=
  .star (.alt (.one isBlank) (headed (· == '#') (· != '\n')))

def word : Pattern := headed isIdentifierStart isIdentifierContinue

def wordContinue : Pattern := .one isIdentifierContinue

def reserved (order : List Keyword) : Pattern :=
  .seq (firstOf (order.map fun keyword => spelled keyword.spelling.toList)) (.notAhead wordContinue)

end Pattern

def Shape.pattern (order : List Keyword) : Shape → Pattern
  | .number => .number
  | .digits => .digits
  | .trivia => .trivia
  | .identifier => .word
  | .wordContinue => .wordContinue
  | .reserved => .reserved order

/-- Where the matches of a class end that begin at an offset of a text, in the order in which they
are tried. -/
def Shape.endsAt (order : List Keyword) (shape : Shape) (text : Text) (offset : Int) : List Nat :=
  let start := min offset.toNat text.length
  ((shape.pattern order).lengths (text.drop start)).map (start + ·)

end QubitLang.Lexical
