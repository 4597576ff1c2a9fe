import QubitLang.Lexical.Word
import QubitLang.Lexical.Number
import QubitLang.Lexical.Trivia
import QubitLang.WordSize

namespace QubitLang.Lexical

/-! The lexical classes that a grammar can name as one terminal. -/

inductive Shape where
  | number
  | digits
  | trivia
  | identifier
  | wordContinue
  | reserved
  deriving DecidableEq, Repr, Hashable

namespace Shape

def split? : Shape → Text → Option (Text × Text)
  | .number => number?
  | .digits => digits?
  | .trivia => fun text => some (Lexical.trivia false text)
  | .identifier => word?
  | .wordContinue => wordContinue?
  | .reserved => reserved?

def spells : Shape → Text → Bool
  | .number => isNumber
  | .digits => isDigits
  | .trivia => isTrivia
  | .identifier => isWord
  | .wordContinue => fun text =>
    match text with
    | [character] => isIdentifierContinue character
    | _ => false
  | .reserved => isReserved

/-- Where the match of the class ends that begins at an offset of a text; an
offset outside the text stands for its nearest end. -/
def endAt? (shape : Shape) (text : Text) (offset : Int) : Option Nat :=
  let start := min offset.toNat text.length
  (shape.split? (text.drop start)).map fun (lexeme, _) => start + lexeme.length

def endAtWord (shape : Shape) (text : Text) (offset : Int) :
    Except WordOverflow (Option Nat) :=
  (asWord offset).map fun offset => shape.endAt? text offset

end Shape

end QubitLang.Lexical
