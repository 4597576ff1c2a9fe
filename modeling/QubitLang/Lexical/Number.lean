import QubitLang.Text.Basic

namespace QubitLang.Lexical

/-! Numbers: `3`, `3.14`, `.5` and `3.`, but no bare point. -/

def digits? (text : Text) : Option (Text × Text) :=
  let digits := text.takeWhile Char.isDigit
  if digits.isEmpty then none else some (digits, text.dropWhile Char.isDigit)

/-- Splits off a number: digits with an optional point and more digits behind
them, or a point and at least one digit. -/
def number? (text : Text) : Option (Text × Text) :=
  match digits? text with
  | some (whole, '.' :: rest) =>
    some (whole ++ '.' :: rest.takeWhile Char.isDigit, rest.dropWhile Char.isDigit)
  | some (whole, rest) => some (whole, rest)
  | none =>
    match text with
    | '.' :: rest =>
      match digits? rest with
      | some (fraction, rest) => some ('.' :: fraction, rest)
      | none => none
    | _ => none

def numberParts (text : Text) : Text × Text :=
  (text.takeWhile (· != '.'), (text.dropWhile (· != '.')).drop 1)

def isDigits (text : Text) : Bool :=
  !text.isEmpty && text.all Char.isDigit

def isNumber (text : Text) : Bool :=
  let (whole, fraction) := numberParts text
  whole.all Char.isDigit && fraction.all Char.isDigit &&
    (isDigits whole || isDigits fraction)

end QubitLang.Lexical
