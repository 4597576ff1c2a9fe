import QubitLang.Text.Quoted
import QubitLang.Lexical.Number

namespace QubitLang

/-! The double that stands for a decimal number. A non-negative double is its
bit pattern, a natural number; patterns are ordered as the values they denote,
and neighbouring patterns are neighbouring values. -/

namespace Binary64

def fractionBits : Nat := 52

def fractionCount : Nat := 1 <<< fractionBits

def infinity : Nat := 2047 * fractionCount

/-- The least positive value is `1 / unit`. -/
def unit : Nat := 1 <<< 1074

/-- The nearest pattern to `numerator / denominator`, for a positive
denominator. The quotient, counted in units of the least positive value, is cut
to at most 53 bits and rounded to the nearest integer; of two neighbours at the
same distance the even one is taken. Adding the dropped exponent to the rounded
bits carries into the next binade where rounding does. -/
def nearest (numerator denominator : Nat) : Nat :=
  let scaled := numerator * unit
  let exponent := Nat.log2 (scaled / denominator) - fractionBits
  let step := denominator <<< exponent
  let quotient := scaled / step
  let remainder := scaled % step
  let rounded :=
    if step < 2 * remainder ∨ (2 * remainder = step ∧ quotient % 2 = 1) then
      quotient + 1
    else quotient
  min (exponent * fractionCount + rounded) infinity

end Binary64

def digitsValue (digits : Text) : Nat :=
  digits.foldl (fun value digit => value * 10 + (digit.toNat - '0'.toNat)) 0

def decimalFraction (text : Text) : Nat × Nat :=
  let (whole, fraction) := Lexical.numberParts text
  (digitsValue (whole ++ fraction), Nat.pow 10 fraction.length)

structure NotANumber where
  text : Text
  deriving DecidableEq, Repr

def NotANumber.message (cause : NotANumber) : String :=
  "could not convert string to float: " ++ cause.text.quoted

def numberValue (text : Text) : Except NotANumber Nat :=
  if Lexical.isNumber text then
    let (numerator, denominator) := decimalFraction text
    .ok (Binary64.nearest numerator denominator)
  else .error ⟨text⟩

end QubitLang
