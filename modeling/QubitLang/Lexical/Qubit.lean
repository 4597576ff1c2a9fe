import QubitLang.Binary64

namespace QubitLang

/-! Qubit literals: a percent sign and the decimal index of a register. -/

inductive QubitError where
  | notAQubit (text : Text)
  | tooManyDigits (count : Nat)
  deriving DecidableEq, Repr

/-- The most digits of an index that are converted, leading zeros included. -/
def maxIndexDigits : Nat := 4300

def QubitError.message : QubitError → String
  | .notAQubit text => "not a qubit literal: " ++ text.quoted
  | .tooManyDigits count =>
    s!"Exceeds the limit ({maxIndexDigits} digits) for integer string conversion: " ++
      s!"value has {count} digits; use sys.set_int_max_str_digits() to increase the limit"

def qubitIndex : Text → Except QubitError Nat
  | '%' :: digits =>
    if !Lexical.isDigits digits then .error (.notAQubit ('%' :: digits))
    else if maxIndexDigits < digits.length then .error (.tooManyDigits digits.length)
    else .ok (digitsValue digits)
  | text => .error (.notAQubit text)

end QubitLang
