namespace QubitLang

/-! Counts that are handed on have to fit into a signed word of 64 bits. -/

structure WordOverflow where
  value : Int
  deriving DecidableEq, Repr

def WordOverflow.message (overflow : WordOverflow) : String :=
  s!"{overflow.value} does not fit into a word"

def fitsWord (value : Int) : Bool :=
  -0x8000000000000000 ≤ value && value ≤ 0x7fffffffffffffff

def asWord (value : Int) : Except WordOverflow Int :=
  if fitsWord value then .ok value else .error ⟨value⟩

end QubitLang
