import QubitLang.Text.Lines
import QubitLang.WordSize

namespace QubitLang

/-! Ranges of offsets into a source text. Each goes from its start up to its stop, which it
leaves out. -/

structure Span where
  start : Nat
  stop : Nat
  start_le_stop : start ≤ stop := by omega
  deriving DecidableEq, Repr

structure InvalidSpan where
  start : Int
  stop : Int
  deriving DecidableEq, Repr

def InvalidSpan.message (invalid : InvalidSpan) : String :=
  s!"invalid span [{invalid.start}, {invalid.stop})"

namespace Span

def ofOffsets (start stop : Int) : Except InvalidSpan Span :=
  if ordered : 0 ≤ start ∧ start ≤ stop then
    .ok { start := start.toNat, stop := stop.toNat }
  else .error ⟨start, stop⟩

def point (offset : Nat) : Span := { start := offset, stop := offset }

def length (span : Span) : Nat := span.stop - span.start

def lengthAsWord (span : Span) : Except WordOverflow Int := asWord span.length

def text (span : Span) (source : Text) : Text :=
  source.slice span.start span.stop

def place (span : Span) (source : Text) : Place :=
  (LineIndex.ofText source).place span.start

def shift (distance : Nat) (span : Span) : Span where
  start := span.start + distance
  stop := span.stop + distance
  start_le_stop := Nat.add_le_add_right span.start_le_stop distance

end Span

end QubitLang
