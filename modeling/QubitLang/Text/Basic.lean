namespace QubitLang

/-- A text is its sequence of code points. Every offset, length and column of
this library counts them. -/
abbrev Text := List Char

namespace Text

/-! ## Slices by signed offsets

A negative offset counts from the end of the text, and an offset outside the
text stands for the nearest end. -/

/-- The position that a signed offset denotes in a text of the given length. -/
def clampedOffset (length : Nat) (offset : Int) : Nat :=
  if offset < 0 then (length + offset).toNat else min offset.toNat length

def slice (text : Text) (start stop : Int) : Text :=
  (text.take (clampedOffset text.length stop)).drop
    (clampedOffset text.length start)

@[simp] theorem clampedOffset_natCast (length offset : Nat) :
    clampedOffset length offset = min offset length := by
  rw [clampedOffset, if_neg (Int.not_lt.mpr (Int.natCast_nonneg offset)),
    Int.toNat_natCast]

theorem slice_natCast (text : Text) (start stop : Nat) :
    text.slice start stop = (text.take stop).drop start := by
  simp only [slice, clampedOffset_natCast]
  rcases Nat.le_total start text.length with inside | outside
  · rw [Nat.min_eq_left inside, ← List.take_eq_take_min]
  · rw [Nat.min_eq_right outside, List.drop_eq_nil_of_le, List.drop_eq_nil_of_le]
    · simp only [List.length_take]; omega
    · simp only [List.length_take]; omega

/-! ## Lines and lists of texts -/

def firstLine (text : Text) : Text :=
  text.takeWhile (· != '\n')

def lastLine (text : Text) : Text :=
  (text.reverse.takeWhile (· != '\n')).reverse

def commaSeparated (texts : List Text) : Text :=
  [',', ' '].intercalate texts

end Text

end QubitLang
