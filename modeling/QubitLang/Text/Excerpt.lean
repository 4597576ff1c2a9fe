import QubitLang.Text.Basic

namespace QubitLang.Text

/-! The excerpt under an error message: the line around an offset, and a caret
below the character there. -/

def tabStop : Nat := 8

/-- The number of cells before the caret when `column` cells of the line are
already taken. A tab fills the line up to the next stop, and a carriage return
takes one cell and begins a new line. -/
def cells : Nat → Text → Nat
  | _, [] => 0
  | column, '\t' :: rest =>
    let step := tabStop - column % tabStop
    step + cells (column + step) rest
  | column, character :: rest =>
    1 + cells (if character = '\r' || character = '\n' then 0 else column + 1) rest

/-- At most `width` characters on either side of the offset, cut to the line
that the offset lies on, and a second line that points at it. -/
def excerpt (text : Text) (offset width : Int) : Text :=
  let before := (text.slice (max (offset - width) 0) offset).lastLine
  let after := (text.slice offset (offset + width)).firstLine
  before ++ after ++ ['\n'] ++ List.replicate (cells 0 before) ' ' ++ ['^', '\n']

end QubitLang.Text
