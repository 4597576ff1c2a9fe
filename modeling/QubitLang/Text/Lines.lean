import QubitLang.Text.Basic

namespace QubitLang

/-! The lines of a text. A place counts its line and its column from one. -/

structure Place where
  line : Nat
  column : Int
  deriving DecidableEq, Repr

structure LineIndex where
  starts : List Nat
  deriving DecidableEq, Repr

namespace LineIndex

def startsAfter : Nat → Text → List Nat
  | _, [] => []
  | offset, character :: rest =>
    if character = '\n' then (offset + 1) :: startsAfter (offset + 1) rest
    else startsAfter (offset + 1) rest

def ofText (text : Text) : LineIndex :=
  ⟨0 :: startsAfter 0 text⟩

/-- The place of an offset: the line is the number of lines that begin at or
before it, and the column counts from that line's start. Offsets past the end
go on in the last line; an offset before the text is on line zero, and its
column counts from the start of the last line. -/
def place (index : LineIndex) (offset : Int) : Place :=
  let line := index.starts.countP fun (start : Nat) => decide ((start : Int) ≤ offset)
  let lineStart :=
    if line = 0 then index.starts.getLastD 0 else index.starts.getD (line - 1) 0
  ⟨line, offset - lineStart + 1⟩

/-- The offset of a line and column, both counted from zero: the lengths of
the lines before it, each with its line end, and the column. -/
def offsetOf (text : Text) (line column : Nat) : Nat :=
  ((text.splitOn '\n').take line).foldl
    (fun offset content => offset + content.length + 1) column

end LineIndex

structure Extent where
  start : Int
  stop : Int
  first : Place
  last : Place
  deriving DecidableEq, Repr

def LineIndex.extent (index : LineIndex) (start stop : Int) : Extent :=
  ⟨start, stop, index.place start, index.place stop⟩

end QubitLang
