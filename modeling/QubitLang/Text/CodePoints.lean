namespace QubitLang

/-! Sets of code points, as ascending ranges that include both of their ends. -/

abbrev CodePoints := List (Nat × Nat)

namespace CodePoints

/-- Whether a code point lies in one of the ranges; the ascending order lets
the search stop at the first range that begins after it. -/
def includes : CodePoints → Nat → Bool
  | [], _ => false
  | (first, last) :: rest, point =>
    if point < first then false
    else if point ≤ last then true
    else includes rest point

/-! ## Ranges of a property -/

/-- One more code point before the ranges; a range that begins right after it takes it in. -/
def prepend (point : Nat) : CodePoints → CodePoints
  | [] => [(point, point)]
  | (first, last) :: rest =>
    if first = point + 1 then (point, last) :: rest else (point, point) :: (first, last) :: rest

def runsFrom (holds : Nat → Bool) (point : Nat) : (count : Nat) → CodePoints
  | 0 => []
  | count + 1 =>
    let rest := runsFrom holds (point + 1) count
    if holds point then prepend point rest else rest

/-- The code points with a property, one range for each run of them. -/
def ofProperty (holds : Nat → Bool) : CodePoints := runsFrom holds 0 0x110000

end CodePoints

end QubitLang
