import QubitLang.Text.Basic

/-! Patterns as they are searched for: one way after another, the alternatives from left to right
and a repetition as often as possible first. The first way that works is the match, and a text
belongs to a pattern as a whole if any way reaches its end. -/

namespace QubitLang.Lexical

inductive Pattern where
  | empty
  | one (accepts : Char → Bool)
  | seq (first second : Pattern)
  | alt (first second : Pattern)
  | star (body : Pattern)
  | notAhead (body : Pattern)

namespace Pattern

/-- The lengths of at most `bound` matches in a row, the most matches first. -/
def iterated (lengths : Text → List Nat) : (bound : Nat) → Text → List Nat
  | 0, _ => [0]
  | bound + 1, text =>
    ((lengths text).flatMap fun length =>
      (iterated lengths bound (text.drop length)).map (length + ·)) ++ [0]

/-- The lengths of all matches at the head of a text, in the order in which they are tried. -/
def lengths : Pattern → Text → List Nat
  | .empty, _ => [0]
  | .one _, [] => []
  | .one accepts, first :: _ => if accepts first then [1] else []
  | .seq first second, text =>
    (first.lengths text).flatMap fun length =>
      (second.lengths (text.drop length)).map (length + ·)
  | .alt first second, text => first.lengths text ++ second.lengths text
  | .star body, text => iterated body.lengths text.length text
  | .notAhead body, text => if (body.lengths text).isEmpty then [0] else []

def split? (pattern : Pattern) (text : Text) : Option (Text × Text) :=
  (pattern.lengths text).head?.map fun length => text.splitAt length

end Pattern

end QubitLang.Lexical
