import QubitLang.Lexical.Pattern

namespace QubitLang.Peg

/-! Classes of characters, and the regular expressions over them. -/

abbrev CharClass := List (Char × Char)

namespace CharClass

/-- Reads a class such as `a-z_`. A character, a dash and another character are
a range; any other character, a dash that cannot be one included, is itself. -/
def ofText : Text → CharClass
  | first :: '-' :: last :: rest => (first, last) :: ofText rest
  | first :: rest => (first, first) :: ofText rest
  | [] => []

def includes (members : CharClass) (character : Char) : Bool :=
  members.any fun (first, last) => first ≤ character && character ≤ last

/-- Whether the class has members at all, and every range of it ascends. Only
such a class can be compiled, whether it is negated or not. -/
def isProper (members : CharClass) : Bool :=
  !members.isEmpty && members.all fun (first, last) => first ≤ last

end CharClass

/-- A regular expression without groups and references. -/
inductive Regex where
  | empty
  | oneOf (members : CharClass) (negated : Bool)
  | seq (first second : Regex)
  | alt (first second : Regex)
  | star (body : Regex)
  | notAhead (body : Regex)
  deriving DecidableEq, Repr

namespace Regex

def plus (body : Regex) : Regex := .seq body (.star body)

def isProper : Regex → Bool
  | .empty => true
  | .oneOf members _ => members.isProper
  | .seq first second | .alt first second => first.isProper && second.isProper
  | .star body | .notAhead body => body.isProper

def pattern : Regex → Lexical.Pattern
  | .empty => .empty
  | .oneOf members negated => .one fun character => members.includes character != negated
  | .seq first second => .seq first.pattern second.pattern
  | .alt first second => .alt first.pattern second.pattern
  | .star body => .star body.pattern
  | .notAhead body => .notAhead body.pattern

end Regex

end QubitLang.Peg
