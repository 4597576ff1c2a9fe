import QubitLang.Lexical.Word

namespace QubitLang

/-! The signs of the language, and the labels under which its parts are reported
as expected. -/

inductive Sign where
  | openParen
  | closeParen
  | openBrace
  | closeBrace
  | colon
  | semicolon
  | comma
  | equals
  | arrow
  | percent
  deriving DecidableEq, Repr, Hashable

namespace Sign

def spelling : Sign → String
  | .openParen => "("
  | .closeParen => ")"
  | .openBrace => "\x7b"
  | .closeBrace => "\x7d"
  | .colon => ":"
  | .semicolon => ";"
  | .comma => ","
  | .equals => "="
  | .arrow => "->"
  | .percent => "%"

def all : List Sign :=
  [.openParen, .closeParen, .openBrace, .closeBrace, .colon, .semicolon, .comma,
    .equals, .arrow, .percent]

theorem mem_all (sign : Sign) : sign ∈ all := by
  cases sign <;> decide

end Sign

inductive Label where
  | keyword (word : Keyword)
  | typeWord (type : BaseType)
  | sign (mark : Sign)
  | identifier
  | number
  | digit
  | endOfInput
  deriving DecidableEq, Repr, Hashable

namespace Label

def text : Label → String
  | .keyword word => "\"" ++ word.spelling ++ "\""
  | .typeWord type => "\"" ++ type.spelling ++ "\""
  | .sign mark => "\"" ++ mark.spelling ++ "\""
  | .identifier => "identifier"
  | .number => "number"
  | .digit => "digit"
  | .endOfInput => "end of input"

def all : List Label :=
  Keyword.all.map .keyword ++ BaseType.all.map .typeWord ++ Sign.all.map .sign ++
    [.identifier, .number, .digit, .endOfInput]

theorem mem_all (label : Label) : label ∈ all := by
  cases label with
  | keyword word => simp [all, Keyword.mem_all]
  | typeWord type => simp [all, BaseType.mem_all]
  | sign mark => simp [all, Sign.mem_all]
  | _ => simp [all]

end Label

end QubitLang
