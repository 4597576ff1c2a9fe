import QubitLang.SyntaxError

namespace QubitLang.Nesting

/-! The limit on nested brackets. Parentheses and braces count alike, a closing
bracket need not match the opening one, and comments hold no brackets. -/

def opens (character : Char) : Bool := character == '(' || character == '{'

def closes (character : Char) : Bool := character == ')' || character == '}'

/-- The offset of the first bracket that brings the depth above the limit, in
a text that begins at `offset`, at the given depth and perhaps in a comment. -/
def excessFrom (limit : Int) (offset depth : Nat) (insideComment : Bool) :
    Text → Option Nat
  | [] => none
  | character :: rest =>
    if insideComment then
      excessFrom limit (offset + 1) depth (character != '\n') rest
    else if character == '#' then excessFrom limit (offset + 1) depth true rest
    else if opens character then
      if limit < ((depth + 1 : Nat) : Int) then some offset
      else excessFrom limit (offset + 1) (depth + 1) false rest
    else if closes character then
      excessFrom limit (offset + 1) (depth - 1) false rest
    else excessFrom limit (offset + 1) depth false rest

def firstExcess? (limit : Int) (text : Text) : Option Nat :=
  excessFrom limit 0 0 false text

def error (limit : Int) (text : Text) (offset : Nat) : SyntaxError :=
  let place := (LineIndex.ofText text).place offset
  SyntaxError.ofPlace true text offset place.line place.column []
    s!"nesting exceeds {limit} levels"

def check (limit : Int) (text : Text) : Except SyntaxError Unit :=
  match firstExcess? limit text with
  | none => .ok ()
  | some offset => .error (error limit text offset)

end QubitLang.Nesting
