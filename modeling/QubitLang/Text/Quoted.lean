import QubitLang.Text.Basic
import QubitLang.Text.Unprintable

namespace QubitLang.Text

/-! Texts as they are shown inside messages: between quotes, on one line, with
every character that would not show as itself written as an escape. -/

def hexadecimal (width number : Nat) : Text :=
  let digits := Nat.toDigits 16 number
  List.replicate (width - digits.length) '0' ++ digits

/-- Single quotes, unless the text holds some and no double quote. -/
def quoteMark (text : Text) : Char :=
  if text.contains '\'' && !text.contains '"' then '"' else '\''

/-- One character between the given quotes. The shortest of the three numeric
escapes that holds the code point is used. -/
def escaped (quote character : Char) : Text :=
  if character == quote || character == '\\' then ['\\', character]
  else if character == '\t' then ['\\', 't']
  else if character == '\n' then ['\\', 'n']
  else if character == '\r' then ['\\', 'r']
  else if CodePoints.unprintable.includes character.toNat then
    if character.toNat < 0x100 then '\\' :: 'x' :: hexadecimal 2 character.toNat
    else if character.toNat < 0x10000 then
      '\\' :: 'u' :: hexadecimal 4 character.toNat
    else '\\' :: 'U' :: hexadecimal 8 character.toNat
  else [character]

def quoted (text : Text) : String :=
  let quote := text.quoteMark
  String.ofList (quote :: text.flatMap (escaped quote) ++ [quote])

end QubitLang.Text
