import QubitLang.Text.Quoted

namespace QubitLang

inductive Json where
  | null
  | number (value : Int)
  | text (value : Text)
  | array (items : List Json)
  | object (members : List (Text × Json))
  deriving Repr

namespace Json

/-! ## Strings -/

/-- One character inside a string. Only quotes, backslashes and control
characters are escaped. -/
def escaped (character : Char) : Text :=
  if character == '"' then ['\\', '"']
  else if character == '\\' then ['\\', '\\']
  else if character == '\n' then ['\\', 'n']
  else if character == '\r' then ['\\', 'r']
  else if character == '\t' then ['\\', 't']
  else if character == '\x0c' then ['\\', 'f']
  else if character == '\x08' then ['\\', 'b']
  else if character.toNat < 0x20 then
    '\\' :: 'u' :: Text.hexadecimal 4 character.toNat
  else [character]

def renderText (text : Text) : Text :=
  '"' :: text.flatMap escaped ++ ['"']

/-! ## Layout -/

/-- What separates the items inside brackets. Without an indent all stands on
one line; with one, each item begins a line that is indented by its depth. -/
structure Layout where
  indent : Option Nat
  deriving DecidableEq, Repr

namespace Layout

def lineBreak (layout : Layout) (depth : Nat) : Text :=
  match layout.indent with
  | none => []
  | some indent => '\n' :: List.replicate (indent * depth) ' '

def separator (layout : Layout) (depth : Nat) : Text :=
  match layout.indent with
  | none => [',', ' ']
  | some _ => ',' :: layout.lineBreak depth

def bracketed (layout : Layout) (depth : Nat) (opening closing : Char) :
    List Text → Text
  | [] => [opening, closing]
  | items =>
    opening :: layout.lineBreak (depth + 1) ++
      (layout.separator (depth + 1)).intercalate items ++
      layout.lineBreak depth ++ [closing]

end Layout

/-! ## Rendering -/

mutual

def renderAt (layout : Layout) (depth : Nat) : Json → Text
  | .null => ['n', 'u', 'l', 'l']
  | .number value => (toString value).toList
  | .text value => renderText value
  | .array items =>
    layout.bracketed depth '[' ']' (renderItems layout (depth + 1) items)
  | .object members =>
    layout.bracketed depth '\x7b' '\x7d' (renderMembers layout (depth + 1) members)

def renderItems (layout : Layout) (depth : Nat) : List Json → List Text
  | [] => []
  | item :: rest => renderAt layout depth item :: renderItems layout depth rest

def renderMembers (layout : Layout) (depth : Nat) : List (Text × Json) → List Text
  | [] => []
  | (key, value) :: rest =>
    (renderText key ++ [':', ' '] ++ renderAt layout depth value) ::
      renderMembers layout depth rest

end

def render (indent : Option Nat) (value : Json) : Text :=
  renderAt ⟨indent⟩ 0 value

end Json

end QubitLang
