import QubitLang.Lexical.Word
import QubitLang.Text.Quoted
import QubitLang.WordSize

namespace QubitLang

inductive RenderError where
  | notAnIdentifier (name : Text)
  | misplaced
  | tooDeep (overflow : WordOverflow)
  deriving DecidableEq, Repr

def RenderError.message : RenderError → String
  | .notAnIdentifier name => s!"cannot render {name.quoted} as an identifier"
  | .misplaced => "node of a kind that has no place here"
  | .tooDeep overflow => overflow.message

namespace Layout

/-! The canonical layout: four spaces for each level, one statement a line,
single spaces between words, a comma and a space between list items. Texts of
the parts are put together here; the trees are walked elsewhere. -/

def name (name : Text) : Except RenderError Text :=
  if Lexical.isIdentifier name then .ok name else .error (.notAnIdentifier name)

def typeName (type : BaseType) : Text := type.spelling.toList

/-- The spaces that begin a line at a depth; a negative depth has none. -/
def padding (depth : Int) : Text := List.replicate (4 * depth.toNat) ' '

/-- Refuses a depth that does not fit into a word, or whose spaces do not. -/
def checkDepth (depth : Int) : Except RenderError Unit :=
  match asWord depth, asWord (4 * max depth 0) with
  | .ok _, .ok _ => .ok ()
  | .error overflow, _ | _, .error overflow => .error (.tooDeep overflow)

def boolean (value : Bool) : Text :=
  (if value then Keyword.trueWord else Keyword.falseWord).spelling.toList

def qubit (index : Int) : Text := '%' :: (toString index).toList

def call (callee : Text) (arguments : List Text) : Text :=
  callee ++ ['('] ++ Text.commaSeparated arguments ++ [')']

def declare (name : Text) (type : BaseType) (initial : Text) : Text :=
  "var ".toList ++ name ++ [':', ' '] ++ typeName type ++ [' ', '=', ' '] ++
    initial ++ [';']

def assign (target value : Text) : Text :=
  target ++ [' ', '=', ' '] ++ value ++ [';']

def giveBack (value : Text) : Text := "return ".toList ++ value ++ [';']

def opening (keyword : Keyword) (condition : Text) : Text :=
  keyword.spelling.toList ++ [' '] ++ condition ++ [' ', '\x7b']

def alternative : Text := "\x7d else \x7b".toList

def closing : Text := ['\x7d']

def parameter (name : Text) (type : BaseType) : Text :=
  name ++ [':', ' '] ++ typeName type

def prototype (name : Text) (parameters : List Text) (returnType : Option BaseType) :
    Text :=
  call name parameters ++
    match returnType with
    | none => []
    | some type => " -> ".toList ++ typeName type

def declaration (prototype : Text) : Text :=
  "extern ".toList ++ prototype ++ [';']

def definition (prototype : Text) (body : List Text) : Text :=
  ['\n'].intercalate
    (("def ".toList ++ prototype ++ [' ', '\x7b']) :: body ++ [closing])

def program : List Text → Text
  | [] => []
  | items => ['\n', '\n'].intercalate items ++ ['\n']

end Layout

end QubitLang
