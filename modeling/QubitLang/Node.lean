import QubitLang.Json
import QubitLang.Peg.Value
import QubitLang.Text.Lines
import QubitLang.WordSize

namespace QubitLang

/-- The offsets of a node. A hand-made node can lack them, and they need not
bound a span. -/
abbrev Location := Option (Int × Int)

/-- The offsets of a token, of which a hand-made one can lack either. -/
structure Ends where
  start : Option Int
  stop : Option Int
  deriving DecidableEq, Repr

namespace Ends

def between (start stop : Int) : Ends := ⟨some start, some stop⟩

def location (ends : Ends) : Location :=
  ends.start.bind fun start => ends.stop.map fun stop => (start, stop)

@[simp]
theorem location_between (start stop : Int) :
    (between start stop).location = some (start, stop) := rfl

end Ends

inductive Node where
  | tree (rule : String) (location : Location) (children : List Node)
  | token (rule : String) (ends : Ends) (text : Text)
  deriving Repr

namespace Node

def rule : Node → String
  | .tree rule _ _ | .token rule _ _ => rule

def location : Node → Location
  | .tree _ location _ => location
  | .token _ ends _ => ends.location

def hasStart : Node → Bool
  | .tree _ location _ => location.isSome
  | .token _ ends _ => ends.start.isSome

/-! ## Nodes of matches -/

/-- The token of a rule between two offsets of a text, which may be negative. -/
def tokenOf (text : Text) (rule : String) (start stop : Int) : Node :=
  .token rule (.between start stop) (text.slice start stop)

def treeOf (rule : String) (children : List Node) (start stop : Int) : Node :=
  .tree rule (some (start, stop)) children

mutual

def ofValue? : Peg.Value → Option Node
  | .tree rule start stop children =>
    (ofValues? children).map (.tree rule (some (start, stop)))
  | .token rule start stop text => some (.token rule (.between start stop) text)
  | .list _ => none

def ofValues? : List Peg.Value → Option (List Node)
  | [] => some []
  | value :: rest =>
    match ofValue? value, ofValues? rest with
    | some node, some nodes => some (node :: nodes)
    | _, _ => none

end

/-! ## The view as plain data -/

def offsetView (offset : Option Int) : Json :=
  (offset.map .number).getD .null

def endsView (ends : Ends) : Json :=
  .array [offsetView ends.start, offsetView ends.stop]

def locationView : Location → Json
  | none => .null
  | some (start, stop) => endsView (.between start stop)

mutual

/-- A tree is its rule, its span and the nodes inside it; a token is its rule,
its span and its text. A tree without offsets has no span, a token has one that
lacks what the token lacks. -/
def view : Node → Json
  | .tree rule location children =>
    .object
      [("rule".toList, .text rule.toList),
        ("span".toList, locationView location),
        ("inner".toList, .array (viewAll children))]
  | .token rule ends text =>
    .object
      [("rule".toList, .text rule.toList),
        ("span".toList, endsView ends),
        ("text".toList, .text text)]

def viewAll : List Node → List Json
  | [] => []
  | node :: rest => view node :: viewAll rest

end

def toJson (indent : Option Nat) (node : Node) : Text :=
  node.view.render indent

/-- The view as JSON text with an indent that has to fit into a word. A negative
indent has no spaces. -/
def toJsonWith (indent : Option Int) (node : Node) : Except WordOverflow Text :=
  (indent.mapM asWord).map fun indent => node.toJson (indent.map Int.toNat)

end Node

end QubitLang
