import QubitLang.Node
import QubitLang.Options
import QubitLang.SyntaxError

namespace QubitLang

/-! The bookkeeping of one match: what was expected on the way, the nodes that its rules
contribute, and the error that it is reported as where it fails. -/

/-- What one match keeps. Of the labels that are expected, each is kept once. -/
@[ext] structure Tracker where
  text : Text
  options : Options
  expectations : Expectations
  ascending : expectations.labels.Pairwise (· < ·)
  deriving DecidableEq, Repr

namespace Tracker

def start (text : Text) (options : Options) : Tracker :=
  ⟨text, options, .none, .nil⟩

def furthest (tracker : Tracker) : Int := tracker.expectations.furthest

def labels (tracker : Tracker) : List String := tracker.expectations.labels

def lines (tracker : Tracker) : LineIndex := .ofText tracker.text

/-! ## What is asked of a tracker -/

def fail (tracker : Tracker) (offset : Int) (label : String) : Tracker :=
  { tracker with
    expectations := tracker.expectations.record offset label
    ascending := Expectations.pairwise_record tracker.ascending offset label }

def failLine? (tracker : Tracker) (offset : Int) (label : String) : Option String :=
  if tracker.options.trace then some s!"expected {label} at {offset}" else none

def token (tracker : Tracker) (rule : String) (start stop : Int) : Node × Extent :=
  (.tokenOf tracker.text rule start stop, tracker.lines.extent start stop)

def tree (tracker : Tracker) (rule : String) (children : List Node) (start stop : Int) :
    Node × Extent :=
  (.treeOf rule children start stop, tracker.lines.extent start stop)

def syntaxError (tracker : Tracker) (tooDeep : Bool) (place : Option (Int × List String))
    (summary : String) : Except InvalidSpan SyntaxError :=
  let (offset, expected) := place.getD (max tracker.furthest 0, tracker.labels)
  SyntaxError.atSignedOffset tracker.text offset expected tooDeep summary

/-! ## Steps -/

inductive Step where
  | fail (offset : Int) (label : String)
  | token (rule : String) (start stop : Int)
  | tree (rule : String) (children : List Node) (start stop : Int)
  | syntaxError (tooDeep : Bool) (place : Option (Int × List String)) (summary : String)
  deriving Repr

inductive Answer where
  | noted (line : Option String)
  | node (node : Node) (extent : Extent)
  | syntaxError (result : Except InvalidSpan SyntaxError)

def take (tracker : Tracker) : Step → Answer × Tracker
  | .fail offset label => (.noted (tracker.failLine? offset label), tracker.fail offset label)
  | .token rule start stop =>
    let (node, extent) := tracker.token rule start stop
    (.node node extent, tracker)
  | .tree rule children start stop =>
    let (node, extent) := tracker.tree rule children start stop
    (.node node extent, tracker)
  | .syntaxError tooDeep place summary =>
    (.syntaxError (tracker.syntaxError tooDeep place summary), tracker)

end Tracker

end QubitLang
