import QubitLang.Peg.Grammar

namespace QubitLang.Peg

inductive Value where
  | tree (rule : String) (start stop : Nat) (children : List Value)
  | token (rule : String) (start stop : Nat) (text : Text)
  | list (members : List Value)
  deriving Repr

structure Cursor where
  offset : Nat
  rest : Text
  deriving DecidableEq, Repr

namespace Cursor

def start (text : Text) : Cursor := ⟨0, text⟩

def textUntil (cursor later : Cursor) : Text :=
  cursor.rest.take (later.offset - cursor.offset)

end Cursor

def Terminal.advance? (terminal : Terminal) (cursor : Cursor) : Option Cursor :=
  (terminal.split? cursor.rest).map fun (lexeme, rest) =>
    ⟨cursor.offset + lexeme.length, rest⟩

inductive Outcome where
  | matched (cursor : Cursor) (values : List Value)
  /-- A failure is explained if it names something that is missing. -/
  | failed (explained : Bool)
  | stuck
  deriving Repr

/-- Whether the outcome of a repeated expression explains why there are too few
repetitions: a match does so by its values. -/
def Outcome.explains : Outcome → Bool
  | .matched _ values => !values.isEmpty
  | .failed explained => explained
  | .stuck => true

/-! ## Events -/

inductive Event where
  | matched (rule : String) (start stop : Nat)
  | expected (label : String) (offset : Nat)
  | failed (offset : Nat) (explained : Bool)
  | passed (offset : Nat)
  deriving DecidableEq, Repr

def Outcome.event? (offset : Nat) : Outcome → Option Event
  | .matched _ _ => some (.passed offset)
  | .failed explained => some (.failed offset explained)
  | .stuck => none

def RuleKind.finish (kind : RuleKind) (start stop : Cursor) (values : List Value) :
    List Value × Option Event :=
  match kind with
  | .tree name =>
    ([.tree name start.offset stop.offset values],
      some (.matched name start.offset stop.offset))
  | .token name =>
    ([.token name start.offset stop.offset (start.textUntil stop)],
      some (.matched name start.offset stop.offset))
  | .silent => (values, none)
  | .entry => ([.list values], none)
  | .marker label => ([], some (.expected label start.offset))

end QubitLang.Peg
