import QubitLang.Ast.Basic

namespace QubitLang

/-! The nodes of a tree in the order in which they begin, a node before the
nodes inside it. -/

inductive NodeKind where
  | number
  | qubit
  | boolean
  | identifier
  | call
  | declare
  | assign
  | callStatement
  | giveBack
  | conditional
  | loop
  | parameter
  | prototype
  | declaration
  | definition
  | program
  deriving DecidableEq, Repr

variable {α : Type}

mutual

def Expression.walk : Expression α → List (NodeKind × α)
  | .number note _ => [(.number, note)]
  | .qubit note _ => [(.qubit, note)]
  | .boolean note _ => [(.boolean, note)]
  | .identifier note _ => [(.identifier, note)]
  | .call note _ arguments => (.call, note) :: Expression.walkAll arguments

def Expression.walkAll : List (Expression α) → List (NodeKind × α)
  | [] => []
  | expression :: rest => expression.walk ++ Expression.walkAll rest

end

mutual

def Statement.walk : Statement α → List (NodeKind × α)
  | .declare note _ _ initial => (.declare, note) :: initial.walk
  | .assign note _ value => (.assign, note) :: value.walk
  | .call note callee arguments =>
    (.callStatement, note) :: (Expression.call note callee arguments).walk
  | .giveBack note value => (.giveBack, note) :: value.walk
  | .ifThen note condition body =>
    (.conditional, note) :: condition.walk ++ Statement.walkAll body
  | .ifThenElse note condition body otherwise =>
    (.conditional, note) :: condition.walk ++ Statement.walkAll body ++
      Statement.walkAll otherwise
  | .loop note condition body =>
    (.loop, note) :: condition.walk ++ Statement.walkAll body

def Statement.walkAll : List (Statement α) → List (NodeKind × α)
  | [] => []
  | statement :: rest => statement.walk ++ Statement.walkAll rest

end

def Prototype.walk (prototype : Prototype α) : List (NodeKind × α) :=
  (.prototype, prototype.note) ::
    prototype.parameters.map fun parameter => (.parameter, parameter.note)

def Item.walk : Item α → List (NodeKind × α)
  | .declaration note prototype => (.declaration, note) :: prototype.walk
  | .definition note prototype body =>
    (.definition, note) :: prototype.walk ++ Statement.walkAll body

def Program.walk (program : Program α) : List (NodeKind × α) :=
  (.program, program.note) :: program.items.flatMap Item.walk

end QubitLang
