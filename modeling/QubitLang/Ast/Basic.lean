import QubitLang.Binary64
import QubitLang.Lexical.Word
import QubitLang.Span

namespace QubitLang

/-! The tree of a program. Every node is annotated: by its span in a parsed
tree, by nothing in a tree that is only to be printed. -/

variable {α β : Type}

inductive Expression (α : Type) where
  | number (note : α) (text : Text)
  | qubit (note : α) (index : Nat)
  | boolean (note : α) (value : Bool)
  | identifier (note : α) (name : Text)
  | call (note : α) (callee : Text) (arguments : List (Expression α))
  deriving Repr

inductive Statement (α : Type) where
  | declare (note : α) (name : Text) (type : BaseType) (initial : Expression α)
  | assign (note : α) (target : Text) (value : Expression α)
  | call (note : α) (callee : Text) (arguments : List (Expression α))
  | giveBack (note : α) (value : Expression α)
  | ifThen (note : α) (condition : Expression α) (body : List (Statement α))
  | ifThenElse (note : α) (condition : Expression α)
      (body otherwise : List (Statement α))
  | loop (note : α) (condition : Expression α) (body : List (Statement α))
  deriving Repr

structure Parameter (α : Type) where
  note : α
  name : Text
  type : BaseType
  deriving DecidableEq, Repr

structure Prototype (α : Type) where
  note : α
  name : Text
  parameters : List (Parameter α)
  returnType : Option BaseType
  deriving DecidableEq, Repr

inductive Item (α : Type) where
  | declaration (note : α) (prototype : Prototype α)
  | definition (note : α) (prototype : Prototype α) (body : List (Statement α))
  deriving Repr

structure Program (α : Type) where
  note : α
  items : List (Item α)
  deriving Repr

/-! ## Annotations -/

def Expression.note : Expression α → α
  | .number note _ | .qubit note _ | .boolean note _ | .identifier note _
  | .call note _ _ => note

def Statement.note : Statement α → α
  | .declare note _ _ _ | .assign note _ _ | .call note _ _ | .giveBack note _
  | .ifThen note _ _ | .ifThenElse note _ _ _ | .loop note _ _ => note

def Item.note : Item α → α
  | .declaration note _ | .definition note _ _ => note

def Item.prototype : Item α → Prototype α
  | .declaration _ prototype | .definition _ prototype _ => prototype

mutual

def Expression.map (change : α → β) : Expression α → Expression β
  | .number note text => .number (change note) text
  | .qubit note index => .qubit (change note) index
  | .boolean note value => .boolean (change note) value
  | .identifier note name => .identifier (change note) name
  | .call note callee arguments =>
    .call (change note) callee (Expression.mapAll change arguments)

def Expression.mapAll (change : α → β) : List (Expression α) → List (Expression β)
  | [] => []
  | expression :: rest => expression.map change :: Expression.mapAll change rest

end

mutual

def Statement.map (change : α → β) : Statement α → Statement β
  | .declare note name type initial =>
    .declare (change note) name type (initial.map change)
  | .assign note target value => .assign (change note) target (value.map change)
  | .call note callee arguments =>
    .call (change note) callee (Expression.mapAll change arguments)
  | .giveBack note value => .giveBack (change note) (value.map change)
  | .ifThen note condition body =>
    .ifThen (change note) (condition.map change) (Statement.mapAll change body)
  | .ifThenElse note condition body otherwise =>
    .ifThenElse (change note) (condition.map change) (Statement.mapAll change body)
      (Statement.mapAll change otherwise)
  | .loop note condition body =>
    .loop (change note) (condition.map change) (Statement.mapAll change body)

def Statement.mapAll (change : α → β) : List (Statement α) → List (Statement β)
  | [] => []
  | statement :: rest => statement.map change :: Statement.mapAll change rest

end

def Parameter.map (change : α → β) (parameter : Parameter α) : Parameter β :=
  { parameter with note := change parameter.note }

def Prototype.map (change : α → β) (prototype : Prototype α) : Prototype β :=
  { prototype with
    note := change prototype.note
    parameters := prototype.parameters.map (Parameter.map change) }

def Item.map (change : α → β) : Item α → Item β
  | .declaration note prototype =>
    .declaration (change note) (prototype.map change)
  | .definition note prototype body =>
    .definition (change note) (prototype.map change) (Statement.mapAll change body)

def Program.map (change : α → β) (program : Program α) : Program β :=
  ⟨change program.note, program.items.map (Item.map change)⟩

/-! ## The operations of a program -/

namespace Program

def prototypes (program : Program α) (select : Item α → Bool) : List (Prototype α) :=
  (program.items.filter select).map Item.prototype

def declarations (program : Program α) : List (Prototype α) :=
  program.prototypes fun item =>
    match item with
    | .declaration _ _ => true
    | .definition _ _ _ => false

def definitions (program : Program α) : List (Prototype α) :=
  program.prototypes fun item =>
    match item with
    | .declaration _ _ => false
    | .definition _ _ _ => true

end Program

end QubitLang
