import QubitLang.Ast.Basic

namespace QubitLang

/-! Trees that differ at most in their annotations. -/

variable {α β : Type}

mutual

def Expression.same : Expression α → Expression β → Bool
  | .number _ left, .number _ right => left == right
  | .qubit _ left, .qubit _ right => left == right
  | .boolean _ left, .boolean _ right => left == right
  | .identifier _ left, .identifier _ right => left == right
  | .call _ left leftArguments, .call _ right rightArguments =>
    left == right && Expression.sameAll leftArguments rightArguments
  | _, _ => false

def Expression.sameAll : List (Expression α) → List (Expression β) → Bool
  | [], [] => true
  | left :: lefts, right :: rights =>
    left.same right && Expression.sameAll lefts rights
  | _, _ => false

end

mutual

def Statement.same : Statement α → Statement β → Bool
  | .declare _ leftName leftType left, .declare _ rightName rightType right =>
    leftName == rightName && leftType == rightType && left.same right
  | .assign _ leftTarget left, .assign _ rightTarget right =>
    leftTarget == rightTarget && left.same right
  | .call _ left leftArguments, .call _ right rightArguments =>
    left == right && Expression.sameAll leftArguments rightArguments
  | .giveBack _ left, .giveBack _ right => left.same right
  | .ifThen _ left leftBody, .ifThen _ right rightBody =>
    left.same right && Statement.sameAll leftBody rightBody
  | .ifThenElse _ left leftBody leftElse, .ifThenElse _ right rightBody rightElse =>
    left.same right && Statement.sameAll leftBody rightBody &&
      Statement.sameAll leftElse rightElse
  | .loop _ left leftBody, .loop _ right rightBody =>
    left.same right && Statement.sameAll leftBody rightBody
  | _, _ => false

def Statement.sameAll : List (Statement α) → List (Statement β) → Bool
  | [], [] => true
  | left :: lefts, right :: rights =>
    left.same right && Statement.sameAll lefts rights
  | _, _ => false

end

def Parameter.same (left : Parameter α) (right : Parameter β) : Bool :=
  left.name == right.name && left.type == right.type

def Parameter.sameAll : List (Parameter α) → List (Parameter β) → Bool
  | [], [] => true
  | left :: lefts, right :: rights =>
    left.same right && Parameter.sameAll lefts rights
  | _, _ => false

def Prototype.same (left : Prototype α) (right : Prototype β) : Bool :=
  left.name == right.name && Parameter.sameAll left.parameters right.parameters &&
    left.returnType == right.returnType

def Item.same : Item α → Item β → Bool
  | .declaration _ left, .declaration _ right => left.same right
  | .definition _ left leftBody, .definition _ right rightBody =>
    left.same right && Statement.sameAll leftBody rightBody
  | _, _ => false

def Item.sameAll : List (Item α) → List (Item β) → Bool
  | [], [] => true
  | left :: lefts, right :: rights => left.same right && Item.sameAll lefts rights
  | _, _ => false

def Program.same (left : Program α) (right : Program β) : Bool :=
  Item.sameAll left.items right.items

end QubitLang
