import QubitLang.Ast.Basic
import QubitLang.Render.Layout

namespace QubitLang

/-! The canonical source text of program trees. Annotations are not looked at.
The only trees without a source text are those with a name that is not one. -/

variable {α : Type}

mutual

def Expression.render : Expression α → Except RenderError Text
  | .number _ text => return text
  | .qubit _ index => return Layout.qubit index
  | .boolean _ value => return Layout.boolean value
  | .identifier _ name => Layout.name name
  | .call _ callee arguments => do
    let arguments ← Expression.renderAll arguments
    return Layout.call (← Layout.name callee) arguments

def Expression.renderAll : List (Expression α) → Except RenderError (List Text)
  | [] => return []
  | expression :: rest => do
    let first ← expression.render
    return first :: (← Expression.renderAll rest)

end

mutual

def Statement.render (depth : Nat) : Statement α → Except RenderError (List Text)
  | .declare _ name type initial => do
    let name ← Layout.name name
    return [Layout.padding depth ++ Layout.declare name type (← initial.render)]
  | .assign _ target value => do
    let target ← Layout.name target
    return [Layout.padding depth ++ Layout.assign target (← value.render)]
  | .call note callee arguments => do
    let call ← (Expression.call note callee arguments).render
    return [Layout.padding depth ++ call ++ [';']]
  | .giveBack _ value => do
    return [Layout.padding depth ++ Layout.giveBack (← value.render)]
  | .ifThen _ condition body => do
    let condition ← condition.render
    let body ← Statement.renderAll (depth + 1) body
    return (Layout.padding depth ++ Layout.opening .ifWord condition) :: body ++
      [Layout.padding depth ++ Layout.closing]
  | .ifThenElse _ condition body otherwise => do
    let condition ← condition.render
    let body ← Statement.renderAll (depth + 1) body
    let otherwise ← Statement.renderAll (depth + 1) otherwise
    return (Layout.padding depth ++ Layout.opening .ifWord condition) :: body ++
      (Layout.padding depth ++ Layout.alternative) :: otherwise ++
      [Layout.padding depth ++ Layout.closing]
  | .loop _ condition body => do
    let condition ← condition.render
    let body ← Statement.renderAll (depth + 1) body
    return (Layout.padding depth ++ Layout.opening .whileWord condition) :: body ++
      [Layout.padding depth ++ Layout.closing]

def Statement.renderAll (depth : Nat) :
    List (Statement α) → Except RenderError (List Text)
  | [] => return []
  | statement :: rest => do
    let first ← statement.render depth
    return first ++ (← Statement.renderAll depth rest)

end

def Parameter.render (parameter : Parameter α) : Except RenderError Text := do
  return Layout.parameter (← Layout.name parameter.name) parameter.type

def Prototype.render (prototype : Prototype α) : Except RenderError Text := do
  let parameters ← prototype.parameters.mapM Parameter.render
  let name ← Layout.name prototype.name
  return Layout.prototype name parameters prototype.returnType

def Item.render : Item α → Except RenderError Text
  | .declaration _ prototype => return Layout.declaration (← prototype.render)
  | .definition _ prototype body => do
    let prototype ← prototype.render
    return Layout.definition prototype (← Statement.renderAll 1 body)

def Program.render (program : Program α) : Except RenderError Text := do
  return Layout.program (← program.items.mapM Item.render)

end QubitLang
