import QubitLang.Render.Layout

namespace QubitLang

/-- A hand-made tree: any kind of node may stand in any place, and nothing is
checked before it is rendered. -/
inductive Draft where
  | number (text : Text)
  | qubit (index : Int)
  | boolean (value : Bool)
  | identifier (name : Text)
  | call (callee : Text) (arguments : List Draft)
  | declare (name : Text) (type : BaseType) (initial : Draft)
  | assign (target : Text) (value : Draft)
  | callStatement (expression : Draft)
  | giveBack (value : Draft)
  | ifThen (condition : Draft) (body : List Draft)
  | ifThenElse (condition : Draft) (body otherwise : List Draft)
  | loop (condition : Draft) (body : List Draft)
  | parameter (name : Text) (type : BaseType)
  | prototype (name : Text) (parameters : List Draft) (returnType : Option BaseType)
  | declaration (signature : Draft)
  | definition (signature : Draft) (body : List Draft)
  | program (items : List Draft)
  deriving Repr

namespace Draft

mutual

def renderExpression : Draft → Except RenderError Text
  | .number text => return text
  | .qubit index => return Layout.qubit index
  | .boolean value => return Layout.boolean value
  | .identifier name => Layout.name name
  | .call callee arguments => do
    let arguments ← renderExpressions arguments
    return Layout.call (← Layout.name callee) arguments
  | _ => throw .misplaced

def renderExpressions : List Draft → Except RenderError (List Text)
  | [] => return []
  | draft :: rest => do
    let first ← draft.renderExpression
    return first :: (← renderExpressions rest)

end

mutual

def renderStatement (depth : Int) : Draft → Except RenderError (List Text)
  | .declare name type initial => do
    let name ← Layout.name name
    return [Layout.padding depth ++
      Layout.declare name type (← initial.renderExpression)]
  | .assign target value => do
    let target ← Layout.name target
    return [Layout.padding depth ++ Layout.assign target (← value.renderExpression)]
  | .callStatement expression => do
    return [Layout.padding depth ++ (← expression.renderExpression) ++ [';']]
  | .giveBack value => do
    return [Layout.padding depth ++ Layout.giveBack (← value.renderExpression)]
  | .ifThen condition body => do
    let condition ← condition.renderExpression
    let body ← renderStatements (depth + 1) body
    return (Layout.padding depth ++ Layout.opening .ifWord condition) :: body ++
      [Layout.padding depth ++ Layout.closing]
  | .ifThenElse condition body otherwise => do
    let condition ← condition.renderExpression
    let body ← renderStatements (depth + 1) body
    let otherwise ← renderStatements (depth + 1) otherwise
    return (Layout.padding depth ++ Layout.opening .ifWord condition) :: body ++
      (Layout.padding depth ++ Layout.alternative) :: otherwise ++
      [Layout.padding depth ++ Layout.closing]
  | .loop condition body => do
    let condition ← condition.renderExpression
    let body ← renderStatements (depth + 1) body
    return (Layout.padding depth ++ Layout.opening .whileWord condition) :: body ++
      [Layout.padding depth ++ Layout.closing]
  | _ => throw .misplaced

def renderStatements (depth : Int) : List Draft → Except RenderError (List Text)
  | [] => return []
  | draft :: rest => do
    let first ← draft.renderStatement depth
    return first ++ (← renderStatements depth rest)

end

def renderLines (depth : Int) (draft : Draft) : Except RenderError (List Text) := do
  Layout.checkDepth depth
  draft.renderStatement depth

def renderParameter : Draft → Except RenderError Text
  | .parameter name type => return Layout.parameter (← Layout.name name) type
  | _ => throw .misplaced

def renderPrototype : Draft → Except RenderError Text
  | .prototype name parameters returnType => do
    let parameters ← parameters.mapM renderParameter
    let name ← Layout.name name
    return Layout.prototype name parameters returnType
  | _ => throw .misplaced

def renderItem : Draft → Except RenderError Text
  | .declaration signature => return Layout.declaration (← signature.renderPrototype)
  | .definition signature body => do
    let signature ← signature.renderPrototype
    return Layout.definition signature (← renderStatements 1 body)
  | _ => throw .misplaced

def renderProgram : Draft → Except RenderError Text
  | .program items => return Layout.program (← items.mapM renderItem)
  | _ => throw .misplaced

end Draft

end QubitLang
