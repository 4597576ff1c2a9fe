import QubitLang.Ast.Same
import QubitLang.Render.Program

/-! Trees that differ at most in their annotations have one canonical text. -/

namespace QubitLang

variable {α β : Type}

mutual

theorem Expression.render_eq_of_same : ∀ {left : Expression α} {right : Expression β},
    left.same right = true → left.render = right.render
  | .number _ _, right, same => by
      cases right with
      | number _ _ =>
          simp only [Expression.same, beq_iff_eq] at same
          rw [render, render, same]
      | _ => simp [Expression.same] at same
  | .qubit _ _, right, same => by
      cases right with
      | qubit _ _ =>
          simp only [Expression.same, beq_iff_eq] at same
          rw [render, render, same]
      | _ => simp [Expression.same] at same
  | .boolean _ _, right, same => by
      cases right with
      | boolean _ _ =>
          simp only [Expression.same, beq_iff_eq] at same
          rw [render, render, same]
      | _ => simp [Expression.same] at same
  | .identifier _ _, right, same => by
      cases right with
      | identifier _ _ =>
          simp only [Expression.same, beq_iff_eq] at same
          rw [render, render, same]
      | _ => simp [Expression.same] at same
  | .call _ _ _, right, same => by
      cases right with
      | call _ _ _ =>
          simp only [Expression.same, Bool.and_eq_true, beq_iff_eq] at same
          rw [render, render, same.1, Expression.renderAll_eq_of_same same.2]
      | _ => simp [Expression.same] at same

theorem Expression.renderAll_eq_of_same : ∀ {left : List (Expression α)}
    {right : List (Expression β)}, Expression.sameAll left right = true →
      Expression.renderAll left = Expression.renderAll right
  | [], right, same => by
      cases right with
      | nil => rw [renderAll, renderAll]
      | cons _ _ => simp [sameAll] at same
  | _ :: _, right, same => by
      cases right with
      | nil => simp [sameAll] at same
      | cons _ _ =>
          rw [sameAll, Bool.and_eq_true] at same
          rw [renderAll, renderAll, render_eq_of_same same.1, renderAll_eq_of_same same.2]

end

mutual

theorem Statement.render_eq_of_same : ∀ {left : Statement α} {right : Statement β} (depth : Nat),
    left.same right = true → left.render depth = right.render depth
  | .declare _ _ _ _, right, depth, same => by
      cases right with
      | declare _ _ _ _ =>
          simp only [Statement.same, Bool.and_eq_true, beq_iff_eq] at same
          rw [render, render, same.1.1, same.1.2, Expression.render_eq_of_same same.2]
      | _ => simp [Statement.same] at same
  | .assign _ _ _, right, depth, same => by
      cases right with
      | assign _ _ _ =>
          simp only [Statement.same, Bool.and_eq_true, beq_iff_eq] at same
          rw [render, render, same.1, Expression.render_eq_of_same same.2]
      | _ => simp [Statement.same] at same
  | .call note callee arguments, right, depth, same => by
      cases right with
      | call otherNote other others =>
          have call : (Expression.call note callee arguments).same
              (Expression.call otherNote other others) = true := same
          rw [render, render, Expression.render_eq_of_same call]
      | _ => simp [Statement.same] at same
  | .giveBack _ _, right, depth, same => by
      cases right with
      | giveBack _ _ =>
          rw [Statement.same] at same
          rw [render, render, Expression.render_eq_of_same same]
      | _ => simp [Statement.same] at same
  | .ifThen _ _ _, right, depth, same => by
      cases right with
      | ifThen _ _ _ =>
          rw [Statement.same, Bool.and_eq_true] at same
          rw [render, render, Expression.render_eq_of_same same.1,
            Statement.renderAll_eq_of_same (depth + 1) same.2]
      | _ => simp [Statement.same] at same
  | .ifThenElse _ _ _ _, right, depth, same => by
      cases right with
      | ifThenElse _ _ _ _ =>
          rw [Statement.same, Bool.and_eq_true, Bool.and_eq_true] at same
          rw [render, render, Expression.render_eq_of_same same.1.1,
            Statement.renderAll_eq_of_same (depth + 1) same.1.2,
            Statement.renderAll_eq_of_same (depth + 1) same.2]
      | _ => simp [Statement.same] at same
  | .loop _ _ _, right, depth, same => by
      cases right with
      | loop _ _ _ =>
          rw [Statement.same, Bool.and_eq_true] at same
          rw [render, render, Expression.render_eq_of_same same.1,
            Statement.renderAll_eq_of_same (depth + 1) same.2]
      | _ => simp [Statement.same] at same

theorem Statement.renderAll_eq_of_same : ∀ {left : List (Statement α)}
    {right : List (Statement β)} (depth : Nat), Statement.sameAll left right = true →
      Statement.renderAll depth left = Statement.renderAll depth right
  | [], right, depth, same => by
      cases right with
      | nil => rw [renderAll, renderAll]
      | cons _ _ => simp [sameAll] at same
  | _ :: _, right, depth, same => by
      cases right with
      | nil => simp [sameAll] at same
      | cons _ _ =>
          rw [sameAll, Bool.and_eq_true] at same
          rw [renderAll, renderAll, render_eq_of_same depth same.1,
            renderAll_eq_of_same depth same.2]

end

theorem Parameter.render_eq_of_same {left : Parameter α} {right : Parameter β}
    (same : left.same right = true) : left.render = right.render := by
  simp only [Parameter.same, Bool.and_eq_true, beq_iff_eq] at same
  rw [render, render, same.1, same.2]

theorem Parameter.mapM_render_eq_of_same : ∀ {left : List (Parameter α)}
    {right : List (Parameter β)}, Parameter.sameAll left right = true →
      left.mapM Parameter.render = right.mapM Parameter.render
  | [], [], _ => rfl
  | [], _ :: _, same => by cases same
  | _ :: _, [], same => by cases same
  | _ :: _, _ :: _, same => by
      rw [sameAll, Bool.and_eq_true] at same
      rw [List.mapM_cons, List.mapM_cons, render_eq_of_same same.1, mapM_render_eq_of_same same.2]

theorem Prototype.render_eq_of_same {left : Prototype α} {right : Prototype β}
    (same : left.same right = true) : left.render = right.render := by
  simp only [Prototype.same, Bool.and_eq_true, beq_iff_eq] at same
  rw [render, render, same.1.1, same.2, Parameter.mapM_render_eq_of_same same.1.2]

theorem Item.render_eq_of_same {left : Item α} {right : Item β}
    (same : left.same right = true) : left.render = right.render := by
  cases left with
  | declaration _ _ =>
      cases right with
      | declaration _ _ => rw [render, render, Prototype.render_eq_of_same same]
      | definition _ _ _ => cases same
  | definition _ _ _ =>
      cases right with
      | declaration _ _ => cases same
      | definition _ _ _ =>
          rw [Item.same, Bool.and_eq_true] at same
          rw [render, render, Prototype.render_eq_of_same same.1,
            Statement.renderAll_eq_of_same 1 same.2]

theorem Item.mapM_render_eq_of_same : ∀ {left : List (Item α)} {right : List (Item β)},
    Item.sameAll left right = true → left.mapM Item.render = right.mapM Item.render
  | [], [], _ => rfl
  | [], _ :: _, same => by cases same
  | _ :: _, [], same => by cases same
  | _ :: _, _ :: _, same => by
      rw [sameAll, Bool.and_eq_true] at same
      rw [List.mapM_cons, List.mapM_cons, render_eq_of_same same.1, mapM_render_eq_of_same same.2]

theorem Program.render_eq_of_same {left : Program α} {right : Program β}
    (same : left.same right = true) : left.render = right.render := by
  rw [render, render, Item.mapM_render_eq_of_same same]

end QubitLang
