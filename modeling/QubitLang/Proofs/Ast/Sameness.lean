import QubitLang.Ast.Same

/-! Trees that agree once their annotations are changed differ at most in these. -/

namespace QubitLang

variable {α β γ : Type} {change : α → γ} {otherChange : β → γ}

mutual

theorem Expression.same_of_map_eq : ∀ {left : Expression α} {right : Expression β},
    left.map change = right.map otherChange → left.same right = true
  | .number _ _, right, equal | .qubit _ _, right, equal | .boolean _ _, right, equal
  | .identifier _ _, right, equal => by
      cases right <;> simp_all [map, same]
  | .call _ _ arguments, right, equal => by
      cases right with
      | call _ _ others =>
          rw [map, map, call.injEq] at equal
          simp [same, equal.2.1, Expression.sameAll_of_mapAll_eq equal.2.2]
      | _ => cases equal

theorem Expression.sameAll_of_mapAll_eq : ∀ {lefts : List (Expression α)}
    {rights : List (Expression β)},
    Expression.mapAll change lefts = Expression.mapAll otherChange rights →
      Expression.sameAll lefts rights = true
  | [], [], _ => rfl
  | [], _ :: _, equal => by cases equal
  | _ :: _, [], equal => by cases equal
  | left :: lefts, right :: rights, equal => by
      rw [mapAll, mapAll, List.cons.injEq] at equal
      rw [sameAll, Expression.same_of_map_eq equal.1, Expression.sameAll_of_mapAll_eq equal.2]
      rfl

end

mutual

theorem Statement.same_of_map_eq : ∀ {left : Statement α} {right : Statement β},
    left.map change = right.map otherChange → left.same right = true
  | .declare _ _ _ initial, right, equal => by
      cases right with
      | declare _ _ _ other =>
          rw [map, map, declare.injEq] at equal
          simp [same, equal.2.1, equal.2.2.1, Expression.same_of_map_eq equal.2.2.2]
      | _ => cases equal
  | .assign _ _ value, right, equal => by
      cases right with
      | assign _ _ other =>
          rw [map, map, assign.injEq] at equal
          simp [same, equal.2.1, Expression.same_of_map_eq equal.2.2]
      | _ => cases equal
  | .call _ _ arguments, right, equal => by
      cases right with
      | call _ _ others =>
          rw [map, map, call.injEq] at equal
          simp [same, equal.2.1, Expression.sameAll_of_mapAll_eq equal.2.2]
      | _ => cases equal
  | .giveBack _ value, right, equal => by
      cases right with
      | giveBack _ other =>
          rw [map, map, giveBack.injEq] at equal
          rw [same, Expression.same_of_map_eq equal.2]
      | _ => cases equal
  | .ifThen _ condition body, right, equal => by
      cases right with
      | ifThen _ other otherBody =>
          rw [map, map, ifThen.injEq] at equal
          simp [same, Expression.same_of_map_eq equal.2.1,
            Statement.sameAll_of_mapAll_eq equal.2.2]
      | _ => cases equal
  | .ifThenElse _ condition body otherwise, right, equal => by
      cases right with
      | ifThenElse _ other otherBody otherElse =>
          rw [map, map, ifThenElse.injEq] at equal
          simp [same, Expression.same_of_map_eq equal.2.1,
            Statement.sameAll_of_mapAll_eq equal.2.2.1,
            Statement.sameAll_of_mapAll_eq equal.2.2.2]
      | _ => cases equal
  | .loop _ condition body, right, equal => by
      cases right with
      | loop _ other otherBody =>
          rw [map, map, loop.injEq] at equal
          simp [same, Expression.same_of_map_eq equal.2.1,
            Statement.sameAll_of_mapAll_eq equal.2.2]
      | _ => cases equal

theorem Statement.sameAll_of_mapAll_eq : ∀ {lefts : List (Statement α)}
    {rights : List (Statement β)},
    Statement.mapAll change lefts = Statement.mapAll otherChange rights →
      Statement.sameAll lefts rights = true
  | [], [], _ => rfl
  | [], _ :: _, equal => by cases equal
  | _ :: _, [], equal => by cases equal
  | left :: lefts, right :: rights, equal => by
      rw [mapAll, mapAll, List.cons.injEq] at equal
      rw [sameAll, Statement.same_of_map_eq equal.1, Statement.sameAll_of_mapAll_eq equal.2]
      rfl

end

theorem Parameter.sameAll_of_map_eq : ∀ {lefts : List (Parameter α)}
    {rights : List (Parameter β)},
    lefts.map (Parameter.map change) = rights.map (Parameter.map otherChange) →
      Parameter.sameAll lefts rights = true
  | [], [], _ => rfl
  | [], _ :: _, equal => by cases equal
  | _ :: _, [], equal => by cases equal
  | left :: lefts, right :: rights, equal => by
      rw [List.map_cons, List.map_cons, List.cons.injEq, Parameter.map, Parameter.map,
        Parameter.mk.injEq] at equal
      simp [sameAll, same, equal.1.2.1, equal.1.2.2, Parameter.sameAll_of_map_eq equal.2]

theorem Prototype.same_of_map_eq {left : Prototype α} {right : Prototype β}
    (equal : left.map change = right.map otherChange) : left.same right = true := by
  rw [map, map, mk.injEq] at equal
  simp [same, equal.2.1, Parameter.sameAll_of_map_eq equal.2.2.1, equal.2.2.2]

theorem Item.same_of_map_eq {left : Item α} {right : Item β}
    (equal : left.map change = right.map otherChange) : left.same right = true := by
  cases left with
  | declaration _ prototype =>
      cases right with
      | declaration _ other =>
          rw [map, map, declaration.injEq] at equal
          exact Prototype.same_of_map_eq equal.2
      | definition => cases equal
  | definition _ prototype body =>
      cases right with
      | declaration => cases equal
      | definition _ other otherBody =>
          rw [map, map, definition.injEq] at equal
          simp [same, Prototype.same_of_map_eq equal.2.1,
            Statement.sameAll_of_mapAll_eq equal.2.2]

theorem Item.sameAll_of_map_eq : ∀ {lefts : List (Item α)} {rights : List (Item β)},
    lefts.map (Item.map change) = rights.map (Item.map otherChange) →
      Item.sameAll lefts rights = true
  | [], [], _ => rfl
  | [], _ :: _, equal => by cases equal
  | _ :: _, [], equal => by cases equal
  | left :: lefts, right :: rights, equal => by
      rw [List.map_cons, List.map_cons, List.cons.injEq] at equal
      rw [sameAll, Item.same_of_map_eq equal.1, Item.sameAll_of_map_eq equal.2]
      rfl

end QubitLang
