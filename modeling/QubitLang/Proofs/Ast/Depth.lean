import Mathlib.Order.Lattice
import QubitLang.Proofs.Ast.Tokens
import QubitLang.Proofs.Render.Shallow

/-! How deeply trees nest brackets. -/

namespace QubitLang

variable {α : Type}

/-! ## Trees -/

mutual

/-- How many brackets are open at the deepest place of an expression. -/
def Expression.nesting : Expression α → Nat
  | .number _ _ | .qubit _ _ | .boolean _ _ | .identifier _ _ => 0
  | .call _ _ arguments => Expression.nestingAll arguments + 1

def Expression.nestingAll : List (Expression α) → Nat
  | [] => 0
  | expression :: rest => max expression.nesting (Expression.nestingAll rest)

end

mutual

def Statement.nesting : Statement α → Nat
  | .declare _ _ _ value | .assign _ _ value | .giveBack _ value => value.nesting
  | .call _ _ arguments => Expression.nestingAll arguments + 1
  | .ifThen _ condition body | .loop _ condition body =>
    max condition.nesting (Statement.nestingAll body + 1)
  | .ifThenElse _ condition body otherwise =>
    max condition.nesting
      (max (Statement.nestingAll body + 1) (Statement.nestingAll otherwise + 1))

def Statement.nestingAll : List (Statement α) → Nat
  | [] => 0
  | statement :: rest => max statement.nesting (Statement.nestingAll rest)

end

def Item.nesting : Item α → Nat
  | .declaration _ _ => 1
  | .definition _ _ body => max 1 (Statement.nestingAll body + 1)

def Item.nestingAll : List (Item α) → Nat
  | [] => 0
  | item :: rest => max item.nesting (Item.nestingAll rest)

def Program.nesting (program : Program α) : Nat := Item.nestingAll program.items

/-! ## Tokens -/

/-- Tokens that leave all brackets as they were, and open so many at their deepest place. -/
structure Deepens (tokens : List Token) (amount : Nat) : Prop where
  balanced : ∀ depth, tokens.foldl Token.depthAfter depth = depth
  within_iff : ∀ limit depth, StaysWithin limit depth tokens ↔ depth + amount ≤ limit

namespace Deepens

variable {token opening closing : Token} {tokens more : List Token} {amount other : Nat}

theorem nil : Deepens [] 0 := ⟨fun _ => rfl, fun _ _ => staysWithin_nil_iff⟩

theorem append (first : Deepens tokens amount) (second : Deepens more other) :
    Deepens (tokens ++ more) (max amount other) where
  balanced depth := by rw [List.foldl_append, first.balanced, second.balanced]
  within_iff limit depth := by
    rw [staysWithin_append_iff, first.balanced, first.within_iff, second.within_iff]
    omega

theorem cons (flat : ∀ depth, token.depthAfter depth = depth) (later : Deepens tokens amount) :
    Deepens (token :: tokens) amount where
  balanced depth := by rw [List.foldl_cons, flat, later.balanced]
  within_iff limit depth := by
    rw [staysWithin_cons_iff, flat, later.within_iff]
    omega

theorem singleton (flat : ∀ depth, token.depthAfter depth = depth) : Deepens [token] 0 :=
  nil.cons flat

theorem wrap (opens : ∀ depth, opening.depthAfter depth = depth + 1)
    (closes : ∀ depth, closing.depthAfter depth = depth - 1) (inside : Deepens tokens amount) :
    Deepens (opening :: (tokens ++ [closing])) (amount + 1) where
  balanced depth := by
    rw [List.foldl_cons, opens, List.foldl_append, inside.balanced]
    exact closes (depth + 1)
  within_iff limit depth := by
    rw [staysWithin_cons_iff, opens, staysWithin_append_iff, inside.balanced, inside.within_iff,
      staysWithin_cons_iff, staysWithin_nil_iff, closes]
    omega

theorem block (inside : Deepens tokens amount) : Deepens (Token.block tokens) (amount + 1) :=
  inside.wrap (fun _ => rfl) fun _ => rfl

theorem flat (each : ∀ token ∈ tokens, ∀ depth, token.depthAfter depth = depth) :
    Deepens tokens 0 := by
  induction tokens with
  | nil => exact nil
  | cons token tokens induction =>
      rw [List.forall_mem_cons] at each
      exact (induction each.2).cons each.1

theorem commaSeparated_cons {parts : List (List Token)} (first : Deepens tokens amount)
    (others : Deepens (Token.commaSeparated parts) other) :
    Deepens (Token.commaSeparated (tokens :: parts)) (max amount other) := by
  cases parts with
  | nil =>
      have none : other = 0 := by
        have bound := (others.within_iff 0 0).mp (nil.within_iff 0 0 |>.mpr (Nat.le_refl _))
        omega
      rw [Token.commaSeparated_singleton, none, Nat.max_zero]
      exact first
  | cons second parts =>
      rw [Token.commaSeparated_cons_cons]
      exact first.append (others.cons fun _ => rfl)

theorem nestsWithin_iff (deepens : Deepens tokens amount) (limit : Nat) :
    NestsWithin limit tokens ↔ amount ≤ limit := by
  have within := deepens.within_iff limit 0
  rwa [Nat.zero_add] at within

end Deepens

mutual

theorem Expression.deepens : ∀ expression : Expression α,
    Deepens expression.tokens expression.nesting
  | .number _ _ | .qubit _ _ | .boolean _ _ | .identifier _ _ => .singleton fun _ => rfl
  | .call _ _ arguments =>
      ((Expression.deepens_each arguments).wrap (fun _ => rfl) fun _ => rfl).cons fun _ => rfl

theorem Expression.deepens_each : ∀ expressions : List (Expression α),
    Deepens (Token.commaSeparated (Expression.tokensEach expressions))
      (Expression.nestingAll expressions)
  | [] => .nil
  | expression :: rest => .commaSeparated_cons expression.deepens (Expression.deepens_each rest)

end

theorem Expression.deepens_until (expression : Expression α) :
    Deepens (expression.tokens ++ [.sign .semicolon]) expression.nesting := by
  have semicolon : Deepens [Token.sign .semicolon] 0 := .singleton fun _ => rfl
  have whole := expression.deepens.append semicolon
  rwa [Nat.max_zero] at whole

mutual

theorem Statement.deepens : ∀ statement : Statement α,
    Deepens statement.tokens statement.nesting
  | .declare _ _ _ value =>
      ((((value.deepens_until.cons fun _ => rfl).cons fun _ => rfl).cons fun _ => rfl).cons
        fun _ => rfl).cons fun _ => rfl
  | .assign _ _ value => (value.deepens_until.cons fun _ => rfl).cons fun _ => rfl
  | .call note callee arguments => (Expression.call note callee arguments).deepens_until
  | .giveBack _ value => value.deepens_until.cons fun _ => rfl
  | .ifThen _ condition body | .loop _ condition body =>
      (condition.deepens.append (Statement.deepens_all body).block).cons fun _ => rfl
  | .ifThenElse _ condition body otherwise =>
      (condition.deepens.append ((Statement.deepens_all body).block.append
        ((Statement.deepens_all otherwise).block.cons fun _ => rfl))).cons fun _ => rfl

theorem Statement.deepens_all : ∀ statements : List (Statement α),
    Deepens (Statement.tokensAll statements) (Statement.nestingAll statements)
  | [] => .nil
  | statement :: rest => statement.deepens.append (Statement.deepens_all rest)

end

theorem Parameter.deepens (parameter : Parameter α) : Deepens parameter.tokens 0 :=
  .flat (by simp [tokens, Token.typeName, Token.depthAfter])

theorem Parameter.deepens_each : ∀ parameters : List (Parameter α),
    Deepens (Token.commaSeparated (parameters.map Parameter.tokens)) 0
  | [] => .nil
  | parameter :: rest => parameter.deepens.commaSeparated_cons (Parameter.deepens_each rest)

theorem Prototype.deepens (prototype : Prototype α) : Deepens prototype.tokens 1 := by
  have parameters : Deepens (.sign .openParen ::
      (Token.commaSeparated (prototype.parameters.map Parameter.tokens) ++
        [.sign .closeParen])) 1 :=
    (Parameter.deepens_each prototype.parameters).wrap (fun _ => rfl) fun _ => rfl
  have result : Deepens (Token.result prototype.returnType) 0 := by
    cases prototype.returnType with
    | none => exact .nil
    | some type => exact (Deepens.singleton fun _ => rfl).cons fun _ => rfl
  have whole : Deepens (.word prototype.name :: _) _ := (parameters.append result).cons fun _ => rfl
  simpa [tokens] using whole

theorem Item.deepens : ∀ item : Item α, Deepens item.tokens item.nesting
  | .declaration _ prototype => by
      have semicolon : Deepens [Token.sign .semicolon] 0 := .singleton fun _ => rfl
      exact (prototype.deepens.append semicolon).cons fun _ => rfl
  | .definition _ prototype body =>
      (prototype.deepens.append (Statement.deepens_all body).block).cons fun _ => rfl

theorem Item.deepens_all : ∀ items : List (Item α),
    Deepens (items.flatMap Item.tokens) (Item.nestingAll items)
  | [] => .nil
  | item :: rest => by
      rw [List.flatMap_cons]
      exact item.deepens.append (Item.deepens_all rest)

/-- The canonical tokens of a program nest exactly as deeply as its tree. -/
theorem Program.nestsWithin_iff (program : Program α) (limit : Nat) :
    NestsWithin limit program.tokens ↔ program.nesting ≤ limit :=
  (Item.deepens_all program.items).nestsWithin_iff limit

end QubitLang
