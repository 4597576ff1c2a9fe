import QubitLang.Ast.Walk
import QubitLang.Proofs.Language.Parsing
import QubitLang.Proofs.Language.Placement

/-! The nodes of a tree in the order in which they begin. A walk that comes to a node before
the nodes inside it never goes back in the source text. -/

namespace QubitLang

open QubitLang.Language

/-! ## Walks that go on -/

/-- The spans of a walk begin one behind the other, between two offsets. -/
inductive Ascends : Nat → Nat → List (NodeKind × Span) → Prop where
  | nil {lower upper : Nat} (ordered : lower ≤ upper) : Ascends lower upper []
  | cons {lower upper : Nat} {kind : NodeKind} {span : Span} {rest : List (NodeKind × Span)}
      (ordered : lower ≤ span.start) (later : Ascends span.start upper rest) :
      Ascends lower upper ((kind, span) :: rest)

namespace Ascends

variable {lower middle between upper : Nat} {walk more : List (NodeKind × Span)}

theorem from_le (ordered : lower ≤ middle) (ascends : Ascends middle upper walk) :
    Ascends lower upper walk := by
  cases ascends with
  | nil within => exact .nil (Nat.le_trans ordered within)
  | cons within later => exact .cons (Nat.le_trans ordered within) later

theorem append (ascends : Ascends lower middle walk) (later : Ascends middle upper more) :
    Ascends lower upper (walk ++ more) := by
  induction ascends with
  | nil within => exact later.from_le within
  | cons within _ induction => exact .cons within (induction later)

theorem le_start (ascends : Ascends lower upper walk) :
    ∀ entry ∈ walk, lower ≤ entry.2.start := by
  induction ascends with
  | nil _ => exact nofun
  | cons within _ induction =>
      intro entry member
      rcases List.mem_cons.mp member with rfl | later
      · exact within
      · exact Nat.le_trans within (induction entry later)

theorem pairwise (ascends : Ascends lower upper walk) :
    (walk.map fun entry => entry.2.start).Pairwise (· ≤ ·) := by
  induction ascends with
  | nil _ => exact .nil
  | cons _ later induction =>
      rw [List.map_cons, List.pairwise_cons]
      exact ⟨List.forall_mem_map.mpr later.le_start, induction⟩

end Ascends

namespace Language

/-- The walk of what takes some lexemes begins where they begin, and stays in front of what
is left. -/
def Ascending (finish : Nat) (stream rest : List Lexeme) (walk : List (NodeKind × Span)) : Prop :=
  Spaced finish stream → Spaced finish rest ∧
    Ascends (Lexeme.startOf finish stream) (Lexeme.startOf finish rest) walk

namespace Ascending

variable {finish : Nat} {stream middle rest : List Lexeme} {first last : Lexeme}
  {walk more : List (NodeKind × Span)}

theorem stop : Ascending finish stream stream [] :=
  fun spaced => ⟨spaced, .nil (Nat.le_refl _)⟩

theorem append (ascending : Ascending finish stream middle walk)
    (later : Ascending finish middle rest more) : Ascending finish stream rest (walk ++ more) := by
  intro spaced
  have ⟨spacedMiddle, ascends⟩ := ascending spaced
  have ⟨spacedRest, further⟩ := later spacedMiddle
  exact ⟨spacedRest, ascends.append further⟩

theorem skip : Ascending finish (first :: rest) rest [] :=
  fun spaced => ⟨spaced.2.2, .nil (Nat.le_trans first.span.start_le_stop spaced.2.1)⟩

theorem behind (ascending : Ascending finish stream rest walk) :
    Ascending finish (first :: stream) rest walk :=
  skip.append ascending

theorem before (ascending : Ascending finish stream (last :: rest) walk) :
    Ascending finish stream rest walk := by
  have whole := ascending.append skip
  rwa [List.append_nil] at whole

theorem behindComma (ascending : Ascending finish (dropComma stream) rest walk) :
    Ascending finish stream rest walk := by
  cases stream with
  | nil => exact ascending
  | cons first stream =>
      rw [dropComma] at ascending
      split at ascending
      · exact ascending.behind
      · exact ascending

theorem enter {kind : NodeKind} {span : Span} (start_eq : span.start = first.span.start)
    (ascending : Ascending finish (first :: stream) rest walk) :
    Ascending finish (first :: stream) rest ((kind, span) :: walk) := by
  intro spaced
  have ⟨spacedRest, ascends⟩ := ascending spaced
  apply And.intro spacedRest
  apply Ascends.cons (Nat.le_of_eq start_eq.symm)
  rw [start_eq]
  exact ascends

end Ascending

/-! ## Walks of trees -/

variable {finish : Nat}

theorem walk_literal? {first : Lexeme} {value : Expression Span}
    (found : literal? first = some value) : ∃ kind, value.walk = [(kind, first.span)] := by
  rcases literal?_cases found with ⟨_, rfl⟩ | ⟨_, rfl⟩ | ⟨_, rfl⟩ | ⟨_, rfl⟩ <;>
    exact ⟨_, by rw [Expression.walk]⟩

mutual

theorem DerivesExpression.ascending : ∀ {stream rest : List Lexeme} {last : Span}
    {value : Expression Span}, DerivesExpression stream rest last value →
      Ascending finish stream rest value.walk
  | _, _, _, _, .literal found => by
      have ⟨_, walk_eq⟩ := walk_literal? found
      rw [walk_eq]
      exact .enter rfl .skip
  | _, _, _, _, .name _ _ => by
      rw [Expression.walk]
      exact .enter rfl .skip
  | _, _, _, _, .parenthesised _ body _ => body.ascending.before.behind
  | _, _, _, _, .call _ _ values => by
      rw [Expression.walk]
      exact .enter rfl values.ascending.behind.behind

theorem DerivesArguments.ascending : ∀ {stream rest : List Lexeme} {last : Span}
    {values : List (Expression Span)}, DerivesArguments stream rest last values →
      Ascending finish stream rest (Expression.walkAll values)
  | _, _, _, _, .close _ => by
      rw [Expression.walkAll]
      exact .skip
  | _, _, _, _, .cons first others => by
      rw [Expression.walkAll]
      exact first.ascending.append others.ascending.behindComma

end

mutual

theorem DerivesStatement.ascending : ∀ {stream rest : List Lexeme} {step : Statement Span},
    DerivesStatement stream rest step → Ascending finish stream rest step.walk
  | _, _, _, .declare _ _ _ _ _ value _ => by
      rw [Statement.walk]
      exact .enter rfl value.ascending.before.behind.behind.behind.behind.behind
  | _, _, _, .assign _ _ body _ => by
      rw [Statement.walk]
      exact .enter rfl body.ascending.before.behind.behind
  | _, _, _, .call _ _ arguments _ => by
      rw [Statement.walk, Expression.walk]
      exact .enter rfl (.enter rfl arguments.ascending.before.behind.behind)
  | _, _, _, .giveBack _ body _ => by
      rw [Statement.walk]
      exact .enter rfl body.ascending.before.behind
  | _, _, _, .ifThen _ value _ statements _ | _, _, _, .loop _ value _ statements => by
      rw [Statement.walk]
      exact .enter rfl (value.ascending.append statements.ascending.behind).behind
  | _, _, _, .ifThenElse _ value _ statements _ _ otherStatements => by
      have body := value.ascending.append statements.ascending.behind
      rw [Statement.walk]
      exact .enter rfl (body.append otherStatements.ascending.behind.behind).behind

theorem DerivesStatements.ascending : ∀ {stream rest : List Lexeme} {last : Span}
    {steps : List (Statement Span)}, DerivesStatements stream rest last steps →
      Ascending finish stream rest (Statement.walkAll steps)
  | _, _, _, _, .close _ => by
      rw [Statement.walkAll]
      exact .skip
  | _, _, _, _, .cons first others => by
      rw [Statement.walkAll]
      exact first.ascending.append others.ascending

end

variable {stream rest : List Lexeme} {last : Span}

theorem DerivesParameters.ascending {parameters : List (Parameter Span)}
    (derives : DerivesParameters stream rest last parameters) :
    Ascending finish stream rest
      (parameters.map fun parameter => (NodeKind.parameter, parameter.note)) := by
  induction derives with
  | close _ => exact .skip
  | cons _ _ _ _ induction => exact .enter rfl induction.behindComma.behind.behind.behind

theorem DerivesPrototype.ascending {signature : Prototype Span}
    (derives : DerivesPrototype stream rest last signature) :
    Ascending finish stream rest signature.walk := by
  cases derives with
  | withoutResult _ _ parameters _ => exact .enter rfl parameters.ascending.behind.behind
  | withResult _ _ parameters _ _ =>
      exact .enter rfl parameters.ascending.before.before.behind.behind

theorem DerivesItem.ascending {item : Item Span} (derives : DerivesItem stream rest item) :
    Ascending finish stream rest item.walk := by
  cases derives with
  | declaration _ head _ => exact .enter rfl head.ascending.before.behind
  | definition _ head _ statements =>
      exact .enter rfl (head.ascending.append statements.ascending.behind).behind

theorem DerivesItems.ascending {items : List (Item Span)} (derives : DerivesItems stream items) :
    Ascending finish stream [] (items.flatMap Item.walk) := by
  induction derives with
  | stop => exact .stop
  | cons first _ induction =>
      rw [List.flatMap_cons]
      exact first.ascending.append induction

/-! ## Programs -/

/-- The nodes of a match tree stand inside one another and one behind the other, from a
token to a token, and a walk over the program that is built of them does not go back. -/
theorem nodes_in_place (source : Text) (options : Options) :
    (∀ node, (Parse.tree source options).outcome = .ok node →
        ∃ lexemes children, SplitsInto source lexemes ∧
          node = .tree "program" (some (0, source.length)) children ∧
          Node.Placed source lexemes 0 source.length children) ∧
      ∀ program, (Parse.program source options).outcome = .ok program →
        (program.walk.map fun entry => entry.2.start).Pairwise (· ≤ ·) := by
  constructor
  · exact fun _ found => exists_placed_of_tree found
  · intro program parsed
    have ⟨lexemes, lexed, _, note_eq, derives⟩ := parsed_program_iff.mp parsed
    have ⟨_, ascends⟩ := derives.ascending lexed.splits.spaced
    have whole : Ascends 0 source.length program.walk := by
      apply Ascends.cons (Nat.zero_le _)
      rw [note_eq]
      exact ascends.from_le (Nat.zero_le _)
    exact whole.pairwise

end Language

end QubitLang
