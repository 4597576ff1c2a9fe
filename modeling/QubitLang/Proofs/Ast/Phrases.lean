import QubitLang.Ast.Walk

/-! The nodes of a tree that have a text of their own: all but parameters and the program
itself. -/

namespace QubitLang

variable {α : Type}

inductive Phrase (α : Type) where
  | expression (value : Expression α)
  | statement (statement : Statement α)
  | prototype (signature : Prototype α)
  | item (item : Item α)

/-! ## Phrases inside one another -/

mutual

def Expression.phrases : Expression α → List (Phrase α)
  | .number note text => [.expression (.number note text)]
  | .qubit note index => [.expression (.qubit note index)]
  | .boolean note value => [.expression (.boolean note value)]
  | .identifier note name => [.expression (.identifier note name)]
  | .call note callee arguments =>
    .expression (.call note callee arguments) :: Expression.phrasesAll arguments

def Expression.phrasesAll : List (Expression α) → List (Phrase α)
  | [] => []
  | expression :: rest => expression.phrases ++ Expression.phrasesAll rest

end

mutual

def Statement.phrases : Statement α → List (Phrase α)
  | .declare note name type initial =>
    .statement (.declare note name type initial) :: initial.phrases
  | .assign note target value => .statement (.assign note target value) :: value.phrases
  | .call note callee arguments =>
    .statement (.call note callee arguments) :: (Expression.call note callee arguments).phrases
  | .giveBack note value => .statement (.giveBack note value) :: value.phrases
  | .ifThen note condition body =>
    .statement (.ifThen note condition body) :: (condition.phrases ++ Statement.phrasesAll body)
  | .ifThenElse note condition body otherwise =>
    .statement (.ifThenElse note condition body otherwise) ::
      (condition.phrases ++ Statement.phrasesAll body ++ Statement.phrasesAll otherwise)
  | .loop note condition body =>
    .statement (.loop note condition body) :: (condition.phrases ++ Statement.phrasesAll body)

def Statement.phrasesAll : List (Statement α) → List (Phrase α)
  | [] => []
  | statement :: rest => statement.phrases ++ Statement.phrasesAll rest

end

def Item.phrases : Item α → List (Phrase α)
  | .declaration note signature => [.item (.declaration note signature), .prototype signature]
  | .definition note signature body =>
    .item (.definition note signature body) :: .prototype signature :: Statement.phrasesAll body

def Program.phrases (program : Program α) : List (Phrase α) :=
  program.items.flatMap Item.phrases

/-! ## Phrases among nodes -/

def Expression.kind : Expression α → NodeKind
  | .number _ _ => .number
  | .qubit _ _ => .qubit
  | .boolean _ _ => .boolean
  | .identifier _ _ => .identifier
  | .call _ _ _ => .call

def Statement.kind : Statement α → NodeKind
  | .declare _ _ _ _ => .declare
  | .assign _ _ _ => .assign
  | .call _ _ _ => .callStatement
  | .giveBack _ _ => .giveBack
  | .ifThen _ _ _ | .ifThenElse _ _ _ _ => .conditional
  | .loop _ _ _ => .loop

/-- Whether a semicolon stands behind a statement, which is no part of it. -/
def Statement.takesSemicolon : Statement α → Bool
  | .declare _ _ _ _ | .assign _ _ _ | .call _ _ _ | .giveBack _ _ => true
  | .ifThen _ _ _ | .ifThenElse _ _ _ _ | .loop _ _ _ => false

def Item.kind : Item α → NodeKind
  | .declaration _ _ => .declaration
  | .definition _ _ _ => .definition

def Phrase.kind : Phrase α → NodeKind
  | .expression value => value.kind
  | .statement step => step.kind
  | .prototype _ => .prototype
  | .item part => part.kind

def Phrase.note : Phrase α → α
  | .expression value => value.note
  | .statement step => step.note
  | .prototype signature => signature.note
  | .item part => part.note

def Phrase.entry (phrase : Phrase α) : NodeKind × α := (phrase.kind, phrase.note)

def NodeKind.isPhrase : NodeKind → Bool
  | .parameter | .program => false
  | _ => true

mutual

theorem Expression.walk_eq : ∀ expression : Expression α,
    expression.walk = expression.phrases.map Phrase.entry
  | .number _ _ | .qubit _ _ | .boolean _ _ | .identifier _ _ => by
      simp [walk, phrases, Phrase.entry, Phrase.kind, Phrase.note, kind, note]
  | .call _ _ arguments => by
      simp [walk, phrases, Phrase.entry, Phrase.kind, Phrase.note, kind, note,
        Expression.walkAll_eq arguments]

theorem Expression.walkAll_eq : ∀ expressions : List (Expression α),
    Expression.walkAll expressions = (Expression.phrasesAll expressions).map Phrase.entry
  | [] => by simp [walkAll, phrasesAll]
  | expression :: rest => by
      simp [walkAll, phrasesAll, Expression.walk_eq expression, Expression.walkAll_eq rest]

end

mutual

theorem Statement.walk_eq : ∀ statement : Statement α,
    statement.walk = statement.phrases.map Phrase.entry
  | .declare _ _ _ _ | .assign _ _ _ | .call _ _ _ | .giveBack _ _ => by
      simp [walk, phrases, Phrase.entry, Phrase.kind, Phrase.note, kind, note,
        Expression.walk_eq]
  | .ifThen _ _ body | .loop _ _ body => by
      simp [walk, phrases, Phrase.entry, Phrase.kind, Phrase.note, kind, note, Expression.walk_eq,
        Statement.walkAll_eq body]
  | .ifThenElse _ _ body otherwise => by
      simp [walk, phrases, Phrase.entry, Phrase.kind, Phrase.note, kind, note, Expression.walk_eq,
        Statement.walkAll_eq body, Statement.walkAll_eq otherwise]

theorem Statement.walkAll_eq : ∀ statements : List (Statement α),
    Statement.walkAll statements = (Statement.phrasesAll statements).map Phrase.entry
  | [] => by simp [walkAll, phrasesAll]
  | statement :: rest => by
      simp [walkAll, phrasesAll, Statement.walk_eq statement, Statement.walkAll_eq rest]

end

theorem Phrase.isPhrase_entry (phrase : Phrase α) : phrase.entry.1.isPhrase = true := by
  cases phrase with
  | expression value => cases value <;> rfl
  | statement step => cases step <;> rfl
  | prototype signature => rfl
  | item part => cases part <;> rfl

theorem filter_isPhrase_entries (phrases : List (Phrase α)) :
    (phrases.map Phrase.entry).filter (fun entry => entry.1.isPhrase) =
      phrases.map Phrase.entry := by
  apply List.filter_eq_self.mpr
  intro entry member
  obtain ⟨phrase, _, rfl⟩ := List.mem_map.mp member
  exact phrase.isPhrase_entry

theorem Prototype.walk_filter (signature : Prototype α) :
    signature.walk.filter (fun entry => entry.1.isPhrase) = [(.prototype, signature.note)] := by
  simp [walk, NodeKind.isPhrase]

theorem Item.walk_filter (item : Item α) :
    item.walk.filter (fun entry => entry.1.isPhrase) = item.phrases.map Phrase.entry := by
  cases item with
  | declaration note signature =>
      rw [walk, List.filter_cons_of_pos rfl, signature.walk_filter]
      rfl
  | definition note signature body =>
      rw [walk, List.cons_append, List.filter_cons_of_pos rfl, List.filter_append,
        signature.walk_filter, Statement.walkAll_eq, filter_isPhrase_entries]
      rfl

/-- All nodes of a program but the parameters, and the program itself, are phrases. -/
theorem Program.walk_filter (program : Program α) :
    program.walk.filter (fun entry => entry.1.isPhrase) = program.phrases.map Phrase.entry := by
  rw [walk, List.filter_cons_of_neg Bool.false_ne_true, phrases]
  induction program.items with
  | nil => rfl
  | cons item items induction =>
      rw [List.flatMap_cons, List.flatMap_cons, List.filter_append, List.map_append,
        item.walk_filter, induction]

end QubitLang
