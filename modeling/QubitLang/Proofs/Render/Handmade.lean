import QubitLang.Proofs.Ast.Depth
import QubitLang.Proofs.Render.Names
import QubitLang.Proofs.Render.RoundTrip
import QubitLang.Render.Draft

/-! Trees that were put together by hand: what is read back from their canonical texts. -/

namespace QubitLang

open Lexical QubitLang.Language

variable {α : Type}

/-! ## Drafts

A tree of the right shape renders as the draft with the same nodes does. -/

mutual

def Expression.draft : Expression α → Draft
  | .number _ text => .number text
  | .qubit _ index => .qubit index
  | .boolean _ value => .boolean value
  | .identifier _ name => .identifier name
  | .call _ callee arguments => .call callee (Expression.draftAll arguments)

def Expression.draftAll : List (Expression α) → List Draft
  | [] => []
  | expression :: rest => expression.draft :: Expression.draftAll rest

end

mutual

def Statement.draft : Statement α → Draft
  | .declare _ name type initial => .declare name type initial.draft
  | .assign _ target value => .assign target value.draft
  | .call _ callee arguments => .callStatement (.call callee (Expression.draftAll arguments))
  | .giveBack _ value => .giveBack value.draft
  | .ifThen _ condition body => .ifThen condition.draft (Statement.draftAll body)
  | .ifThenElse _ condition body otherwise =>
    .ifThenElse condition.draft (Statement.draftAll body) (Statement.draftAll otherwise)
  | .loop _ condition body => .loop condition.draft (Statement.draftAll body)

def Statement.draftAll : List (Statement α) → List Draft
  | [] => []
  | statement :: rest => statement.draft :: Statement.draftAll rest

end

def Prototype.draft (prototype : Prototype α) : Draft :=
  .prototype prototype.name
    (prototype.parameters.map fun parameter => .parameter parameter.name parameter.type)
    prototype.returnType

def Item.draft : Item α → Draft
  | .declaration _ prototype => .declaration prototype.draft
  | .definition _ prototype body => .definition prototype.draft (Statement.draftAll body)

def Program.draft (program : Program α) : Draft := .program (program.items.map Item.draft)

mutual

theorem Expression.render_draft : ∀ expression : Expression α,
    expression.draft.renderExpression = expression.render
  | .number _ _ | .qubit _ _ | .boolean _ _ | .identifier _ _ => rfl
  | .call _ _ arguments => by
      rw [draft, Draft.renderExpression, Expression.renderAll_draft arguments, render]

theorem Expression.renderAll_draft : ∀ expressions : List (Expression α),
    Draft.renderExpressions (Expression.draftAll expressions) = Expression.renderAll expressions
  | [] => rfl
  | expression :: rest => by
      rw [draftAll, Draft.renderExpressions, expression.render_draft,
        Expression.renderAll_draft rest, renderAll]

end

mutual

theorem Statement.render_draft : ∀ (statement : Statement α) (depth : Nat),
    statement.draft.renderStatement depth = statement.render depth
  | .declare _ _ _ value, _ | .assign _ _ value, _ | .giveBack _ value, _ => by
      rw [draft, Draft.renderStatement, value.render_draft, render]
  | .call note callee arguments, _ => by
      have call_eq := (Expression.call note callee arguments).render_draft
      rw [Expression.draft] at call_eq
      rw [draft, Draft.renderStatement, call_eq, render]
  | .ifThen _ condition body, depth | .loop _ condition body, depth => by
      rw [draft, Draft.renderStatement, condition.render_draft, ← Int.natCast_succ,
        Statement.renderAll_draft body, render]
  | .ifThenElse _ condition body otherwise, depth => by
      rw [draft, Draft.renderStatement, condition.render_draft, ← Int.natCast_succ,
        Statement.renderAll_draft body, Statement.renderAll_draft otherwise, render]

theorem Statement.renderAll_draft : ∀ (statements : List (Statement α)) (depth : Nat),
    Draft.renderStatements depth (Statement.draftAll statements) =
      Statement.renderAll depth statements
  | [], _ => rfl
  | statement :: rest, depth => by
      rw [draftAll, Draft.renderStatements, statement.render_draft, Statement.renderAll_draft rest,
        renderAll]

end

theorem Prototype.render_draft (prototype : Prototype α) :
    prototype.draft.renderPrototype = prototype.render := by
  have parameters_eq : (prototype.parameters.map fun parameter =>
      Draft.parameter parameter.name parameter.type).mapM Draft.renderParameter =
        prototype.parameters.mapM Parameter.render := by
    rw [List.mapM_map]
    rfl
  rw [draft, Draft.renderPrototype, parameters_eq, render]

theorem Item.render_draft (item : Item α) : item.draft.renderItem = item.render := by
  cases item with
  | declaration _ prototype => rw [draft, Draft.renderItem, prototype.render_draft, render]
  | definition _ prototype body =>
      have body_eq := Statement.renderAll_draft body 1
      rw [draft, Draft.renderItem, prototype.render_draft, render]
      simp only [← body_eq]
      rfl

theorem Program.render_draft (program : Program α) :
    program.draft.renderProgram = program.render := by
  have items_eq : (program.items.map Item.draft).mapM Draft.renderItem =
      program.items.mapM Item.render := by
    rw [List.mapM_map]
    congr 1
    funext item
    exact item.render_draft
  rw [draft, Draft.renderProgram, items_eq, render]

/-! ## Fragments -/

theorem Lexes.of_blank {character : Char} {text : Text} {tokens : List Token}
    (skipped : isBlank character = true) (lexes : Lexes (character :: text) tokens) :
    Lexes text tokens := by
  generalize text_eq : character :: text = whole at lexes
  cases lexes with
  | stop => cases text_eq
  | blank _ later =>
      cases text_eq
      exact later
  | @token token rest _ longest later =>
      have solid := Token.trivia_append longest.isLexical rest
      rw [← text_eq, Lexical.trivia, if_neg Bool.false_ne_true, if_pos (by simp [skipped])] at solid
      cases solid

theorem Lexes.of_asLines {lines : List Text} {tokens : List Token}
    (lexes : Lexes (asLines lines) tokens) : Lexes (['\n'].intercalate lines) tokens := by
  cases lines with
  | nil => exact lexes
  | cons first others =>
      rw [intercalate_eq_asLines]
      exact lexes.of_blank rfl

theorem Expression.exists_again {expression : Expression α}
    (printable : expression.isPrintable = true) : ∃ text, expression.render = .ok text ∧
      ∀ options : Options, expression.nesting ≤ options.maxDepth →
        Nesting.firstExcess? options.maxDepth text = none ∧
        (options.HasRoom → ∃ again,
          (Parse.expression text options).outcome = .ok again ∧ expression.same again = true) := by
  obtain ⟨text, rendered, prints⟩ := Expression.exists_render printable
  have lexes := prints rfl .stop
  rw [List.append_nil, List.append_nil] at lexes
  refine ⟨text, rendered, fun options within => ?_⟩
  have nests := (expression.deepens.nestsWithin_iff options.maxDepth).mpr within
  obtain ⟨lexemes, tokens_eq, shallow, lexed⟩ := lexes.exists_lexemes nests
  refine ⟨shallow, fun room => ?_⟩
  have short := anyOverlong_of_tokens tokens_eq (Expression.not_any_isOverlong printable)
  obtain ⟨last, again, derives, same⟩ :=
    @Expression.exists_derives _ expression lexemes [] printable tokens_eq rfl
  rw [List.append_nil] at derives
  exact ⟨again, parsed_expression_iff.mpr ⟨lexemes, lexed room, short, last, derives⟩, same⟩

theorem Statement.exists_again {statement : Statement α} (printable : statement.isPrintable = true)
    (depth : Nat) : ∃ lines, statement.render depth = .ok lines ∧
      ∀ options : Options, statement.nesting ≤ options.maxDepth →
        Nesting.firstExcess? options.maxDepth (['\n'].intercalate lines) = none ∧
        (options.HasRoom → ∃ again,
          (Parse.statement (['\n'].intercalate lines) options).outcome = .ok again ∧
            statement.same again = true) := by
  obtain ⟨lines, rendered, prints⟩ := Statement.exists_render depth printable
  have lexes := prints .stop
  rw [List.append_nil, List.append_nil] at lexes
  refine ⟨lines, rendered, fun options within => ?_⟩
  have nests := (statement.deepens.nestsWithin_iff options.maxDepth).mpr within
  obtain ⟨lexemes, tokens_eq, shallow, lexed⟩ := lexes.of_asLines.exists_lexemes nests
  refine ⟨shallow, fun room => ?_⟩
  have short := anyOverlong_of_tokens tokens_eq (Statement.not_any_isOverlong printable)
  obtain ⟨again, derives, same⟩ :=
    @Statement.exists_derives _ statement lexemes [] printable tokens_eq rfl
  rw [List.append_nil] at derives
  exact ⟨again, parsed_statement_iff.mpr ⟨lexemes, lexed room, short, derives⟩, same⟩

/-! ## Lines at a depth -/

theorem Layout.checkDepth_natCast (depth : Nat) : checkDepth depth = .ok () ↔
    fitsWord (4 * depth) = true := by
  have fits : fitsWord (4 * depth) = true → fitsWord depth = true := by
    simp only [fitsWord, Bool.and_eq_true, decide_eq_true_eq]
    omega
  have max_eq : max (depth : Int) 0 = depth := Int.max_eq_left (Int.natCast_nonneg depth)
  rw [checkDepth, max_eq, asWord, asWord]
  by_cases whole : fitsWord (4 * depth) = true
  · simp [whole, fits whole]
  · by_cases alone : fitsWord depth = true <;> simp [whole, alone]

theorem Layout.exists_of_checkDepth {depth : Int} {error : RenderError}
    (refused : checkDepth depth = .error error) : ∃ overflow, error = .tooDeep overflow := by
  unfold checkDepth at refused
  split at refused
  · cases refused
  all_goals exact ⟨_, (Except.error.inj refused).symm⟩

theorem Statement.renderLines_draft (statement : Statement α) (depth : Nat) :
    (fitsWord (4 * depth) = true →
      statement.draft.renderLines depth = statement.render depth) ∧
    (fitsWord (4 * depth) = false →
      ∃ overflow, statement.draft.renderLines depth = .error (.tooDeep overflow)) := by
  rw [← statement.render_draft depth, Draft.renderLines]
  constructor
  · intro fits
    rw [(Layout.checkDepth_natCast depth).mpr fits]
    rfl
  · intro unfit
    cases checked : Layout.checkDepth depth with
    | ok =>
        rw [(Layout.checkDepth_natCast depth).mp checked] at unfit
        cases unfit
    | error error =>
        obtain ⟨overflow, rfl⟩ := Layout.exists_of_checkDepth checked
        exact ⟨overflow, rfl⟩

/-! ## Survival -/

/-- What becomes of a tree with these names: it has no canonical text exactly if one of them
is not a name, and otherwise its text is read as it should be wherever brackets may nest as
deeply as they do in the tree and the limit leaves room. Without room, it is not read. -/
structure Survives {β : Type} (names : List Text) (nesting : Nat)
    (rendered : Except RenderError Text) (parse : Text → Options → Except ParseError β)
    (same : β → Bool) : Prop where
  refused_iff : (∃ name, rendered = .error (.notAnIdentifier name)) ↔
    ∃ name ∈ names, isIdentifier name = false
  read : (∀ name ∈ names, isIdentifier name = true) → ∃ text, rendered = .ok text ∧
    ∀ options : Options, nesting ≤ options.maxDepth →
      (options.HasRoom → ∃ again, parse text options = .ok again ∧ same again = true) ∧
      (¬ options.HasRoom → parse text options = .error (overflow options))

theorem Program.survives {program : Program α} (fit : program.hasFitLiterals = true) :
    Survives program.names program.nesting program.render
      (fun text options => (Parse.program text options).outcome) program.same where
  refused_iff := program.render_refuses.exists_error_iff
  read named := by
    obtain ⟨text, rendered, reads⟩ :=
      Program.exists_again (Program.isPrintable_iff.mpr ⟨fit, named⟩)
    refine ⟨text, rendered, fun options within => ?_⟩
    obtain ⟨shallow, read⟩ := reads options ((program.nestsWithin_iff options.maxDepth).mpr within)
    refine ⟨fun room => ?_, fun full => program_eq_error (matchSource_of_full shallow full)⟩
    obtain ⟨again, parsed, same, _⟩ := read room
    exact ⟨again, parsed, same⟩

theorem Expression.survives {expression : Expression α} (fit : expression.hasFitLiterals = true) :
    Survives expression.names expression.nesting expression.render
      (fun text options => (Parse.expression text options).outcome) expression.same where
  refused_iff := expression.render_refuses.exists_error_iff
  read named := by
    obtain ⟨text, rendered, reads⟩ :=
      Expression.exists_again (expression.isPrintable_iff.mpr ⟨fit, named⟩)
    refine ⟨text, rendered, fun options within => ?_⟩
    obtain ⟨shallow, read⟩ := reads options within
    exact ⟨read, fun full => expression_eq_error (matchSource_of_full shallow full)⟩

theorem Statement.survives {statement : Statement α} (fit : statement.hasFitLiterals = true)
    (depth : Nat) :
    Survives statement.names statement.nesting
      ((statement.render depth).map fun lines => ['\n'].intercalate lines)
      (fun text options => (Parse.statement text options).outcome) statement.same where
  refused_iff := (statement.render_refuses depth).map.exists_error_iff
  read named := by
    obtain ⟨lines, rendered, reads⟩ :=
      Statement.exists_again (statement.isPrintable_iff.mpr ⟨fit, named⟩) depth
    refine ⟨_, by rw [rendered]; rfl, fun options within => ?_⟩
    obtain ⟨shallow, read⟩ := reads options within
    exact ⟨read, fun full => statement_eq_error (matchSource_of_full shallow full)⟩

/-- Hand-made trees whose numbers are numbers, and whose indices are short enough to be read,
survive being rendered and parsed. A statement is rendered at a depth whose spaces can be
counted. -/
theorem handmade_survives :
    (∀ program : Program α, program.hasFitLiterals = true →
      program.draft.renderProgram = program.render ∧
        Survives program.names program.nesting program.render
          (fun text options => (Parse.program text options).outcome) program.same) ∧
      (∀ expression : Expression α, expression.hasFitLiterals = true →
        expression.draft.renderExpression = expression.render ∧
          Survives expression.names expression.nesting expression.render
            (fun text options => (Parse.expression text options).outcome) expression.same) ∧
      ∀ (statement : Statement α) (depth : Nat), statement.hasFitLiterals = true →
        statement.draft.renderStatement depth = statement.render depth ∧
          (fitsWord (4 * depth) = true →
            statement.draft.renderLines depth = statement.render depth) ∧
          (fitsWord (4 * depth) = false →
            ∃ overflow, statement.draft.renderLines depth = .error (.tooDeep overflow)) ∧
          Survives statement.names statement.nesting
            ((statement.render depth).map fun lines => ['\n'].intercalate lines)
            (fun text options => (Parse.statement text options).outcome) statement.same :=
  ⟨fun program fit => ⟨program.render_draft, Program.survives fit⟩,
    fun expression fit => ⟨expression.render_draft, Expression.survives fit⟩,
    fun statement depth fit => ⟨statement.render_draft depth,
      (statement.renderLines_draft depth).1, (statement.renderLines_draft depth).2,
      Statement.survives fit depth⟩⟩

theorem handmade_survives_small :
    (∃ text again, smallProgram.render = .ok text ∧ (Parse.program text).outcome = .ok again ∧
        smallProgram.same again = true) ∧
      ∃ name, (Expression.identifier () ['i', 'f']).render = .error (.notAnIdentifier name) := by
  have whole := (handmade_survives.1 smallProgram (by decide)).2
  have word := (handmade_survives.2.1 (.identifier () ['i', 'f']) rfl).2
  obtain ⟨text, rendered, reads⟩ := whole.read (by decide)
  obtain ⟨again, parsed, same⟩ := (reads {} (by decide)).1 (by decide)
  refine ⟨⟨text, again, rendered, parsed, same⟩, word.refused_iff.mpr ⟨['i', 'f'], ?_, by decide⟩⟩
  exact List.mem_singleton_self _

def declarationProgram : Program Unit where
  note := ()
  items := [.declaration () { note := (), name := ['f'], parameters := [], returnType := none }]

/-- Without room a program is not read back, however little it nests. -/
theorem declaration_overflows :
    declarationProgram.hasFitLiterals = true ∧
      declarationProgram.nesting ≤ firstWithoutRoom.maxDepth ∧
      declarationProgram.render = .ok "extern f();\n".toList ∧
      (Parse.program "extern f();\n".toList firstWithoutRoom).outcome =
        .error (overflow firstWithoutRoom) := by
  have shallow : Nesting.firstExcess? firstWithoutRoom.maxDepth "extern f();\n".toList = none := by
    decide
  exact ⟨rfl, by decide, rfl,
    program_eq_error (matchSource_of_full shallow firstWithoutRoom_not_hasRoom)⟩

end QubitLang
