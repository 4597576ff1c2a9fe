import QubitLang.Proofs.Language.Brackets
import QubitLang.Proofs.Language.Excerpts
import QubitLang.Proofs.Language.Joining

/-! Fragments inside larger texts. A text is an expression exactly if it can be assigned to
a name, and a statement exactly if it can be the body of a definition, where one more level
of brackets leaves room for a match: no bracket, semicolon or comment of the text reaches what
stands around it. -/

namespace QubitLang

open QubitLang.Language

def Options.deeper (options : Options) : Options where
  maxDepth := options.maxDepth + 1
  maxDepth_pos := Nat.succ_pos options.maxDepth
  trace := options.trace

theorem Options.maxDepth_deeper (options : Options) :
    options.deeper.maxDepth = options.maxDepth + 1 := rfl

/-! ## Frames -/

/-- What stands around a text, with its lexemes: something in front that no text behind it
changes, and one lexeme on a line of its own. -/
structure Frame where
  opening : Text
  front : List Lexeme
  closing : Text
  closer : Lexeme
  opens : ∀ {text remainder : Text} {lexemes : List Lexeme} {finish : Nat},
    Splits opening.length text lexemes finish remainder →
      Splits 0 (opening ++ text) (front ++ lexemes) finish remainder
  closes : SplitsInto closing [closer]

namespace Frame

def assignment : Frame where
  opening := "x = ".toList
  front := [(Token.word ['x']).lexemeAt 0, (Token.sign .equals).lexemeAt 2]
  closing := [';']
  closer := (Token.sign .semicolon).lexemeAt 0
  opens splits := by
    iterate 2 apply Splits.cons_iff.mpr ⟨rfl, rfl, _, rfl, ?_⟩
    exact splits.blank rfl
  closes := Splits.cons_iff.mpr ⟨rfl, rfl, _, rfl, Splits.nil_iff.mpr ⟨rfl, rfl⟩⟩

def definition : Frame where
  opening := "def f() \x7b".toList
  front := [(Token.keyword .define).lexemeAt 0, (Token.word ['f']).lexemeAt 4,
    (Token.sign .openParen).lexemeAt 5, (Token.sign .closeParen).lexemeAt 6,
    (Token.sign .openBrace).lexemeAt 8]
  closing := ['}']
  closer := (Token.sign .closeBrace).lexemeAt 0
  opens splits := by
    iterate 5 apply Splits.cons_iff.mpr ⟨rfl, rfl, _, rfl, ?_⟩
    exact splits
  closes := Splits.cons_iff.mpr ⟨rfl, rfl, _, rfl, Splits.nil_iff.mpr ⟨rfl, rfl⟩⟩

def around (frame : Frame) (text : Text) : Text := frame.opening ++ (text ++ '\n' :: frame.closing)

def inside (frame : Frame) (lexemes : List Lexeme) : List Lexeme :=
  lexemes.map (Lexeme.respan (Span.shift frame.opening.length))

def behind (frame : Frame) (text : Text) : Lexeme :=
  frame.closer.respan (Span.shift (text.length + frame.opening.length + 1))

def whole (frame : Frame) (text : Text) (lexemes : List Lexeme) : List Lexeme :=
  frame.front ++ (frame.inside lexemes ++ [frame.behind text])

/-- A text with a frame around it splits completely exactly if the text does. -/
theorem splitsInto_around_iff (frame : Frame) {text : Text} {all : List Lexeme} :
    SplitsInto (frame.around text) all ↔
      ∃ lexemes, SplitsInto text lexemes ∧ all = frame.whole text lexemes := by
  have ⟨lexemes, finish, remainder, splits, ends⟩ := Splits.exists_maximal 0 text
  have moved := splits.shift frame.opening.length
  rw [Nat.zero_add] at moved
  -- A text that does not split stops at the same remainder inside the frame.
  by_cases complete : remainder = []
  · subst complete
    have ⟨finish_eq, splitsText⟩ := splits.splitsInto
    subst finish_eq
    have last := frame.closes.shift (text.length + frame.opening.length + 1)
    rw [Nat.zero_add] at last
    have ⟨_, around⟩ := (frame.opens (moved.append_line last)).splitsInto
    constructor
    · intro other
      exact ⟨lexemes, splitsText, (other.unique rfl around rfl).1⟩
    · intro ⟨others, otherSplits, all_eq⟩
      have ⟨lexemes_eq, _⟩ := splitsText.unique rfl otherSplits rfl
      rw [all_eq, ← lexemes_eq]
      exact around
  · have around := frame.opens (moved.append_line_of_ne_nil complete frame.closing)
    have aroundEnds := Scan.token?_append_line ends complete frame.closing
    constructor
    · intro other
      have ⟨_, _, remainder_eq⟩ := other.unique rfl around aroundEnds
      exact absurd (List.append_eq_nil_iff.mp remainder_eq.symm).1 complete
    · intro ⟨_, otherSplits, _⟩
      have ⟨_, _, remainder_eq⟩ := otherSplits.unique rfl splits ends
      exact absurd remainder_eq.symm complete

end Frame

namespace Language

variable {options : Options} {text : Text} {lexemes stream : List Lexeme} {closer closing : Lexeme}
  {last : Span} {value : Expression Span} {step : Statement Span} {distance : Nat}

/-! ## Fragments in front of what closes them -/

theorem DerivesExpression.exists_alone
    (derives : DerivesExpression (stream ++ [closer]) [closing] last value) :
    closer = closing ∧ DerivesExpression stream [] last value := by
  have ⟨taken, stream_eq, takes⟩ := derives.exists_taken
  have ⟨taken_eq, closer_eq⟩ := List.append_inj' stream_eq rfl
  have alone := takes.frame [] fun _ => rfl
  rw [List.append_nil, ← taken_eq] at alone
  exact ⟨List.head_eq_of_cons_eq closer_eq, alone⟩

theorem DerivesStatement.exists_alone
    (derives : DerivesStatement (stream ++ [closer]) [closing] step) :
    closer = closing ∧ DerivesStatement stream [] step := by
  have ⟨taken, stream_eq, takes⟩ := derives.exists_taken
  have ⟨taken_eq, closer_eq⟩ := List.append_inj' stream_eq rfl
  have alone := takes.frame [] fun _ => rfl
  rw [List.append_nil, ← taken_eq] at alone
  exact ⟨List.head_eq_of_cons_eq closer_eq, alone⟩

/-- A fragment ends in front of what cannot go on with it. -/
theorem DerivesExpression.append_closer (derives : DerivesExpression stream [] last value)
    (closes : closer.token.reads (.sign .openParen) = false) :
    DerivesExpression (stream ++ [closer]) [closer] last value := by
  have ⟨taken, stream_eq, takes⟩ := derives.exists_taken
  rw [List.append_nil] at stream_eq
  rw [stream_eq]
  exact takes.frame [closer] fun _ => closes

theorem DerivesStatement.append_closer (derives : DerivesStatement stream [] step)
    (closes : closer.token.reads (.keyword .elseWord) = false) :
    DerivesStatement (stream ++ [closer]) [closer] step := by
  have ⟨taken, stream_eq, takes⟩ := derives.exists_taken
  rw [List.append_nil] at stream_eq
  rw [stream_eq]
  exact takes.frame [closer] fun _ => closes

theorem DerivesExpression.exists_unshift
    (derives :
      DerivesExpression (lexemes.map (Lexeme.respan (Span.shift distance))) [] last value) :
    ∃ inner innerLast, DerivesExpression lexemes [] innerLast inner ∧
      value = inner.map (Span.shift distance) := by
  have alone := derives.respan (respans_unshift distance)
  rw [map_respan_unshift] at alone
  exact ⟨_, _, alone, (derives.unique (alone.respan (respans_shift distance))).2.2⟩

theorem DerivesStatement.exists_unshift
    (derives : DerivesStatement (lexemes.map (Lexeme.respan (Span.shift distance))) [] step) :
    ∃ inner, DerivesStatement lexemes [] inner ∧ step = inner.map (Span.shift distance) := by
  have alone := derives.respan (respans_unshift distance)
  rw [map_respan_unshift] at alone
  exact ⟨_, alone, (derives.unique (alone.respan (respans_shift distance))).2⟩

/-! ## Fragments inside frames -/

theorem DerivesStatement.exists_assigned {target equals : Lexeme} {span : Span} {name : Text}
    (derives : DerivesStatement (target :: equals :: stream) [] (.assign span name value)) :
    ∃ semicolon last, DerivesExpression stream [semicolon] last value := by
  cases derives with
  | assign _ _ body _ => exact ⟨_, _, body⟩

theorem DerivesItems.exists_body {rest : List Lexeme} {span : Span} {signature : Prototype Span}
    (derives : DerivesItems (Frame.definition.front ++ rest) [.definition span signature [step]]) :
    ∃ brace, DerivesStatement rest [brace] step := by
  cases derives with
  | cons first others =>
      cases others
      cases first with
      | definition _ head _ statements =>
          have ⟨block_eq, _⟩ := head.unique (.withoutResult rfl rfl (.close rfl) rfl)
          cases block_eq
          cases statements with
          | cons body close =>
              cases close
              exact ⟨_, body⟩

theorem derives_assignment_iff (text : Text) :
    (∃ span, DerivesStatement (Frame.assignment.whole text lexemes) [] (.assign span ['x'] value)) ↔
      ∃ inner last, DerivesExpression lexemes [] last inner ∧ value = inner.map (Span.shift 4) := by
  constructor
  · intro ⟨_, derives⟩
    have ⟨_, _, body⟩ := DerivesStatement.exists_assigned derives
    exact body.exists_alone.2.exists_unshift
  · intro ⟨inner, last, derives, value_eq⟩
    have moved := derives.respan (respans_shift 4)
    rw [value_eq]
    exact ⟨_, .assign rfl rfl (moved.append_closer rfl) rfl⟩

theorem derives_definition_iff (text : Text) :
    (∃ span signature,
        DerivesItems (Frame.definition.whole text lexemes) [.definition span signature [step]]) ↔
      ∃ inner, DerivesStatement lexemes [] inner ∧ step = inner.map (Span.shift 9) := by
  constructor
  · intro ⟨_, _, derives⟩
    have ⟨_, body⟩ := derives.exists_body
    exact body.exists_alone.2.exists_unshift
  · intro ⟨inner, derives, step_eq⟩
    have moved := derives.respan (respans_shift 9)
    rw [step_eq]
    exact ⟨_, _, .cons (.definition rfl (.withoutResult rfl rfl (.close rfl) rfl) rfl
      (.cons (moved.append_closer rfl) (.close rfl))) .stop⟩

/-! ## Limits inside frames -/

theorem areFine_assignment_iff (text : Text) :
    AreFine options (Frame.assignment.whole text lexemes) ↔ AreFine options lexemes := by
  have tokens_eq : (Frame.assignment.inside lexemes).map Lexeme.token = lexemes.map Lexeme.token :=
    map_token_respan _ lexemes
  constructor
  · intro fine
    have isInfix : Frame.assignment.inside lexemes <:+: Frame.assignment.whole text lexemes :=
      ⟨_, _, List.append_assoc _ _ _⟩
    exact (fine.of_infix isInfix).of_tokens_eq tokens_eq
  · intro fine
    have upToEnd : AreFine options (_ ++ [Frame.assignment.behind text]) :=
      (fine.of_tokens_eq tokens_eq.symm).append (fun _ => rfl) rfl
    exact (upToEnd.cons (fun _ => rfl) rfl).cons (fun _ => rfl) rfl

theorem staysWithin_definition_iff (options : Options) (splits : SplitsInto text lexemes)
    (derives : DerivesStatement lexemes [] step) :
    StaysWithin options.deeper.maxDepth 0
        ((Frame.definition.whole text lexemes).map Lexeme.token) ↔
      StaysWithin options.maxDepth 0 (lexemes.map Lexeme.token) := by
  have tokens_eq : (Frame.definition.inside lexemes).map Lexeme.token = lexemes.map Lexeme.token :=
    map_token_respan _ lexemes
  have spells := spells_statement_iff.mpr ⟨step, derives⟩
  have ⟨amount, deepens⟩ := spells.exists_deepens (List.forall_mem_map.mpr splits.isLexical)
  have parentheses : Deepens [.sign .openParen, .sign .closeParen] 1 :=
    Deepens.nil.wrap (fun _ => rfl) fun _ => rfl
  have whole : Deepens (.keyword .define :: .word ['f'] :: _) _ :=
    ((parentheses.append deepens.block).cons fun _ => rfl).cons fun _ => rfl
  rw [Frame.whole, List.map_append, List.map_append, tokens_eq]
  apply (whole.within_iff _ 0).trans
  rw [deepens.within_iff, Options.maxDepth_deeper]
  omega

theorem areFine_definition_iff (splits : SplitsInto text lexemes)
    (derives : DerivesStatement lexemes [] step) :
    AreFine options.deeper (Frame.definition.whole text lexemes) ↔
      options.deeper.HasRoom ∧ AreFine options lexemes := by
  have tokens_eq : (Frame.definition.inside lexemes).map Lexeme.token = lexemes.map Lexeme.token :=
    map_token_respan _ lexemes
  have overlong_eq : anyOverlong (Frame.definition.whole text lexemes) = anyOverlong lexemes := by
    rw [Frame.whole, anyOverlong_append, anyOverlong_append, anyOverlong_eq tokens_eq]
    exact Bool.or_false _
  have within_iff := staysWithin_definition_iff options splits derives
  constructor
  · intro fine
    have room := fine.room.of_le (Nat.le_succ options.maxDepth)
    exact ⟨fine.room, within_iff.mp fine.nests, room, overlong_eq ▸ fine.short⟩
  · exact fun ⟨room, fine⟩ => ⟨within_iff.mpr fine.nests, room, overlong_eq ▸ fine.short⟩

/-! ## Parsed fragments -/

theorem parsed_assignment_iff :
    (∃ span, (Parse.statement (Frame.assignment.around text) options).outcome =
        .ok (.assign span ['x'] value)) ↔
      ∃ inner, (Parse.expression text options).outcome = .ok inner ∧
        value = inner.map (Span.shift 4) := by
  constructor
  · intro ⟨span, parsed⟩
    have ⟨whole, ⟨splits, nests, room⟩, short, derives⟩ := parsed_statement_iff.mp parsed
    have ⟨lexemes, splitsText, whole_eq⟩ := Frame.assignment.splitsInto_around_iff.mp splits
    subst whole_eq
    have fine := (areFine_assignment_iff text).mp ⟨nests, room, short⟩
    have ⟨inner, last, alone, value_eq⟩ := (derives_assignment_iff text).mp ⟨span, derives⟩
    have lexed := fine.isLexed splitsText
    exact ⟨inner, parsed_expression_iff.mpr ⟨lexemes, lexed, fine.short, last, alone⟩, value_eq⟩
  · intro ⟨inner, parsed, value_eq⟩
    have ⟨lexemes, ⟨splits, nests, room⟩, short, last, derives⟩ := parsed_expression_iff.mp parsed
    have around := Frame.assignment.splitsInto_around_iff.mpr ⟨lexemes, splits, rfl⟩
    have ⟨span, whole⟩ := (derives_assignment_iff text).mpr ⟨inner, last, derives, value_eq⟩
    have fine := (areFine_assignment_iff text).mpr ⟨nests, room, short⟩
    exact ⟨span, parsed_statement_iff.mpr ⟨_, fine.isLexed around, fine.short, whole⟩⟩

theorem parsed_definition_iff :
    (∃ program span signature,
      (Parse.program (Frame.definition.around text) options.deeper).outcome = .ok program ∧
        program.items = [.definition span signature [step]]) ↔
      options.deeper.HasRoom ∧ ∃ inner, (Parse.statement text options).outcome = .ok inner ∧
        step = inner.map (Span.shift 9) := by
  constructor
  · intro ⟨program, span, signature, parsed, items_eq⟩
    have ⟨whole, ⟨splits, nests, room⟩, short, _, derives⟩ := parsed_program_iff.mp parsed
    have ⟨lexemes, splitsText, whole_eq⟩ := Frame.definition.splitsInto_around_iff.mp splits
    subst whole_eq
    rw [items_eq] at derives
    have ⟨inner, alone, step_eq⟩ := (derives_definition_iff text).mp ⟨span, signature, derives⟩
    have ⟨_, fine⟩ := (areFine_definition_iff splitsText alone).mp ⟨nests, room, short⟩
    have lexed := fine.isLexed splitsText
    exact ⟨room, inner, parsed_statement_iff.mpr ⟨lexemes, lexed, fine.short, alone⟩, step_eq⟩
  · intro ⟨deeperRoom, inner, parsed, step_eq⟩
    have ⟨lexemes, ⟨splits, nests, room⟩, short, derives⟩ := parsed_statement_iff.mp parsed
    have around := Frame.definition.splitsInto_around_iff.mpr ⟨lexemes, splits, rfl⟩
    have ⟨span, signature, whole⟩ := (derives_definition_iff text).mpr ⟨inner, derives, step_eq⟩
    have fine := (areFine_definition_iff splits derives).mpr ⟨deeperRoom, nests, room, short⟩
    exact ⟨⟨Span.whole _, _⟩, span, signature,
      parsed_program_iff.mpr ⟨_, fine.isLexed around, fine.short, rfl, whole⟩, rfl⟩

theorem definition_overflows {inner : Statement Span}
    (parsed : (Parse.statement text options).outcome = .ok inner)
    (full : ¬ options.deeper.HasRoom) :
    (Parse.program (Frame.definition.around text) options.deeper).outcome =
      .error (overflow options.deeper) := by
  have ⟨lexemes, ⟨splits, nests, _⟩, _, derives⟩ := parsed_statement_iff.mp parsed
  have around := Frame.definition.splitsInto_around_iff.mpr ⟨lexemes, splits, rfl⟩
  have deeper := (staysWithin_definition_iff options splits derives).mpr nests
  have shallow := (Nesting.firstExcess?_eq_none_iff around _).mpr deeper
  exact program_eq_error (matchSource_of_full shallow full)

/-- A text is an expression exactly if it can be assigned, and a statement exactly if it can
be the body of a definition where one more level of brackets is allowed, as long as that level
leaves room for a match. Only the spans are moved, by what stands in front. -/
theorem parse_embedded (text : Text) (options : Options) :
    (∀ value,
      (∃ span, (Parse.statement ("x = ".toList ++ text ++ "\n;".toList) options).outcome =
          .ok (.assign span ['x'] value)) ↔
        ∃ inner, (Parse.expression text options).outcome = .ok inner ∧
          value = inner.map (Span.shift 4)) ∧
      (∀ step,
        (∃ program span signature,
          (Parse.program ("def f() \x7b".toList ++ text ++ "\n\x7d".toList) options.deeper).outcome =
              .ok program ∧ program.items = [.definition span signature [step]]) ↔
          options.deeper.HasRoom ∧
            ∃ inner, (Parse.statement text options).outcome = .ok inner ∧
              step = inner.map (Span.shift 9)) ∧
      ((∃ inner, (Parse.statement text options).outcome = .ok inner) → ¬ options.deeper.HasRoom →
        (Parse.program ("def f() \x7b".toList ++ text ++ "\n\x7d".toList) options.deeper).outcome =
          .error (overflow options.deeper)) := by
  have assigned : "x = ".toList ++ text ++ "\n;".toList = Frame.assignment.around text :=
    List.append_assoc _ _ _
  have defined : "def f() \x7b".toList ++ text ++ "\n\x7d".toList = Frame.definition.around text :=
    List.append_assoc _ _ _
  rw [assigned, defined]
  refine ⟨fun _ => parsed_assignment_iff, fun _ => parsed_definition_iff, ?_⟩
  rintro ⟨inner, parsed⟩ full
  exact definition_overflows parsed full

def lastWithRoom : Options where
  maxDepth := 33554415

/-- At that limit a statement is parsed that cannot be the body of a definition. -/
theorem definition_overflows_return :
    (∃ inner, (Parse.statement "return 1;".toList lastWithRoom).outcome = .ok inner) ∧
      (Parse.program "def f() \x7breturn 1;\n\x7d".toList lastWithRoom.deeper).outcome =
        .error (overflow lastWithRoom.deeper) := by
  have splits : SplitsInto "return 1;".toList
      [(Token.keyword .returnWord).lexemeAt 0, (Token.number ['1']).lexemeAt 7,
        (Token.sign .semicolon).lexemeAt 8] := by
    iterate 3 refine Splits.cons_iff.mpr ⟨rfl, rfl, _, rfl, ?_⟩
    exact Splits.nil_iff.mpr ⟨rfl, rfl⟩
  have lexed : IsLexed "return 1;".toList lastWithRoom _ :=
    ⟨splits, nestsWithin_of_length_le (by decide), by decide⟩
  have parsed := parsed_statement_iff.mpr ⟨_, lexed, rfl, .giveBack rfl (.literal rfl) rfl⟩
  exact ⟨⟨_, parsed⟩, definition_overflows parsed (by decide)⟩

end Language

end QubitLang
