import QubitLang.Proofs.Language.Cutting
import QubitLang.Proofs.Language.Parsing
import QubitLang.Proofs.Render.Shallow

/-! The span of a phrase denotes it. Cut out of the source text, the text inside the span is
parsed on its own to the same phrase, whose spans are those of the source text less what
stands in front. -/

namespace QubitLang

open QubitLang.Language

/-- The text of a statement on its own: a semicolon has to stand behind most. -/
def Statement.excerpt (source : Text) (statement : Statement Span) : Text :=
  statement.note.text source ++ if statement.takesSemicolon then [';'] else []

def Prototype.excerpt (source : Text) (signature : Prototype Span) : Text :=
  Keyword.external.spelling.toList ++ ' ' :: (signature.note.text source ++ [';'])

def externalWidth : Nat := Keyword.external.spelling.toList.length + 1

/-- The text inside the span of a phrase is parsed to the phrase, with spans that begin at
the start of this text. -/
def Phrase.IsDenoted (source : Text) (options : Options) : Phrase Span → Prop
  | .expression value => ∃ again,
      (Parse.expression (value.note.text source) options).outcome = .ok again ∧
        again.map (Span.shift value.note.start) = value
  | .statement step => ∃ again,
      (Parse.statement (step.excerpt source) options).outcome = .ok again ∧
        again.map (Span.shift step.note.start) = step
  | .prototype signature => ∃ program note again,
      (Parse.program (signature.excerpt source) options).outcome = .ok program ∧
        program.items = [.declaration note again] ∧
        again.map (Span.shift signature.note.start) = signature.map (Span.shift externalWidth)
  | .item part => ∃ program again,
      (Parse.program (part.note.text source) options).outcome = .ok program ∧
        program.items = [again] ∧ again.map (Span.shift part.note.start) = part

namespace Language

variable {source : Text} {options : Options} {lexemes segment part : List Lexeme}
  {phrase : Phrase Span} {first : Lexeme} {last : Span}

/-! ## Lexemes of excerpts -/

theorem StaysWithin.of_infix {limit : Nat} {tokens more : List Token} (isInfix : tokens <:+: more)
    (within : StaysWithin limit 0 more) : StaysWithin limit 0 tokens := by
  obtain ⟨before, after, rfl⟩ := isInfix
  have inside := (staysWithin_append_iff.mp (staysWithin_append_iff.mp within).1).2
  exact inside.of_le (Nat.zero_le _)

/-- Lexemes that can be parsed: their brackets do not nest too deeply, the limit leaves room
for a match, and no index is too long. -/
structure AreFine (options : Options) (lexemes : List Lexeme) : Prop where
  nests : StaysWithin options.maxDepth 0 (lexemes.map Lexeme.token)
  room : options.HasRoom
  short : anyOverlong lexemes = false

namespace AreFine

theorem of_infix (fine : AreFine options lexemes) (isInfix : segment <:+: lexemes) :
    AreFine options segment where
  nests := StaysWithin.of_infix (isInfix.map Lexeme.token) fine.nests
  room := fine.room
  short := by
    obtain ⟨before, after, rfl⟩ := isInfix
    have short := fine.short
    rw [anyOverlong_append, anyOverlong_append, Bool.or_eq_false_iff, Bool.or_eq_false_iff] at short
    exact short.1.2

theorem of_tokens_eq (fine : AreFine options lexemes)
    (tokens_eq : lexemes.map Lexeme.token = part.map Lexeme.token) : AreFine options part where
  nests := tokens_eq ▸ fine.nests
  room := fine.room
  short := anyOverlong_eq tokens_eq ▸ fine.short

theorem append (fine : AreFine options lexemes)
    (flat : ∀ depth, first.token.depthAfter depth = depth)
    (noIndex : first.token.isOverlong = false) : AreFine options (lexemes ++ [first]) where
  nests := by
    have end_le := fine.nests (lexemes.map Lexeme.token) (List.prefix_refl _)
    rw [List.map_append, staysWithin_append_iff]
    refine ⟨fine.nests, staysWithin_cons_iff.mpr ⟨end_le, ?_⟩⟩
    rw [flat]
    exact staysWithin_nil_iff.mpr end_le
  room := fine.room
  short := by
    rw [anyOverlong_append, fine.short, Bool.false_or]
    exact (Bool.or_false _).trans noIndex

theorem cons (fine : AreFine options lexemes)
    (flat : ∀ depth, first.token.depthAfter depth = depth)
    (noIndex : first.token.isOverlong = false) : AreFine options (first :: lexemes) where
  nests := by
    rw [List.map_cons, staysWithin_cons_iff, flat]
    exact ⟨Nat.zero_le _, fine.nests⟩
  room := fine.room
  short := by
    rw [anyOverlong, List.any_cons, noIndex, Bool.false_or]
    exact fine.short

theorem isLexed (fine : AreFine options lexemes) (splits : SplitsInto source lexemes) :
    IsLexed source options lexemes :=
  ⟨splits, fine.nests, fine.room⟩

end AreFine

structure IsExcerpt (source : Text) (span : Span) (segment part : List Lexeme) : Prop where
  splits : SplitsInto (span.text source) part
  ends : ∃ last, EndsAt part last ∧ last.stop = (span.text source).length
  segment_eq : segment = part.map (Lexeme.respan (Span.shift span.start))

theorem Covers.exists_excerpt (covers : Covers segment phrase) (splits : SplitsInto source lexemes)
    (isInfix : segment <:+: lexemes) : ∃ part, IsExcerpt source phrase.note segment part := by
  obtain ⟨first, rest, last, rfl, ends, note_eq⟩ := covers.spans
  obtain ⟨before, after, rfl⟩ := isInfix
  rw [List.append_assoc] at splits
  obtain ⟨middle, upTo, _, fromFirst⟩ := Splits.exists_cut splits
  obtain ⟨piece, behind, rfl, alone⟩ : ∃ piece behind, middle = piece ++ behind ∧
      Splits first.span.start piece (first :: rest) last.stop [] :=
    Splits.exists_cut_behind ends fromFirst
  obtain ⟨front, rfl, start_eq⟩ := upTo.exists_eq_append
  obtain ⟨consumed, piece_eq, stop_eq⟩ := alone.exists_eq_append
  obtain ⟨part, length, partSplits, segment_eq, finish_eq⟩ := alone.exists_unshift rfl
  rw [List.append_nil] at piece_eq
  subst piece_eq
  change first.span.start = 0 + front.length at start_eq
  change last.stop = first.span.start + piece.length at stop_eq
  have noteStart : phrase.note.start = first.span.start := by rw [note_eq]; rfl
  have noteStop : phrase.note.stop = last.stop := by
    rw [note_eq]
    exact Nat.max_eq_right (by simp only [Option.map_some, Option.getD_some]; omega)
  have text_eq : phrase.note.text (front ++ (piece ++ behind)) = piece := by
    rw [Span.text, Text.slice_natCast, noteStart, noteStop, stop_eq, start_eq, Nat.zero_add,
      ← List.append_assoc, ← List.length_append, List.take_left, List.drop_left]
  refine ⟨part, ?_, ?_, noteStart ▸ segment_eq⟩
  · rw [text_eq]
    exact partSplits.splitsInto.2
  · have partEnds := ends.respan (Span.unshift first.span.start)
    rw [segment_eq, map_respan_unshift] at partEnds
    refine ⟨_, partEnds, ?_⟩
    rw [text_eq]
    change last.stop - first.span.start = piece.length
    rw [stop_eq, Nat.add_sub_cancel_left]

namespace IsExcerpt

/-! ## Phrases of excerpts -/

variable {value : Expression Span} {step : Statement Span} {signature : Prototype Span}
  {item : Item Span} {span : Span}

theorem splits_semicolon (excerpt : IsExcerpt source span segment part) :
    SplitsInto (span.text source ++ [';']) (part ++ [semicolonAt (span.text source).length]) := by
  obtain ⟨last, ends, stop_eq⟩ := excerpt.ends
  have splits := excerpt.splits
  rw [SplitsInto, ← stop_eq] at splits
  have further := Splits.append_semicolon ends splits
  rw [stop_eq] at further
  exact further.splitsInto.2

theorem denotes_expression (excerpt : IsExcerpt source value.note segment part)
    (fine : AreFine options part) (derives : DerivesExpression segment [] last value) :
    (Phrase.expression value).IsDenoted source options := by
  have moved := derives.respan (respans_unshift value.note.start)
  rw [excerpt.segment_eq, map_respan_unshift] at moved
  have lexed := fine.isLexed excerpt.splits
  refine ⟨_, parsed_expression_iff.mpr ⟨part, lexed, fine.short, _, moved⟩, ?_⟩
  have back := moved.respan (respans_shift value.note.start)
  rw [← excerpt.segment_eq] at back
  exact (back.unique derives).2.2

theorem denotes_statement (excerpt : IsExcerpt source step.note segment part)
    (fine : AreFine options part) (derives : DerivesPhrase segment (.statement step)) :
    (Phrase.statement step).IsDenoted source options := by
  have whole : ∃ others, SplitsInto (step.excerpt source) others ∧ AreFine options others ∧
      DerivesStatement (others.map (Lexeme.respan (Span.shift step.note.start))) [] step := by
    let semicolon := semicolonAt (step.note.text source).length
    have derives := derives (semicolon.respan (Span.shift step.note.start)) rfl
    rw [excerpt.segment_eq] at derives
    rw [Statement.excerpt]
    cases takes : step.takesSemicolon with
    | false =>
        rw [takes] at derives
        refine ⟨part, ?_, fine, by simpa using derives⟩
        simpa using excerpt.splits
    | true =>
        rw [takes] at derives
        exact ⟨part ++ [semicolon], excerpt.splits_semicolon, fine.append (fun _ => rfl) rfl,
          by simpa using derives⟩
  obtain ⟨others, splits, fine, derives⟩ := whole
  have moved := derives.respan (respans_unshift step.note.start)
  rw [map_respan_unshift] at moved
  refine ⟨_, parsed_statement_iff.mpr ⟨others, fine.isLexed splits, fine.short, moved⟩, ?_⟩
  exact ((moved.respan (respans_shift step.note.start)).unique derives).2

theorem denotes_prototype (excerpt : IsExcerpt source signature.note segment part)
    (fine : AreFine options part) (derives : DerivesPhrase segment (.prototype signature)) :
    (Phrase.prototype signature).IsDenoted source options := by
  let semicolon := semicolonAt (signature.note.text source).length
  obtain ⟨last, derives⟩ := derives (semicolon.respan (Span.shift signature.note.start)) rfl
  have stream_eq : segment ++ [semicolon.respan (Span.shift signature.note.start)] =
      (part ++ [semicolon]).map (Lexeme.respan (Span.shift signature.note.start)) := by
    rw [excerpt.segment_eq, List.map_append]
    rfl
  rw [stream_eq] at derives
  have alone := derives.respan (respans_unshift signature.note.start)
  rw [map_respan_unshift] at alone
  have moved := alone.respan (respans_shift externalWidth)
  have splits := excerpt.splits_semicolon.shift externalWidth
  rw [Nat.zero_add] at splits
  obtain ⟨_, whole⟩ := (Splits.keyword .external splits).splitsInto
  have declared : DerivesItem (Keyword.external.atStart :: _) [] (.declaration _ _) :=
    DerivesItem.declaration rfl moved rfl
  have fine : AreFine options (part ++ [semicolon]) := fine.append (fun _ => rfl) rfl
  have fine := fine.of_tokens_eq (map_token_respan (Span.shift externalWidth) _).symm
  have fine : AreFine options (Keyword.external.atStart :: _) := fine.cons (fun _ => rfl) rfl
  refine ⟨⟨Span.whole _, _⟩, _, _, parsed_program_iff.mpr
    ⟨_, fine.isLexed whole, fine.short, rfl, .cons declared .stop⟩, rfl, ?_⟩
  have back := moved.respan (respans_shift signature.note.start)
  rw [map_respan_shift_comm] at back
  exact (back.unique (derives.respan (respans_shift externalWidth))).2.2

theorem denotes_item (excerpt : IsExcerpt source item.note segment part)
    (fine : AreFine options part) (derives : DerivesItem segment [] item) :
    (Phrase.item item).IsDenoted source options := by
  have moved := derives.respan (respans_unshift item.note.start)
  rw [excerpt.segment_eq, map_respan_unshift] at moved
  refine ⟨⟨Span.whole _, _⟩, _, parsed_program_iff.mpr ⟨part, fine.isLexed excerpt.splits,
    fine.short, rfl, .cons moved .stop⟩, rfl, ?_⟩
  have back := moved.respan (respans_shift item.note.start)
  rw [← excerpt.segment_eq] at back
  exact (back.unique derives).2

end IsExcerpt

/-! ## Phrases of a source text -/

theorem Covers.isDenoted (covers : Covers segment phrase) (splits : SplitsInto source lexemes)
    (fine : AreFine options lexemes) (isInfix : segment <:+: lexemes) :
    phrase.IsDenoted source options := by
  obtain ⟨part, excerpt⟩ := covers.exists_excerpt splits isInfix
  have tokens_eq : segment.map Lexeme.token = part.map Lexeme.token := by
    rw [excerpt.segment_eq, map_token_respan]
  have fine := (fine.of_infix isInfix).of_tokens_eq tokens_eq
  cases phrase with
  | expression value =>
      obtain ⟨last, derives⟩ := covers.derives
      exact excerpt.denotes_expression fine derives
  | statement step => exact excerpt.denotes_statement fine covers.derives
  | prototype signature => exact excerpt.denotes_prototype fine covers.derives
  | item item => exact excerpt.denotes_item fine covers.derives

theorem CoversAll.isDenoted {phrases : List (Phrase Span)} (covers : CoversAll lexemes phrases)
    (lexed : IsLexed source options lexemes) (short : anyOverlong lexemes = false) :
    ∀ phrase ∈ phrases, phrase.IsDenoted source options := by
  intro phrase member
  obtain ⟨segment, isInfix, covered⟩ := covers phrase member
  exact covered.isDenoted lexed.splits ⟨lexed.nests, lexed.room, short⟩ isInfix

/-- The span of each expression, statement, prototype and item of what is parsed denotes it. -/
theorem span_denotes (source : Text) (options : Options) :
    (∀ program, (Parse.program source options).outcome = .ok program →
        ∀ phrase ∈ program.phrases, phrase.IsDenoted source options) ∧
      (∀ value, (Parse.expression source options).outcome = .ok value →
        ∀ phrase ∈ value.phrases, phrase.IsDenoted source options) ∧
      ∀ statement, (Parse.statement source options).outcome = .ok statement →
        ∀ phrase ∈ statement.phrases, phrase.IsDenoted source options := by
  refine ⟨?_, ?_, ?_⟩
  · intro program parsed
    obtain ⟨lexemes, lexed, short, _, derives⟩ := parsed_program_iff.mp parsed
    exact derives.coversAll.isDenoted lexed short
  · intro value parsed
    obtain ⟨lexemes, lexed, short, last, derives⟩ := parsed_expression_iff.mp parsed
    obtain ⟨taken, rfl, takes⟩ := derives.exists_taken
    rw [List.append_nil] at lexed short
    exact takes.covers.isDenoted lexed short
  · intro statement parsed
    obtain ⟨lexemes, lexed, short, derives⟩ := parsed_statement_iff.mp parsed
    obtain ⟨taken, rfl, takes⟩ := derives.exists_taken
    rw [List.append_nil] at lexed short
    exact takes.covers.isDenoted lexed short

/-- The number in `return (1);` is denoted by its span, which leaves out the parentheses. -/
theorem span_denotes_return :
    ∃ statement, (Parse.statement "return (1);".toList {}).outcome = .ok statement ∧
      Phrase.expression (.number { start := 8, stop := 9 } ['1']) ∈ statement.phrases ∧
      ∀ phrase ∈ statement.phrases, phrase.IsDenoted "return (1);".toList {} := by
  have splits : SplitsInto "return (1);".toList
      [⟨.keyword .returnWord, { start := 0, stop := 6 }⟩,
        ⟨.sign .openParen, { start := 7, stop := 8 }⟩, ⟨.number ['1'], { start := 8, stop := 9 }⟩,
        ⟨.sign .closeParen, { start := 9, stop := 10 }⟩,
        ⟨.sign .semicolon, { start := 10, stop := 11 }⟩] := by
    iterate 5 refine Splits.cons_iff.mpr ⟨rfl, rfl, _, rfl, ?_⟩
    exact Splits.nil_iff.mpr ⟨rfl, rfl⟩
  have lexed : IsLexed "return (1);".toList {} _ :=
    ⟨splits, nestsWithin_of_length_le (by decide), by decide⟩
  have parsed := parsed_statement_iff.mpr
    ⟨_, lexed, rfl, .giveBack rfl (.parenthesised rfl (.literal rfl) rfl) rfl⟩
  refine ⟨_, parsed, ?_, (span_denotes _ {}).2.2 _ parsed⟩
  simp [Statement.phrases, Expression.phrases, Token.spelling]

end Language

end QubitLang
