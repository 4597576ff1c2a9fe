import QubitLang.Proofs.Language.Brackets
import QubitLang.Proofs.Language.Joining
import QubitLang.Proofs.Language.Verdict

/-! Programs in one text. A program, a line end and any text behind it are parsed as the
text alone is, with the items of the program in front: nothing that was read or missed in
the program has an effect on the text. -/

namespace QubitLang

open QubitLang.Language

/-! ## Lexemes further on -/

theorem startOf_map_shift (distance finish : Nat) (lexemes : List Lexeme) :
    Lexeme.startOf (finish + distance) (lexemes.map (Lexeme.respan (Span.shift distance))) =
      Lexeme.startOf finish lexemes + distance := by
  cases lexemes <;> rfl

/-! ## Brackets behind a program -/

namespace Nesting

theorem excessFrom_shift (limit : Int) (distance : Nat) (text : Text) :
    ∀ (offset depth : Nat) (insideComment : Bool),
      excessFrom limit (offset + distance) depth insideComment text =
        (excessFrom limit offset depth insideComment text).map (· + distance) := by
  induction text with
  | nil => exact fun _ _ _ => rfl
  | cons character rest induction =>
      intro offset depth insideComment
      simp only [excessFrom, Nat.add_right_comm offset distance 1, induction]
      split_ifs <;> rfl

/-- Behind a text that closes all its brackets and stays within the limit, a bracket nests
too deeply where it does on its own. -/
theorem firstExcess?_append_line {source : Text} {lexemes : List Lexeme} {limit : Nat}
    (splits : SplitsInto source lexemes) (nests : NestsWithin limit (lexemes.map Lexeme.token))
    (closed : bracketDepth (lexemes.map Lexeme.token) = 0) (more : Text) :
    firstExcess? limit (source ++ '\n' :: more) =
      (firstExcess? limit more).map (· + (source.length + 1)) := by
  have alone : Splits 0 more [] _ _ := Splits.nil_iff.mpr ⟨rfl, rfl⟩
  have moved := alone.shift (source.length + 1)
  rw [Nat.zero_add] at moved
  have whole := splits.append_line moved
  rw [List.map_nil, List.append_nil] at whole
  have shallow := (excessIndex?_eq_none_iff (Nat.zero_le limit)).mpr nests
  have behind := excessFrom_splits alone (Nat.zero_le limit)
  have bothParts := excessFrom_splits whole (Nat.zero_le limit)
  rw [bracketDepth] at closed
  rw [shallow, Option.map_none, Option.none_or, closed] at bothParts
  rw [firstExcess?, firstExcess?, bothParts, behind, excessFrom_shift]
  rfl

end Nesting

namespace Language

variable {options : Options} {tokens more : List Token} {label : Label} {index : Nat}
  {source text : Text} {stream rest lexemes others : List Lexeme} {item : Item Span}
  {items : List (Item Span)}

/-! ## Items behind items -/

/-- What an item takes of the lexemes derives it in front of anything else too. -/
theorem DerivesItem.exists_frame (derives : DerivesItem stream rest item) :
    ∃ taken, stream = taken ++ rest ∧ taken ≠ [] ∧
      ∀ other, DerivesItem (taken ++ other) other item := by
  cases derives with
  | @declaration _ _ _ keyword semicolon _ declares head ends =>
      have ⟨inner, stream_eq, takes⟩ := head.exists_taken
      refine ⟨keyword :: (inner ++ [semicolon]), by simp [stream_eq], List.cons_ne_nil _ _, ?_⟩
      intro other
      have signature := takes.frame (semicolon :: other) fun _ => startsWith_of_reads ends rfl
      have whole := DerivesItem.declaration declares signature ends
      simpa using whole
  | @definition _ _ _ _ _ keyword opening _ _ defines head opens statements =>
      have ⟨inner, stream_eq, takes⟩ := head.exists_taken
      have ⟨block, block_eq, takesBlock⟩ := statements.exists_taken
      refine ⟨keyword :: (inner ++ opening :: block), by simp [stream_eq, block_eq],
        List.cons_ne_nil _ _, ?_⟩
      intro other
      have signature := takes.frame (opening :: (block ++ other)) fun alone => alone
      have whole := DerivesItem.definition defines signature opens (takesBlock.frame other)
      simpa using whole

theorem DerivesItems.append_iff (derives : DerivesItems lexemes items) :
    ∀ {all : List (Item Span)}, DerivesItems (lexemes ++ others) all ↔
      ∃ later, all = items ++ later ∧ DerivesItems others later := by
  induction derives with
  | stop =>
      intro all
      exact ⟨fun later => ⟨all, rfl, later⟩, fun ⟨_, all_eq, later⟩ => all_eq ▸ later⟩
  | cons first _ induction =>
      have ⟨taken, stream_eq, nonempty, frame⟩ := first.exists_frame
      intro all
      rw [stream_eq, List.append_assoc]
      constructor
      · intro whole
        generalize taken_eq : taken ++ _ = stream at whole
        cases whole with
        | stop => exact absurd (List.append_eq_nil_iff.mp taken_eq).1 nonempty
        | cons other later =>
            have ⟨rest_eq, item_eq⟩ := (taken_eq ▸ frame _).unique other
            have ⟨behind, later_eq, derived⟩ := induction.mp (rest_eq ▸ later)
            exact ⟨behind, by rw [later_eq, item_eq]; rfl, derived⟩
      · intro ⟨later, all_eq, derived⟩
        rw [all_eq]
        exact .cons (frame _) (induction.mpr ⟨later, rfl, derived⟩)

/-! ## Sentences behind programs -/

theorem DerivesItems.bracketDepth_eq_zero (derives : DerivesItems lexemes items)
    (lexical : ∀ lexeme ∈ lexemes, lexeme.token.isLexical = true) :
    bracketDepth (lexemes.map Lexeme.token) = 0 := by
  have spells := spells_program_iff.mpr ⟨items, derives⟩
  have ⟨_, deepens⟩ := spells.exists_deepens (List.forall_mem_map.mpr lexical)
  exact deepens.balanced 0

theorem DerivesItems.generates_append_iff (derives : DerivesItems lexemes items) :
    Generates (form .program) (lexemes.map Lexeme.token ++ more) ↔
      Generates (form .program) more := by
  let others : List Lexeme := more.map fun token => ⟨token, Span.point 0⟩
  have others_eq : others.map Lexeme.token = more := by simp [others, Function.comp_def]
  have isProgram (lexemes : List Lexeme) : Generates (form .program) (lexemes.map Lexeme.token) ↔
      ∃ items, DerivesItems lexemes items :=
    spells_call_iff.symm.trans spells_program_iff
  rw [← others_eq, ← List.map_append, isProgram, isProgram]
  constructor
  · intro ⟨all, whole⟩
    have ⟨later, _, derived⟩ := derives.append_iff.mp whole
    exact ⟨later, derived⟩
  · intro ⟨later, derived⟩
    exact ⟨_, derives.append_iff.mpr ⟨later, rfl, derived⟩⟩

theorem DerivesItems.viable_append_iff (derives : DerivesItems lexemes items) :
    Viable (form .program) (lexemes.map Lexeme.token ++ tokens) label ↔
      Viable (form .program) tokens label := by
  apply exists_congr
  intro more
  rw [List.append_assoc]
  exact derives.generates_append_iff

/-- Behind a program, tokens stop where they stop on their own. -/
theorem DerivesItems.stopsBehind (derives : DerivesItems lexemes items)
    (stops : StopsBehind .program tokens index) :
    StopsBehind .program (lexemes.map Lexeme.token ++ tokens) (lexemes.length + index) := by
  have taken : (lexemes.map Lexeme.token ++ tokens).take (lexemes.length + index) =
      lexemes.map Lexeme.token ++ tokens.take index := by
    rw [← List.length_map Lexeme.token, List.take_length_add_append]
  refine ⟨?_, ?_, ?_⟩
  · rw [List.length_append, List.length_map]
    exact Nat.add_le_add_left stops.index_le _
  · have ⟨more, generates⟩ := stops.begins
    rw [taken]
    exact ⟨more, by rw [List.append_assoc]; exact derives.generates_append_iff.mpr generates⟩
  · intro token next label accepted viable
    rw [taken, derives.viable_append_iff] at viable
    rw [List.getElem?_append_right (by rw [List.length_map]; omega), List.length_map,
      Nat.add_sub_cancel_left] at next
    exact stops.refused token next label accepted viable

theorem DerivesItems.lacksDigit_iff (derives : DerivesItems lexemes items) {remainder : Text} :
    LacksDigit .program (lexemes.map Lexeme.token ++ tokens) (lexemes.length + index) remainder ↔
      LacksDigit .program tokens index remainder := by
  rw [LacksDigit, LacksDigit, derives.viable_append_iff, List.length_append, List.length_map,
    Nat.add_left_cancel_iff]

theorem DerivesItems.expects (derives : DerivesItems lexemes items) {expected : List String}
    (expects : Expects .program tokens expected) :
    Expects .program (lexemes.map Lexeme.token ++ tokens) expected where
  exists_label := expects.exists_label
  mem_iff_viable label notEnd := by
    rw [derives.viable_append_iff]
    exact expects.mem_iff_viable label notEnd
  mem_iff_generates := by
    rw [derives.generates_append_iff]
    exact expects.mem_iff_generates

/-! ## Errors behind programs -/

structure Displaced (distance : Nat) (error moved : SyntaxError) : Prop where
  tooDeep_eq : moved.tooDeep = error.tooDeep
  expected_eq : moved.expected = error.expected
  offset_eq : moved.offset = error.offset + distance

theorem Locates.displaced {finish distance otherIndex : Nat} {remainder : Text}
    {error moved : SyntaxError} (derives : DerivesItems lexemes items)
    (locates : Locates .program others finish remainder index error)
    (behind : Locates .program (lexemes ++ others.map (Lexeme.respan (Span.shift distance)))
      (finish + distance) remainder otherIndex moved) : Displaced distance error moved := by
  have tokens_eq : (lexemes ++ others.map (Lexeme.respan (Span.shift distance))).map Lexeme.token =
      lexemes.map Lexeme.token ++ others.map Lexeme.token := by
    rw [List.map_append, map_token_respan]
  have stops := behind.stops
  rw [tokens_eq] at stops
  have index_eq : otherIndex = lexemes.length + index :=
    stops.unique (derives.stopsBehind locates.stops)
  have lacks_iff : LacksDigit .program _ otherIndex remainder ↔
      LacksDigit .program (others.map Lexeme.token) index remainder :=
    (index_eq ▸ tokens_eq ▸ derives.lacksDigit_iff)
  refine ⟨behind.notTooDeep.trans locates.notTooDeep.symm, ?_, ?_⟩
  · by_cases lacking : LacksDigit .program (others.map Lexeme.token) index remainder
    · have expected_iff := (locates.atDigit lacking).2
      have moved_iff := (behind.atDigit (lacks_iff.mpr lacking)).2
      apply behind.sorted.eq_of_mem_iff locates.sorted
      exact fun text => (moved_iff text).trans (expected_iff text).symm
    · have expects := derives.expects (locates.atLexeme lacking).2
      have moved_expects := (behind.atLexeme (lacks_iff.not.mpr lacking)).2
      rw [tokens_eq, index_eq, ← List.length_map Lexeme.token, List.take_length_add_append]
        at moved_expects
      exact moved_expects.unique behind.sorted expects locates.sorted
  · by_cases lacking : LacksDigit .program (others.map Lexeme.token) index remainder
    · rw [(locates.atDigit lacking).1, (behind.atDigit (lacks_iff.mpr lacking)).1]
      omega
    · rw [(locates.atLexeme lacking).1, (behind.atLexeme (lacks_iff.not.mpr lacking)).1, index_eq,
        List.drop_length_add_append, ← List.map_drop, startOf_map_shift]

/-! ## Outcomes behind programs -/

/-- What comes of a text on its own, and of the text behind a program: the same, with the
items of the program in front of those of the text. -/
inductive Continues (program : Program Span) (distance : Nat) :
    Except ParseError (Program Span) → Except ParseError (Program Span) → Prop where
  | parsed {later whole : Program Span}
      (items_eq : whole.items = program.items ++ later.items.map (Item.map (Span.shift distance))) :
      Continues program distance (.ok later) (.ok whole)
  | rejected {error moved : SyntaxError} (displaced : Displaced distance error moved) :
      Continues program distance (.error (.unmatched (.rejected error)))
        (.error (.unmatched (.rejected moved)))
  | overlong {count otherCount : Nat} :
      Continues program distance (.error (.unbuilt (.qubit (.tooManyDigits count))))
        (.error (.unbuilt (.qubit (.tooManyDigits otherCount))))

theorem Continues.of_yields {program : Program Span} {distance : Nat}
    {outcome wholeOutcome : Except ParseError (Program Span)} {later whole : Program Span}
    (short : anyOverlong lexemes = false) (yields : Yields others outcome later)
    (wholeYields : Yields (lexemes ++ others.map (Lexeme.respan (Span.shift distance)))
      wholeOutcome whole)
    (items_eq : whole.items = program.items ++ later.items.map (Item.map (Span.shift distance))) :
    Continues program distance outcome wholeOutcome := by
  have overlong_eq : anyOverlong (lexemes ++ others.map (Lexeme.respan (Span.shift distance))) =
      anyOverlong others := by
    rw [anyOverlong_append, short, Bool.false_or]
    exact anyOverlong_eq (map_token_respan _ _)
  rw [Yields] at yields wholeYields
  rw [overlong_eq] at wholeYields
  cases overlong : anyOverlong others with
  | true =>
      rw [if_pos overlong] at yields wholeYields
      obtain ⟨count, outcome_eq⟩ := yields
      obtain ⟨otherCount, wholeOutcome_eq⟩ := wholeYields
      rw [outcome_eq, wholeOutcome_eq]
      exact .overlong
  | false =>
      rw [overlong, if_neg Bool.false_ne_true] at yields wholeYields
      rw [yields, wholeYields]
      exact .parsed items_eq

/-- Behind a program and a line end, any text is parsed as it is on its own. -/
theorem parse_concatenated {program : Program Span}
    (parsed : (Parse.program source options).outcome = .ok program) (text : Text) :
    Continues program (source.length + 1) (Parse.program text options).outcome
      (Parse.program (source ++ '\n' :: text) options).outcome := by
  obtain ⟨lexemes, lexed, short, _, derives⟩ := parsed_program_iff.mp parsed
  obtain ⟨others, finish, remainder, splits, ends⟩ := Splits.exists_maximal 0 text
  have moved := splits.shift (source.length + 1)
  rw [Nat.zero_add] at moved
  have whole := lexed.splits.append_line moved
  have excess_eq := Nesting.firstExcess?_append_line lexed.splits lexed.nests
    (derives.bracketDepth_eq_zero lexed.splits.isLexical) text
  have spells_iff : Spells (form .program)
      (lexemes ++ others.map (Lexeme.respan (Span.shift (source.length + 1)))) ↔
        Spells (form .program) others := by
    rw [Spells, List.map_append, map_token_respan, derives.generates_append_iff, Spells]
  -- The text behind the program has the same verdict on its own, so there are the same cases.
  have found : Verdict .program text options others finish remainder :=
    verdict rfl splits ends options
  cases found with
  | @tooDeep offset excess =>
      rw [excess] at excess_eq
      rw [program_eq_error (matchSource_of_excess excess),
        program_eq_error (matchSource_of_excess excess_eq)]
      exact .rejected ⟨rfl, rfl, rfl⟩
  | full _ full => exact absurd lexed.room full
  | refused shallow room unspelled found locates =>
      rw [shallow] at excess_eq
      have unspelledBehind := (and_congr_right' spells_iff).not.mpr unspelled
      obtain ⟨_, moved, rejected, behind⟩ :=
        exists_locates rfl whole ends unspelledBehind options.trace
      rw [program_eq_error found,
        program_eq_error (matchSource_eq_rejected excess_eq room rejected)]
      exact .rejected (locates.displaced derives behind)
  | spelled shallow room complete spells =>
      rw [shallow] at excess_eq
      obtain ⟨later, laterDerives, yields⟩ :=
        exists_yields_program splits shallow room complete spells
      obtain ⟨all, allDerives, wholeYields⟩ :=
        exists_yields_program whole excess_eq room complete (spells_iff.mpr spells)
      obtain ⟨behind, all_eq, behindDerives⟩ := derives.append_iff.mp allDerives
      have behind_eq : behind = later.map (Item.map (Span.shift (source.length + 1))) :=
        behindDerives.unique (laterDerives.respan (respans_shift _))
      exact .of_yields short yields wholeYields (behind_eq ▸ all_eq)

/-- A comment at the end of a program takes nothing of the text behind it. -/
theorem parse_concatenated_comment :
    ∃ program, (Parse.program "extern f();#x".toList {}).outcome = .ok program ∧
      program.items.length = 1 ∧
      ∀ text, Continues program 14 (Parse.program text {}).outcome
        (Parse.program ("extern f();#x\n".toList ++ text) {}).outcome := by
  have splits : SplitsInto "extern f();#x".toList
      [(Token.keyword .external).lexemeAt 0, (Token.word ['f']).lexemeAt 7,
        (Token.sign .openParen).lexemeAt 8, (Token.sign .closeParen).lexemeAt 9,
        (Token.sign .semicolon).lexemeAt 10] := by
    iterate 5 apply Splits.cons_iff.mpr ⟨rfl, rfl, _, rfl, ?_⟩
    exact Splits.nil_iff.mpr ⟨rfl, rfl⟩
  have lexed : IsLexed "extern f();#x".toList {} _ :=
    ⟨splits, nestsWithin_of_length_le (by decide), by decide⟩
  have parsed : (Parse.program "extern f();#x".toList {}).outcome =
      .ok ⟨Span.whole "extern f();#x".toList, [_]⟩ :=
    parsed_program_iff.mpr ⟨_, lexed, rfl, rfl,
      .cons (.declaration rfl (.withoutResult rfl rfl (.close rfl) rfl) rfl) .stop⟩
  exact ⟨_, parsed, rfl, parse_concatenated parsed⟩

end Language

end QubitLang
