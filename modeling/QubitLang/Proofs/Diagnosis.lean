import QubitLang.Diagnostic
import QubitLang.Proofs.Language.Verdict
import QubitLang.Proofs.Render.Lexing

/-! What is reported of a source text. Every text is diagnosed or has a program, but for
those with an index that is too long to be converted, and those that a limit lets through
that leaves no room for a match: of these nothing is reported. -/

namespace QubitLang

open QubitLang.Language

def HasOverlongIndex (source : Text) : Prop :=
  ∃ lexemes, SplitsInto source lexemes ∧ anyOverlong lexemes = true

/-- A diagnostic says of an error what the error says itself, and by its code whether
brackets nest too deeply. -/
structure Diagnostic.Tells (diagnostic : Diagnostic) (file : Option String) (error : SyntaxError) :
    Prop where
  message_eq : diagnostic.message = error.summary
  file_eq : diagnostic.file = file
  span_eq : diagnostic.span = some (Span.point error.offset)
  line_eq : diagnostic.line = some error.line
  column_eq : diagnostic.column = some error.column
  notes_eq : diagnostic.notes =
    if error.expected = [] then [] else ["expected: " ++ ", ".intercalate error.expected]
  code_eq : diagnostic.code = some (if error.tooDeep then "E-PARSE-DEPTH" else "E-PARSE")

theorem Diagnostic.tells_ofSyntaxError (file : Option String) (error : SyntaxError) :
    (Diagnostic.ofSyntaxError file error).Tells file error where
  message_eq := rfl
  file_eq := rfl
  span_eq := rfl
  line_eq := rfl
  column_eq := rfl
  notes_eq := by simp only [Diagnostic.ofSyntaxError, List.isEmpty_iff]
  code_eq := rfl

/-- What is reported of a source text, and of which texts. -/
inductive Diagnosed (source : Text) (file : Option String) (options : Options) :
    Except ParseError (Except Diagnostic (Program Span)) → Prop where
  | program {program : Program Span}
      (accepted : InLanguage .program options.maxDepth source) (room : options.HasRoom)
      (short : ¬ HasOverlongIndex source)
      (parsed : (Parse.program source options).outcome = .ok program) :
      Diagnosed source file options (.ok (.ok program))
  | diagnostic {error : SyntaxError} {diagnostic : Diagnostic}
      (refused : ¬ InLanguage .program options.maxDepth source)
      (room : Nesting.firstExcess? options.maxDepth source = none → options.HasRoom)
      (rejected : (Parse.program source options).outcome = .error (.unmatched (.rejected error)))
      (tooDeep_iff : error.tooDeep = true ↔
        Nesting.firstExcess? options.maxDepth source ≠ none)
      (tells : diagnostic.Tells file error) :
      Diagnosed source file options (.ok (.error diagnostic))
  | overlong {count : Nat}
      (accepted : InLanguage .program options.maxDepth source) (room : options.HasRoom)
      (long : HasOverlongIndex source)
      (raised : (Parse.program source options).outcome =
        .error (.unbuilt (.qubit (.tooManyDigits count)))) :
      Diagnosed source file options (.error (.unbuilt (.qubit (.tooManyDigits count))))
  | full (shallow : Nesting.firstExcess? options.maxDepth source = none)
      (full : ¬ options.HasRoom)
      (raised : (Parse.program source options).outcome = .error (overflow options)) :
      Diagnosed source file options (.error (overflow options))

namespace Language

variable {source : Text} {options : Options} {lexemes : List Lexeme} {finish : Nat}
  {remainder : Text}

/-! ## The language -/

theorem not_inLanguage_of_unspelled {start : Nonterminal} {limit : Nat}
    (splits : Splits 0 source lexemes finish remainder) (ends : Scan.token? remainder = none)
    (unspelled : ¬ (remainder = [] ∧ Spells (form start) lexemes)) :
    ¬ InLanguage start limit source := by
  intro ⟨others, otherSplits, generates, _⟩
  have ⟨lexemes_eq, _, remainder_eq⟩ := splits.unique ends otherSplits rfl
  rw [← lexemes_eq] at generates
  exact unspelled ⟨remainder_eq, generates_call_iff.mp generates⟩

theorem not_inLanguage_of_excess {start : Nonterminal} {limit offset : Nat}
    (excess : Nesting.firstExcess? limit source = some offset) :
    ¬ InLanguage start limit source := by
  intro ⟨_, splits, _, nests⟩
  rw [(Nesting.firstExcess?_eq_none_iff splits limit).mpr nests] at excess
  cases excess

/-! ## Reports -/

theorem diagnose_of_rejected {error : SyntaxError} (file : Option String)
    (rejected : (Parse.program source options).outcome = .error (.unmatched (.rejected error))) :
    (Parse.diagnose source file options).outcome =
      .ok (.error (Diagnostic.ofSyntaxError file error)) := by
  simp only [Parse.diagnose, rejected]

/-- Every source text has a program or a diagnostic, unless an index is too long or the limit
leaves no room for a match. -/
theorem diagnose_reports (source : Text) (file : Option String) (options : Options) :
    Diagnosed source file options (Parse.diagnose source file options).outcome := by
  obtain ⟨lexemes, finish, remainder, splits, ends⟩ := Splits.exists_maximal 0 source
  have found : Verdict .program source options lexemes finish remainder :=
    verdict rfl splits ends options
  cases found with
  | tooDeep excess =>
      have rejected := program_eq_error (matchSource_of_excess excess)
      rw [diagnose_of_rejected file rejected]
      apply Diagnosed.diagnostic (not_inLanguage_of_excess excess) _ rejected
      · exact iff_of_true rfl (by simp [excess])
      · exact Diagnostic.tells_ofSyntaxError file _
      · intro shallow
        rw [excess] at shallow
        cases shallow
  | full shallow full =>
      have raised := program_eq_error (matchSource_of_full shallow full)
      have passed : (Parse.diagnose source file options).outcome = .error (overflow options) := by
        simp only [Parse.diagnose, raised, overflow]
      rw [passed]
      exact .full shallow full raised
  | refused shallow room unspelled found locates =>
      have rejected := program_eq_error found
      rw [diagnose_of_rejected file rejected]
      apply Diagnosed.diagnostic (not_inLanguage_of_unspelled splits ends unspelled) (fun _ => room)
        rejected
      · exact iff_of_false (by simp [locates.notTooDeep]) (not_not_intro shallow)
      · exact Diagnostic.tells_ofSyntaxError file _
  | spelled shallow room whole spells =>
      obtain ⟨items, _, yields⟩ := exists_yields_program splits shallow room whole spells
      subst whole
      obtain ⟨_, complete⟩ := splits.splitsInto
      have nests := (Nesting.firstExcess?_eq_none_iff complete _).mp shallow
      have accepted : InLanguage .program options.maxDepth source :=
        ⟨lexemes, complete, generates_call_iff.mpr spells, nests⟩
      rw [Yields] at yields
      cases long : anyOverlong lexemes with
      | true =>
          rw [if_pos long] at yields
          obtain ⟨count, raised⟩ := yields
          have passed : (Parse.diagnose source file options).outcome =
              .error (.unbuilt (.qubit (.tooManyDigits count))) := by
            simp only [Parse.diagnose, raised]
          rw [passed]
          exact .overlong accepted room ⟨lexemes, complete, long⟩ raised
      | false =>
          rw [long, if_neg Bool.false_ne_true] at yields
          have passed : (Parse.diagnose source file options).outcome =
              .ok (.ok ⟨Span.whole source, items⟩) := by
            simp only [Parse.diagnose, yields]
          rw [passed]
          apply Diagnosed.program accepted room _ yields
          rintro ⟨others, otherSplits, otherLong⟩
          obtain ⟨others_eq, _⟩ := otherSplits.unique rfl complete rfl
          rw [others_eq, long] at otherLong
          cases otherLong

/-! ## An index that is not converted -/

def returnQubit (digits : Text) : Text :=
  "def f()\x7breturn ".toList ++ ('%' :: digits ++ [';', '}'])

def returnQubitLexemes (digits : Text) : List Lexeme :=
  let last : Nat := 15 + (digits.length + 1)
  [(Token.keyword .define).lexemeAt 0, (Token.word ['f']).lexemeAt 4,
    (Token.sign .openParen).lexemeAt 5, (Token.sign .closeParen).lexemeAt 6,
    (Token.sign .openBrace).lexemeAt 7, (Token.keyword .returnWord).lexemeAt 8,
    (Token.qubit digits).lexemeAt 15, (Token.sign .semicolon).lexemeAt last,
    (Token.sign .closeBrace).lexemeAt (last + 1)]

theorem isLexed_returnQubit {digits : Text} (isIndex : Lexical.isDigits digits = true) :
    IsLexed (returnQubit digits) {} (returnQubitLexemes digits) where
  splits := by
    have literal : (Token.qubit digits).IsLongestAt ('%' :: digits ++ [';', '}']) [';', '}'] :=
      Token.isLongestAt_of_endsToken isIndex (by simp [Token.kind?]) rfl
    have splits : Splits 0 (returnQubit digits) (returnQubitLexemes digits)
        (15 + (digits.length + 1) + 2) [] := by
      iterate 6 apply Splits.cons_iff.mpr ⟨rfl, rfl, _, rfl, ?_⟩
      apply Splits.cons_iff.mpr ⟨rfl, rfl, _, Scan.token?_eq_some_iff.mpr literal, ?_⟩
      iterate 2 apply Splits.cons_iff.mpr ⟨rfl, rfl, _, rfl, ?_⟩
      exact Splits.nil_iff.mpr ⟨rfl, rfl⟩
    exact splits.splitsInto.2
  nests := nestsWithin_of_length_le (by simp [returnQubitLexemes])
  room := by decide

theorem diagnose_returnQubit {digits : Text} (isIndex : Lexical.isDigits digits = true)
    (long : maxIndexDigits < digits.length) (file : Option String) :
    ∃ count, (Parse.diagnose (returnQubit digits) file {}).outcome =
      .error (.unbuilt (.qubit (.tooManyDigits count))) := by
  have index (span : Span) :
      literal? ⟨.qubit digits, span⟩ = some (.qubit span (digitsValue digits)) :=
    (if_neg Bool.false_ne_true).trans (if_pos isIndex)
  have derives : DerivesItems (returnQubitLexemes digits) [_] :=
    .cons (.definition rfl (.withoutResult rfl rfl (.close rfl) rfl) rfl
      (.cons (.giveBack rfl (.literal (index _)) rfl) (.close rfl))) .stop
  have yields := (isLexed_returnQubit isIndex).yields_program derives
  have overlong : anyOverlong (returnQubitLexemes digits) = true := by
    simp [anyOverlong, returnQubitLexemes, Token.lexemeAt, Token.isOverlong, long]
  rw [Yields, if_pos overlong] at yields
  obtain ⟨count, raised⟩ := yields
  exact ⟨count, by simp only [Parse.diagnose, raised]⟩

/-- A qubit literal of 4301 digits raises an error that is neither a syntax error nor
reported. -/
theorem diagnose_raises :
    ∃ count, (Parse.diagnose (returnQubit (List.replicate 4301 '0')) none {}).outcome =
      .error (.unbuilt (.qubit (.tooManyDigits count))) := by
  have digits : (List.replicate 4301 '0').all Char.isDigit = true := by
    rw [List.all_replicate]
    rfl
  apply diagnose_returnQubit
  · exact Lexical.isDigits_iff.mpr ⟨List.cons_ne_nil _ _, digits⟩
  · rw [List.length_replicate]
    decide

end Language

end QubitLang
