import QubitLang.Proofs.Language.Parsing
import QubitLang.Proofs.Language.Stopping

/-! What comes of any source text: its brackets nest too deeply, or the limit leaves no room for
a match, or it stops to be the beginning of a sentence, or it is a sentence. -/

namespace QubitLang.Language

variable {start : Nonterminal} {source : Text} {options : Options} {lexemes : List Lexeme}
  {finish : Nat} {remainder : Text}

theorem matchSource_eq_rejected {error : SyntaxError}
    (shallow : Nesting.firstExcess? options.maxDepth source = none) (room : options.HasRoom)
    (rejected : (grammar.matchText start source options.trace).outcome =
      .error (.rejected error)) :
    (Parse.matchSource start source options).outcome = .error (.unmatched (.rejected error)) := by
  rw [matchSource_of_shallow shallow room]
  exact Report.mapError_unmatched_eq_error_iff.mpr rejected

/-- What comes of a source text that splits into some lexemes up to an offset. -/
inductive Verdict (start : Nonterminal) (source : Text) (options : Options)
    (lexemes : List Lexeme) (finish : Nat) (remainder : Text) : Prop where
  | tooDeep {offset : Nat} (excess : Nesting.firstExcess? options.maxDepth source = some offset)
  | full (shallow : Nesting.firstExcess? options.maxDepth source = none)
      (full : ¬ options.HasRoom)
  | refused {index : Nat} {error : SyntaxError}
      (shallow : Nesting.firstExcess? options.maxDepth source = none) (room : options.HasRoom)
      (unspelled : ¬ (remainder = [] ∧ Spells (form start) lexemes))
      (found : (Parse.matchSource start source options).outcome =
        .error (.unmatched (.rejected error)))
      (locates : Locates start lexemes finish remainder index error)
  | spelled (shallow : Nesting.firstExcess? options.maxDepth source = none)
      (room : options.HasRoom) (whole : remainder = []) (spells : Spells (form start) lexemes)

theorem verdict (entry : start.isEntry = true)
    (splits : Splits 0 source lexemes finish remainder) (ends : Scan.token? remainder = none)
    (options : Options) : Verdict start source options lexemes finish remainder := by
  cases excess : Nesting.firstExcess? options.maxDepth source with
  | some offset => exact .tooDeep excess
  | none =>
      by_cases room : options.HasRoom
      · by_cases spells : remainder = [] ∧ Spells (form start) lexemes
        · exact .spelled excess room spells.1 spells.2
        · have ⟨index, error, rejected, locates⟩ :=
            exists_locates entry splits ends spells options.trace
          exact .refused excess room spells (matchSource_eq_rejected excess room rejected) locates
      · exact .full excess room

/-! ## Programs -/

theorem exists_yields_program (splits : Splits 0 source lexemes finish remainder)
    (shallow : Nesting.firstExcess? options.maxDepth source = none) (room : options.HasRoom)
    (whole : remainder = []) (spells : Spells (form .program) lexemes) :
    ∃ items, DerivesItems lexemes items ∧
      Yields lexemes (Parse.program source options).outcome ⟨Span.whole source, items⟩ := by
  subst whole
  have ⟨_, complete⟩ := splits.splitsInto
  have nests := (Nesting.firstExcess?_eq_none_iff complete _).mp shallow
  have ⟨items, derives⟩ := spells_program_iff.mp (spells_call_iff.mpr spells)
  have lexed : IsLexed source options lexemes := ⟨complete, nests, room⟩
  exact ⟨items, derives, lexed.yields_program derives⟩

end QubitLang.Language
