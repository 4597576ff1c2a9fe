import QubitLang.Proofs.Language.Rejection

/-! Where the tokens of a text stop to be the beginning of a sentence. A text that splits
completely is refused there, so that the place and all that is expected at it depend on
nothing but the tokens. -/

namespace QubitLang.Language

variable {start : Nonterminal} {tokens : List Token} {index other : Nat}

/-! ## The place -/

/-- So many tokens begin a sentence, and the next one cannot go on with it. -/
structure StopsBehind (start : Nonterminal) (tokens : List Token) (index : Nat) : Prop where
  index_le : index ≤ tokens.length
  begins : ∃ more, Generates (form start) (tokens.take index ++ more)
  refused : ∀ token ∈ tokens[index]?, ∀ label, token.reads label = true →
    ¬ Viable (form start) (tokens.take index) label

theorem StopsBehind.le (stops : StopsBehind start tokens index)
    (otherStops : StopsBehind start tokens other) : index ≤ other := by
  apply Nat.not_lt.mp
  intro earlier
  have inside : other < tokens.length := Nat.lt_of_lt_of_le earlier stops.index_le
  obtain ⟨more, generates⟩ := stops.begins
  have further : other < (tokens.take index).length := by
    rw [List.length_take]
    omega
  have parts := List.take_append_drop other (tokens.take index)
  rw [List.take_take, Nat.min_eq_left (Nat.le_of_lt earlier), List.drop_eq_getElem_cons further,
    List.getElem_take] at parts
  rw [← parts, List.append_assoc] at generates
  obtain ⟨label, accepted, viable⟩ := generates.exists_viable rfl
  exact otherStops.refused _ (List.getElem?_eq_getElem inside) label accepted viable

theorem StopsBehind.unique (stops : StopsBehind start tokens index)
    (otherStops : StopsBehind start tokens other) : index = other :=
  Nat.le_antisymm (stops.le otherStops) (otherStops.le stops)

/-! ## What is expected there -/

theorem Expects.mem_iff {expected otherExpected : List String}
    (expects : Expects start tokens expected)
    (otherExpects : Expects start tokens otherExpected) (text : String) :
    text ∈ expected ↔ text ∈ otherExpected := by
  have same : ∀ label : Label, label.text ∈ expected ↔ label.text ∈ otherExpected := by
    intro label
    by_cases isEnd : label = .endOfInput
    · rw [isEnd, expects.mem_iff_generates, otherExpects.mem_iff_generates]
    · rw [expects.mem_iff_viable label isEnd, otherExpects.mem_iff_viable label isEnd]
  constructor
  · intro member
    obtain ⟨label, rfl⟩ := expects.exists_label text member
    exact (same label).mp member
  · intro member
    obtain ⟨label, rfl⟩ := otherExpects.exists_label text member
    exact (same label).mpr member

theorem Expects.unique {expected otherExpected : List String}
    (expects : Expects start tokens expected) (sorted : expected.Pairwise (· < ·))
    (otherExpects : Expects start tokens otherExpected)
    (otherSorted : otherExpected.Pairwise (· < ·)) : expected = otherExpected :=
  sorted.eq_of_mem_iff otherSorted (expects.mem_iff otherExpects)

/-! ## The error -/

/-- Whether a text lacks the first digit of a qubit literal where its tokens stop: a percent
sign stands behind all of them, and a sentence could go on with one. -/
def LacksDigit (start : Nonterminal) (tokens : List Token) (index : Nat) (remainder : Text) :
    Prop :=
  index = tokens.length ∧ remainder.head? = some '%' ∧ Viable (form start) tokens (.sign .percent)

/-- An error locates where the tokens of a text stop, which need not be split up to its end:
at the digit that it lacks, or at the next lexeme with all that could stand there. -/
structure Locates (start : Nonterminal) (lexemes : List Lexeme) (finish : Nat) (remainder : Text)
    (index : Nat) (error : SyntaxError) : Prop where
  notTooDeep : error.tooDeep = false
  sorted : error.expected.Pairwise (· < ·)
  stops : StopsBehind start (lexemes.map Lexeme.token) index
  atDigit : LacksDigit start (lexemes.map Lexeme.token) index remainder →
    error.offset = finish + 1 ∧ ∀ text, text ∈ error.expected ↔ text = Label.digit.text
  atLexeme : ¬ LacksDigit start (lexemes.map Lexeme.token) index remainder →
    error.offset = Lexeme.startOf finish (lexemes.drop index) ∧
      Expects start ((lexemes.map Lexeme.token).take index) error.expected

variable {source : Text} {lexemes before tail : List Lexeme} {finish : Nat}
  {remainder : Text} {result : Option Reading} {probes : List Probe}

theorem StopsAt.stopsBehind (stops : StopsAt start lexemes result probes before tail)
    (reads : Reads finish (form start) lexemes result probes) (entry : start.isEntry = true) :
    StopsBehind start (lexemes.map Lexeme.token) before.length := by
  have taken : (lexemes.map Lexeme.token).take before.length = before.map Lexeme.token := by
    rw [stops.lexemes_eq, List.map_append, List.take_left' (List.length_map _)]
  refine ⟨?_, ?_, ?_⟩
  · rw [stops.lexemes_eq, List.length_map, List.length_append]
    exact Nat.le_add_right _ _
  · rw [taken]
    obtain ⟨label, reached⟩ := stops.reached
    rcases mem_misses_iff.mp reached with ⟨tried, _⟩ | ⟨_, reading, result_eq, ended⟩
    · obtain ⟨more, generates⟩ := stops.viable reads tried
      exact ⟨_, generates⟩
    · have generates := stops.generates_of_rest reads result_eq (Prod.mk.inj ended).2.symm
      exact ⟨[], by rwa [List.append_nil]⟩
  · intro token next label accepted viable
    rw [taken] at viable
    have hits := stops.refused reads (stops.mem_of_viable reads entry viable)
    rw [stops.lexemes_eq, List.map_append, List.getElem?_append_right
      (Nat.le_of_eq (List.length_map _)), List.length_map, Nat.sub_self] at next
    cases tail with
    | nil => cases next
    | cons first rest =>
        cases next
        exact absurd (hits.symm.trans accepted) Bool.false_ne_true

theorem StopsAt.lacksDigit_iff (stops : StopsAt start lexemes result probes before tail)
    (reads : Reads finish (form start) lexemes result probes) (entry : start.isEntry = true) :
    LacksDigit start (lexemes.map Lexeme.token) before.length remainder ↔
      tail = [] ∧ ∃ behind, remainder = '%' :: behind ∧ (Label.sign .percent, []) ∈ probes := by
  have length_iff : before.length = (lexemes.map Lexeme.token).length ↔ tail = [] := by
    rw [stops.lexemes_eq, List.length_map, List.length_append, ← List.length_eq_zero_iff]
    omega
  rw [LacksDigit, length_iff, List.head?_eq_some_iff]
  apply and_congr_right
  intro tail_eq
  subst tail_eq
  have lexemes_eq : lexemes = before := by rw [stops.lexemes_eq, List.append_nil]
  constructor
  · intro ⟨⟨behind, remainder_eq⟩, viable⟩
    rw [lexemes_eq] at viable
    exact ⟨behind, remainder_eq, stops.mem_of_viable reads entry viable⟩
  · intro ⟨behind, remainder_eq, tried⟩
    rw [lexemes_eq]
    exact ⟨⟨behind, remainder_eq⟩, stops.viable reads tried⟩

/-- A text that is no sentence as a whole is refused where its tokens stop. -/
theorem exists_locates (entry : start.isEntry = true)
    (splits : Splits 0 source lexemes finish remainder) (ends : Scan.token? remainder = none)
    (unspelled : ¬ (remainder = [] ∧ Spells (form start) lexemes)) (trace : Bool) :
    ∃ index error, (grammar.matchText start source trace).outcome = .error (.rejected error) ∧
      Locates start lexemes finish remainder index error := by
  obtain ⟨outcome, events, others, otherFinish, otherRemainder, result, probes, expected, result_eq,
    otherSplits, otherEnds, reads, entryOutcome, same⟩ := exists_reading entry source
  rcases splits.unique ends otherSplits otherEnds with ⟨rfl, rfl, rfl⟩
  rw [Peg.Grammar.matchText, result_eq]
  cases entryOutcome with
  | whole isWhole _ =>
      exact absurd ⟨isWhole.2, Succeeds.spells ⟨_, reads⟩ isWhole.1⟩ unspelled
  | failed _ =>
      rw [expected_eq_map_missed] at same
      obtain ⟨before, tail, stops⟩ := exists_stopsAt reads
      have lacks : LacksDigit start _ before.length remainder ↔ _ :=
        stops.lacksDigit_iff reads entry
      have index_eq : lexemes.drop before.length = tail ∧
          (lexemes.map Lexeme.token).take before.length = before.map Lexeme.token := by
        rw [stops.lexemes_eq, List.map_append, List.take_left' (List.length_map _), List.drop_left]
        exact ⟨rfl, rfl⟩
      refine ⟨before.length, Peg.syntaxErrorOf source events, ?_,
        Peg.tooDeep_syntaxErrorOf source events, Peg.pairwise_expected_syntaxErrorOf _ _,
        stops.stopsBehind reads entry, ?_, ?_⟩
      · simp only [Peg.failure, if_pos (isExplained_of_run result_eq)]
      · intro lacking
        obtain ⟨tail_eq, behind, remainder_eq, tried⟩ := lacks.mp lacking
        have error := error_of_digit same stops reads splits tail_eq remainder_eq tried
        exact ⟨error.1, error.2.2⟩
      · intro lacking
        have noDigit : ∀ behind, tail = [] → remainder = '%' :: behind →
            (Label.sign .percent, []) ∉ probes := fun behind tail_eq remainder_eq tried =>
          lacking (lacks.mpr ⟨tail_eq, behind, remainder_eq, tried⟩)
        rw [index_eq.1, index_eq.2]
        exact ⟨(error_of_terminal same stops reads splits noDigit).1,
          expects_of_terminal same stops reads splits entry noDigit⟩

/-! ## Texts that split completely -/

structure Tells (start : Nonterminal) (source : Text) (lexemes : List Lexeme) (index : Nat)
    (error : SyntaxError) : Prop where
  notTooDeep : error.tooDeep = false
  offset_eq : error.offset = Lexeme.startOf source.length (lexemes.drop index)
  stops : StopsBehind start (lexemes.map Lexeme.token) index
  expects : Expects start ((lexemes.map Lexeme.token).take index) error.expected
  sorted : error.expected.Pairwise (· < ·)

theorem exists_tells (entry : start.isEntry = true) (splits : SplitsInto source lexemes)
    (unspelled : ¬ Spells (form start) lexemes) (trace : Bool) :
    ∃ index error, (grammar.matchText start source trace).outcome = .error (.rejected error) ∧
      Tells start source lexemes index error := by
  have ⟨index, error, rejected, locates⟩ :=
    exists_locates entry splits rfl (fun spells => unspelled spells.2) trace
  have noDigit : ¬ LacksDigit start (lexemes.map Lexeme.token) index [] := nofun
  have ⟨offset_eq, expects⟩ := locates.atLexeme noDigit
  exact ⟨index, error, rejected, locates.notTooDeep, offset_eq, locates.stops, expects,
    locates.sorted⟩

end QubitLang.Language
