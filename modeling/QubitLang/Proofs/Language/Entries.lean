import QubitLang.Proofs.Language.Stripping

/-! The rules with which a match starts. They match trivia themselves, and only a
text as a whole. -/

namespace QubitLang.Language

open Peg (Cursor Outcome Expectation)

def Nonterminal.isEntry : Nonterminal → Bool
  | .program | .expressionInput | .statementInput => true
  | _ => false

def entryValue (start : Nonterminal) (length : Nat) (values : List Peg.Value) : Peg.Value :=
  match start with
  | .program => .tree "program" 0 length values
  | _ => .list values

/-- What is noted of the end of the input where a text goes on: nothing behind the
items of a program. -/
def endNoted (finish : Nat) (start : Nonterminal) : Option Reading → List Expectation
  | some reading =>
    if start = .program then []
    else [(Label.endOfInput.text, Lexeme.startOf finish reading.rest)]
  | none => []

def Reading.IsWhole (reading : Reading) (remainder : Text) : Prop :=
  reading.rest = [] ∧ remainder = []

instance (reading : Reading) (remainder : Text) : Decidable (reading.IsWhole remainder) :=
  inferInstanceAs (Decidable (_ ∧ _))

/-- The outcome of matching a source text whose lexemes are read by the form of the
rule that the match starts with. -/
inductive EntryOutcome (finish : Nat) (remainder : Text) (start : Nonterminal)
    (source : Text) : Option Reading → List Probe → Outcome → List Expectation → Prop where
  | whole {reading : Reading} {probes : List Probe} {next : Cursor} {values : List Peg.Value}
      {expected : List Expectation} (isWhole : reading.IsWhole remainder)
      (nodes : Node.ofValues? values = some reading.nodes) :
      EntryOutcome finish remainder start source (some reading) probes
        (.matched next [entryValue start source.length values]) expected
  | failed {result : Option Reading} {probes : List Probe} {explained : Bool}
      (notWhole : ∀ reading ∈ result, ¬ reading.IsWhole remainder) :
      EntryOutcome finish remainder start source result probes (.failed explained)
        (probes.filterMap (noted finish remainder) ++ endNoted finish start result)

variable {finish depth : Nat} {remainder : Text} {cursor : Cursor} {stream : List Lexeme}
  {outcome : Outcome} {expected : List Expectation}

theorem Faces.rest_eq_nil_iff (faces : Faces finish remainder true cursor stream) :
    cursor.rest = [] ↔ stream = [] ∧ remainder = [] := by
  have same := faces.trivia_eq
  cases stream with
  | nil =>
      obtain ⟨_, remainder_eq⟩ := Splits.nil_iff.mp faces.splits
      rw [remainder_eq, same]
      simp
  | cons first rest =>
      obtain ⟨_, _, behind, found, _⟩ := Splits.cons_iff.mp faces.splits
      rw [same] at found
      constructor
      · intro empty
        rw [empty] at found
        cases found
      · rintro ⟨⟨⟩, _⟩

theorem plain_endOfText (tried : endOfText.plain (grammar.plain depth) cursor =
    some (outcome, expected)) :
    expected = [] ∧ outcome = if cursor.rest = [] then .matched cursor [] else .failed true := by
  obtain ⟨offset, rest⟩ := cursor
  cases rest <;> cases tried <;> exact ⟨rfl, rfl⟩

/-! ## Programs -/

theorem reads_item (ends : Scan.token? remainder = none)
    (faces : Faces finish remainder true cursor stream)
    (tried : (Peg.Expr.seq (.call .item) trivia).plain (grammar.plain depth) cursor =
      some (outcome, expected)) :
    ∃ result probes, Reads finish (.call .item) stream result probes ∧
      expected = probes.filterMap (noted finish remainder) ∧
        ((∃ reading next values, result = some reading ∧ outcome = .matched next values ∧
            Faces finish remainder true next reading.rest ∧
            Node.ofValues? values = some reading.nodes) ∨
          result = none ∧ ∃ explained, outcome = .failed explained) := by
  rcases Peg.Expr.plain_seq tried with
    ⟨middle, values, early, later, late, first, second, rfl, rfl⟩ | ⟨first, unmatched⟩
  · obtain ⟨reading, probes, reads, rfl, splits, nodes, _⟩ :=
      (simulated_call ends depth rfl faces first).of_matched
    cases plain_trivia second
    exact ⟨_, probes, reads, List.append_nil _,
      .inl ⟨reading, _, _, rfl, rfl, (faces_of_splits splits).skip, by simpa using nodes⟩⟩
  · have simulated := simulated_call ends depth rfl faces first
    cases outcome with
    | matched next values => exact absurd rfl (unmatched next values)
    | stuck => exact absurd rfl simulated.ne_stuck
    | failed explained =>
        obtain ⟨probes, reads, expected_eq⟩ := simulated.of_failed
        exact ⟨none, probes, reads, expected_eq, .inr ⟨rfl, explained, rfl⟩⟩

theorem reads_items_ended (ends : Scan.token? remainder = none)
    (faces : Faces finish remainder true cursor stream)
    (tried : (Peg.Expr.seq (.call .item) trivia).plain (grammar.plain depth) cursor =
      some (outcome, expected))
    (unmatched : ∀ next values, outcome ≠ .matched next values) :
    ∃ reading probes next values,
      Reads finish (form .program) stream (some reading) probes ∧
        expected = probes.filterMap (noted finish remainder) ∧
        (Peg.Repetition.ended cursor outcome).outcome = .matched next values ∧
        Faces finish remainder true next reading.rest ∧
        Node.ofValues? values = some reading.nodes := by
  obtain ⟨result, probes, reads, rfl, ⟨_, _, _, _, rfl, _⟩ | ⟨rfl, _, rfl⟩⟩ :=
    reads_item ends faces tried
  · exact absurd rfl (unmatched _ _)
  · exact ⟨_, probes, cursor, [], .starStop reads, rfl, rfl, faces, rfl⟩

theorem reads_items (ends : Scan.token? remainder = none) :
    ∀ {bound : Nat} {cursor : Cursor} {stream : List Lexeme} {repetition : Peg.Repetition}
      {expected : List Expectation}, cursor.rest.length ≤ bound →
        Faces finish remainder true cursor stream →
          Peg.retried ((Peg.Expr.seq (.call .item) trivia).plain (grammar.plain depth)) bound
              cursor = some (repetition, expected) →
            ∃ reading probes next values,
              Reads finish (form .program) stream (some reading) probes ∧
                expected = probes.filterMap (noted finish remainder) ∧
                repetition.outcome = .matched next values ∧
                Faces finish remainder true next reading.rest ∧
                Node.ofValues? values = some reading.nodes := by
  intro bound
  induction bound with
  | zero =>
      intro cursor stream repetition expected enough faces tried
      rcases Peg.retried_cases tried with ⟨_, _, _, _, _, _, ⟨⟩, _⟩ | ⟨last, attempted, rfl, _⟩
      refine reads_items_ended ends faces attempted ?_
      rintro next values rfl
      have shorter := (plain_goesOn depth _ cursor _ _ attempted _ _ rfl).2 rfl
      omega
  | succ bound induction =>
      intro cursor stream repetition expected enough faces tried
      rcases Peg.retried_cases tried with
        ⟨_, next, values, early, rest, late, ⟨⟩, attempted, again, rfl, rfl⟩ |
        ⟨last, attempted, rfl, isLast⟩
      · have shorter := (plain_goesOn depth _ cursor _ _ attempted _ _ rfl).2 rfl
        obtain ⟨_, probes, reads, rfl, ⟨reading, _, _, rfl, ⟨⟩, behind, nodes⟩ | ⟨_, _, ⟨⟩⟩⟩ :=
          reads_item ends faces attempted
        obtain ⟨later, more, last, otherValues, otherReads, rfl, otherOutcome, atEnd,
          otherNodes⟩ := induction (by omega) behind again
        refine ⟨_, _, last, values ++ otherValues, .starStep reads otherReads,
          by rw [List.filterMap_append], ?_, atEnd, ofValues?_append nodes otherNodes⟩
        unfold Peg.Repetition.outcome at otherOutcome ⊢
        simp only [Peg.Repetition.precededBy]
        split at otherOutcome
        · cases otherOutcome
        · cases otherOutcome
          rfl
      · exact reads_items_ended ends faces attempted
          fun next values equal => absurd (isLast next values equal) (Nat.succ_ne_zero _)

theorem reads_items_to_end (ends : Scan.token? remainder = none)
    (faces : Faces finish remainder true cursor stream)
    (tried : (Peg.Expr.seq (.star (.seq (.call .item) trivia)) endOfText).plain
      (grammar.plain depth) cursor = some (outcome, expected)) :
    ∃ reading probes next values,
      Reads finish (form .program) stream (some reading) probes ∧
        expected = probes.filterMap (noted finish remainder) ∧
        outcome = (if next.rest = [] then .matched next values else .failed true) ∧
        Faces finish remainder true next reading.rest ∧
        Node.ofValues? values = some reading.nodes := by
  have starred : ∀ {outcome expected},
      (Peg.Expr.star (.seq (.call .item) trivia)).plain (grammar.plain depth) cursor =
          some (outcome, expected) →
        ∃ reading probes next values,
          Reads finish (form .program) stream (some reading) probes ∧
            expected = probes.filterMap (noted finish remainder) ∧
            outcome = .matched next values ∧ Faces finish remainder true next reading.rest ∧
            Node.ofValues? values = some reading.nodes := by
    intro outcome expected tried
    obtain ⟨⟨repetition, early⟩, repeats, equal⟩ := Option.map_eq_some_iff.mp tried
    cases equal
    exact reads_items ends (Nat.le_refl _) faces repeats
  rcases Peg.Expr.plain_seq tried with
    ⟨next, values, _, _, _, items, atEnd, rfl, rfl⟩ | ⟨items, unmatched⟩
  · obtain ⟨reading, probes, _, _, reads, rfl, ⟨⟩, behind, nodes⟩ := starred items
    obtain ⟨rfl, rfl⟩ := plain_endOfText atEnd
    refine ⟨reading, probes, next, values, reads, List.append_nil _, ?_, behind, nodes⟩
    split
    · rw [Outcome.precededBy, List.append_nil]
    · rfl
  · obtain ⟨_, _, _, _, _, _, equal, _⟩ := starred items
    exact absurd equal (unmatched _ _)

theorem reads_program {source : Text} (splits : Splits 0 source stream finish remainder)
    (ends : Scan.token? remainder = none)
    (tried : grammar.plain depth .program (Cursor.start source) = some (outcome, expected)) :
    ∃ result probes, Reads finish (form .program) stream result probes ∧
      EntryOutcome finish remainder .program source result probes outcome expected := by
  obtain ⟨smaller, rfl, result_eq⟩ := plain_rule tried
  have faces : Faces finish remainder false (Cursor.start source) stream := faces_of_splits splits
  cases bodyTried : (definition .program).2.plain (grammar.plain smaller)
      (Cursor.start source) with
  | none => simp [bodyTried] at result_eq
  | some result =>
      obtain ⟨bodyOutcome, early⟩ := result
      obtain ⟨reading, probes, next, values, reads, rfl, rfl, behind, nodes⟩ :=
        reads_items_to_end ends faces.skip (plain_behind_trivia bodyTried)
      rw [bodyTried] at result_eq
      refine ⟨some reading, probes, reads, ?_⟩
      by_cases empty : next.rest = []
      · obtain ⟨rest_eq, remainder_eq⟩ := behind.rest_eq_nil_iff.mp empty
        have length_eq : next.offset = source.length := by
          obtain ⟨consumed, source_eq, finish_eq⟩ := splits.exists_eq_append
          have last := behind.splits
          rw [rest_eq, empty] at last
          have last_eq := (Splits.nil_iff.mp last).1
          rw [source_eq, remainder_eq, List.append_nil]
          simpa [Lexical.trivia] using last_eq.symm.trans finish_eq
        rw [if_pos empty] at result_eq
        cases result_eq
        rw [length_eq]
        exact .whole ⟨rest_eq, remainder_eq⟩ nodes
      · rw [if_neg empty] at result_eq
        cases result_eq
        have notWhole : ∀ other ∈ some reading, ¬ other.IsWhole remainder := by
          rintro _ ⟨⟩ whole
          exact empty (behind.rest_eq_nil_iff.mpr whole)
        have result : EntryOutcome finish remainder .program source (some reading) probes
            (.failed true) (probes.filterMap (noted finish remainder) ++
              endNoted finish .program (some reading)) := .failed notWhole
        rwa [endNoted, if_pos rfl, List.append_nil] at result

/-! ## Fragments -/

theorem plain_endOfInput (faces : Faces finish remainder true cursor stream)
    (tried : (expecting .endOfInput endOfText).plain (grammar.plain depth) cursor =
      some (outcome, expected)) :
    if stream = [] ∧ remainder = [] then outcome = .matched cursor [] ∧ expected = []
    else outcome = .failed true ∧
      expected = [(Label.endOfInput.text, Lexeme.startOf finish stream)] := by
  have start_eq := faces.splits.startOf_eq (faces.noTrivia rfl)
  have single : (endOfText : Expr).alternatives = [endOfText] := rfl
  rcases plain_expecting single tried with ⟨_, _, atEnd, rfl, rfl⟩ | ⟨atEnd, unfailed⟩
  · obtain ⟨rfl, outcome_eq⟩ := plain_endOfText atEnd
    by_cases empty : cursor.rest = []
    · rw [if_pos empty] at outcome_eq
      cases outcome_eq
    · rw [if_neg (fun both => empty (faces.rest_eq_nil_iff.mpr both)), start_eq]
      exact ⟨rfl, rfl⟩
  · obtain ⟨rfl, outcome_eq⟩ := plain_endOfText atEnd
    by_cases empty : cursor.rest = []
    · rw [if_pos empty] at outcome_eq
      rw [if_pos (faces.rest_eq_nil_iff.mp empty)]
      exact ⟨outcome_eq, rfl⟩
    · rw [if_neg empty] at outcome_eq
      exact absurd outcome_eq (unfailed _)

theorem reads_to_end {name : Nonterminal} (ends : Scan.token? remainder = none)
    (phrase : name.isPhrase = true) (faces : Faces finish remainder true cursor stream)
    (tried : (Peg.Expr.seq (.call name) (.seq trivia (expecting .endOfInput endOfText))).plain
      (grammar.plain depth) cursor = some (outcome, expected)) :
    ∃ result probes, Reads finish (.call name) stream result probes ∧
      ((∃ reading next values, result = some reading ∧ reading.IsWhole remainder ∧
          outcome = .matched next values ∧ Node.ofValues? values = some reading.nodes) ∨
        (∀ reading ∈ result, ¬ reading.IsWhole remainder) ∧
          (∃ explained, outcome = .failed explained) ∧
          expected = probes.filterMap (noted finish remainder) ++
            endNoted finish .expressionInput result) := by
  have behind : ∀ {middle reading outcome expected},
      Splits middle.offset middle.rest (Reading.rest reading) finish remainder →
        (Peg.Expr.seq trivia (expecting .endOfInput endOfText)).plain (grammar.plain depth)
            middle = some (outcome, expected) →
          if reading.IsWhole remainder then outcome = .matched (skipTrivia middle) []
          else outcome = .failed true ∧
            expected = [(Label.endOfInput.text, Lexeme.startOf finish reading.rest)] := by
    intro middle reading outcome expected splits tried
    have faces : Faces finish remainder false middle reading.rest := faces_of_splits splits
    have atEnd := plain_endOfInput faces.skip (plain_behind_trivia tried)
    split at atEnd
    · rw [if_pos ‹_›]
      exact atEnd.1
    · rw [if_neg ‹_›]
      exact atEnd
  rcases Peg.Expr.plain_seq tried with
    ⟨_, _, _, _, _, first, second, rfl, rfl⟩ | ⟨first, unmatched⟩
  · obtain ⟨reading, probes, reads, rfl, splits, nodes, _⟩ :=
      (simulated_call ends depth phrase faces first).of_matched
    refine ⟨_, probes, reads, ?_⟩
    have atEnd := behind splits second
    split at atEnd
    · cases atEnd
      exact .inl ⟨reading, _, _, rfl, ‹_›, rfl, by simpa using nodes⟩
    · rename_i notWhole
      obtain ⟨rfl, rfl⟩ := atEnd
      refine .inr ⟨?_, ⟨true, rfl⟩, rfl⟩
      rintro _ ⟨⟩
      exact notWhole
  · have simulated := simulated_call ends depth phrase faces first
    cases outcome with
    | matched next values => exact absurd rfl (unmatched next values)
    | stuck => exact absurd rfl simulated.ne_stuck
    | failed explained =>
        obtain ⟨probes, reads, rfl⟩ := simulated.of_failed
        exact ⟨none, probes, reads, .inr ⟨nofun, ⟨explained, rfl⟩, (List.append_nil _).symm⟩⟩

theorem reads_fragment {start name : Nonterminal} {source : Text}
    (definition_eq : definition start =
      (.entry, .sequence [trivia, .call name, trivia, expecting .endOfInput endOfText]))
    (form_eq : form start = .call name) (phrase : name.isPhrase = true)
    (splits : Splits 0 source stream finish remainder) (ends : Scan.token? remainder = none)
    (tried : grammar.plain depth start (Cursor.start source) = some (outcome, expected)) :
    ∃ result probes, Reads finish (form start) stream result probes ∧
      EntryOutcome finish remainder start source result probes outcome expected := by
  obtain ⟨smaller, rfl, result_eq⟩ := plain_rule tried
  have faces : Faces finish remainder false (Cursor.start source) stream := faces_of_splits splits
  have notProgram : start ≠ .program := by
    rintro rfl
    cases form_eq
  rw [definition_eq] at result_eq
  have value_eq : ∀ values, entryValue start source.length values = .list values := by
    intro values
    cases start <;> first | rfl | exact absurd rfl notProgram
  have noted_eq : ∀ result, endNoted finish start result =
      endNoted finish .expressionInput result := by
    rintro (_ | reading)
    · rfl
    · rw [endNoted, if_neg notProgram]
      rfl
  simp only at result_eq
  split at result_eq
  · rename_i next values early bodyTried
    obtain ⟨result, probes, reads, ⟨reading, _, _, rfl, isWhole, equal, nodes⟩ |
      ⟨_, ⟨_, ⟨⟩⟩, _⟩⟩ := reads_to_end ends phrase faces.skip (plain_behind_trivia bodyTried)
    cases equal
    cases result_eq
    refine ⟨_, probes, by rw [form_eq]; exact reads, ?_⟩
    rw [Peg.RuleKind.finish, ← value_eq]
    exact .whole isWhole nodes
  · rename_i unmatched
    obtain ⟨result, probes, reads, ⟨_, _, _, rfl, _, rfl, _⟩ |
      ⟨notWhole, ⟨_, rfl⟩, rfl⟩⟩ :=
        reads_to_end ends phrase faces.skip (plain_behind_trivia result_eq)
    · exact absurd result_eq (unmatched _ _ _)
    · refine ⟨_, probes, by rw [form_eq]; exact reads, ?_⟩
      rw [← noted_eq]
      exact .failed notWhole

/-- Matching a source text is reading its lexemes, whatever the match starts with. -/
theorem reads_entry {start : Nonterminal} {source : Text} (entry : start.isEntry = true)
    (splits : Splits 0 source stream finish remainder) (ends : Scan.token? remainder = none)
    (tried : grammar.plain depth start (Cursor.start source) = some (outcome, expected)) :
    ∃ result probes, Reads finish (form start) stream result probes ∧
      EntryOutcome finish remainder start source result probes outcome expected := by
  cases start with
  | program => exact reads_program splits ends tried
  | expressionInput => exact reads_fragment rfl rfl rfl splits ends tried
  | statementInput => exact reads_fragment rfl rfl rfl splits ends tried
  | _ => cases entry

end QubitLang.Language
