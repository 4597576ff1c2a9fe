import QubitLang.Language.Grammar
import QubitLang.Proofs.Language.Scan
import QubitLang.Proofs.Peg.Plain

/-! The terminals of the grammar. Each of them takes from a text exactly the next
token, if its label accepts it, and otherwise notes its label. -/

namespace QubitLang

open Lexical

/-! ## Tokens that a label accepts -/

namespace Scan

variable {text lexeme rest : Text}

theorem accepted?_identifier_iff : accepted? .identifier text = some (lexeme, rest) ↔
    word? text = some (lexeme, rest) ∧ isReserved lexeme = false := by
  rw [accepted?_eq_some_iff]
  constructor
  · rintro ⟨token, found, reads, rfl⟩
    cases token with
    | word spelling =>
        simp only [Token.reads, isIdentifier, Bool.and_eq_true, Bool.not_eq_true'] at reads
        exact ⟨token?_eq_word_iff.mp found, reads.2⟩
    | any label => cases (isLongestAt_of_token? found).isLexical
    | number _ | qubit _ | sign _ => cases reads
  · rintro ⟨found, notReserved⟩
    have isMember := (word?_isLongest found).isMember
    exact ⟨.word lexeme, token?_eq_word_iff.mpr found,
      by simp [Token.reads, isIdentifier, isMember, notReserved], rfl⟩

theorem accepted?_keyword_iff {keyword : Keyword} :
    accepted? (.keyword keyword) text = some (lexeme, rest) ↔
      lexeme = keyword.spelling.toList ∧ word? text = some (lexeme, rest) := by
  rw [accepted?_eq_some_iff]
  constructor
  · rintro ⟨token, found, reads, rfl⟩
    cases token with
    | word spelling => exact ⟨beq_iff_eq.mp reads, token?_eq_word_iff.mp found⟩
    | any label => cases (isLongestAt_of_token? found).isLexical
    | number _ | qubit _ | sign _ => cases reads
  · rintro ⟨rfl, found⟩
    exact ⟨.word _, token?_eq_word_iff.mpr found, by simp [Token.reads], rfl⟩

theorem accepted?_typeWord_iff {type : BaseType} :
    accepted? (.typeWord type) text = some (lexeme, rest) ↔
      lexeme = type.spelling.toList ∧ word? text = some (lexeme, rest) := by
  rw [accepted?_eq_some_iff]
  constructor
  · rintro ⟨token, found, reads, rfl⟩
    cases token with
    | word spelling => exact ⟨beq_iff_eq.mp reads, token?_eq_word_iff.mp found⟩
    | any label => cases (isLongestAt_of_token? found).isLexical
    | number _ | qubit _ | sign _ => cases reads
  · rintro ⟨rfl, found⟩
    exact ⟨.word _, token?_eq_word_iff.mpr found, by simp [Token.reads], rfl⟩

theorem accepted?_number_iff :
    accepted? .number text = some (lexeme, rest) ↔ number? text = some (lexeme, rest) := by
  rw [accepted?_eq_some_iff]
  constructor
  · rintro ⟨token, found, reads, rfl⟩
    cases token with
    | number spelling => exact token?_eq_number_iff.mp found
    | any label => cases (isLongestAt_of_token? found).isLexical
    | word _ | qubit _ | sign _ => cases reads
  · intro found
    exact ⟨.number lexeme, token?_eq_number_iff.mpr found, (number?_isLongest found).isMember, rfl⟩

theorem accepted?_sign_iff {mark : Sign} (notPercent : mark ≠ .percent) :
    accepted? (.sign mark) text = some (lexeme, rest) ↔
      lexeme = mark.spelling.toList ∧ text = lexeme ++ rest := by
  rw [accepted?_eq_some_iff]
  constructor
  · rintro ⟨token, found, reads, rfl⟩
    cases token with
    | sign other =>
        simp only [Token.reads, Bool.and_eq_true, beq_iff_eq] at reads
        cases reads.1
        exact ⟨rfl, (token?_eq_sign_iff.mp found).2⟩
    | qubit digits =>
        unfold Token.reads at reads
        split at reads <;> simp_all
    | any label => cases (isLongestAt_of_token? found).isLexical
    | word _ | number _ => cases reads
  · rintro ⟨rfl, text_eq⟩
    exact ⟨.sign mark, token?_eq_sign_iff.mpr ⟨notPercent, text_eq⟩,
      by simpa [Token.reads] using notPercent, rfl⟩

theorem accepted?_percent_iff : accepted? (.sign .percent) text = some (lexeme, rest) ↔
    ∃ behind digits, text = '%' :: behind ∧ digits? behind = some (digits, rest) ∧
      lexeme = '%' :: digits := by
  rw [accepted?_eq_some_iff]
  constructor
  · rintro ⟨token, found, reads, rfl⟩
    cases token with
    | qubit digits =>
        obtain ⟨behind, text_eq, digitsFound⟩ := token?_eq_qubit_iff.mp found
        exact ⟨behind, digits, text_eq, digitsFound, rfl⟩
    | sign other =>
        simp only [Token.reads, Bool.and_eq_true, beq_iff_eq] at reads
        cases reads.1
        cases reads.2
    | any label => cases (isLongestAt_of_token? found).isLexical
    | word _ | number _ => cases reads
  · rintro ⟨behind, digits, text_eq, digitsFound, rfl⟩
    exact ⟨.qubit digits, token?_eq_qubit_iff.mpr ⟨behind, text_eq, digitsFound⟩,
      (digits?_isLongest digitsFound).isMember, rfl⟩

end Scan

namespace Language

open Peg (Cursor Outcome Expectation Terminal)

variable {depth : Nat} {cursor : Cursor} {outcome : Outcome} {expected : List Expectation}

/-! ## Rules that only look at characters -/

theorem plain_rule {name : Nonterminal} {result : Outcome × List Expectation}
    (tried : grammar.plain depth name cursor = some result) :
    ∃ smaller, depth = smaller + 1 ∧
      (match (definition name).2.plain (grammar.plain smaller) cursor with
        | some (.matched last values, expected) =>
          let (values, event) := (definition name).1.finish cursor last values
          some (.matched last values,
            expected ++ (event.bind Peg.Event.expectation?).toList)
        | other => other) = some result := by
  cases depth with
  | zero => cases tried
  | succ smaller =>
      refine ⟨smaller, rfl, ?_⟩
      rw [← Peg.Expr.plain_numbered]
      exact tried

theorem plain_shape {name : Nonterminal} {kind : Lexical.Shape}
    (silent : definition name = (.silent, Peg.Expr.shape kind))
    {result : Outcome × List Expectation}
    (tried : grammar.plain depth name cursor = some result) :
    result = match (Terminal.shape kind).advance? cursor with
      | some next => (.matched next [], [])
      | none => (.failed true, []) := by
  obtain ⟨smaller, _, equal⟩ := plain_rule tried
  rw [silent] at equal
  simp only [Peg.Expr.shape, Peg.Expr.plain] at equal
  cases advanced : (Terminal.shape kind).advance? cursor with
  | none =>
      rw [advanced] at equal
      exact (Option.some.inj equal).symm
  | some next =>
      rw [advanced] at equal
      exact (Option.some.inj equal).symm

theorem plain_marker {label : Label} {result : Outcome × List Expectation}
    (tried : grammar.plain depth (.marker label) cursor = some result) :
    result = (.matched cursor [], [(label.text, cursor.offset)]) := by
  obtain ⟨smaller, _, equal⟩ := plain_rule tried
  exact (Option.some.inj equal).symm

theorem plain_trivia {result : Outcome × List Expectation}
    (tried : grammar.plain depth .trivia cursor = some result) :
    result = (.matched ⟨cursor.offset + (Lexical.trivia false cursor.rest).1.length,
      (Lexical.trivia false cursor.rest).2⟩ [], []) :=
  plain_shape (show definition .trivia = (.silent, Peg.Expr.shape .trivia) from rfl) tried

/-! ## Terminals that note their labels -/

/-- An expression takes exactly what a label accepts, and expects nothing. -/
def Takes (label : Label) (expr : Expr) : Prop :=
  ∀ (depth : Nat) (cursor : Cursor) (outcome : Outcome) (expected : List Expectation),
    expr.plain (grammar.plain depth) cursor = some (outcome, expected) →
      expected = [] ∧
        match Scan.accepted? label cursor.rest with
        | some (lexeme, rest) => outcome = .matched ⟨cursor.offset + lexeme.length, rest⟩ []
        | none => ∃ explained, outcome = .failed explained

/-- What is noted where the terminal of a label fails. A percent sign without
digits is taken all the same, and a digit is missing behind it. -/
def missing (label : Label) (cursor : Cursor) : Expectation :=
  match label, cursor.rest with
  | .sign .percent, '%' :: _ => (Label.digit.text, cursor.offset + 1)
  | _, _ => (label.text, cursor.offset)

/-- An expression takes exactly what a label accepts, and notes the label where
this is nothing. -/
def Recognizes (label : Label) (expr : Expr) : Prop :=
  ∀ (depth : Nat) (cursor : Cursor) (outcome : Outcome) (expected : List Expectation),
    expr.plain (grammar.plain depth) cursor = some (outcome, expected) →
      match Scan.accepted? label cursor.rest with
      | some (lexeme, rest) =>
        outcome = .matched ⟨cursor.offset + lexeme.length, rest⟩ [] ∧ expected = []
      | none => (∃ explained, outcome = .failed explained) ∧ expected = [missing label cursor]

theorem expecting_eq {label : Label} {body : Expr} (single : body.alternatives = [body]) :
    expecting label body = .remember 0 (.alt body (.seq (.call (.marker label)) .never)) := by
  change Peg.Expr.remember 0 (Peg.Expr.firstOf (List.flatMap _ _)) = _
  rw [List.flatMap_cons, single]
  rfl

theorem plain_expecting {label : Label} {body : Expr} (single : body.alternatives = [body])
    (tried : (expecting label body).plain (grammar.plain depth) cursor =
      some (outcome, expected)) :
    (∃ explained early,
      body.plain (grammar.plain depth) cursor = some (.failed explained, early) ∧
        outcome = .failed true ∧ expected = early ++ [(label.text, cursor.offset)]) ∨
    (body.plain (grammar.plain depth) cursor = some (outcome, expected) ∧
      ∀ explained, outcome ≠ .failed explained) := by
  rw [expecting_eq single] at tried
  rcases Peg.Expr.plain_alt tried with ⟨explained, early, late, bodyTried, marked, rfl⟩ | matched
  · refine .inl ⟨explained, early, bodyTried, ?_⟩
    rcases Peg.Expr.plain_seq marked with ⟨_, _, _, _, _, called, ⟨⟩, rfl, rfl⟩ |
      ⟨called, unmatched⟩
    · cases plain_marker called
      exact ⟨rfl, rfl⟩
    · cases plain_marker called
      exact absurd rfl (unmatched _ _)
  · exact .inr matched

theorem plain_expecting_of_failed {label : Label} {body : Expr} {explained : Bool}
    {early : List Expectation} (single : body.alternatives = [body])
    (fails : body.plain (grammar.plain depth) cursor = some (.failed explained, early))
    (tried : (expecting label body).plain (grammar.plain depth) cursor =
      some (outcome, expected)) :
    outcome = .failed true ∧ expected = early ++ [(label.text, cursor.offset)] := by
  rcases plain_expecting single tried with ⟨_, _, bodyTried, rfl, rfl⟩ | ⟨bodyTried, unfailed⟩
  · cases fails.symm.trans bodyTried
    exact ⟨rfl, rfl⟩
  · cases fails.symm.trans bodyTried
    exact absurd rfl (unfailed _)

theorem plain_expecting_of_matched {label : Label} {body : Expr} {next : Cursor}
    {values : List Peg.Value} {early : List Expectation} (single : body.alternatives = [body])
    (takes : body.plain (grammar.plain depth) cursor = some (.matched next values, early))
    (tried : (expecting label body).plain (grammar.plain depth) cursor =
      some (outcome, expected)) :
    outcome = .matched next values ∧ expected = early := by
  rcases plain_expecting single tried with ⟨_, _, bodyTried, _⟩ | ⟨bodyTried, _⟩
  · cases takes.symm.trans bodyTried
  · cases takes.symm.trans bodyTried
    exact ⟨rfl, rfl⟩

theorem Takes.recognizes {label : Label} {body : Expr} (takes : Takes label body)
    (single : body.alternatives = [body]) (other : label ≠ .sign .percent) :
    Recognizes label (expecting label body) := by
  intro depth cursor outcome expected tried
  have missing_eq : missing label cursor = (label.text, cursor.offset) := by
    unfold missing
    split
    · exact absurd rfl other
    · rfl
  rcases plain_expecting single tried with ⟨explained, early, bodyTried, rfl, rfl⟩ |
    ⟨bodyTried, unfailed⟩
  · obtain ⟨rfl, taken⟩ := takes _ _ _ _ bodyTried
    cases accepted : Scan.accepted? label cursor.rest with
    | none => exact ⟨⟨true, rfl⟩, by rw [missing_eq]; rfl⟩
    | some found =>
        rw [accepted] at taken
        cases taken
  · obtain ⟨rfl, taken⟩ := takes _ _ _ _ bodyTried
    cases accepted : Scan.accepted? label cursor.rest with
    | none =>
        rw [accepted] at taken
        obtain ⟨explained, rfl⟩ := taken
        exact absurd rfl (unfailed explained)
    | some found =>
        rw [accepted] at taken
        exact ⟨taken, rfl⟩

theorem takes_of_split {label : Label} {terminal : Terminal}
    (split_eq : ∀ text, terminal.split? text = Scan.accepted? label text) :
    Takes label (.terminal terminal) := by
  intro depth cursor outcome expected tried
  simp only [Peg.Expr.plain, Terminal.advance?, split_eq] at tried
  cases accepted : Scan.accepted? label cursor.rest with
  | none =>
      rw [accepted] at tried
      cases tried
      exact ⟨rfl, true, rfl⟩
  | some found =>
      rw [accepted] at tried
      cases tried
      exact ⟨rfl, rfl⟩

theorem recognizes_number : Recognizes .number (expecting .number (Peg.Expr.shape .number)) := by
  refine Takes.recognizes (takes_of_split fun text => ?_) rfl (by decide)
  refine Option.ext fun result => ?_
  exact Scan.accepted?_number_iff.symm

theorem recognizes_sign {mark : Sign} (notPercent : mark ≠ .percent) :
    Recognizes (.sign mark) (sign mark) := by
  refine Takes.recognizes (takes_of_split fun text => ?_) rfl (by simpa using notPercent)
  refine Option.ext fun ⟨lexeme, rest⟩ => ?_
  rw [Scan.accepted?_sign_iff notPercent]
  simp only [Terminal.split?, Option.map_eq_some_iff, Prod.mk.injEq, afterPrefix?_eq_some_iff]
  constructor
  · rintro ⟨after, rfl, rfl, rfl⟩
    exact ⟨rfl, rfl⟩
  · rintro ⟨rfl, rfl⟩
    exact ⟨rest, rfl, rfl, rfl⟩

theorem plain_notAhead_shape {name : Nonterminal} {kind : Lexical.Shape}
    (silent : definition name = (.silent, Peg.Expr.shape kind))
    (tried : (Peg.Expr.notAhead (.call name)).plain (grammar.plain depth) cursor =
      some (outcome, expected)) :
    expected = [] ∧ outcome =
      if kind.split? cursor.rest = none then .matched cursor [] else .failed true := by
  simp only [Peg.Expr.plain] at tried
  cases looked : grammar.plain depth name cursor with
  | none =>
      rw [looked] at tried
      cases tried
  | some result =>
      rw [plain_shape silent looked] at looked
      rw [looked, Terminal.advance?] at tried
      cases split : kind.split? cursor.rest with
      | none =>
          simp only [Terminal.split?, split, Option.map_none] at tried
          cases tried
          exact ⟨rfl, rfl⟩
      | some found =>
          simp only [Terminal.split?, split, Option.map_some] at tried
          cases tried
          exact ⟨rfl, rfl⟩

theorem plain_literal (depth : Nat) (cursor : Cursor) (spelling : String) :
    (Peg.Expr.literal spelling : Expr).plain (grammar.plain depth) cursor =
      match afterPrefix? spelling.toList cursor.rest with
      | some rest => some (.matched ⟨cursor.offset + spelling.toList.length, rest⟩ [], [])
      | none => some (.failed true, []) := by
  simp only [Peg.Expr.literal, Peg.Expr.plain, Terminal.advance?, Terminal.split?]
  cases afterPrefix? spelling.toList cursor.rest <;> rfl

theorem plain_class (depth : Nat) (cursor : Cursor) (kind : Lexical.Shape) :
    (Peg.Expr.shape kind : Expr).plain (grammar.plain depth) cursor =
      match kind.split? cursor.rest with
      | some (lexeme, rest) => some (.matched ⟨cursor.offset + lexeme.length, rest⟩ [], [])
      | none => some (.failed true, []) := by
  simp only [Peg.Expr.shape, Peg.Expr.plain, Terminal.advance?, Terminal.split?]
  cases kind.split? cursor.rest <;> rfl

theorem takes_wholeWord {label : Label} {spelling : String}
    (isWord : isWord spelling.toList = true)
    (accepted_iff : ∀ {text lexeme rest : Text},
      Scan.accepted? label text = some (lexeme, rest) ↔
        lexeme = spelling.toList ∧ word? text = some (lexeme, rest)) :
    Takes label (wholeWord spelling) := by
  intro depth cursor outcome expected tried
  have accepted_iff' : ∀ {lexeme rest : Text},
      Scan.accepted? label cursor.rest = some (lexeme, rest) ↔
        lexeme = spelling.toList ∧ afterPrefix? lexeme cursor.rest = some rest ∧
          wordContinue? rest = none := by
    intro lexeme rest
    rw [accepted_iff, afterPrefix?_eq_some_iff]
    constructor
    · rintro ⟨rfl, found⟩
      exact ⟨rfl, (Scan.word?_eq_some_iff isWord).mp found⟩
    · rintro ⟨rfl, found⟩
      exact ⟨rfl, (Scan.word?_eq_some_iff isWord).mpr found⟩
  have refused : (∀ rest, afterPrefix? spelling.toList cursor.rest = some rest →
      wordContinue? rest ≠ none) → Scan.accepted? label cursor.rest = none := by
    intro goesOn
    cases accepted : Scan.accepted? label cursor.rest with
    | none => rfl
    | some found =>
        obtain ⟨lexeme_eq, after, ends⟩ := accepted_iff'.mp accepted
        rw [lexeme_eq] at after
        exact absurd ends (goesOn _ after)
  have literal_eq := plain_literal depth cursor spelling
  have ahead : definition .wordContinue = (.silent, Peg.Expr.shape .wordContinue) := rfl
  change (Peg.Expr.seq (Peg.Expr.literal spelling) (.notAhead (.call .wordContinue))).plain
    (grammar.plain depth) cursor = some (outcome, expected) at tried
  cases after : afterPrefix? spelling.toList cursor.rest with
  | none =>
      rw [after] at literal_eq
      rw [refused fun rest found => by rw [after] at found; cases found]
      rw [Peg.Expr.plain_seq_of_failed literal_eq] at tried
      cases tried
      exact ⟨rfl, true, rfl⟩
  | some rest =>
      rw [after] at literal_eq
      rw [Peg.Expr.plain_seq_of_matched literal_eq] at tried
      obtain ⟨⟨later, late⟩, second, equal⟩ := Option.map_eq_some_iff.mp tried
      cases equal
      obtain ⟨rfl, rfl⟩ := plain_notAhead_shape ahead second
      by_cases ends : wordContinue? rest = none
      · rw [accepted_iff'.mpr ⟨rfl, after, ends⟩,
          if_pos (show Lexical.Shape.wordContinue.split? rest = none from ends)]
        exact ⟨rfl, rfl⟩
      · have nothing := refused fun other found => by
          rw [after] at found
          cases found
          exact ends
        rw [nothing, if_neg (show ¬ Lexical.Shape.wordContinue.split? rest = none from ends)]
        exact ⟨rfl, true, rfl⟩

theorem recognizes_keyword (word : Keyword) : Recognizes (.keyword word) (keyword word) :=
  (takes_wholeWord (Scan.isWord_keyword word) Scan.accepted?_keyword_iff).recognizes rfl
    nofun

theorem recognizes_typeWord (type : BaseType) :
    Recognizes (.typeWord type) (expecting (.typeWord type) (wholeWord type.spelling)) :=
  (takes_wholeWord (Scan.isWord_type type) Scan.accepted?_typeWord_iff).recognizes rfl
    nofun

/-- A name takes the next word unless that is reserved as a whole. -/
theorem takes_identifier :
    Takes .identifier
      (Peg.Expr.sequence [.notAhead (.call .reserved), Peg.Expr.shape .identifier]) := by
  intro depth cursor outcome expected tried
  have ahead : definition .reserved = (.silent, Peg.Expr.shape .reserved) := rfl
  have shape_eq := plain_class depth cursor .identifier
  simp only [Lexical.Shape.split?] at shape_eq
  by_cases reserves : reserved? cursor.rest = none
  · have accepted_eq : Scan.accepted? .identifier cursor.rest = word? cursor.rest := by
      refine Option.ext fun ⟨lexeme, rest⟩ => ?_
      rw [Scan.accepted?_identifier_iff]
      exact ⟨And.left, fun found => ⟨found, (Scan.reserved?_eq_none_iff found).mp reserves⟩⟩
    rw [accepted_eq]
    rcases Peg.Expr.plain_seq tried with
      ⟨_, _, _, _, _, first, second, rfl, rfl⟩ | ⟨first, unmatched⟩
    all_goals
      obtain ⟨rfl, outcome_eq⟩ := plain_notAhead_shape ahead first
      rw [if_pos (show Lexical.Shape.reserved.split? cursor.rest = none from reserves)]
        at outcome_eq
    · cases outcome_eq
      rw [Peg.Expr.sequence, shape_eq] at second
      cases found : word? cursor.rest with
      | none =>
          rw [found] at second
          cases second
          exact ⟨rfl, true, rfl⟩
      | some result =>
          rw [found] at second
          cases second
          exact ⟨rfl, rfl⟩
    · exact absurd outcome_eq (unmatched _ _)
  · have nothing : Scan.accepted? .identifier cursor.rest = none := by
      cases accepted : Scan.accepted? .identifier cursor.rest with
      | none => rfl
      | some result =>
          obtain ⟨found, notReserved⟩ := Scan.accepted?_identifier_iff.mp accepted
          exact absurd ((Scan.reserved?_eq_none_iff found).mpr notReserved) reserves
    rw [nothing]
    rcases Peg.Expr.plain_seq tried with ⟨_, _, _, _, _, first, _⟩ | ⟨first, _⟩
    all_goals
      obtain ⟨rfl, outcome_eq⟩ := plain_notAhead_shape ahead first
      rw [if_neg (show ¬ Lexical.Shape.reserved.split? cursor.rest = none from reserves)]
        at outcome_eq
    · cases outcome_eq
    · exact ⟨rfl, true, outcome_eq⟩

theorem recognizes_identifier : Recognizes .identifier (definition .identifier).2 :=
  takes_identifier.recognizes rfl (by decide)

theorem missing_percent_of_ne (noMark : ∀ behind, cursor.rest ≠ '%' :: behind) :
    Scan.accepted? (.sign .percent) cursor.rest = none ∧
      missing (.sign .percent) cursor = ((Label.sign .percent).text, cursor.offset) := by
  constructor
  · cases accepted : Scan.accepted? (.sign .percent) cursor.rest with
    | none => rfl
    | some result =>
        obtain ⟨behind, _, text_eq, _⟩ := Scan.accepted?_percent_iff.mp accepted
        exact absurd text_eq (noMark behind)
  · unfold missing
    split
    · exact absurd ‹_› (noMark _)
    · rfl

theorem missing_digit_of_percent {behind : Text} (text_eq : cursor.rest = '%' :: behind)
    (noDigits : digits? behind = none) :
    Scan.accepted? (.sign .percent) cursor.rest = none ∧
      missing (.sign .percent) cursor = (Label.digit.text, cursor.offset + 1) := by
  constructor
  · cases accepted : Scan.accepted? (.sign .percent) cursor.rest with
    | none => rfl
    | some result =>
        obtain ⟨other, _, other_eq, digitsFound, _⟩ := Scan.accepted?_percent_iff.mp accepted
        cases text_eq.symm.trans other_eq
        cases noDigits.symm.trans digitsFound
  · rw [missing.eq_def, text_eq]
    rfl

/-- A qubit literal is taken in two steps, and only the first of them notes the
percent sign. -/
theorem recognizes_qubit : Recognizes (.sign .percent) (definition .qubit).2 := by
  intro depth cursor outcome expected tried
  have mark_eq := plain_literal depth cursor Sign.percent.spelling
  have mark_single : (Peg.Expr.literal Sign.percent.spelling : Expr).alternatives =
    [Peg.Expr.literal Sign.percent.spelling] := rfl
  have digits_single : (Peg.Expr.shape .digits : Expr).alternatives =
    [Peg.Expr.shape .digits] := rfl
  cases after : afterPrefix? Sign.percent.spelling.toList cursor.rest with
  | none =>
      rw [after] at mark_eq
      have noMark : ∀ behind, cursor.rest ≠ '%' :: behind := by
        intro behind text_eq
        rw [text_eq] at after
        cases after
      obtain ⟨nothing, missing_eq⟩ := missing_percent_of_ne noMark
      rw [nothing, missing_eq]
      rcases Peg.Expr.plain_seq tried with ⟨_, _, _, _, _, first, _⟩ | ⟨first, _⟩
      · cases (plain_expecting_of_failed mark_single mark_eq first).1
      · obtain ⟨rfl, rfl⟩ := plain_expecting_of_failed mark_single mark_eq first
        exact ⟨⟨true, rfl⟩, rfl⟩
  | some behind =>
      rw [after] at mark_eq
      have text_eq : cursor.rest = '%' :: behind := afterPrefix?_eq_some_iff.mp after
      have digits_eq := plain_class depth ⟨cursor.offset + 1, behind⟩ .digits
      simp only [Lexical.Shape.split?] at digits_eq
      -- The mark itself always matches, so the digits decide.
      rcases Peg.Expr.plain_seq tried with
        ⟨_, _, _, _, _, first, second, rfl, rfl⟩ | ⟨first, unmatched⟩
      · obtain ⟨⟨⟩, rfl⟩ := plain_expecting_of_matched mark_single mark_eq first
        rw [Outcome.precededBy_nil, List.nil_append]
        cases found : digits? behind with
        | none =>
            rw [found] at digits_eq
            obtain ⟨nothing, missing_eq⟩ := missing_digit_of_percent text_eq found
            obtain ⟨rfl, rfl⟩ := plain_expecting_of_failed digits_single digits_eq second
            rw [nothing, missing_eq]
            exact ⟨⟨true, rfl⟩, rfl⟩
        | some result =>
            obtain ⟨digits, rest⟩ := result
            rw [found] at digits_eq
            obtain ⟨rfl, rfl⟩ := plain_expecting_of_matched digits_single digits_eq second
            rw [Scan.accepted?_percent_iff.mpr ⟨behind, digits, text_eq, found, rfl⟩]
            refine ⟨?_, rfl⟩
            simp only [List.length_cons]
            rw [Nat.add_assoc, Nat.add_comm 1]
      · obtain ⟨rfl, _⟩ := plain_expecting_of_matched mark_single mark_eq first
        exact absurd rfl (unmatched _ _)

end Language

end QubitLang
