import QubitLang.Proofs.Language.Ranking
import QubitLang.Proofs.Language.Firsts
import QubitLang.Proofs.Language.Terminals

/-! Matching a text without memory is reading its lexemes: where a rule matches,
its form is read, and where a terminal of the form is missing, its label is noted.
Trivia is matched at the head of what may follow, so every rule begins where a
lexeme begins and ends where one ends. -/

namespace QubitLang.Language

open Peg (Cursor Outcome Expectation)

/-! ## Forms that read something -/

def Form.isNullable : Form → Bool
  | .empty | .star _ | .opt _ => true
  | .terminal _ => false
  | .call name => name.readsNothing
  | .seq first second => first.isNullable && second.isNullable
  | .alt first second => first.isNullable || second.isNullable

theorem readsNothing_of_isNullable {name : Nonterminal} (nullable : (form name).isNullable = true) :
    name.readsNothing = true := by
  revert nullable
  cases name with
  | typeWord type => exact nofun
  | marker label => exact fun _ => rfl
  | _ => decide

theorem Reads.last_isSome {finish : Nat} {form : Form} {stream : List Lexeme}
    {outcome : Option Reading} {probes : List Probe}
    (reads : Reads finish form stream outcome probes) (consumes : form.isNullable = false) :
    ∀ reading ∈ outcome, reading.last.isSome = true := by
  induction reads with
  | empty | starStop | starStep | optNone | optSome => cases consumes
  | hit =>
      rintro _ ⟨⟩
      rfl
  | miss | callFails | seqFirstFails | seqSecondFails => rintro _ ⟨⟩
  | @call name _ _ _ _ induction =>
      rintro _ ⟨⟩
      have bodyConsumes : (Language.form name).isNullable = false := by
        refine Bool.eq_false_iff.mpr fun nullable => ?_
        rw [Form.isNullable, readsNothing_of_isNullable nullable] at consumes
        cases consumes
      have read := induction bodyConsumes _ rfl
      exact read
  | seq _ _ firstInduction secondInduction =>
      rintro _ ⟨⟩
      rw [Form.isNullable, Bool.and_eq_false_iff] at consumes
      simp only [Reading.followedBy, Option.isSome_or, Bool.or_eq_true]
      rcases consumes with first | second
      · exact .inr (firstInduction first _ rfl)
      · exact .inl (secondInduction second _ rfl)
  | altFirst _ induction =>
      rw [Form.isNullable, Bool.or_eq_false_iff] at consumes
      exact induction consumes.1
  | altSecond _ _ _ induction =>
      rw [Form.isNullable, Bool.or_eq_false_iff] at consumes
      exact induction consumes.2

/-! ## Expressions that follow a form -/

def Nonterminal.isPhrase : Nonterminal → Bool
  | .trivia | .wordContinue | .reserved | .marker _ | .program | .expressionInput
  | .statementInput => false
  | _ => true

/-- An expression is a form with trivia filled in. If it is `aligned`, it is only
tried where no trivia comes first. -/
inductive Follows : (aligned : Bool) → Expr → Form → Prop where
  | terminal {label : Label} {expr : Expr} (recognizes : Recognizes label expr) :
      Follows true expr (.terminal label)
  | call {name : Nonterminal} (phrase : name.isPhrase = true) :
      Follows true (.call name) (.call name)
  | gap {expr : Expr} {form : Form} (consumes : form.isNullable = false)
      (behind : Follows true expr form) : Follows false (.seq trivia expr) form
  | seq {aligned : Bool} {first second : Expr} {left right : Form}
      (head : Follows aligned first left) (tail : Follows false second right) :
      Follows aligned (.seq first second) (.seq left right)
  | alt {aligned : Bool} {first second : Expr} {left right : Form}
      (head : Follows aligned first left) (other : Follows aligned second right) :
      Follows aligned (.alt first second) (.alt left right)
  | remember {aligned : Bool} {site : Nat} {expr : Expr} {form : Form}
      (body : Follows aligned expr form) : Follows aligned (.remember site expr) form
  | star {expr : Expr} {form : Form}
      (goesOn : expr.isNullable Nonterminal.isNullable = false)
      (body : Follows false expr form) : Follows false (.star expr) (.star form)
  | opt {aligned : Bool} {expr : Expr} {form : Form} (body : Follows aligned expr form) :
      Follows aligned (.opt expr) (.opt form)
  | aligned {expr : Expr} {form : Form} (anywhere : Follows false expr form) :
      Follows true expr form

theorem follows_sign {mark : Sign} (notPercent : mark ≠ .percent) :
    Follows true (sign mark) (.sign mark) :=
  .terminal (recognizes_sign notPercent)

theorem follows_keyword (word : Keyword) : Follows true (keyword word) (.keyword word) :=
  .terminal (recognizes_keyword word)

theorem follows_gap_sign {mark : Sign} (notPercent : mark ≠ .percent) :
    Follows false (.seq trivia (sign mark)) (.sign mark) :=
  .gap rfl (follows_sign notPercent)

theorem follows_gap_call {name : Nonterminal} (phrase : name.isPhrase = true)
    (consumes : name.readsNothing = false) :
    Follows false (.seq trivia (.call name)) (.call name) :=
  .gap consumes (.call phrase)

theorem follows_block : Follows true (definition .block).2 (form .block) :=
  .seq (follows_sign nofun)
    (.seq (.star rfl (follows_gap_call rfl rfl)) (follows_gap_sign nofun))

theorem follows_call : Follows true (definition .call).2 (form .call) :=
  .seq (.call rfl)
    (.gap rfl (.seq (follows_sign nofun)
      (.seq (.star rfl (.gap rfl (.seq (.call rfl) (.opt (follows_gap_sign nofun)))))
        (follows_gap_sign nofun))))

theorem follows_expression : Follows true (definition .expression).2 (form .expression) :=
  .remember
    (.alt
      (.seq (follows_sign nofun)
        (.gap rfl (.seq (.call rfl) (follows_gap_sign nofun))))
      (.alt (.call rfl) (.alt (.call rfl) (.call rfl))))

theorem follows_statement : Follows true (definition .statement).2 (form .statement) :=
  .remember
    (.alt
      (.seq
        (.remember (.alt (.call rfl) (.alt (.call rfl) (.alt (.call rfl) (.call rfl)))))
        (follows_gap_sign nofun))
      (.alt (.call rfl) (.call rfl)))

theorem follows_variableDeclaration :
    Follows true (definition .variableDeclaration).2 (form .variableDeclaration) :=
  .seq (follows_keyword .var)
    (.gap rfl (.seq (.call rfl)
      (.gap rfl (.seq (follows_sign nofun)
        (.gap rfl (.seq (.call rfl)
          (.gap rfl (.seq (follows_sign nofun) (follows_gap_call rfl rfl)))))))))

theorem follows_prototype : Follows true (definition .prototype).2 (form .prototype) :=
  .seq (.call rfl)
    (.gap rfl (.seq (follows_sign nofun)
      (.gap rfl (.seq (.call rfl)
        (.gap rfl (.seq (follows_sign nofun) (.opt (follows_gap_call rfl rfl))))))))

theorem follows_parameter : Follows true (definition .parameter).2 (form .parameter) :=
  .seq (.call rfl)
    (.gap rfl (.seq (follows_sign nofun)
      (.gap rfl (.seq (.call rfl) (.opt (follows_gap_sign nofun))))))

theorem follows_definition {name : Nonterminal} (phrase : name.isPhrase = true) :
    Follows true (definition name).2 (form name) := by
  cases name with
  | identifier => exact .terminal recognizes_identifier
  | number => exact .terminal recognizes_number
  | qubit => exact .terminal recognizes_qubit
  | trueLiteral => exact follows_keyword .trueWord
  | falseLiteral => exact follows_keyword .falseWord
  | expression => exact follows_expression
  | call => exact follows_call
  | literal =>
      exact .remember (.alt (.call rfl) (.alt (.call rfl) (.alt (.call rfl) (.call rfl))))
  | type => exact .remember (.alt (.call rfl) (.alt (.call rfl) (.call rfl)))
  | typeWord type => exact .terminal (recognizes_typeWord type)
  | statement => exact follows_statement
  | variableDeclaration => exact follows_variableDeclaration
  | assignment =>
      exact .seq (.call rfl)
        (.gap rfl (.seq (follows_sign nofun) (follows_gap_call rfl rfl)))
  | returnStatement => exact .seq (follows_keyword .returnWord) (follows_gap_call rfl rfl)
  | ifStatement => exact .seq (.call rfl) (.opt (follows_gap_call rfl rfl))
  | ifBlock =>
      exact .seq (follows_keyword .ifWord)
        (.gap rfl (.seq (.call rfl) (follows_gap_call rfl rfl)))
  | elseBlock => exact .seq (follows_keyword .elseWord) (follows_gap_call rfl rfl)
  | whileStatement =>
      exact .seq (follows_keyword .whileWord)
        (.gap rfl (.seq (.call rfl) (follows_gap_call rfl rfl)))
  | block => exact follows_block
  | prototype => exact follows_prototype
  | parameters =>
      exact .opt (.seq (.call rfl) (.star rfl (follows_gap_call rfl rfl)))
  | parameter => exact follows_parameter
  | returnType => exact .seq (follows_sign nofun) (follows_gap_call rfl rfl)
  | declaration =>
      exact .seq (follows_keyword .external)
        (.gap rfl (.seq (.call rfl) (follows_gap_sign nofun)))
  | definition =>
      exact .seq (follows_keyword .define)
        (.gap rfl (.seq (.call rfl) (follows_gap_call rfl rfl)))
  | item => exact .remember (.alt (.call rfl) (.call rfl))
  | trivia | wordContinue | reserved | marker _ | program | expressionInput
  | statementInput => cases phrase

/-! ## Results -/

theorem ofValues?_append {values more : List Peg.Value} {nodes others : List Node}
    (first : Node.ofValues? values = some nodes) (second : Node.ofValues? more = some others) :
    Node.ofValues? (values ++ more) = some (nodes ++ others) := by
  induction values generalizing nodes with
  | nil =>
      cases first
      exact second
  | cons value values induction =>
      simp only [Node.ofValues?, List.cons_append] at first ⊢
      cases node : Node.ofValue? value with
      | none => simp [node] at first
      | some node' =>
          cases rest : Node.ofValues? values with
          | none => simp [node, rest] at first
          | some rest' =>
              simp only [node, rest, Option.some.injEq] at first
              subst first
              rw [induction rest]
              rfl

section

variable {finish : Nat} {remainder : Text}

/-- What is noted of a terminal that was tried, if it is missing. Behind the last
lexeme the text goes on with `remainder`. -/
def noted (finish : Nat) (remainder : Text) : Probe → Option Expectation
  | (label, first :: rest) =>
    if Probe.hits (label, first :: rest) then none
    else some (label.text, first.span.start)
  | (label, []) => some (missing label ⟨finish, remainder⟩)

/-- Where a match ends: behind the last lexeme that was read, and where it began if
none was. -/
def EndsWith (cursor next : Cursor) : Option Span → Prop
  | none => next = cursor
  | some last => cursor.offset ≤ next.offset ∧ next.offset = last.stop

def Corresponds (finish : Nat) (remainder : Text) (cursor : Cursor) :
    Outcome → Option Reading → Prop
  | .matched next values, some reading =>
    Splits next.offset next.rest reading.rest finish remainder ∧
      Node.ofValues? values = some reading.nodes ∧ EndsWith cursor next reading.last
  | .failed _, none => True
  | _, _ => False

/-- A trial of an expression that follows a form is a reading of the form. -/
def Simulated (finish : Nat) (remainder : Text) (form : Form) (cursor : Cursor)
    (stream : List Lexeme) (outcome : Outcome) (expected : List Expectation) : Prop :=
  ∃ result probes, Reads finish form stream result probes ∧
    expected = probes.filterMap (noted finish remainder) ∧
      Corresponds finish remainder cursor outcome result

/-- Where a cursor stands: the rest of its text splits into some lexemes. -/
structure Faces (finish : Nat) (remainder : Text) (aligned : Bool) (cursor : Cursor)
    (stream : List Lexeme) : Prop where
  splits : Splits cursor.offset cursor.rest stream finish remainder
  noTrivia : aligned = true → (Lexical.trivia false cursor.rest).1 = []

theorem Faces.trivia_eq {cursor : Cursor} {stream : List Lexeme}
    (faces : Faces finish remainder true cursor stream) :
    (Lexical.trivia false cursor.rest).2 = cursor.rest := by
  have whole := Lexical.trivia_append false cursor.rest
  rwa [faces.noTrivia rfl, List.nil_append] at whole

theorem faces_of_splits {cursor : Cursor} {stream : List Lexeme}
    (splits : Splits cursor.offset cursor.rest stream finish remainder) :
    Faces finish remainder false cursor stream where
  splits := splits
  noTrivia aligned := absurd aligned Bool.false_ne_true

theorem EndsWith.trans {cursor middle next : Cursor} {first second : Option Span}
    (left : EndsWith cursor middle first) (right : EndsWith middle next second) :
    EndsWith cursor next (second.or first) := by
  cases second with
  | none =>
      cases right
      exact left
  | some last =>
      refine ⟨?_, right.2⟩
      cases first with
      | none =>
          cases left
          exact right.1
      | some _ => exact Nat.le_trans left.1 right.1

theorem corresponds_same (cursor : Cursor) {stream : List Lexeme}
    (splits : Splits cursor.offset cursor.rest stream finish remainder) :
    Corresponds finish remainder cursor (.matched cursor []) (some (.nothing stream)) :=
  ⟨splits, rfl, rfl⟩

namespace Simulated

variable {form left right : Form} {cursor middle next : Cursor} {stream : List Lexeme}
  {values : List Peg.Value} {outcome : Outcome} {explained : Bool}
  {expected early late : List Expectation}

theorem of_matched (simulated : Simulated finish remainder form cursor stream
    (.matched next values) expected) : ∃ reading probes,
      Reads finish form stream (some reading) probes ∧
      expected = probes.filterMap (noted finish remainder) ∧
      Splits next.offset next.rest reading.rest finish remainder ∧
      Node.ofValues? values = some reading.nodes ∧ EndsWith cursor next reading.last := by
  obtain ⟨result, probes, reads, expected_eq, corresponds⟩ := simulated
  cases result with
  | none => cases corresponds
  | some reading => exact ⟨reading, probes, reads, expected_eq, corresponds⟩

theorem of_failed (simulated : Simulated finish remainder form cursor stream
    (.failed explained) expected) : ∃ probes, Reads finish form stream none probes ∧
      expected = probes.filterMap (noted finish remainder) := by
  obtain ⟨result, probes, reads, expected_eq, corresponds⟩ := simulated
  cases result with
  | none => exact ⟨probes, reads, expected_eq⟩
  | some reading => cases corresponds

theorem ne_stuck (simulated : Simulated finish remainder form cursor stream outcome expected) :
    outcome ≠ .stuck := by
  rintro rfl
  obtain ⟨_, _, _, _, corresponds⟩ := simulated
  cases corresponds

/-! ### Readings of forms from readings of their parts -/

theorem seq (head : Simulated finish remainder left cursor stream (.matched middle values) early)
    (tail : ∀ rest, Splits middle.offset middle.rest rest finish remainder →
      Simulated finish remainder right middle rest outcome late) :
    Simulated finish remainder (.seq left right) cursor stream (outcome.precededBy values)
      (early ++ late) := by
  obtain ⟨reading, probes, reads, rfl, splits, nodes, ends⟩ := head.of_matched
  have behind := tail reading.rest splits
  cases outcome with
  | stuck => exact absurd rfl behind.ne_stuck
  | failed explained =>
      obtain ⟨more, laterReads, rfl⟩ := behind.of_failed
      exact ⟨none, _, .seqSecondFails reads laterReads, by rw [List.filterMap_append], trivial⟩
  | matched last lastValues =>
      obtain ⟨later, more, laterReads, rfl, laterSplits, laterNodes, laterEnds⟩ :=
        behind.of_matched
      exact ⟨_, _, .seq reads laterReads, by rw [List.filterMap_append], laterSplits,
        ofValues?_append nodes laterNodes, ends.trans laterEnds⟩

theorem seq_of_failed
    (head : Simulated finish remainder left cursor stream (.failed explained) expected) :
    Simulated finish remainder (.seq left right) cursor stream (.failed explained) expected := by
  obtain ⟨probes, reads, expected_eq⟩ := head.of_failed
  exact ⟨none, probes, .seqFirstFails reads, expected_eq, trivial⟩

theorem altFirst
    (head : Simulated finish remainder left cursor stream (.matched next values) expected) :
    Simulated finish remainder (.alt left right) cursor stream (.matched next values)
      expected := by
  obtain ⟨reading, probes, reads, expected_eq, corresponds⟩ := head.of_matched
  exact ⟨_, probes, .altFirst reads, expected_eq, corresponds⟩

theorem altSecond
    (head : Simulated finish remainder left cursor stream (.failed explained) early)
    (other : Simulated finish remainder right cursor stream outcome late) :
    Simulated finish remainder (.alt left right) cursor stream outcome (early ++ late) := by
  obtain ⟨probes, reads, rfl⟩ := head.of_failed
  obtain ⟨result, more, otherReads, rfl, corresponds⟩ := other
  exact ⟨result, _, .altSecond reads otherReads, by rw [List.filterMap_append], corresponds⟩

theorem optSome
    (body : Simulated finish remainder form cursor stream (.matched next values) expected) :
    Simulated finish remainder (.opt form) cursor stream (.matched next values) expected := by
  obtain ⟨reading, probes, reads, expected_eq, corresponds⟩ := body.of_matched
  exact ⟨_, probes, .optSome reads, expected_eq, corresponds⟩

theorem optNone (splits : Splits cursor.offset cursor.rest stream finish remainder)
    (body : Simulated finish remainder form cursor stream (.failed explained) expected) :
    Simulated finish remainder (.opt form) cursor stream (.matched cursor []) expected := by
  obtain ⟨probes, reads, expected_eq⟩ := body.of_failed
  exact ⟨_, probes, .optNone reads, expected_eq, corresponds_same cursor splits⟩

theorem starStop (splits : Splits cursor.offset cursor.rest stream finish remainder)
    (body : Simulated finish remainder form cursor stream (.failed explained) expected) :
    Simulated finish remainder (.star form) cursor stream (.matched cursor []) expected := by
  obtain ⟨probes, reads, expected_eq⟩ := body.of_failed
  exact ⟨_, probes, .starStop reads, expected_eq, corresponds_same cursor splits⟩

theorem starStep {repetition : Peg.Repetition}
    (body : Simulated finish remainder form cursor stream (.matched middle values) early)
    (others : ∀ rest, Splits middle.offset middle.rest rest finish remainder →
      Simulated finish remainder (.star form) middle rest repetition.outcome late) :
    Simulated finish remainder (.star form) cursor stream
      (repetition.precededBy values).outcome (early ++ late) := by
  obtain ⟨reading, probes, reads, rfl, splits, nodes, ends⟩ := body.of_matched
  have behind := others reading.rest splits
  unfold Peg.Repetition.outcome at behind ⊢
  simp only [Peg.Repetition.precededBy]
  split at behind
  · exact absurd rfl behind.ne_stuck
  · obtain ⟨later, more, laterReads, rfl, laterSplits, laterNodes, laterEnds⟩ :=
      behind.of_matched
    exact ⟨_, _, .starStep reads laterReads, by rw [List.filterMap_append], laterSplits,
      ofValues?_append nodes laterNodes, ends.trans laterEnds⟩

end Simulated

def skipTrivia (cursor : Cursor) : Cursor :=
  ⟨cursor.offset + (Lexical.trivia false cursor.rest).1.length,
    (Lexical.trivia false cursor.rest).2⟩

theorem plain_behind_trivia {depth : Nat} {expr : Expr} {cursor : Cursor} {outcome : Outcome}
    {expected : List Expectation}
    (tried : (Peg.Expr.seq trivia expr).plain (grammar.plain depth) cursor =
      some (outcome, expected)) :
    expr.plain (grammar.plain depth) (skipTrivia cursor) = some (outcome, expected) := by
  rcases Peg.Expr.plain_seq tried with
    ⟨_, _, _, _, _, first, second, rfl, rfl⟩ | ⟨first, unmatched⟩
  · cases plain_trivia first
    rw [Outcome.precededBy_nil]
    exact second
  · cases plain_trivia first
    exact absurd rfl (unmatched _ _)

theorem Faces.skip {aligned : Bool} {cursor : Cursor} {stream : List Lexeme}
    (faces : Faces finish remainder aligned cursor stream) :
    Faces finish remainder true (skipTrivia cursor) stream where
  splits := Splits.skip_iff.mpr faces.splits
  noTrivia _ := congrArg Prod.fst (Lexical.trivia_of_rest false cursor.rest)

/-- If something is read behind trivia, it does not matter that the trivia came
first. -/
theorem Simulated.of_skip {form : Form} (consumes : form.isNullable = false) {cursor : Cursor}
    {stream : List Lexeme} {outcome : Outcome} {expected : List Expectation}
    (simulated : Simulated finish remainder form (skipTrivia cursor) stream outcome expected) :
    Simulated finish remainder form cursor stream outcome expected := by
  cases outcome with
  | stuck => exact absurd rfl simulated.ne_stuck
  | failed explained =>
      obtain ⟨probes, reads, expected_eq⟩ := simulated.of_failed
      exact ⟨none, probes, reads, expected_eq, trivial⟩
  | matched next values =>
      obtain ⟨reading, probes, reads, expected_eq, splits, nodes, ends⟩ := simulated.of_matched
      obtain ⟨last, last_eq⟩ := Option.isSome_iff_exists.mp
        (reads.last_isSome consumes reading rfl)
      refine ⟨_, probes, reads, expected_eq, splits, nodes, ?_⟩
      rw [last_eq] at ends ⊢
      exact ⟨Nat.le_trans (Nat.le_add_right _ _) ends.1, ends.2⟩

theorem simulated_terminal {label : Label} {expr : Expr} (recognizes : Recognizes label expr)
    (ends : Scan.token? remainder = none) {depth : Nat} {cursor : Cursor}
    {stream : List Lexeme} {outcome : Outcome} {expected : List Expectation}
    (faces : Faces finish remainder true cursor stream)
    (tried : expr.plain (grammar.plain depth) cursor = some (outcome, expected)) :
    Simulated finish remainder (.terminal label) cursor stream outcome expected := by
  have told := recognizes _ _ _ _ tried
  have noTrivia := faces.noTrivia rfl
  have same := faces.trivia_eq
  cases stream with
  | nil =>
      obtain ⟨finish_eq, remainder_eq⟩ := Splits.nil_iff.mp faces.splits
      rw [noTrivia] at finish_eq
      rw [same] at remainder_eq
      have cursor_eq : cursor = ⟨finish, remainder⟩ := by
        cases cursor
        simp_all
      have nothing : Scan.accepted? label cursor.rest = none := by
        rw [← remainder_eq, Scan.accepted?, ends]
        rfl
      rw [nothing] at told
      obtain ⟨⟨explained, rfl⟩, rfl⟩ := told
      refine ⟨none, _, .miss rfl, ?_, trivial⟩
      rw [cursor_eq]
      rfl
  | cons first rest =>
      obtain ⟨start_eq, stop_eq, behind, found, later⟩ := Splits.cons_iff.mp faces.splits
      rw [noTrivia, List.length_nil, Nat.add_zero] at start_eq
      rw [same] at found
      have accepted_eq : Scan.accepted? label cursor.rest =
          if first.token.reads label then some (first.token.spelling, behind) else none := by
        rw [Scan.accepted?, found]
        rfl
      rw [accepted_eq] at told
      cases reads : first.token.reads label with
      | true =>
          rw [reads, if_pos rfl] at told
          obtain ⟨rfl, rfl⟩ := told
          have next_eq : cursor.offset + first.token.spelling.length = first.span.stop := by
            rw [stop_eq, start_eq]
          refine ⟨_, _, .hit reads, ?_, ?_, rfl, ?_⟩
          · simp [noted, Probe.hits, startsWith, reads]
          · rw [next_eq]
            exact later
          · exact ⟨Nat.le_add_right _ _, next_eq⟩
      | false =>
          rw [reads, if_neg Bool.false_ne_true] at told
          obtain ⟨⟨explained, rfl⟩, rfl⟩ := told
          refine ⟨none, _, .miss reads, ?_, trivial⟩
          have missing_eq : missing label cursor = (label.text, first.span.start) := by
            rw [start_eq]
            unfold missing
            split
            · rename_i text_eq
              rw [text_eq] at found
              rw [Scan.reads_percent_of_token? found] at reads
              cases reads
            · rfl
          rw [missing_eq]
          simp [noted, Probe.hits, startsWith, reads]

/-- Repetitions read as often as they match. Every match takes a character, so the
number of characters never stops them. -/
theorem simulated_retried {depth : Nat} {expr : Expr} {form : Form}
    (goesOn : expr.isNullable Nonterminal.isNullable = false)
    (body : ∀ {cursor stream outcome expected}, Faces finish remainder false cursor stream →
      expr.plain (grammar.plain depth) cursor = some (outcome, expected) →
        Simulated finish remainder form cursor stream outcome expected) :
    ∀ {bound : Nat} {cursor : Cursor} {stream : List Lexeme} {repetition : Peg.Repetition}
      {expected : List Expectation}, cursor.rest.length ≤ bound →
        Faces finish remainder false cursor stream →
          Peg.retried (expr.plain (grammar.plain depth)) bound cursor =
              some (repetition, expected) →
            Simulated finish remainder (.star form) cursor stream repetition.outcome
              expected := by
  intro bound
  induction bound with
  | zero =>
      intro cursor stream repetition expected enough faces tried
      rcases Peg.retried_cases tried with ⟨_, _, _, _, _, _, ⟨⟩, _⟩ | ⟨last, attempted, rfl, _⟩
      have simulated := body faces attempted
      cases last with
      | matched next values =>
          -- No character is left, but the body has to match one.
          have shorter := (plain_goesOn depth expr cursor _ _ attempted _ _ rfl).2 goesOn
          omega
      | failed _ => exact simulated.starStop faces.splits
      | stuck => exact absurd rfl simulated.ne_stuck
  | succ bound induction =>
      intro cursor stream repetition expected enough faces tried
      rcases Peg.retried_cases tried with
        ⟨_, next, values, early, rest, late, ⟨⟩, attempted, again, rfl, rfl⟩ |
        ⟨last, attempted, rfl, isLast⟩
      · have shorter := (plain_goesOn depth expr cursor _ _ attempted _ _ rfl).2 goesOn
        exact (body faces attempted).starStep fun _ splits =>
          induction (by omega) (faces_of_splits splits) again
      · have simulated := body faces attempted
        cases last with
        | matched next values => cases isLast next values rfl
        | failed _ => exact simulated.starStop faces.splits
        | stuck => exact absurd rfl simulated.ne_stuck

/-- An expression that follows a form reads it, if the rules that it calls do. -/
theorem Follows.simulated {depth : Nat} (ends : Scan.token? remainder = none)
    (called : ∀ {name cursor stream outcome expected}, Nonterminal.isPhrase name = true →
      Faces finish remainder true cursor stream →
        grammar.plain depth name cursor = some (outcome, expected) →
          Simulated finish remainder (.call name) cursor stream outcome expected)
    {aligned : Bool} {expr : Expr} {form : Form} (follows : Follows aligned expr form) :
    ∀ {cursor : Cursor} {stream : List Lexeme} {outcome : Outcome}
      {expected : List Expectation}, Faces finish remainder aligned cursor stream →
        expr.plain (grammar.plain depth) cursor = some (outcome, expected) →
          Simulated finish remainder form cursor stream outcome expected := by
  induction follows with
  | terminal recognizes =>
      intro cursor stream outcome expected faces tried
      exact simulated_terminal recognizes ends faces tried
  | call phrase =>
      intro cursor stream outcome expected faces tried
      exact called phrase faces tried
  | gap consumes behind induction =>
      intro cursor stream outcome expected faces tried
      exact (induction faces.skip (plain_behind_trivia tried)).of_skip consumes
  | seq head tail headInduction tailInduction =>
      intro cursor stream outcome expected faces tried
      rcases Peg.Expr.plain_seq tried with
        ⟨middle, values, early, later, late, first, second, rfl, rfl⟩ | ⟨first, unmatched⟩
      · exact (headInduction faces first).seq fun _ splits =>
          tailInduction (faces_of_splits splits) second
      · have simulated := headInduction faces first
        cases outcome with
        | matched last more => exact absurd rfl (unmatched last more)
        | stuck => exact absurd rfl simulated.ne_stuck
        | failed explained => exact simulated.seq_of_failed
  | alt head other headInduction otherInduction =>
      intro cursor stream outcome expected faces tried
      rcases Peg.Expr.plain_alt tried with
        ⟨explained, early, late, first, second, rfl⟩ | ⟨first, unfailed⟩
      · exact (headInduction faces first).altSecond (otherInduction faces second)
      · have simulated := headInduction faces first
        cases outcome with
        | failed explained => exact absurd rfl (unfailed explained)
        | stuck => exact absurd rfl simulated.ne_stuck
        | matched next values => exact simulated.altFirst
  | remember _ induction =>
      intro cursor stream outcome expected faces tried
      exact induction faces tried
  | star goesOn body induction =>
      intro cursor stream outcome expected faces tried
      obtain ⟨⟨repetition, early⟩, repeats, equal⟩ := Option.map_eq_some_iff.mp tried
      cases equal
      exact simulated_retried goesOn induction (Nat.le_refl _) faces repeats
  | opt body induction =>
      intro cursor stream outcome expected faces tried
      rcases Peg.Expr.plain_opt tried with ⟨explained, absent, rfl⟩ | ⟨present, unfailed⟩
      · exact (induction faces absent).optNone faces.splits
      · have simulated := induction faces present
        cases outcome with
        | failed explained => exact absurd rfl (unfailed explained)
        | stuck => exact absurd rfl simulated.ne_stuck
        | matched next values => exact simulated.optSome
  | aligned _ induction =>
      intro cursor stream outcome expected faces tried
      exact induction (faces_of_splits faces.splits) tried

/-! ## Rules -/

theorem EndsWith.upTo_eq {cursor next : Cursor} {stream : List Lexeme} {last : Option Span}
    (faces : Faces finish remainder true cursor stream) (ends : EndsWith cursor next last) :
    (Span.upTo (Lexeme.startOf finish stream) last).start = cursor.offset ∧
      (Span.upTo (Lexeme.startOf finish stream) last).stop = next.offset := by
  have start_eq := faces.splits.startOf_eq (faces.noTrivia rfl)
  refine ⟨start_eq, ?_⟩
  cases last with
  | none =>
      cases ends
      simp [Span.upTo, start_eq]
  | some last =>
      have ordered := ends.1
      have stop_eq := ends.2
      simp only [Span.upTo, start_eq, Option.map_some, Option.getD_some]
      omega

theorem exists_terminal_of_token {name : Nonterminal} {node : String}
    (token : (definition name).1 = .token node) : ∃ label, form name = .terminal label := by
  cases name with
  | identifier | number | qubit | trueLiteral | falseLiteral => exact ⟨_, rfl⟩
  | _ => cases token

theorem textUntil_eq_firstSpelling {label : Label} {cursor next : Cursor}
    {stream : List Lexeme} {reading : Reading} {probes : List Probe}
    (faces : Faces finish remainder true cursor stream)
    (reads : Reads finish (.terminal label) stream (some reading) probes)
    (ends : EndsWith cursor next reading.last) :
    cursor.textUntil next = firstSpelling stream := by
  cases reads with
  | hit accepted =>
      rename_i first rest
      obtain ⟨start_eq, stop_eq, behind, found, _⟩ := Splits.cons_iff.mp faces.splits
      have noTrivia := faces.noTrivia rfl
      rw [faces.trivia_eq] at found
      rw [noTrivia, List.length_nil, Nat.add_zero] at start_eq
      have length_eq : next.offset - cursor.offset = first.token.spelling.length := by
        have next_eq := ends.2
        omega
      rw [Cursor.textUntil, length_eq, (Scan.isLongestAt_of_token? found).text_eq]
      exact List.take_left

theorem ofValues?_finish {name : Nonterminal} {cursor next : Cursor} {stream : List Lexeme}
    {values : List Peg.Value} {reading : Reading} {probes : List Probe}
    (phrase : name.isPhrase = true) (faces : Faces finish remainder true cursor stream)
    (reads : Reads finish (form name) stream (some reading) probes)
    (nodes : Node.ofValues? values = some reading.nodes)
    (ends : EndsWith cursor next reading.last) :
    Node.ofValues? ((definition name).1.finish cursor next values).1 =
        some (reading.asRule finish name stream).nodes ∧
      ((definition name).1.finish cursor next values).2.bind Peg.Event.expectation? = none := by
  obtain ⟨start_eq, stop_eq⟩ := ends.upTo_eq faces
  cases kind : (definition name).1 with
  | tree node =>
      simp [Peg.RuleKind.finish, Node.ofValues?, Node.ofValue?, nodes, Reading.asRule, nodesOf,
        kind, start_eq, stop_eq, Peg.Event.expectation?]
  | token node =>
      obtain ⟨label, form_eq⟩ := exists_terminal_of_token kind
      rw [form_eq] at reads
      have text_eq := textUntil_eq_firstSpelling faces reads ends
      simp [Peg.RuleKind.finish, Node.ofValues?, Node.ofValue?, Reading.asRule, nodesOf,
        kind, start_eq, stop_eq, text_eq, Peg.Event.expectation?]
  | silent => simp [Peg.RuleKind.finish, Reading.asRule, nodesOf, kind, nodes]
  | entry => cases name <;> cases phrase <;> cases kind
  | marker label => cases name <;> cases phrase <;> cases kind

theorem simulated_call (ends : Scan.token? remainder = none) (depth : Nat) :
    ∀ {name : Nonterminal} {cursor : Cursor} {stream : List Lexeme} {outcome : Outcome}
      {expected : List Expectation}, name.isPhrase = true →
        Faces finish remainder true cursor stream →
          grammar.plain depth name cursor = some (outcome, expected) →
            Simulated finish remainder (.call name) cursor stream outcome expected := by
  induction depth with
  | zero => exact fun _ _ tried => nomatch tried
  | succ depth induction =>
      intro name cursor stream outcome expected phrase faces tried
      obtain ⟨smaller, ⟨⟩, result_eq⟩ := plain_rule tried
      cases bodyTried : (definition name).2.plain (grammar.plain depth) cursor with
      | none => simp [bodyTried] at result_eq
      | some result =>
          obtain ⟨bodyOutcome, early⟩ := result
          have simulated := (follows_definition phrase).simulated ends induction faces bodyTried
          rw [bodyTried] at result_eq
          cases bodyOutcome with
          | stuck => exact absurd rfl simulated.ne_stuck
          | failed explained =>
              obtain ⟨probes, reads, rfl⟩ := simulated.of_failed
              cases result_eq
              exact ⟨none, probes, .callFails reads, rfl, trivial⟩
          | matched next values =>
              obtain ⟨reading, probes, reads, rfl, splits, nodes, endsWith⟩ :=
                simulated.of_matched
              obtain ⟨nodes_eq, noted_eq⟩ := ofValues?_finish phrase faces reads nodes endsWith
              simp only [noted_eq, Option.toList_none, List.append_nil, Option.some.injEq,
                Prod.mk.injEq] at result_eq
              obtain ⟨rfl, rfl⟩ := result_eq
              exact ⟨_, probes, .call reads, rfl, splits, nodes_eq, endsWith⟩

end

end QubitLang.Language
