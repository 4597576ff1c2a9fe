import QubitLang.Proofs.Language.Ranking
import QubitLang.Proofs.Language.Terminals

/-! Names and reserved words. At every offset of a text the rules of the grammar tell a name
from a reserved word by one and the same run of characters, and a text is an identifier for
the printer exactly if the grammar matches it as a name from end to end. -/

namespace QubitLang.Language

open Lexical
open Peg (Cursor Outcome Progress Expectation)

/-! ## Answers -/

/-- What an expression remembers from a site on is among what a rule remembers, as it is for
the expressions in the body of the rule. -/
def BelongsTo (expr : Expr) (site : Nat) (owner : Nonterminal) : Prop :=
  (expr.numberFrom site).1.remembered ⊆ (rule owner).body.remembered

/-- How an expression of the grammar ends at an offset of a text, whatever is remembered and
however deep rules may invoke each other, if only it ends; and it ends if they may go as deep
as in a run. -/
structure AnswersAt (expr : Expr) (text : Text) (offset : Nat) (outcome : Outcome) : Prop where
  belongs : ∃ site owner, BelongsTo expr site owner
  always : ∀ {site owner depth progress answer after}, BelongsTo expr site owner →
    progress.IsSound grammar text →
    (expr.numberFrom site).1.attempt (grammar.invoke depth) owner (Cursor.at text offset)
      progress = some (answer, after) → answer = outcome
  ends : ∀ {site owner depth progress}, BelongsTo expr site owner →
    progress.IsSound grammar text → grammar.depthBound text ≤ depth →
    ∃ after, (expr.numberFrom site).1.attempt (grammar.invoke depth) owner
      (Cursor.at text offset) progress = some (outcome, after)

def MatchesAt (expr : Expr) (text : Text) (start stop : Nat) : Prop :=
  ∃ values, AnswersAt expr text start (.matched (Cursor.at text stop) values)

def FailsAt (expr : Expr) (text : Text) (offset : Nat) : Prop :=
  ∃ explained, AnswersAt expr text offset (.failed explained)

section

variable {expr : Expr} {text : Text} {offset start stop : Nat} {outcome other : Outcome}

theorem AnswersAt.unique (answers : AnswersAt expr text offset outcome)
    (otherAnswers : AnswersAt expr text offset other) : other = outcome := by
  obtain ⟨site, owner, belongs⟩ := answers.belongs
  have sound := Progress.isSound_start grammar text
  obtain ⟨after, ended⟩ := otherAnswers.ends belongs sound (Nat.le_refl _)
  exact answers.always belongs sound ended

theorem MatchesAt.not_failsAt (matched : MatchesAt expr text offset stop) :
    ¬ FailsAt expr text offset := by
  rintro ⟨_, failed⟩
  obtain ⟨_, answers⟩ := matched
  cases failed.unique answers

theorem MatchesAt.unique {otherStop : Nat} (matched : MatchesAt expr text offset stop)
    (otherMatched : MatchesAt expr text offset otherStop) : otherStop = stop := by
  obtain ⟨_, answers⟩ := matched
  obtain ⟨_, otherAnswers⟩ := otherMatched
  cases answers.unique otherAnswers
  rfl

theorem answersAt_of_plain {depth : Nat} {expected : List Expectation}
    (belongs : ∃ site owner, BelongsTo expr site owner) (le : depth ≤ grammar.depthBound text)
    (tried : expr.plain (grammar.plain depth) (Cursor.at text offset) =
      some (outcome, expected)) : AnswersAt expr text offset outcome where
  belongs := belongs
  always := by
    intro site owner deep progress answer after fits sound ended
    have isIn : (Cursor.at text offset).IsIn text := rfl
    obtain ⟨_, settled, _⟩ := Peg.Expr.attempt_isFaithful
      (Peg.Grammar.invoke_isFaithful grammar_hasOwnSites deep) grammar_hasOwnSites
      (show grammar.rule owner = some (rule owner) from rfl) _ fits isIn sound ended
    rw [← Peg.Expr.plain_numberFrom _ expr site] at tried
    exact (settled.unique (.of_plain tried)).1
  ends := by
    intro site owner deep progress fits sound enough
    have deeper := Peg.Expr.plain_covers (Peg.Grammar.plain_covers (Nat.le_trans le enough)) expr
      _ _ tried
    rw [← Peg.Expr.plain_numberFrom _ expr site] at deeper
    have isIn : (Cursor.at text offset).IsIn text := rfl
    exact Peg.Expr.attempt_endsLike grammar_hasOwnSites
      (Peg.Grammar.invoke_endsLike grammar_hasOwnSites deep)
      (show grammar.rule owner = some (rule owner) from rfl) _ fits isIn sound deeper

theorem exists_answersAt (belongs : ∃ site owner, BelongsTo expr site owner) (text : Text)
    (offset : Nat) : ∃ outcome expected, AnswersAt expr text offset outcome ∧
      expr.plain (grammar.plain (grammar.depthBound text)) (Cursor.at text offset) =
        some (outcome, expected) := by
  have called : ∀ name later, expr.Invokes grammar (Cursor.at text offset) name later →
      ∃ result, grammar.plain (grammar.depthBound text) name later = some result := by
    intro name later invokes
    have low := grammar_isRanked.rank_lt name
    have shorter : later.rest.length ≤ text.length := by
      have le := invokes.length_le
      rw [Cursor.at, List.length_drop] at le
      omega
    have product := Nat.mul_le_mul_left grammar.names.length shorter
    exact grammar_isRanked.exists_plain (grammar.depthBound text) name later
      (by rw [Peg.Grammar.depthBound, Nat.mul_succ]; omega)
  obtain ⟨⟨outcome, expected⟩, tried⟩ := expr.exists_plain (Cursor.at text offset) called
  exact ⟨outcome, expected, answersAt_of_plain belongs (Nat.le_refl _) tried, tried⟩

end

theorem belongsTo_call (name : Nonterminal) : ∃ site owner, BelongsTo (.call name) site owner :=
  ⟨0, .program, List.nil_subset _⟩

theorem belongsTo_keyword (reserved : Keyword) :
    ∃ site owner, BelongsTo (keyword reserved) site owner := by
  cases reserved with
  | define => exact ⟨0, .definition, List.IsPrefix.subset ⟨_, rfl⟩⟩
  | external => exact ⟨0, .declaration, List.IsPrefix.subset ⟨_, rfl⟩⟩
  | ifWord => exact ⟨0, .ifBlock, List.IsPrefix.subset ⟨_, rfl⟩⟩
  | elseWord => exact ⟨0, .elseBlock, List.IsPrefix.subset ⟨_, rfl⟩⟩
  | whileWord => exact ⟨0, .whileStatement, List.IsPrefix.subset ⟨_, rfl⟩⟩
  | var => exact ⟨0, .variableDeclaration, List.IsPrefix.subset ⟨_, rfl⟩⟩
  | returnWord => exact ⟨0, .returnStatement, List.IsPrefix.subset ⟨_, rfl⟩⟩
  | trueWord => exact ⟨0, .trueLiteral, List.IsPrefix.subset ⟨_, rfl⟩⟩
  | falseWord => exact ⟨0, .falseLiteral, List.IsPrefix.subset ⟨_, rfl⟩⟩

/-! ## Runs of identifier characters -/

structure IsRunAt (text : Text) (offset : Nat) (word : Text) : Prop where
  stands : word <+: text.drop offset
  isWord : isWord word = true
  ends : ∀ next, text[offset + word.length]? = some next → isIdentifierContinue next = false

theorem isRunAt_iff {text : Text} {offset : Nat} {word : Text} : IsRunAt text offset word ↔
    ∃ rest, Lexical.word? (text.drop offset) = some (word, rest) := by
  have next? (rest : Text) (text_eq : text.drop offset = word ++ rest) :
      text[offset + word.length]? = rest.head? := by
    rw [← List.getElem?_drop, text_eq, List.getElem?_append_right (Nat.le_refl _), Nat.sub_self,
      List.head?_eq_getElem?]
  have ends_iff (rest : Text) : wordContinue? rest = none ↔
      ∀ next, rest.head? = some next → isIdentifierContinue next = false := by
    cases rest <;> simp [wordContinue?]
  constructor
  · rintro ⟨⟨rest, text_eq⟩, isWord, ends⟩
    rw [next? rest text_eq.symm] at ends
    exact ⟨rest, (Scan.word?_eq_some_iff isWord).mpr ⟨text_eq.symm, (ends_iff rest).mpr ends⟩⟩
  · rintro ⟨rest, found⟩
    have longest := word?_isLongest found
    have isWord : isWord word = true := longest.isMember
    obtain ⟨text_eq, ends⟩ := (Scan.word?_eq_some_iff isWord).mp found
    refine ⟨⟨rest, text_eq.symm⟩, isWord, ?_⟩
    rw [next? rest text_eq]
    exact (ends_iff rest).mp ends

theorem IsRunAt.unique {text : Text} {offset : Nat} {word other : Text}
    (isRun : IsRunAt text offset word) (otherIsRun : IsRunAt text offset other) :
    other = word := by
  obtain ⟨_, found⟩ := isRunAt_iff.mp isRun
  obtain ⟨_, otherFound⟩ := isRunAt_iff.mp otherIsRun
  rw [found] at otherFound
  cases otherFound
  rfl

/-! ## What the rules take -/

/-- An expression matches exactly the runs of identifier characters that are accepted, each
of them as a whole, and fails everywhere else. -/
def TakesRuns (expr : Expr) (accepts : Text → Bool) : Prop :=
  ∀ text offset,
    (∀ stop, MatchesAt expr text offset stop ↔
      ∃ word, IsRunAt text offset word ∧ accepts word = true ∧ stop = offset + word.length) ∧
    (FailsAt expr text offset ↔ ¬ ∃ word, IsRunAt text offset word ∧ accepts word = true)

def TakesBy (taken? : Text → Option (Text × Text)) (expr : Expr) : Prop :=
  ∀ depth cursor outcome expected,
    expr.plain (grammar.plain depth) cursor = some (outcome, expected) →
      match taken? cursor.rest with
      | some (word, rest) => ∃ values, outcome = .matched ⟨cursor.offset + word.length, rest⟩ values
      | none => ∃ explained, outcome = .failed explained

theorem TakesBy.of_recognizes {label : Label} {expr : Expr} (recognizes : Recognizes label expr) :
    TakesBy (Scan.accepted? label) expr := by
  intro depth cursor outcome expected tried
  have told := recognizes _ _ _ _ tried
  cases accepted : Scan.accepted? label cursor.rest with
  | none =>
      rw [accepted] at told
      exact told.1
  | some found =>
      rw [accepted] at told
      exact ⟨_, told.1⟩

theorem TakesBy.call {taken? : Text → Option (Text × Text)} {name : Nonterminal}
    (takes : TakesBy taken? (definition name).2) : TakesBy taken? (.call name) := by
  intro depth cursor outcome expected tried
  obtain ⟨smaller, _, bodyTried⟩ := plain_rule tried
  cases body : (definition name).2.plain (grammar.plain smaller) cursor with
  | none =>
      rw [body] at bodyTried
      cases bodyTried
  | some result =>
      obtain ⟨bodyOutcome, bodyExpected⟩ := result
      have told := takes _ _ _ _ body
      rw [body] at bodyTried
      cases taken : taken? cursor.rest with
      | none =>
          rw [taken] at told
          obtain ⟨explained, rfl⟩ := told
          cases bodyTried
          exact ⟨explained, rfl⟩
      | some found =>
          rw [taken] at told
          obtain ⟨values, rfl⟩ := told
          cases bodyTried
          exact ⟨_, rfl⟩

/-- It is enough to know which words are taken if nothing is remembered. -/
theorem TakesBy.takesRuns {expr : Expr} {accepts : Text → Bool}
    {taken? : Text → Option (Text × Text)} (takes : TakesBy taken? expr)
    (belongs : ∃ site owner, BelongsTo expr site owner)
    (taken?_eq_some_iff : ∀ {source word rest}, taken? source = some (word, rest) ↔
      Lexical.word? source = some (word, rest) ∧ accepts word = true) :
    TakesRuns expr accepts := by
  intro text offset
  obtain ⟨outcome, expected, answers, tried⟩ := exists_answersAt belongs text offset
  have told := takes _ _ _ _ tried
  simp only [Cursor.at] at told
  cases taken : taken? (text.drop offset) with
  | none =>
      rw [taken] at told
      obtain ⟨explained, rfl⟩ := told
      have failed : FailsAt expr text offset := ⟨explained, answers⟩
      have nothing : ¬ ∃ word, IsRunAt text offset word ∧ accepts word = true := by
        rintro ⟨word, isRun, accepted⟩
        obtain ⟨rest, found⟩ := isRunAt_iff.mp isRun
        rw [taken?_eq_some_iff.mpr ⟨found, accepted⟩] at taken
        cases taken
      refine ⟨fun stop => ⟨fun matched => absurd failed matched.not_failsAt, ?_⟩,
        iff_of_true failed nothing⟩
      rintro ⟨word, isRun, accepted, _⟩
      exact absurd ⟨word, isRun, accepted⟩ nothing
  | some result =>
      obtain ⟨word, rest⟩ := result
      obtain ⟨found, accepted⟩ := taken?_eq_some_iff.mp taken
      have isRun : IsRunAt text offset word := isRunAt_iff.mpr ⟨rest, found⟩
      have rest_eq : rest = text.drop (offset + word.length) := by
        rw [← List.drop_drop, eq_append_of_word? found, List.drop_left]
      rw [taken] at told
      obtain ⟨values, rfl⟩ := told
      rw [rest_eq] at answers
      have matched : MatchesAt expr text offset (offset + word.length) := ⟨values, answers⟩
      refine ⟨fun stop => ⟨?_, ?_⟩, iff_of_false matched.not_failsAt ?_⟩
      · intro otherMatched
        exact ⟨word, isRun, accepted, matched.unique otherMatched⟩
      · rintro ⟨other, otherIsRun, _, rfl⟩
        rw [isRun.unique otherIsRun]
        exact matched
      · exact fun nothing => nothing ⟨word, isRun, accepted⟩

theorem takesRuns_identifier :
    TakesRuns (.call .identifier) fun word => !isReserved word := by
  refine (TakesBy.of_recognizes recognizes_identifier).call.takesRuns (belongsTo_call _) ?_
  intro source word rest
  rw [Scan.accepted?_identifier_iff, Bool.not_eq_true']

theorem accepted?_keyword_iff_word? {reserved : Keyword} {source word rest : Text} :
    Scan.accepted? (.keyword reserved) source = some (word, rest) ↔
      Lexical.word? source = some (word, rest) ∧ (word == reserved.spelling.toList) = true := by
  rw [Scan.accepted?_keyword_iff, beq_iff_eq, and_comm]

theorem takesRuns_keyword (reserved : Keyword) :
    TakesRuns (keyword reserved) fun word => word == reserved.spelling.toList :=
  (TakesBy.of_recognizes (recognizes_keyword reserved)).takesRuns (belongsTo_keyword reserved)
    accepted?_keyword_iff_word?

theorem takesRuns_keywordRule {reserved : Keyword} {name : Nonterminal}
    (body : (definition name).2 = keyword reserved) :
    TakesRuns (.call name) fun word => word == reserved.spelling.toList := by
  have takes : TakesBy (Scan.accepted? (.keyword reserved)) (definition name).2 := by
    rw [body]
    exact .of_recognizes (recognizes_keyword reserved)
  exact takes.call.takesRuns (belongsTo_call name) accepted?_keyword_iff_word?

theorem reserved?_eq_some_iff {source word rest : Text} :
    reserved? source = some (word, rest) ↔
      Lexical.word? source = some (word, rest) ∧ isReserved word = true := by
  constructor
  · intro found
    obtain ⟨reserved, _, keywordFound⟩ := List.exists_of_findSome?_eq_some found
    obtain ⟨rfl, wordFound⟩ := Scan.keyword?_eq_some_iff.mp keywordFound
    refine ⟨wordFound, ?_⟩
    rw [isReserved, List.any_eq_true]
    exact ⟨reserved, reserved.mem_all, beq_self_eq_true _⟩
  · rintro ⟨found, isReserved⟩
    cases taken : reserved? source with
    | none =>
        rw [(Scan.reserved?_eq_none_iff found).mp taken] at isReserved
        cases isReserved
    | some result =>
        obtain ⟨reserved, _, keywordFound⟩ := List.exists_of_findSome?_eq_some taken
        obtain ⟨_, wordFound⟩ := Scan.keyword?_eq_some_iff.mp keywordFound
        rw [← found, wordFound]

theorem takesBy_shape (kind : Lexical.Shape) : TakesBy kind.split? (Peg.Expr.shape kind) := by
  intro depth cursor outcome expected tried
  rw [plain_class] at tried
  cases split : kind.split? cursor.rest with
  | none =>
      rw [split] at tried
      cases tried
      exact ⟨_, rfl⟩
  | some found =>
      rw [split] at tried
      cases tried
      exact ⟨_, rfl⟩

theorem takesRuns_reserved : TakesRuns (.call .reserved) isReserved := by
  have takes : TakesBy reserved? (definition .reserved).2 := takesBy_shape .reserved
  exact takes.call.takesRuns (belongsTo_call _) reserved?_eq_some_iff

/-! ## Names and reserved words -/

theorem TakesRuns.excludes {expr other : Expr} {accepts otherAccepts : Text → Bool}
    (takes : TakesRuns expr accepts) (otherTakes : TakesRuns other otherAccepts)
    (apart : ∀ word, ¬ (accepts word = true ∧ otherAccepts word = true)) (text : Text)
    (offset : Nat) : ¬ ((∃ stop, MatchesAt expr text offset stop) ∧
      ∃ stop, MatchesAt other text offset stop) := by
  rintro ⟨⟨stop, matched⟩, otherStop, otherMatched⟩
  obtain ⟨word, isRun, accepted, _⟩ := ((takes text offset).1 stop).mp matched
  obtain ⟨same, otherIsRun, otherAccepted, _⟩ :=
    ((otherTakes text offset).1 otherStop).mp otherMatched
  rw [isRun.unique otherIsRun] at otherAccepted
  exact apart word ⟨accepted, otherAccepted⟩

theorem isReserved_spelling (reserved : Keyword) : isReserved reserved.spelling.toList = true := by
  cases reserved <;> decide

theorem isRunAt_whole_iff {name word : Text} :
    IsRunAt name 0 word ∧ name.length = 0 + word.length ↔ word = name ∧ isWord name = true := by
  constructor
  · rintro ⟨isRun, same⟩
    obtain rfl : word = name := isRun.stands.eq_of_length (by rw [List.drop_zero]; omega)
    exact ⟨rfl, isRun.isWord⟩
  · rintro ⟨rfl, isWord⟩
    refine ⟨⟨List.prefix_refl _, isWord, fun next found => ?_⟩, (Nat.zero_add _).symm⟩
    rw [Nat.zero_add, List.getElem?_eq_none (Nat.le_refl _)] at found
    cases found

/-- A name is matched exactly where the longest run of identifier characters is no reserved
word, a reserved word exactly where this run is that word, and neither where the other is. The
printer takes for an identifier what is matched as a name from end to end. The characters that
all of them go by are the ranges read off a property of code points. -/
theorem names_agree :
    TakesRuns (.call .identifier) (fun word => !isReserved word) ∧
    TakesRuns (.call .reserved) isReserved ∧
    (∀ reserved, TakesRuns (keyword reserved) (· == reserved.spelling.toList)) ∧
    TakesRuns (.call .trueLiteral) (· == Keyword.trueWord.spelling.toList) ∧
    TakesRuns (.call .falseLiteral) (· == Keyword.falseWord.spelling.toList) ∧
    (∀ text offset, ¬ ((∃ stop, MatchesAt (.call .identifier) text offset stop) ∧
      ∃ stop, MatchesAt (.call .reserved) text offset stop)) ∧
    (∀ reserved text offset, ¬ ((∃ stop, MatchesAt (.call .identifier) text offset stop) ∧
      ∃ stop, MatchesAt (keyword reserved) text offset stop)) ∧
    (∀ name, isIdentifier name = true ↔ MatchesAt (.call .identifier) name 0 name.length) ∧
    (∀ holds point, (CodePoints.ofProperty holds).includes point = true ↔
      point < 0x110000 ∧ holds point = true) ∧
    CodePoints.ofProperty CodePoints.identifierStart.includes = CodePoints.identifierStart ∧
    CodePoints.ofProperty CodePoints.identifierContinue.includes =
      CodePoints.identifierContinue := by
  refine ⟨takesRuns_identifier, takesRuns_reserved, takesRuns_keyword, takesRuns_keywordRule rfl,
    takesRuns_keywordRule rfl, ?_, ?_, ?_, fun _ _ => CodePoints.includes_ofProperty,
    CodePoints.ofProperty_includes CodePoints.areRuns_identifierStart,
    CodePoints.ofProperty_includes CodePoints.areRuns_identifierContinue⟩
  · exact takesRuns_identifier.excludes takesRuns_reserved fun word => by simp
  · intro reserved
    refine takesRuns_identifier.excludes (takesRuns_keyword reserved) fun word both => ?_
    have same := beq_iff_eq.mp both.2
    rw [same, isReserved_spelling] at both
    cases both.1
  · intro name
    rw [(takesRuns_identifier name 0).1, isIdentifier, Bool.and_eq_true]
    constructor
    · rintro ⟨isWord, notReserved⟩
      obtain ⟨isRun, same⟩ := isRunAt_whole_iff.mpr ⟨rfl, isWord⟩
      exact ⟨name, isRun, notReserved, same⟩
    · rintro ⟨word, isRun, notReserved, same⟩
      obtain ⟨rfl, isWord⟩ := isRunAt_whole_iff.mp ⟨isRun, same⟩
      exact ⟨isWord, notReserved⟩

end QubitLang.Language
