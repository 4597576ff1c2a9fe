import QubitLang.Proofs.Language.Nesting
import QubitLang.Proofs.Language.Ranking
import QubitLang.Proofs.Language.Terminals

/-! The limit on nested brackets limits how many rules are invoked inside one another. Wherever a
rule of the language is invoked inside itself, a bracket was opened in between: what an invocation
needs is told from the brackets that may still be opened. -/

namespace QubitLang

/-! ## Brackets that are open at a cursor -/

namespace Nesting

def depthAfter (depth : Nat) (character : Char) : Nat :=
  if opens character then depth + 1 else if closes character then depth - 1 else depth

/-- So many brackets are open at a cursor outside comments, and no bracket behind it brings them
above the limit. -/
structure Within (limit depth : Nat) (cursor : Peg.Cursor) : Prop where
  depth_le : depth ≤ limit
  noExcess : excessFrom limit cursor.offset depth false cursor.rest = none

/-- As many brackets are open at a cursor as some goal asks for. -/
def WithinSome (limit : Nat) (goal : Nat → Prop) (cursor : Peg.Cursor) : Prop :=
  ∃ depth, goal depth ∧ Within limit depth cursor

variable {limit : Nat} {cursor : Peg.Cursor}

theorem Within.of_character {offset depth : Nat} {character : Char} {rest : Text}
    (within : Within limit depth ⟨offset, character :: rest⟩) (noComment : character ≠ '#') :
    Within limit (depthAfter depth character) ⟨offset + 1, rest⟩ := by
  obtain ⟨depth_le, noExcess⟩ := within
  have notComment : ¬ (character == '#') = true := by simpa using noComment
  simp only [excessFrom, if_neg Bool.false_ne_true, if_neg notComment] at noExcess
  unfold depthAfter
  split at noExcess
  · rename_i opening
    rw [if_pos opening]
    split at noExcess
    · cases noExcess
    · exact ⟨by omega, noExcess⟩
  · rename_i noOpening
    rw [if_neg noOpening]
    split at noExcess
    · rename_i closing
      rw [if_pos closing]
      exact ⟨by omega, noExcess⟩
    · rename_i noClosing
      rw [if_neg noClosing]
      exact ⟨depth_le, noExcess⟩

theorem Within.of_spelling {rest : Text} : ∀ {spelling : Text} {offset depth : Nat},
    Within limit depth ⟨offset, spelling ++ rest⟩ → '#' ∉ spelling →
      Within limit (spelling.foldl depthAfter depth) ⟨offset + spelling.length, rest⟩
  | [], _, _, within, _ => within
  | character :: spelling, offset, depth, within, noComment => by
      rw [List.mem_cons, not_or] at noComment
      have later := (within.of_character (Ne.symm noComment.1)).of_spelling noComment.2
      rwa [Nat.add_assoc, Nat.add_comm 1] at later

theorem hash_notMem {spelling : Text} (plain : spelling.all isPlain = true) : '#' ∉ spelling :=
  fun member => nomatch List.all_eq_true.mp plain '#' member

theorem foldl_depthAfter {depth : Nat} : ∀ {spelling : Text}, spelling.all isPlain = true →
    spelling.foldl depthAfter depth = depth
  | [], _ => rfl
  | character :: spelling, plain => by
      simp only [List.all_cons, isPlain, Bool.and_eq_true, Bool.not_eq_true'] at plain
      obtain ⟨⟨⟨_, noOpen⟩, noClose⟩, later⟩ := plain
      have unchanged : depthAfter depth character = depth := by
        simp only [depthAfter, noOpen, noClose, Bool.false_eq_true, if_false]
      rw [List.foldl_cons, unchanged]
      exact foldl_depthAfter later

theorem all_isPlain_of_split? {kind : Lexical.Shape} {text lexeme rest : Text}
    (other : kind ≠ .trivia) (found : kind.split? text = some (lexeme, rest)) :
    lexeme.all isPlain = true := by
  have ofWord (word : Lexical.isWord lexeme = true) : lexeme.all isPlain = true :=
    isPlain_spelling (show (Token.word lexeme).isLexical = true from word) fun _ => rfl
  cases kind with
  | number =>
      have number := (Lexical.number?_isLongest found).isMember
      exact isPlain_spelling (show (Token.number lexeme).isLexical = true from number) fun _ => rfl
  | digits =>
      have digits := (Lexical.isDigits_iff.mp (Lexical.digits?_isLongest found).isMember).2
      exact List.all_eq_true.mpr fun character member =>
        isPlain_of_isDigit (List.all_eq_true.mp digits character member)
  | trivia => exact absurd rfl other
  | identifier => exact ofWord (Lexical.word?_isLongest found).isMember
  | wordContinue =>
      cases text with
      | nil => cases found
      | cons first text =>
          simp only [Lexical.Shape.split?, Lexical.wordContinue?] at found
          split at found
          · rename_i continues
            cases found
            simp [isPlain_of_isIdentifierContinue continues]
          · cases found
  | reserved =>
      obtain ⟨keyword, _, matched⟩ := List.exists_of_findSome?_eq_some found
      rw [(Scan.keyword?_eq_some_iff.mp matched).1]
      cases keyword <;> decide

theorem Within.of_shape {kind : Lexical.Shape} {depth : Nat} {next : Peg.Cursor}
    (within : Within limit depth cursor)
    (advanced : (Peg.Terminal.shape kind).advance? cursor = some next) :
    Within limit depth next := by
  obtain ⟨⟨lexeme, rest⟩, split, rfl⟩ := Option.map_eq_some_iff.mp advanced
  obtain ⟨depth_le, noExcess⟩ := within
  refine ⟨depth_le, ?_⟩
  by_cases isTrivia : kind = .trivia
  · subst isTrivia
    have skipped : Lexical.trivia false cursor.rest = (lexeme, rest) := Option.some.inj split
    rw [excessFrom_trivia, skipped] at noExcess
    exact noExcess
  · rw [Peg.Terminal.eq_append_of_split? split,
      excessFrom_plain limit depth rest lexeme cursor.offset
        (all_isPlain_of_split? isTrivia split)] at noExcess
    exact noExcess

end Nesting

/-! ## What expressions need

The invocations that a rule needs inside one another are given by how many more brackets may be
opened where it is invoked. -/

namespace Peg

open Nesting (Within WithinSome)

def Terminal.Fits (limit opened : Nat) (goal : Nat → Prop) : Terminal → Prop
  | .literal spelling => '#' ∉ spelling ∧
    (spelling.foldl Nesting.depthAfter opened ≤ limit →
      goal (spelling.foldl Nesting.depthAfter opened))
  | .shape _ => goal opened
  | .oneOf _ _ | .anyCharacter | .regex _ => False

section

variable {ν : Type} (needs : ν → Nat → Nat) (limit depth : Nat)

def Expr.Peeks (opened : Nat) : Expr ν → Prop
  | .terminal _ => True
  | .call name => needs name (limit - opened) ≤ depth
  | _ => False

/-- Whether an expression ends if invocations are no deeper than allowed, and leaves so many
brackets open that a goal is reached, if it matches. -/
def Expr.Fits : Expr ν → Nat → (Nat → Prop) → Prop
  | .empty, opened, goal => goal opened
  | .never, _, _ | .noAlternative, _, _ => True
  | .terminal accepted, opened, goal => accepted.Fits limit opened goal
  | .call name, opened, goal => needs name (limit - opened) ≤ depth ∧ goal opened
  | .seq first second, opened, goal => first.Fits opened fun later => second.Fits later goal
  | .alt first second, opened, goal => first.Fits opened goal ∧ second.Fits opened goal
  | .remember _ body, opened, goal => body.Fits opened goal
  | .star body, opened, goal | .plus body, opened, goal =>
    body.Fits opened (fun later => later = opened) ∧ goal opened
  | .opt body, opened, goal => body.Fits opened goal ∧ goal opened
  | .ahead body, opened, goal | .notAhead body, opened, goal =>
    body.Peeks needs limit depth opened ∧ goal opened

end

def Trial.Reaches (trial : Trial) (cursor : Cursor) (goal : Cursor → Prop) : Prop :=
  ∃ outcome expected, trial cursor = some (outcome, expected) ∧
    ∀ next values, outcome = .matched next values → goal next

section

variable {ν : Type} {needs : ν → Nat → Nat} {limit depth opened : Nat} {invoke : ν → Trial}
  {cursor : Cursor}

theorem Terminal.within_of_fits {goal : Nat → Prop} {terminal : Terminal} {next : Cursor}
    (fits : terminal.Fits limit opened goal) (within : Within limit opened cursor)
    (advanced : terminal.advance? cursor = some next) : WithinSome limit goal next := by
  cases terminal with
  | literal spelling =>
      obtain ⟨⟨lexeme, rest⟩, split, rfl⟩ := Option.map_eq_some_iff.mp advanced
      obtain ⟨after, found, equal⟩ := Option.map_eq_some_iff.mp split
      cases equal
      have text_eq := Lexical.afterPrefix?_eq_some_iff.mp found
      have behind : Within limit (spelling.foldl Nesting.depthAfter opened)
          ⟨cursor.offset + spelling.length, rest⟩ :=
        Within.of_spelling (by rw [← text_eq]; exact within) fits.1
      exact ⟨_, fits.2 behind.depth_le, behind⟩
  | shape kind => exact ⟨opened, fits, within.of_shape advanced⟩
  | oneOf _ _ | anyCharacter | regex _ => exact fits.elim

theorem Repetition.cursor_of_outcome (repetition : Repetition) {next : Cursor}
    {values : List Value} (equal : repetition.outcome = .matched next values) :
    next = repetition.cursor := by
  unfold outcome at equal
  split at equal <;> cases equal
  rfl

theorem Repetition.cursor_of_outcomeOfSome (repetition : Repetition) {next : Cursor}
    {values : List Value} (equal : repetition.outcomeOfSome = .matched next values) :
    next = repetition.cursor := by
  unfold outcomeOfSome at equal
  split at equal <;> cases equal
  rfl

theorem retried_reaches {trial : Trial}
    (body : ∀ cursor, Within limit opened cursor →
      trial.Reaches cursor (WithinSome limit fun later => later = opened))
    (bound : Nat) : ∀ cursor, Within limit opened cursor →
      ∃ repetition expected, retried trial bound cursor = some (repetition, expected) ∧
        Within limit opened repetition.cursor := by
  induction bound with
  | zero =>
      intro cursor within
      obtain ⟨outcome, expected, tried, _⟩ := body cursor within
      rw [retried_zero, tried]
      exact ⟨_, _, rfl, within⟩
  | succ bound induction =>
      intro cursor within
      obtain ⟨outcome, expected, tried, reached⟩ := body cursor within
      unfold retried
      rw [tried]
      cases outcome with
      | failed | stuck => exact ⟨_, _, rfl, within⟩
      | matched next values =>
          obtain ⟨_, rfl, nextWithin⟩ := reached next values rfl
          obtain ⟨rest, later, again, behind⟩ := induction next nextWithin
          simp only [again]
          exact ⟨_, _, rfl, behind⟩

theorem Expr.exists_plain_of_peeks
    (invokes : ∀ name opened cursor, Within limit opened cursor →
      needs name (limit - opened) ≤ depth → (invoke name).Reaches cursor (Within limit opened))
    {body : Expr ν} (peeks : body.Peeks needs limit depth opened)
    (within : Within limit opened cursor) :
    ∃ outcome expected, body.plain invoke cursor = some (outcome, expected) := by
  cases body with
  | terminal accepted =>
      simp only [plain]
      cases accepted.advance? cursor <;> exact ⟨_, _, rfl⟩
  | call name =>
      obtain ⟨outcome, expected, tried, _⟩ := invokes name opened cursor within peeks
      exact ⟨outcome, expected, tried⟩
  | _ => exact peeks.elim

theorem Expr.reaches_of_fits
    (invokes : ∀ name opened cursor, Within limit opened cursor →
      needs name (limit - opened) ≤ depth → (invoke name).Reaches cursor (Within limit opened))
    (expr : Expr ν) : ∀ opened goal cursor, expr.Fits needs limit depth opened goal →
      Within limit opened cursor →
        Trial.Reaches (expr.plain invoke) cursor (WithinSome limit goal) := by
  induction expr with
  | empty =>
      intro opened goal cursor fits within
      refine ⟨_, _, rfl, ?_⟩
      rintro _ _ ⟨⟩
      exact ⟨opened, fits, within⟩
  | never | noAlternative => exact fun _ _ _ _ _ => ⟨_, _, rfl, by rintro _ _ ⟨⟩⟩
  | terminal accepted =>
      intro opened goal cursor fits within
      simp only [Trial.Reaches, plain]
      cases advanced : accepted.advance? cursor with
      | none => exact ⟨_, _, rfl, by rintro _ _ ⟨⟩⟩
      | some next =>
          refine ⟨_, _, rfl, ?_⟩
          rintro _ _ ⟨⟩
          exact Terminal.within_of_fits fits within advanced
  | call name =>
      intro opened goal cursor fits within
      obtain ⟨outcome, expected, tried, reached⟩ := invokes name opened cursor within fits.1
      exact ⟨outcome, expected, tried, fun next values equal =>
        ⟨opened, fits.2, reached next values equal⟩⟩
  | seq first second firstInduction secondInduction =>
      intro opened goal cursor fits within
      -- The goal of the first part is to begin where the second part fits.
      obtain ⟨outcome, early, firstTried, reached⟩ := firstInduction opened _ cursor fits within
      simp only [Trial.Reaches, plain, firstTried]
      cases outcome with
      | failed | stuck => exact ⟨_, _, rfl, by rintro _ _ ⟨⟩⟩
      | matched middle values =>
          obtain ⟨later, laterFits, laterWithin⟩ := reached middle values rfl
          obtain ⟨secondOutcome, late, secondTried, secondReached⟩ :=
            secondInduction later goal middle laterFits laterWithin
          simp only [secondTried]
          cases secondOutcome with
          | failed | stuck => exact ⟨_, _, rfl, by rintro _ _ ⟨⟩⟩
          | matched last more =>
              refine ⟨_, _, rfl, ?_⟩
              rintro _ _ ⟨⟩
              exact secondReached last more rfl
  | alt first second firstInduction secondInduction =>
      intro opened goal cursor fits within
      obtain ⟨outcome, early, firstTried, reached⟩ :=
        firstInduction opened goal cursor fits.1 within
      simp only [Trial.Reaches, plain, firstTried]
      cases outcome with
      | matched | stuck => exact ⟨_, _, rfl, reached⟩
      | failed explained =>
          obtain ⟨secondOutcome, late, secondTried, secondReached⟩ :=
            secondInduction opened goal cursor fits.2 within
          simp only [secondTried]
          exact ⟨_, _, rfl, secondReached⟩
  | remember _ body induction => exact induction
  | star body induction =>
      intro opened goal cursor fits within
      obtain ⟨repetition, expected, again, behind⟩ :=
        retried_reaches (fun cursor => induction opened _ cursor fits.1) cursor.rest.length cursor
          within
      simp only [Trial.Reaches, plain, again]
      refine ⟨_, _, rfl, fun next values equal => ?_⟩
      rw [repetition.cursor_of_outcome equal]
      exact ⟨opened, fits.2, behind⟩
  | plus body induction =>
      intro opened goal cursor fits within
      obtain ⟨repetition, expected, again, behind⟩ :=
        retried_reaches (fun cursor => induction opened _ cursor fits.1) cursor.rest.length cursor
          within
      simp only [Trial.Reaches, plain, again]
      refine ⟨_, _, rfl, fun next values equal => ?_⟩
      rw [repetition.cursor_of_outcomeOfSome equal]
      exact ⟨opened, fits.2, behind⟩
  | opt body induction =>
      intro opened goal cursor fits within
      obtain ⟨outcome, early, tried, reached⟩ := induction opened goal cursor fits.1 within
      simp only [Trial.Reaches, plain, tried]
      cases outcome with
      | matched | stuck => exact ⟨_, _, rfl, reached⟩
      | failed explained =>
          refine ⟨_, _, rfl, ?_⟩
          rintro _ _ ⟨⟩
          exact ⟨opened, fits.2, within⟩
  | ahead body _ =>
      intro opened goal cursor fits within
      obtain ⟨outcome, expected, tried⟩ := exists_plain_of_peeks invokes fits.1 within
      simp only [Trial.Reaches, plain, tried]
      cases outcome with
      | failed | stuck => exact ⟨_, _, rfl, by rintro _ _ ⟨⟩⟩
      | matched =>
          refine ⟨_, _, rfl, ?_⟩
          rintro _ _ ⟨⟩
          exact ⟨opened, fits.2, within⟩
  | notAhead body _ =>
      intro opened goal cursor fits within
      obtain ⟨outcome, expected, tried⟩ := exists_plain_of_peeks invokes fits.1 within
      simp only [Trial.Reaches, plain, tried]
      cases outcome with
      | matched | stuck => exact ⟨_, _, rfl, by rintro _ _ ⟨⟩⟩
      | failed =>
          refine ⟨_, _, rfl, ?_⟩
          rintro _ _ ⟨⟩
          exact ⟨opened, fits.2, within⟩

end

end Peg

/-! ## What the rules of the language need -/

namespace Language

/-- How many invocations may be inside one another in an invocation of a rule, itself included,
where so many more brackets may be opened. -/
def Nonterminal.needs (name : Nonterminal) (room : Nat) : Nat :=
  match name with
  | .trivia | .wordContinue | .reserved | .marker _ => 1
  | .identifier | .number | .qubit | .trueLiteral | .falseLiteral | .typeWord _ => 2
  | .literal | .type => 3
  | .parameter | .returnType => 4
  | .parameters => 5
  | .prototype => 6
  | .declaration => 7
  | .call => 2 * room + 3
  | .expression => 2 * room + 4
  | .variableDeclaration | .assignment | .returnStatement | .expressionInput => 2 * room + 5
  | .block => 4 * room + 4
  | .ifBlock | .elseBlock | .whileStatement => 4 * room + 5
  | .ifStatement => 4 * room + 6
  | .statement | .definition => 4 * room + 7
  | .item | .statementInput => 4 * room + 8
  | .program => 4 * room + 9

section

variable {limit depth opened : Nat} {goal : Nat → Prop}

theorem fits_expecting {label : Label} {body : Expr} (single : body.alternatives = [body]) :
    (expecting label body).Fits Nonterminal.needs limit depth opened goal ↔
      body.Fits Nonterminal.needs limit depth opened goal ∧ 1 ≤ depth := by
  rw [expecting_eq single]
  simp only [Peg.Expr.Fits, Nonterminal.needs, and_true]

@[simp] theorem fits_sign (mark : Sign) :
    (sign mark).Fits Nonterminal.needs limit depth opened goal ↔
      ((Token.sign mark).depthAfter opened ≤ limit →
        goal ((Token.sign mark).depthAfter opened)) ∧ 1 ≤ depth := by
  have noComment : '#' ∉ mark.spelling.toList := by cases mark <;> decide
  have spelled : mark.spelling.toList.foldl Nesting.depthAfter opened =
      (Token.sign mark).depthAfter opened := by
    cases mark <;> rfl
  rw [sign, fits_expecting rfl]
  simp only [Peg.Expr.literal, Peg.Expr.Fits, Peg.Terminal.Fits, spelled, noComment,
    not_false_eq_true, true_and]

theorem fits_wholeWord {spelling : String} (word : Lexical.isWord spelling.toList = true) :
    (wholeWord spelling).Fits Nonterminal.needs limit depth opened goal ↔
      (opened ≤ limit → 1 ≤ depth ∧ goal opened) := by
  have lexical : (Token.word spelling.toList).isLexical = true := word
  have plain : spelling.toList.all Nesting.isPlain = true :=
    Nesting.isPlain_spelling lexical fun _ => rfl
  simp only [wholeWord, Peg.Expr.sequence, Peg.Expr.literal, Peg.Expr.Fits, Peg.Terminal.Fits,
    Peg.Expr.Peeks, Nonterminal.needs, Nesting.hash_notMem plain, Nesting.foldl_depthAfter plain,
    not_false_eq_true, true_and]

@[simp] theorem fits_keyword (word : Keyword) :
    (keyword word).Fits Nonterminal.needs limit depth opened goal ↔
      (opened ≤ limit → 1 ≤ depth ∧ goal opened) ∧ 1 ≤ depth := by
  rw [keyword, fits_expecting rfl, fits_wholeWord (Scan.isWord_keyword word)]

@[simp] theorem fits_typeWord (type : BaseType) :
    (expecting (.typeWord type) (wholeWord type.spelling)).Fits Nonterminal.needs limit depth opened
      goal ↔ (opened ≤ limit → 1 ≤ depth ∧ goal opened) ∧ 1 ≤ depth := by
  rw [fits_expecting rfl, fits_wholeWord (Scan.isWord_type type)]

@[simp] theorem fits_class (label : Label) (kind : Lexical.Shape) :
    (expecting label (.shape kind)).Fits Nonterminal.needs limit depth opened goal ↔
      goal opened ∧ 1 ≤ depth :=
  fits_expecting rfl

@[simp] theorem fits_name :
    (expecting .identifier (.sequence [.notAhead (.call .reserved), .shape .identifier])).Fits
      Nonterminal.needs limit depth opened goal ↔ (1 ≤ depth ∧ goal opened) ∧ 1 ≤ depth :=
  fits_expecting rfl

@[simp] theorem fits_endOfText :
    endOfText.Fits Nonterminal.needs limit depth opened goal ↔ goal opened :=
  and_iff_right trivial

@[simp] theorem fits_endOfInput :
    (expecting .endOfInput endOfText).Fits Nonterminal.needs limit depth opened goal ↔
      goal opened ∧ 1 ≤ depth := by
  rw [fits_expecting rfl, fits_endOfText]

theorem fits_definition (name : Nonterminal)
    (enough : name.needs (limit - opened) ≤ depth + 1) :
    (definition name).2.Fits Nonterminal.needs limit depth opened fun later => later = opened := by
  cases name with
  | trivia | wordContinue | reserved | marker _ => exact rfl
  | identifier | number | trueLiteral | falseLiteral | typeWord _ =>
      simp only [Nonterminal.needs] at enough
      simp [definition]
      omega
  | _ =>
      -- A part of a rule is invoked with a bracket less to open behind each that the rule opens.
      simp only [Nonterminal.needs] at enough
      simp [definition, Peg.Expr.choice, Peg.Expr.sequence, Peg.Expr.firstOf,
        Peg.Expr.alternatives, Peg.Expr.Fits, Token.depthAfter, Nonterminal.needs, trivia]
      omega

end

theorem plain_reaches {limit : Nat} (depth : Nat) : ∀ name opened cursor,
    Nesting.Within limit opened cursor → name.needs (limit - opened) ≤ depth →
      Peg.Trial.Reaches (grammar.plain depth name) cursor (Nesting.Within limit opened) := by
  induction depth with
  | zero =>
      intro name opened cursor within enough
      cases name <;> simp [Nonterminal.needs] at enough
  | succ depth induction =>
      intro name opened cursor within enough
      obtain ⟨outcome, expected, tried, reached⟩ := Peg.Expr.reaches_of_fits induction
        (definition name).2 opened _ cursor (fits_definition name enough) within
      have found : grammar.rule name = some (rule name) := rfl
      have bodyTried : (rule name).body.plain (grammar.plain depth) cursor =
          some (outcome, expected) := by
        rw [rule, Peg.Rule.ofBody, Peg.Expr.plain_numbered, tried]
      simp only [Peg.Trial.Reaches, Peg.Grammar.plain, found, bodyTried]
      cases outcome with
      | failed | stuck => exact ⟨_, _, rfl, by rintro _ _ ⟨⟩⟩
      | matched next values =>
          refine ⟨_, _, rfl, ?_⟩
          rintro _ _ ⟨⟩
          obtain ⟨_, rfl, nextWithin⟩ := reached next values rfl
          exact nextWithin

/-- In a text whose brackets nest within a limit, whatever its length and whether it is matched or
not, no more invocations are inside one another than four for each level of the limit and twelve:
if so many are allowed, or any more, a match ends as it does with the bound that is set for it by
the length of the text. -/
theorem nesting_bounds_recursion (start : Nonterminal) {limit : Nat} {source : Text}
    (within : Nesting.check limit source = .ok ()) :
    ∃ outcome after,
      (∀ depth, 4 * limit + 12 ≤ depth →
        grammar.invoke depth start (Peg.Cursor.start source) .start = some (outcome, after)) ∧
      grammar.run start source = some (outcome, after.events.reverse) := by
  have noExcess : Nesting.firstExcess? limit source = none := by
    rw [Nesting.check] at within
    split at within
    · assumption
    · cases within
  have enough : start.needs (limit - 0) ≤ 4 * limit + 12 := by
    cases start <;> simp only [Nonterminal.needs] <;> omega
  obtain ⟨outcome, expected, tried, _⟩ := plain_reaches (4 * limit + 12) start 0
    (Peg.Cursor.start source) ⟨Nat.zero_le limit, noExcess⟩ enough
  obtain ⟨after, invoked⟩ :=
    Peg.Grammar.exists_invoke_of_plain grammar_hasOwnSites (Peg.Cursor.isIn_start source) tried
  refine ⟨outcome, after, invoked, ?_⟩
  obtain ⟨_, _, result⟩ := run_eq_some start source
  obtain ⟨found, bounded, _⟩ := Option.map_eq_some_iff.mp result
  -- Both depths agree with any that is larger.
  have deep := Peg.Grammar.invoke_covers (Nat.le_max_left _ (4 * limit + 12)) start _ _ _ bounded
  rw [invoked _ (Nat.le_max_right _ _)] at deep
  cases deep
  rw [Peg.Grammar.run, bounded, Option.map_some]

/-- A text with brackets that are closed by other ones, or not at all. -/
theorem nesting_bounds_recursion_unclosed :
    Nesting.check (3 : Nat) "def f()\x7bif(g(\x7d".toList = .ok () ∧
      ∃ outcome after,
        (∀ depth, 24 ≤ depth → grammar.invoke depth .program
          (Peg.Cursor.start "def f()\x7bif(g(\x7d".toList) .start = some (outcome, after)) ∧
        grammar.run .program "def f()\x7bif(g(\x7d".toList =
          some (outcome, after.events.reverse) := by
  have within : Nesting.check (3 : Nat) "def f()\x7bif(g(\x7d".toList = .ok () := rfl
  exact ⟨within, nesting_bounds_recursion .program within⟩

end Language

end QubitLang
