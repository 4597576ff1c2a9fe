import QubitLang.Language.Grammar
import QubitLang.Proofs.Peg.Explained
import QubitLang.Proofs.Peg.Recurrence

/-! The grammar of the language is ranked, so that every source text is matched
or refused, and each refusal can be told. -/

namespace QubitLang.Language

def Nonterminal.isNullable : Nonterminal → Bool
  | .trivia | .parameters | .program | .marker _ => true
  | _ => false

def Nonterminal.rank : Nonterminal → Nat
  | .trivia | .wordContinue | .reserved | .marker _ => 0
  | .identifier | .number | .qubit | .trueLiteral | .falseLiteral | .typeWord _
  | .variableDeclaration | .returnStatement | .ifBlock | .elseBlock | .whileStatement
  | .block | .returnType | .declaration | .definition => 1
  | .call | .literal | .type | .assignment | .ifStatement | .prototype | .parameter
  | .item => 2
  | .expression | .statement | .parameters | .program => 3
  | .expressionInput | .statementInput => 4

theorem grammar_hasOwnSites : grammar.HasOwnSites := by
  intro name rule found
  cases found
  exact Peg.Rule.ofBody_hasOwnSites _ _

theorem grammar_isRanked : grammar.IsRanked Nonterminal.isNullable Nonterminal.rank where
  nullable_of_body := by
    intro name rule found
    cases found
    cases name with
    | typeWord type => cases type <;> decide
    | marker label => exact fun _ => rfl
    | _ => decide
  rank_of_leftCall := by
    intro name rule found
    cases found
    cases name with
    | typeWord type => cases type <;> decide
    | marker label => exact fun _ member => nomatch member
    | _ => decide
  rank_lt := by
    intro name
    have bound : name.rank < 5 := by cases name <;> simp [Nonterminal.rank]
    exact Nat.lt_trans bound (by decide)

theorem plain_goesOn (depth : Nat) (expr : Expr) : Peg.Trial.GoesOn
    (expr.plain (grammar.plain depth)) (expr.isNullable Nonterminal.isNullable) :=
  Peg.Expr.plain_goesOn (Peg.Grammar.plain_goesOn grammar_isRanked.nullable_of_body depth) expr

/-- Matching a text always ends. -/
theorem run_eq_some (start : Nonterminal) (text : Text) :
    ∃ outcome events, grammar.run start text = some (outcome, events) :=
  grammar_isRanked.run_eq_some grammar_hasOwnSites start text

theorem grammar_repeatsAdvance : grammar.RepeatsAdvance Nonterminal.isNullable := by
  intro name rule found
  cases found
  cases name with
  | typeWord type => cases type <;> decide
  | marker label => rfl
  | _ => decide

theorem isExplained_of_run {start : Nonterminal} {text : Text} {outcome : Peg.Outcome}
    {events : List Peg.Event} (result : grammar.run start text = some (outcome, events)) :
    Peg.isExplained events = true :=
  Peg.Grammar.isExplained_of_run grammar_isRanked grammar_hasOwnSites grammar_repeatsAdvance result

end QubitLang.Language
