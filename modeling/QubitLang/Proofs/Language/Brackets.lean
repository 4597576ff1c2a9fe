import QubitLang.Proofs.Ast.Depth
import QubitLang.Proofs.Render.Canonical

/-! The brackets of sentences. Every phrase of the grammar closes the brackets that it
opens and no others, so that it leaves the depth as it was and needs the same room at any
depth. -/

namespace QubitLang

/-! ## Brackets of forms -/

/-- How many brackets are open behind a terminal, if so many are open in front of it.
There is no answer if none is left that it could close. -/
def Label.opened : Label → Nat → Option Nat
  | .sign .openParen, count | .sign .openBrace, count => some (count + 1)
  | .sign .closeParen, 0 | .sign .closeBrace, 0 => none
  | .sign .closeParen, count + 1 | .sign .closeBrace, count + 1 => some count
  | _, count => some count

namespace Language

/-- How many brackets are open behind a form, if so many are open in front of it and all
that is called leaves them as they are. There is no answer if it depends on what is chosen
or repeated. -/
def Form.opened : Form → Nat → Option Nat
  | .empty, count | .call _, count => some count
  | .terminal label, count => label.opened count
  | .seq first second, count => (first.opened count).bind second.opened
  | .alt first second, count =>
    if first.opened count = second.opened count then first.opened count else none
  | .star body, count | .opt body, count =>
    if body.opened count = some count then some count else none

theorem Form.opened_star_iff {body : Form} {before after : Nat} :
    (Form.star body).opened before = some after ↔
      body.opened before = some before ∧ before = after := by
  rw [opened, Option.ite_none_right_eq_some, Option.some.injEq]

theorem opened_form (name : Nonterminal) : (form name).opened 0 = some 0 := by
  cases name with
  | typeWord type => rfl
  | marker label => rfl
  | _ => decide

end Language

/-! ## Brackets of tokens -/

/-- Tokens behind which `after` brackets are open in the place of `before` brackets, and
`amount` at their deepest place. -/
structure Moves (tokens : List Token) (before after amount : Nat) : Prop where
  depth_eq : ∀ depth, tokens.foldl Token.depthAfter (depth + before) = depth + after
  within_iff : ∀ limit depth, StaysWithin limit (depth + before) tokens ↔ depth + amount ≤ limit

namespace Moves

variable {token : Token} {tokens more : List Token} {before middle after amount other : Nat}

theorem nil (count : Nat) : Moves [] count count count :=
  ⟨fun _ => rfl, fun _ _ => staysWithin_nil_iff⟩

theorem append (first : Moves tokens before middle amount)
    (second : Moves more middle after other) :
    Moves (tokens ++ more) before after (max amount other) where
  depth_eq depth := by rw [List.foldl_append, first.depth_eq, second.depth_eq]
  within_iff limit depth := by
    rw [staysWithin_append_iff, first.depth_eq, first.within_iff, second.within_iff]
    omega

theorem single (moves : ∀ depth, token.depthAfter (depth + before) = depth + after) :
    Moves [token] before after (max before after) where
  depth_eq := moves
  within_iff limit depth := by
    rw [staysWithin_cons_iff, staysWithin_nil_iff, moves]
    omega

theorem deeper (moves : Moves tokens 0 0 amount) (count : Nat) :
    Moves tokens count count (count + amount) where
  depth_eq depth := moves.depth_eq (depth + count)
  within_iff limit depth := by
    rw [← Nat.add_assoc]
    exact moves.within_iff limit (depth + count)

end Moves

theorem Token.moves_of_reads {token : Token} {label : Label} {before after : Nat}
    (lexical : token.isLexical = true) (reads : token.reads label = true)
    (opened : label.opened before = some after) :
    Moves [token] before after (max before after) := by
  apply Moves.single
  intro depth
  by_cases bracket : label.isBracket = true
  · cases label with
    | sign mark =>
        cases mark with
        | openParen | openBrace =>
            rw [Token.eq_sign_of_reads lexical reads (by decide)]
            cases opened
            rfl
        | closeParen | closeBrace =>
            rw [Token.eq_sign_of_reads lexical reads (by decide)]
            cases before with
            | zero => cases opened
            | succ count =>
                cases opened
                rfl
        | _ => cases bracket
    | _ => cases bracket
  · have flat : label.isBracket = false := by simpa using bracket
    rw [Token.flat_of_reads reads flat]
    cases label with
    | sign mark =>
        cases mark with
        | openParen | openBrace | closeParen | closeBrace => cases flat
        | _ => cases opened; rfl
    | _ => cases opened; rfl

/-! ## Brackets of sentences -/

namespace Language

variable {form : Form} {name : Nonterminal} {tokens : List Token} {before after : Nat}

/-- The tokens that are generated from a form move the brackets as the form does. -/
theorem Generates.exists_moves (generates : Generates form tokens)
    (lexical : ∀ token ∈ tokens, token.isLexical = true)
    (opened : form.opened before = some after) : ∃ amount, Moves tokens before after amount := by
  induction generates generalizing before after with
  | empty =>
      cases opened
      exact ⟨_, .nil before⟩
  | starStop | optNone =>
      cases (Form.opened_star_iff.mp opened).2
      exact ⟨_, .nil before⟩
  | terminal accepted =>
      exact ⟨_, Token.moves_of_reads (lexical _ (List.mem_singleton_self _)) accepted opened⟩
  | call body induction =>
      cases opened
      have ⟨amount, moves⟩ := induction lexical (opened_form _)
      exact ⟨_, moves.deeper before⟩
  | seq _ _ firstInduction secondInduction =>
      have ⟨middle, firstOpened, secondOpened⟩ := Option.bind_eq_some_iff.mp opened
      rw [List.forall_mem_append] at lexical
      have ⟨amount, moves⟩ := firstInduction lexical.1 firstOpened
      have ⟨other, otherMoves⟩ := secondInduction lexical.2 secondOpened
      exact ⟨_, moves.append otherMoves⟩
  | altFirst _ induction =>
      rw [Form.opened, Option.ite_none_right_eq_some] at opened
      exact induction lexical opened.2
  | altSecond _ induction =>
      rw [Form.opened, Option.ite_none_right_eq_some] at opened
      exact induction lexical (opened.1 ▸ opened.2)
  | starStep _ _ firstInduction secondInduction =>
      rw [List.forall_mem_append] at lexical
      have ⟨amount, moves⟩ := firstInduction lexical.1 (Form.opened_star_iff.mp opened).1
      have ⟨other, otherMoves⟩ := secondInduction lexical.2 opened
      exact ⟨_, moves.append otherMoves⟩
  | optSome _ induction =>
      have ⟨same, after_eq⟩ := Form.opened_star_iff.mp opened
      exact induction lexical (after_eq ▸ same)

theorem Generates.exists_deepens (generates : Generates (.call name) tokens)
    (lexical : ∀ token ∈ tokens, token.isLexical = true) : ∃ amount, Deepens tokens amount := by
  have unmoved : (Form.call name).opened 0 = some 0 := rfl
  have ⟨amount, moves⟩ := generates.exists_moves lexical unmoved
  exact ⟨amount, moves.depth_eq, moves.within_iff⟩

end Language

end QubitLang
