import Mathlib.Data.List.Forall2
import QubitLang.Proofs.Ast.Tokens
import QubitLang.Proofs.Language.Splitting

/-! How a text that is put together from tokens and blanks splits: into these tokens, if
no word and no number goes on with what is put behind it. -/

namespace QubitLang

open Lexical

/-- A text splits completely into some tokens, and has only blanks between them. -/
inductive Lexes : Text → List Token → Prop where
  | stop : Lexes [] []
  | blank {character : Char} {text : Text} {tokens : List Token}
      (skipped : isBlank character = true) (later : Lexes text tokens) :
      Lexes (character :: text) tokens
  | token {token : Token} {rest : Text} {tokens : List Token}
      (longest : token.IsLongestAt (token.spelling ++ rest) rest) (later : Lexes rest tokens) :
      Lexes (token.spelling ++ rest) (token :: tokens)

/-! ## Splitting -/

theorem Token.trivia_append {token : Token} (lexical : token.isLexical = true) (rest : Text) :
    trivia false (token.spelling ++ rest) = ([], token.spelling ++ rest) := by
  obtain ⟨first, tail, spelling_eq, kind_eq⟩ := kind?_of_isLexical lexical
  have solid : (isBlank first || first == '#') = false := by
    cases skips : isBlank first || first == '#' with
    | false => rfl
    | true =>
        simp only [isBlank, Bool.or_eq_true, beq_iff_eq, or_assoc] at skips
        have mark : TokenKind.ofFirst first = .mark := by
          rcases skips with rfl | rfl | rfl | rfl | rfl <;> decide
        rw [mark] at kind_eq
        cases token with
        | sign mark =>
            have first_eq : mark.spelling.toList.head? = some first :=
              congrArg List.head? spelling_eq
            have never : ∀ (mark : Sign) (character : Char), (character = ' ' ∨ character = '\t' ∨
                character = '\r' ∨ character = '\n' ∨ character = '#') →
                  mark.spelling.toList.head? ≠ some character := by
              rintro mark character (rfl | rfl | rfl | rfl | rfl) <;> cases mark <;> decide
            exact absurd first_eq (never mark first skips)
        | _ => cases kind_eq
  rw [spelling_eq, List.cons_append, trivia, if_neg Bool.false_ne_true,
    if_neg (by simp [solid])]

theorem Splits.blank {offset finish : Nat} {character : Char} {text remainder : Text}
    {lexemes : List Lexeme} (skipped : isBlank character = true)
    (splits : Splits (offset + 1) text lexemes finish remainder) :
    Splits offset (character :: text) lexemes finish remainder := by
  have noComment : (character == '#') = false := by
    cases comment : character == '#' with
    | false => rfl
    | true =>
        rw [beq_iff_eq.mp comment] at skipped
        cases skipped
  have skips : trivia false (character :: text) =
      (character :: (trivia false text).1, (trivia false text).2) := by
    rw [trivia, if_neg Bool.false_ne_true, if_pos (by simp [skipped]), noComment]
  rw [← Splits.skip_iff] at splits ⊢
  rw [skips, List.length_cons, ← Nat.add_assoc, Nat.add_right_comm]
  exact splits

namespace Lexes

variable {text rest : Text} {tokens : List Token}

theorem exists_splits (lexes : Lexes text tokens) : ∀ offset, ∃ lexemes,
    Splits offset text lexemes (offset + text.length) [] ∧
      lexemes.map Lexeme.token = tokens := by
  induction lexes with
  | stop => exact fun offset => ⟨[], Splits.nil_iff.mpr ⟨rfl, rfl⟩, rfl⟩
  | @blank character text tokens skipped _ induction =>
      intro offset
      obtain ⟨lexemes, splits, tokens_eq⟩ := induction (offset + 1)
      refine ⟨lexemes, ?_, tokens_eq⟩
      have finish_eq : offset + (character :: text).length = offset + 1 + text.length := by
        rw [List.length_cons]
        omega
      rw [finish_eq]
      exact splits.blank skipped
  | @token token rest tokens longest _ induction =>
      intro offset
      let span : Span := { start := offset, stop := offset + token.spelling.length }
      obtain ⟨lexemes, splits, tokens_eq⟩ := induction span.stop
      refine ⟨⟨token, span⟩ :: lexemes, ?_, by rw [List.map_cons, tokens_eq]⟩
      rw [List.length_append, ← Nat.add_assoc]
      refine Splits.cons_iff.mpr ⟨?_, rfl, rest, ?_, splits⟩
      · rw [Token.trivia_append longest.isLexical]
        rfl
      · rw [Token.trivia_append longest.isLexical]
        exact Scan.token?_eq_some_iff.mpr longest

end Lexes

/-! ## Ends of tokens -/

def Lexical.goesOn (character : Char) : Bool :=
  isIdentifierContinue character || character.isDigit || character == '.'

def Lexical.endsToken : Text → Bool
  | [] => true
  | first :: _ => !goesOn first

theorem Token.goesOn_of_mem {token : Token} {first character : Char} {tail : Text}
    (lexical : token.isLexical = true) (noSign : token.kind? ≠ some .mark)
    (spelling_eq : token.spelling = first :: tail) (member : character ∈ tail) :
    goesOn character = true := by
  have ofDigits : ∀ {digits : Text}, digits.all Char.isDigit = true → character ∈ digits →
      goesOn character = true := by
    intro digits all inside
    simp [goesOn, List.all_eq_true.mp all character inside]
  cases token with
  | word spelling =>
      obtain rfl : spelling = first :: tail := spelling_eq
      rw [isLexical, isWord, Bool.and_eq_true] at lexical
      simp [goesOn, List.all_eq_true.mp lexical.2 character member]
  | number spelling =>
      obtain rfl : spelling = first :: tail := spelling_eq
      have inside := List.mem_cons_of_mem first member
      rcases isNumber_iff.mp lexical with
        digits | ⟨whole, fraction, text_eq, wholeAll, fractionAll, _⟩
      · exact ofDigits (isDigits_iff.mp digits).2 inside
      · rw [text_eq, List.mem_append, List.mem_cons] at inside
        rcases inside with left | rfl | right
        · exact ofDigits wholeAll left
        · rfl
        · exact ofDigits fractionAll right
  | qubit digits =>
      cases spelling_eq
      exact ofDigits (isDigits_iff.mp lexical).2 member
  | sign mark => exact absurd rfl noSign
  | any label => cases lexical

/-- In front of a text that ends tokens, a token is the longest one. -/
theorem Token.isLongestAt_of_endsToken {token : Token} {rest : Text}
    (lexical : token.isLexical = true) (noSign : token.kind? ≠ some .mark)
    (ends : endsToken rest = true) : token.IsLongestAt (token.spelling ++ rest) rest := by
  refine isLongestAt_of_kind? lexical rfl ?_
  intro other after kind_eq otherLexical text_eq
  rcases List.append_eq_append_iff.mp text_eq with
    ⟨more, spelling_eq, rest_eq⟩ | ⟨_, spelling_eq, _⟩
  · cases more with
    | nil => exact Nat.le_of_eq (by rw [spelling_eq, List.append_nil])
    | cons character more =>
        obtain ⟨first, tail, token_eq, _⟩ := kind?_of_isLexical lexical
        rw [token_eq, List.cons_append] at spelling_eq
        have continues : goesOn character = true := by
          refine goesOn_of_mem otherLexical (kind_eq ▸ noSign) spelling_eq ?_
          exact List.mem_append_right _ List.mem_cons_self
        rw [rest_eq, List.cons_append, endsToken, continues] at ends
        cases ends
  · exact spelling_eq ▸ (List.length_append ▸ Nat.le_add_right _ _)

/-! ## Putting texts together -/

namespace Lexes

variable {rest : Text} {behind : List Token}

theorem solid {token : Token} (lexical : token.isLexical = true)
    (noSign : token.kind? ≠ some .mark) (ends : endsToken rest = true)
    (later : Lexes rest behind) : Lexes (token.spelling ++ rest) (token :: behind) :=
  .token (Token.isLongestAt_of_endsToken lexical noSign ends) later

theorem word {spelling : Text} (isWord : isWord spelling = true) (ends : endsToken rest = true)
    (later : Lexes rest behind) : Lexes (spelling ++ rest) (.word spelling :: behind) :=
  @solid rest behind (.word spelling) isWord (by simp [Token.kind?]) ends later

theorem name {spelling : Text} (isName : isIdentifier spelling = true)
    (ends : endsToken rest = true) (later : Lexes rest behind) :
    Lexes (spelling ++ rest) (.word spelling :: behind) :=
  word (Bool.and_eq_true_iff.mp isName).1 ends later

theorem keyword (reserved : Keyword) (ends : endsToken rest = true) (later : Lexes rest behind) :
    Lexes (reserved.spelling.toList ++ rest) (.keyword reserved :: behind) :=
  word (Scan.isWord_keyword reserved) ends later

theorem typeName (type : BaseType) (ends : endsToken rest = true) (later : Lexes rest behind) :
    Lexes (type.spelling.toList ++ rest) (.typeName type :: behind) :=
  word (Scan.isWord_type type) ends later

theorem sign (mark : Sign) (other : mark ≠ .percent) (later : Lexes rest behind) :
    Lexes (mark.spelling.toList ++ rest) (.sign mark :: behind) :=
  .token (Scan.token?_eq_some_iff.mp (Scan.token?_eq_sign_iff.mpr ⟨other, rfl⟩)) later

theorem mark {character : Char} (mark : Sign)
    (single : mark ≠ .percent ∧ mark.spelling.toList = [character])
    (later : Lexes rest behind) : Lexes (character :: rest) (.sign mark :: behind) := by
  have lexes := sign mark single.1 later
  rwa [single.2] at lexes

theorem blanks (count : Nat) (later : Lexes rest behind) :
    Lexes (List.replicate count ' ' ++ rest) behind := by
  induction count with
  | zero => exact later
  | succ count induction => exact .blank rfl induction

end Lexes

/-! ## Texts of tokens -/

/-- A text splits into some tokens in front of what ends them. -/
def Prints (text : Text) (tokens : List Token) : Prop :=
  ∀ ⦃rest : Text⦄ ⦃behind : List Token⦄, endsToken rest = true → Lexes rest behind →
    Lexes (text ++ rest) (tokens ++ behind)

/-- A text splits into some tokens, whatever stands behind it. -/
def PrintsAnywhere (text : Text) (tokens : List Token) : Prop :=
  ∀ ⦃rest : Text⦄ ⦃behind : List Token⦄, Lexes rest behind →
    Lexes (text ++ rest) (tokens ++ behind)

theorem intercalate_cons {α : Type} (separator first : List α) (others : List (List α)) :
    separator.intercalate (first :: others) =
      first ++ others.flatMap fun other => separator ++ other := by
  induction others generalizing first with
  | nil => simp [List.intercalate]
  | cons second others induction =>
      rw [List.flatMap_cons, List.append_assoc, ← induction second]
      simp [List.intercalate]

theorem Lexes.commaSeparated {texts : List Text} {parts : List (List Token)} {rest : Text}
    {behind : List Token} (each : List.Forall₂ Prints texts parts) (ends : endsToken rest = true)
    (later : Lexes rest behind) :
    Lexes (Text.commaSeparated texts ++ rest) (Token.commaSeparated parts ++ behind) := by
  have others : ∀ {texts : List Text} {parts : List (List Token)},
      List.Forall₂ Prints texts parts →
        endsToken (texts.flatMap ([',', ' '] ++ ·) ++ rest) = true ∧
          Lexes (texts.flatMap ([',', ' '] ++ ·) ++ rest)
            (parts.flatMap ([Token.sign .comma] ++ ·) ++ behind) := by
    intro texts parts each
    induction each with
    | nil => exact ⟨ends, later⟩
    | cons first _ induction =>
        rw [List.flatMap_cons, List.flatMap_cons, List.append_assoc, List.append_assoc,
          List.append_assoc, List.append_assoc]
        exact ⟨rfl, .mark .comma (by decide) (.blank rfl (first induction.1 induction.2))⟩
  cases each with
  | nil => exact later
  | cons first more =>
      rw [Text.commaSeparated, Token.commaSeparated, intercalate_cons, intercalate_cons,
        List.append_assoc, List.append_assoc]
      exact first (others more).1 (others more).2

end QubitLang
