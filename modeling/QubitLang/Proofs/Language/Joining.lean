import QubitLang.Proofs.Language.Cutting

/-! Texts joined by a line end. A line end closes a comment and separates tokens, so that
each of the two texts splits as it does on its own. -/

namespace QubitLang

open Lexical

/-! ## Trivia in front of a line end -/

/-- If a text is skipped up to its end, a line end and the trivia behind it are skipped
too, even if the text ends inside a comment. -/
theorem Lexical.trivia_append_line (more : Text) :
    ∀ {insideComment : Bool} {text : Text}, (trivia insideComment text).2 = [] →
      trivia insideComment (text ++ '\n' :: more) =
        (text ++ '\n' :: (trivia false more).1, (trivia false more).2)
  | true, [], _ => rfl
  | false, [], _ => rfl
  | true, character :: text, skipped => by
      rw [trivia, if_pos rfl] at skipped
      rw [List.cons_append, trivia, if_pos rfl, trivia_append_line more skipped]
      rfl
  | false, character :: text, skipped => by
      rw [trivia, if_neg Bool.false_ne_true] at skipped
      by_cases skips : (isBlank character || character == '#') = true
      · rw [if_pos skips] at skipped
        rw [List.cons_append, trivia, if_neg Bool.false_ne_true, if_pos skips,
          trivia_append_line more skipped]
        rfl
      · rw [if_neg skips] at skipped
        cases skipped

/-! ## Lexemes on both sides of a line end -/

theorem Scan.token?_append_line {text : Text} (missing : token? text = none)
    (nonempty : text ≠ []) (more : Text) : token? (text ++ '\n' :: more) = none := by
  cases found : token? (text ++ '\n' :: more) with
  | none => rfl
  | some result =>
      have longest := isLongestAt_of_token? found
      have ⟨between, text_eq⟩ := Token.exists_eq_append_of_separator rfl nonempty
        longest.isLexical longest.text_eq
      exact absurd text_eq (ne_append_of_token?_eq_none missing longest.isLexical)

namespace Splits

variable {offset finish last : Nat} {text more remainder : Text} {lexemes others : List Lexeme}

theorem append_line (splits : Splits offset text lexemes finish [])
    (later : Splits (finish + 1) more others last remainder) :
    Splits offset (text ++ '\n' :: more) (lexemes ++ others) last remainder := by
  generalize behind_eq : ([] : Text) = behind at splits
  induction splits with
  | @gap offset text skipped behind skips =>
      subst behind_eq
      have skips_eq := isLongest_trivia_iff.mp skips
      have whole := trivia_append false text
      rw [skips_eq, List.append_nil] at whole
      have further := trivia_append_line more (congrArg Prod.snd skips_eq)
      rw [List.nil_append, ← skip_iff, further]
      rw [← skip_iff] at later
      rw [List.length_append, List.length_cons, ← whole]
      convert later using 1
      simp only
      omega
  | lexeme skips longest start_eq stop_eq _ induction =>
      exact .lexeme (isLongest_trivia_append longest.ne_nil skips _)
        (longest.append_separator rfl more) start_eq stop_eq (induction later behind_eq)

/-- In a text that does not split up to its end, a line end behind it changes nothing. -/
theorem append_line_of_ne_nil (splits : Splits offset text lexemes finish remainder)
    (nonempty : remainder ≠ []) (more : Text) :
    Splits offset (text ++ '\n' :: more) lexemes finish (remainder ++ '\n' :: more) := by
  induction splits with
  | gap skips => exact .gap (isLongest_trivia_append nonempty skips _)
  | lexeme skips longest start_eq stop_eq _ induction =>
      exact .lexeme (isLongest_trivia_append longest.ne_nil skips _)
        (longest.append_separator rfl more) start_eq stop_eq (induction nonempty)

end Splits

end QubitLang
