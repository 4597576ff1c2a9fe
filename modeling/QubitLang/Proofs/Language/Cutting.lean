import QubitLang.Proofs.Language.Locality
import QubitLang.Proofs.Language.Respanning
import QubitLang.Proofs.Render.Lexing

/-! Texts cut out of a text. Where a text is cut in front of one of its lexemes and behind
another, what is in between splits into the lexemes in between, at any offset, with a
semicolon behind it and with a keyword in front. -/

namespace QubitLang

open Lexical QubitLang.Language

/-! ## Shifts -/

def Span.unshift (distance : Nat) (span : Span) : Span where
  start := span.start - distance
  stop := span.stop - distance
  start_le_stop := Nat.sub_le_sub_right span.start_le_stop distance

@[simp] theorem Span.unshift_shift (distance : Nat) (span : Span) :
    (span.shift distance).unshift distance = span :=
  Span.eq_of_offsets (Nat.add_sub_cancel _ _) (Nat.add_sub_cancel _ _)

theorem Span.shift_comm (distance other : Nat) (span : Span) :
    (span.shift distance).shift other = (span.shift other).shift distance :=
  Span.eq_of_offsets (Nat.add_right_comm _ _ _) (Nat.add_right_comm _ _ _)

theorem respans_shift (distance : Nat) : Respans (Span.shift distance) := by
  intro first last
  apply Span.eq_of_offsets
  · rfl
  · exact Nat.add_max_add_right first.start last.stop distance |>.symm

theorem respans_unshift (distance : Nat) : Respans (Span.unshift distance) := by
  intro first last
  apply Span.eq_of_offsets
  · rfl
  · simp [Span.upTo, Span.unshift]
    omega

theorem map_respan_unshift (distance : Nat) (lexemes : List Lexeme) :
    (lexemes.map (Lexeme.respan (Span.shift distance))).map
      (Lexeme.respan (Span.unshift distance)) = lexemes := by
  rw [List.map_map]
  apply List.map_id''
  intro lexeme
  simp [Lexeme.respan]

theorem map_respan_shift_comm (distance other : Nat) (lexemes : List Lexeme) :
    (lexemes.map (Lexeme.respan (Span.shift distance))).map (Lexeme.respan (Span.shift other)) =
      (lexemes.map (Lexeme.respan (Span.shift other))).map
        (Lexeme.respan (Span.shift distance)) := by
  rw [List.map_map, List.map_map]
  apply List.map_congr_left
  intro lexeme _
  simp [Lexeme.respan, Span.shift_comm distance other]

theorem Language.EndsAt.respan {lexemes : List Lexeme} {last : Span} (change : Span → Span)
    (ends : EndsAt lexemes last) : EndsAt (lexemes.map (Lexeme.respan change)) (change last) := by
  induction ends with
  | single lexeme => exact EndsAt.single (lexeme.respan change)
  | cons first _ induction => exact induction.cons (first.respan change)

namespace Splits

variable {offset finish : Nat} {text remainder : Text} {lexemes : List Lexeme}

theorem shift (distance : Nat) (splits : Splits offset text lexemes finish remainder) :
    Splits (offset + distance) text (lexemes.map (Lexeme.respan (Span.shift distance)))
      (finish + distance) remainder := by
  induction splits with
  | gap trivia =>
      rw [Nat.add_right_comm]
      exact .gap trivia
  | lexeme trivia longest start_eq stop_eq later induction =>
      refine .lexeme trivia longest ?_ ?_ induction
      · simp only [Span.shift]
        omega
      · simp only [Span.shift]
        omega

theorem exists_unshift {distance : Nat} (splits : Splits distance text lexemes finish remainder)
    (ends : Scan.token? remainder = none) :
    ∃ part length, Splits 0 text part length remainder ∧
      lexemes = part.map (Lexeme.respan (Span.shift distance)) ∧ finish = length + distance := by
  obtain ⟨part, length, rest, alone, partEnds⟩ := exists_maximal 0 text
  have shifted := alone.shift distance
  rw [Nat.zero_add] at shifted
  obtain ⟨lexemes_eq, finish_eq, rfl⟩ := splits.unique ends shifted partEnds
  exact ⟨part, length, alone, lexemes_eq, finish_eq⟩

end Splits

/-! ## Cuts behind a lexeme -/

theorem Splits.exists_cut_behind {segment after : List Lexeme} {last : Span} {finish : Nat}
    {remainder : Text} (ends : EndsAt segment last) : ∀ {offset : Nat} {text : Text},
      Splits offset text (segment ++ after) finish remainder →
        ∃ piece behind, text = piece ++ behind ∧ Splits offset piece segment last.stop [] := by
  induction ends with
  | single lexeme =>
      intro offset text splits
      cases splits with
      | @lexeme _ _ _ skipped _ rest _ token span _ trivia longest start_eq stop_eq _ =>
          have text_eq : text = skipped ++ token.spelling ++ rest := by
            rw [trivia.text_eq, longest.text_eq, List.append_assoc]
          have behind_eq := longest.text_eq
          subst text_eq behind_eq
          refine ⟨skipped ++ token.spelling, rest, rfl, ?_⟩
          have alone : token.IsLongestAt token.spelling [] :=
            @Token.IsLongestAt.of_append token token.spelling [] rest longest
          exact .lexeme trivia.of_append alone start_eq stop_eq (nil_iff.mpr ⟨rfl, rfl⟩)
  | cons first later induction =>
      intro offset text splits
      cases splits with
      | @lexeme _ _ _ skipped _ rest _ token span _ trivia longest start_eq stop_eq others =>
          obtain ⟨piece, behind, rfl, alone⟩ := induction others
          have text_eq : text = skipped ++ (token.spelling ++ piece) ++ behind := by
            rw [trivia.text_eq, longest.text_eq, List.append_assoc, List.append_assoc]
          have behind_eq := longest.text_eq
          rw [← List.append_assoc] at behind_eq
          subst text_eq behind_eq
          exact ⟨_, behind, rfl,
            .lexeme trivia.of_append longest.of_append start_eq stop_eq alone⟩

/-! ## Separators -/

theorem Lexical.trivia_append_of_ne_nil (more : Text) :
    ∀ {insideComment : Bool} {text : Text}, (trivia insideComment text).2 ≠ [] →
      trivia insideComment (text ++ more) =
        ((trivia insideComment text).1, (trivia insideComment text).2 ++ more)
  | _, [], goesOn => absurd rfl goesOn
  | true, character :: text, goesOn => by
      rw [trivia, if_pos rfl] at goesOn
      have later := trivia_append_of_ne_nil more goesOn
      rw [List.cons_append, trivia, if_pos rfl, later, trivia, if_pos rfl]
  | false, character :: text, goesOn => by
      by_cases skips : (isBlank character || character == '#') = true
      · rw [trivia, if_neg Bool.false_ne_true, if_pos skips] at goesOn
        have later := trivia_append_of_ne_nil more goesOn
        rw [List.cons_append, trivia, if_neg Bool.false_ne_true, if_pos skips, later, trivia,
          if_neg Bool.false_ne_true, if_pos skips]
      · rw [List.cons_append, trivia, if_neg Bool.false_ne_true, if_neg skips, trivia,
          if_neg Bool.false_ne_true, if_neg skips]
        rfl

theorem isLongest_trivia_append {text skipped behind : Text} (nonempty : behind ≠ [])
    (skips : IsLongest isTrivia text skipped behind) (more : Text) :
    IsLongest isTrivia (text ++ more) skipped (behind ++ more) := by
  have skips_eq := isLongest_trivia_iff.mp skips
  have goesOn : (trivia false text).2 ≠ [] := by rwa [skips_eq]
  rw [isLongest_trivia_iff, trivia_append_of_ne_nil more goesOn, skips_eq]

/-- Whether a character is part of no token that begins with another one. -/
def Lexical.separates (character : Char) : Bool := !goesOn character && character != '>'

theorem Token.separator_notMem {token : Token} {separator first : Char} {tail : Text}
    (separated : separates separator = true) (lexical : token.isLexical = true)
    (spelling_eq : token.spelling = first :: tail) : separator ∉ tail := by
  intro member
  rw [separates, Bool.and_eq_true, Bool.not_eq_true', bne_iff_ne] at separated
  by_cases isMark : token.kind? = some .mark
  · cases token with
    | sign mark =>
        have onlyArrow : mark.spelling.toList.tail.all (· == '>') = true := by cases mark <;> rfl
        have tail_eq : mark.spelling.toList.tail = tail := congrArg List.tail spelling_eq
        have isArrow := List.all_eq_true.mp onlyArrow separator (tail_eq ▸ member)
        exact separated.2 (beq_iff_eq.mp isArrow)
    | _ => cases isMark
  · have continues := goesOn_of_mem lexical isMark spelling_eq member
    exact absurd (separated.1.symm.trans continues) Bool.false_ne_true

/-- A token at the head of a text that is not empty lies in front of what separates
tokens behind the text. -/
theorem Token.exists_eq_append_of_separator {token : Token} {text after more : Text}
    {separator : Char} (separated : separates separator = true) (nonempty : text ≠ [])
    (lexical : token.isLexical = true)
    (text_eq : text ++ separator :: more = token.spelling ++ after) :
    ∃ between, text = token.spelling ++ between := by
  rcases List.append_eq_append_iff.mp text_eq with ⟨between, spelling_eq, more_eq⟩ |
    ⟨between, inside, _⟩
  · cases between with
    | nil => exact ⟨[], by rw [spelling_eq, List.append_nil, List.append_nil]⟩
    | cons character between =>
        cases more_eq
        cases text with
        | nil => exact absurd rfl nonempty
        | cons first text =>
            rw [List.cons_append] at spelling_eq
            exact absurd (by simp) (separator_notMem separated lexical spelling_eq)
  · exact ⟨between, inside⟩

theorem Token.IsLongestAt.ne_nil {token : Token} {text rest : Text}
    (longest : token.IsLongestAt text rest) : text ≠ [] := by
  have ⟨first, tail, token_eq, _⟩ := kind?_of_isLexical longest.isLexical
  rw [longest.text_eq, token_eq]
  exact List.cons_ne_nil _ _

/-- The longest token is no longer if something follows that separates tokens. -/
theorem Token.IsLongestAt.append_separator {token : Token} {text rest : Text} {separator : Char}
    (longest : token.IsLongestAt text rest) (separated : separates separator = true) (more : Text) :
    token.IsLongestAt (text ++ separator :: more) (rest ++ separator :: more) where
  isLexical := longest.isLexical
  text_eq := by rw [longest.text_eq, List.append_assoc]
  longest other after lexical text_eq := by
    have ⟨between, inside⟩ := exists_eq_append_of_separator separated longest.ne_nil lexical text_eq
    exact longest.longest other between lexical inside

/-! ## Semicolons -/

def semicolonAt (offset : Nat) : Lexeme :=
  ⟨.sign .semicolon, { start := offset, stop := offset + 1 }⟩

theorem Splits.append_semicolon {segment : List Lexeme} {last : Span} (ends : EndsAt segment last) :
    ∀ {offset : Nat} {text : Text}, Splits offset text segment last.stop [] →
      Splits offset (text ++ [';'])
        (segment ++ [semicolonAt last.stop]) (last.stop + 1) [] := by
  induction ends with
  | single lexeme =>
      intro offset text splits
      cases splits with
      | @lexeme _ _ _ _ _ rest _ _ _ _ trivia longest start_eq stop_eq later =>
          obtain ⟨finish_eq, remainder_eq⟩ := nil_iff.mp later
          have whole := trivia_append false rest
          rw [List.length_eq_zero_iff.mp (Nat.left_eq_add.mp finish_eq), ← remainder_eq] at whole
          subst whole
          refine .lexeme (isLongest_trivia_append longest.ne_nil trivia _)
            (longest.append_separator rfl []) start_eq stop_eq ?_
          exact cons_iff.mpr ⟨rfl, rfl, [], rfl, nil_iff.mpr ⟨rfl, rfl⟩⟩
  | cons first later induction =>
      intro offset text splits
      cases splits with
      | lexeme trivia longest start_eq stop_eq others =>
          exact .lexeme (isLongest_trivia_append longest.ne_nil trivia _)
            (longest.append_separator rfl []) start_eq stop_eq (induction others)

/-! ## Keywords -/

def Keyword.atStart (reserved : Keyword) : Lexeme :=
  ⟨.keyword reserved, { start := 0, stop := reserved.spelling.toList.length }⟩

theorem Splits.keyword (reserved : Keyword) {finish : Nat} {text : Text} {lexemes : List Lexeme}
    (splits : Splits (reserved.spelling.toList.length + 1) text lexemes finish []) :
    Splits 0 (reserved.spelling.toList ++ ' ' :: text) (reserved.atStart :: lexemes) finish
      [] := by
  have longest : (Token.keyword reserved).IsLongestAt (reserved.spelling.toList ++ ' ' :: text)
      (' ' :: text) :=
    Token.isLongestAt_of_endsToken (Scan.isWord_keyword reserved)
      (by simp [Token.keyword, Token.kind?]) rfl
  have trivia_eq := Token.trivia_append longest.isLexical (' ' :: text)
  refine .lexeme (isLongest_trivia_iff.mpr trivia_eq) longest rfl ?_ (splits.blank rfl)
  exact (Nat.zero_add _).symm

end QubitLang
