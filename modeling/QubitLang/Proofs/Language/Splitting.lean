import QubitLang.Proofs.Language.Scan

/-! A text splits in exactly one way up to the point where no token follows, and
it can be cut before any of its tokens. -/

namespace QubitLang

open Lexical

theorem Span.eq_of_offsets {span other : Span} (start_eq : span.start = other.start)
    (stop_eq : span.stop = other.stop) : span = other := by
  cases span
  cases other
  simp_all

/-! ## Heads of texts -/

theorem Lexical.IsLongest.of_append {belongs : Text → Bool} {text lexeme rest behind : Text}
    (longest : IsLongest belongs (text ++ behind) lexeme (rest ++ behind)) :
    IsLongest belongs text lexeme rest where
  text_eq := by
    have equal := longest.text_eq
    rwa [← List.append_assoc, List.append_cancel_right_eq] at equal
  isMember := longest.isMember
  longest other after text_eq member :=
    longest.longest other (after ++ behind) (by rw [text_eq, List.append_assoc]) member

theorem Token.IsLongestAt.of_append {token : Token} {text rest behind : Text}
    (longest : token.IsLongestAt (text ++ behind) (rest ++ behind)) :
    token.IsLongestAt text rest where
  isLexical := longest.isLexical
  text_eq := by
    have equal := longest.text_eq
    rwa [← List.append_assoc, List.append_cancel_right_eq] at equal
  longest other after lexical text_eq :=
    longest.longest other (after ++ behind) lexical (by rw [text_eq, List.append_assoc])

/-- Where a sequence of lexemes begins; an empty one begins where the text that
was split ends. -/
def Lexeme.startOf (finish : Nat) : List Lexeme → Nat
  | [] => finish
  | first :: _ => first.span.start

namespace Splits

variable {offset finish finish' : Nat} {text remainder remainder' : Text}
  {lexemes lexemes' : List Lexeme} {first : Lexeme}

/-! ## One step -/

theorem nil_iff : Splits offset text [] finish remainder ↔
    finish = offset + (trivia false text).1.length ∧ remainder = (trivia false text).2 := by
  constructor
  · rintro ⟨skips⟩
    rw [isLongest_trivia_iff.mp skips]
    exact ⟨rfl, rfl⟩
  · rintro ⟨rfl, rfl⟩
    exact .gap (trivia_isLongest text)

theorem cons_iff : Splits offset text (first :: lexemes) finish remainder ↔
    first.span.start = offset + (trivia false text).1.length ∧
      first.span.stop = first.span.start + first.token.spelling.length ∧
      ∃ rest, Scan.token? (trivia false text).2 = some (first.token, rest) ∧
        Splits first.span.stop rest lexemes finish remainder := by
  constructor
  · intro split
    cases split with
    | lexeme skips longest start_eq stop_eq later =>
        rw [isLongest_trivia_iff.mp skips]
        exact ⟨start_eq, stop_eq, _, Scan.token?_eq_some_iff.mpr longest, later⟩
  · rintro ⟨start_eq, stop_eq, rest, found, later⟩
    exact .lexeme (trivia_isLongest text) (Scan.token?_eq_some_iff.mp found) start_eq
      stop_eq later

theorem skip_iff : Splits (offset + (trivia false text).1.length) (trivia false text).2
    lexemes finish remainder ↔ Splits offset text lexemes finish remainder := by
  have again := trivia_of_rest false text
  cases lexemes with
  | nil => simp [nil_iff, again]
  | cons first lexemes => simp [cons_iff, again]

theorem startOf_eq (split : Splits offset text lexemes finish remainder)
    (aligned : (trivia false text).1 = []) : Lexeme.startOf finish lexemes = offset := by
  cases lexemes with
  | nil => simp [Lexeme.startOf, (nil_iff.mp split).1, aligned]
  | cons first lexemes => simp [Lexeme.startOf, (cons_iff.mp split).1, aligned]

/-! ## Existence and uniqueness -/

theorem exists_maximal (offset : Nat) (text : Text) : ∃ lexemes finish remainder,
    Splits offset text lexemes finish remainder ∧ Scan.token? remainder = none := by
  cases found : Scan.token? (trivia false text).2 with
  | none => exact ⟨[], _, _, nil_iff.mpr ⟨rfl, rfl⟩, found⟩
  | some result =>
      obtain ⟨token, rest⟩ := result
      have longest := Scan.isLongestAt_of_token? found
      have shorter : rest.length < text.length := by
        obtain ⟨head, tail, spelling_eq, _⟩ := Token.kind?_of_isLexical longest.isLexical
        have lengths := congrArg List.length longest.text_eq
        have whole := congrArg List.length (trivia_append false text)
        rw [spelling_eq] at lengths
        simp only [List.length_append, List.length_cons] at lengths whole
        omega
      let start := offset + (trivia false text).1.length
      let span : Span := { start, stop := start + token.spelling.length }
      obtain ⟨lexemes, finish, remainder, later, ends⟩ := exists_maximal span.stop rest
      exact ⟨⟨token, span⟩ :: lexemes, finish, remainder,
        cons_iff.mpr ⟨rfl, rfl, rest, found, later⟩, ends⟩
termination_by text.length

/-- A split that goes on as long as there are tokens is the only one. -/
theorem unique : ∀ {lexemes lexemes' : List Lexeme} {offset : Nat} {text : Text},
    Splits offset text lexemes finish remainder → Scan.token? remainder = none →
      Splits offset text lexemes' finish' remainder' → Scan.token? remainder' = none →
        lexemes = lexemes' ∧ finish = finish' ∧ remainder = remainder'
  | [], [], _, _, left, _, right, _ => by
      obtain ⟨rfl, rfl⟩ := nil_iff.mp left
      obtain ⟨rfl, rfl⟩ := nil_iff.mp right
      exact ⟨rfl, rfl, rfl⟩
  | [], _ :: _, _, _, left, ends, right, _ => by
      obtain ⟨_, rfl⟩ := nil_iff.mp left
      obtain ⟨_, _, _, found, _⟩ := cons_iff.mp right
      rw [ends] at found
      cases found
  | _ :: _, [], _, _, left, _, right, ends => by
      obtain ⟨_, rfl⟩ := nil_iff.mp right
      obtain ⟨_, _, _, found, _⟩ := cons_iff.mp left
      rw [ends] at found
      cases found
  | first :: lexemes, other :: lexemes', _, _, left, leftEnds, right, rightEnds => by
      obtain ⟨start_eq, stop_eq, rest, found, later⟩ := cons_iff.mp left
      obtain ⟨otherStart_eq, otherStop_eq, after, otherFound, otherLater⟩ := cons_iff.mp right
      have token_eq : first.token = other.token ∧ rest = after := by
        rw [found] at otherFound
        simpa using otherFound
      have span_eq : first.span = other.span := by
        have start : first.span.start = other.span.start := start_eq.trans otherStart_eq.symm
        have stop : first.span.stop = other.span.stop := by
          rw [stop_eq, otherStop_eq, start, token_eq.1]
        exact Span.eq_of_offsets start stop
      rw [← token_eq.2, ← span_eq] at otherLater
      obtain ⟨lexemes_eq, rest_eq⟩ := unique later leftEnds otherLater rightEnds
      refine ⟨?_, rest_eq⟩
      rw [lexemes_eq, List.cons.injEq, Lexeme.mk.injEq]
      exact ⟨⟨token_eq.1, span_eq⟩, rfl⟩

/-! ## Offsets -/

theorem exists_eq_append (split : Splits offset text lexemes finish remainder) :
    ∃ consumed, text = consumed ++ remainder ∧ finish = offset + consumed.length := by
  induction split with
  | gap trivia => exact ⟨_, trivia.text_eq, rfl⟩
  | lexeme trivia longest start_eq stop_eq later induction =>
      rename_i skipped _ _ _ token _ _
      obtain ⟨consumed, rfl, rfl⟩ := induction
      refine ⟨skipped ++ token.spelling ++ consumed, ?_, ?_⟩
      · rw [trivia.text_eq, longest.text_eq]
        simp
      · rw [stop_eq, start_eq]
        simp only [List.length_append]
        omega

theorem isLexical (split : Splits offset text lexemes finish remainder) :
    ∀ lexeme ∈ lexemes, lexeme.token.isLexical = true := by
  induction split with
  | gap _ => exact fun _ member => absurd member List.not_mem_nil
  | lexeme _ longest _ _ _ induction =>
      intro lexeme member
      rcases List.mem_cons.mp member with rfl | later
      · exact longest.isLexical
      · exact induction lexeme later

theorem splitsInto {source : Text} (split : Splits 0 source lexemes finish []) :
    finish = source.length ∧ SplitsInto source lexemes := by
  obtain ⟨consumed, source_eq, finish_eq⟩ := split.exists_eq_append
  have length_eq : finish = source.length := by
    rw [source_eq, finish_eq, List.append_nil, Nat.zero_add]
  rw [length_eq] at split
  exact ⟨length_eq, split⟩

theorem offset_le (split : Splits offset text lexemes finish remainder) : offset ≤ finish := by
  obtain ⟨_, _, rfl⟩ := split.exists_eq_append
  exact Nat.le_add_right _ _

theorem spelling_pos (split : Splits offset text (first :: lexemes) finish remainder) :
    first.span.start < first.span.stop := by
  obtain ⟨_, stop_eq, rest, found, _⟩ := cons_iff.mp split
  obtain ⟨head, tail, spelling_eq, _⟩ :=
    Token.kind?_of_isLexical (Scan.isLongestAt_of_token? found).isLexical
  rw [stop_eq, spelling_eq, List.length_cons]
  omega

theorem offset_le_startOf (split : Splits offset text lexemes finish remainder) :
    offset ≤ Lexeme.startOf finish lexemes := by
  cases lexemes with
  | nil => exact split.offset_le
  | cons first lexemes =>
      have start_eq := (cons_iff.mp split).1
      simp only [Lexeme.startOf]
      omega

theorem startOf_lt_startOf : ∀ {lexemes before after : List Lexeme} {offset : Nat}
    {text : Text}, Splits offset text lexemes finish remainder →
      lexemes = before ++ after → before ≠ [] →
        Lexeme.startOf finish lexemes < Lexeme.startOf finish after
  | _, [], _, _, _, _, _, nonempty => absurd rfl nonempty
  | _, first :: before, after, _, _, split, rfl, _ => by
      have first_lt := split.spelling_pos
      obtain ⟨_, _, rest, _, later⟩ := cons_iff.mp split
      have next_le := later.offset_le_startOf
      change first.span.start < _
      cases before with
      | nil => exact Nat.lt_of_lt_of_le first_lt next_le
      | cons second before =>
          have further := startOf_lt_startOf later rfl (List.cons_ne_nil second before)
          exact Nat.lt_trans (Nat.lt_of_lt_of_le first_lt next_le) further

/-! ## Cuts -/

theorem exists_cut : ∀ {before after : List Lexeme} {offset : Nat} {text : Text},
    Splits offset text (before ++ after) finish remainder →
      ∃ middle, Splits offset text before (Lexeme.startOf finish after) middle ∧
        (trivia false middle).1 = [] ∧
        Splits (Lexeme.startOf finish after) middle after finish remainder
  | [], after, offset, text, split => by
      have again := trivia_of_rest false text
      have skipped := skip_iff.mpr split
      have start_eq : Lexeme.startOf finish after = _ := skipped.startOf_eq (by rw [again])
      refine ⟨(trivia false text).2, ?_, by rw [again], ?_⟩
      · rw [start_eq]
        exact nil_iff.mpr ⟨rfl, rfl⟩
      · rw [start_eq]
        exact skipped
  | first :: before, after, offset, text, split => by
      obtain ⟨start_eq, stop_eq, rest, found, later⟩ := cons_iff.mp split
      obtain ⟨middle, left, aligned, right⟩ := exists_cut later
      exact ⟨middle, cons_iff.mpr ⟨start_eq, stop_eq, rest, found, left⟩, aligned, right⟩

/-- What comes later does not begin before, and at the same offset only if it is the
same. -/
theorem startOf_le_startOf {before between after : List Lexeme}
    (split : Splits offset text (before ++ (between ++ after)) finish remainder) :
    Lexeme.startOf finish (between ++ after) ≤ Lexeme.startOf finish after ∧
      (Lexeme.startOf finish (between ++ after) = Lexeme.startOf finish after → between = []) := by
  obtain ⟨middle, _, _, later⟩ := exists_cut split
  by_cases nonempty : between = []
  · rw [nonempty, List.nil_append]
    exact ⟨Nat.le_refl _, fun _ => rfl⟩
  · have earlier := later.startOf_lt_startOf rfl nonempty
    exact ⟨Nat.le_of_lt earlier, fun equal => absurd equal (Nat.ne_of_lt earlier)⟩

theorem of_append {behind : Text} (split : Splits offset text lexemes finish remainder) :
    ∀ {start rest : Text}, text = start ++ behind → remainder = rest ++ behind →
      Splits offset start lexemes finish rest := by
  induction split with
  | gap trivia =>
      rintro start rest rfl rfl
      exact .gap trivia.of_append
  | lexeme trivia longest start_eq stop_eq later induction =>
      rintro start rest rfl rfl
      obtain ⟨consumed, rest_eq, _⟩ := later.exists_eq_append
      rw [← List.append_assoc] at rest_eq
      have behind_eq := longest.text_eq
      rw [rest_eq, ← List.append_assoc] at behind_eq
      subst behind_eq rest_eq
      exact .lexeme trivia.of_append longest.of_append start_eq stop_eq (induction rfl rfl)

/-- A source text cut before one of its lexemes: the text in front splits
completely into the lexemes in front. -/
theorem take {source : Text} {before after : List Lexeme}
    (split : Splits 0 source (before ++ after) finish remainder) :
    Splits 0 source before (Lexeme.startOf finish after)
        (source.drop (Lexeme.startOf finish after)) ∧
      Splits 0 (source.take (Lexeme.startOf finish after)) before
        (Lexeme.startOf finish after) [] := by
  obtain ⟨middle, left, _, _⟩ := exists_cut split
  obtain ⟨consumed, rfl, start_eq⟩ := left.exists_eq_append
  rw [Nat.zero_add] at start_eq
  rw [start_eq] at left ⊢
  rw [List.drop_left, List.take_left]
  exact ⟨left, left.of_append rfl rfl⟩

end Splits

end QubitLang
