import QubitLang.Peg.Value

/-! What a lexical class or a terminal splits off is the head of the text, and
what remains is all that follows it. -/

namespace QubitLang

namespace Lexical

variable {text lexeme rest : Text}

theorem afterPrefix?_eq_some_iff :
    ∀ {spelling text rest : Text},
      afterPrefix? spelling text = some rest ↔ text = spelling ++ rest
  | [], text, rest => by simp [afterPrefix?]
  | _ :: _, [], _ => by simp [afterPrefix?]
  | expected :: spelling, actual :: text, rest => by
      by_cases equal : expected = actual
      · subst equal
        simp [afterPrefix?, afterPrefix?_eq_some_iff]
      · simp [afterPrefix?, equal, Ne.symm equal]

theorem digits?_eq_some_iff :
    digits? text = some (lexeme, rest) ↔
      text.takeWhile Char.isDigit = lexeme ∧ text.dropWhile Char.isDigit = rest ∧
        lexeme ≠ [] := by
  simp only [digits?]
  split
  · rename_i empty
    constructor
    · intro found
      cases found
    · rintro ⟨rfl, _, nonempty⟩
      exact absurd (List.isEmpty_iff.mp empty) nonempty
  · rename_i nonempty
    constructor
    · intro found
      cases found
      exact ⟨rfl, rfl, fun empty => nonempty (List.isEmpty_iff.mpr empty)⟩
    · rintro ⟨rfl, rfl, _⟩
      rfl

theorem eq_append_of_digits? (found : digits? text = some (lexeme, rest)) :
    text = lexeme ++ rest := by
  obtain ⟨rfl, rfl, _⟩ := digits?_eq_some_iff.mp found
  exact List.takeWhile_append_dropWhile.symm

theorem eq_append_of_number? (found : number? text = some (lexeme, rest)) :
    text = lexeme ++ rest := by
  unfold number? at found
  split at found
  · rename_i whole after wholeFound
    cases found
    have split := eq_append_of_digits? wholeFound
    simpa [List.takeWhile_append_dropWhile] using split
  · rename_i wholeFound
    cases found
    exact eq_append_of_digits? wholeFound
  · split at found
    · split at found
      · rename_i fractionFound
        cases found
        rw [eq_append_of_digits? fractionFound, List.cons_append]
      · cases found
    · cases found

theorem trivia_append : ∀ (insideComment : Bool) (text : Text),
    (trivia insideComment text).1 ++ (trivia insideComment text).2 = text
  | _, [] => rfl
  | insideComment, character :: rest => by
      unfold trivia
      split
      · simpa using trivia_append _ rest
      · split
        · simpa using trivia_append _ rest
        · rfl

theorem eq_append_of_word? (found : word? text = some (lexeme, rest)) :
    text = lexeme ++ rest := by
  unfold word? at found
  split at found
  · cases found
  · split at found
    · cases found
      simp [List.takeWhile_append_dropWhile]
    · cases found

theorem eq_append_of_wordContinue? (found : wordContinue? text = some (lexeme, rest)) :
    text = lexeme ++ rest := by
  unfold wordContinue? at found
  split at found
  · cases found
  · split at found
    · cases found
      rfl
    · cases found

theorem eq_append_of_reserved? (found : reserved? text = some (lexeme, rest)) :
    text = lexeme ++ rest := by
  obtain ⟨keyword, _, matched⟩ := List.exists_of_findSome?_eq_some found
  unfold keyword? at matched
  split at matched
  · cases matched
  · rename_i after afterFound
    split at matched
    · cases matched
    · cases matched
      exact afterPrefix?_eq_some_iff.mp afterFound

theorem Shape.eq_append_of_split? {shape : Shape}
    (found : shape.split? text = some (lexeme, rest)) : text = lexeme ++ rest := by
  cases shape with
  | number => exact eq_append_of_number? found
  | digits => exact eq_append_of_digits? found
  | trivia =>
      have equal : Lexical.trivia false text = (lexeme, rest) := Option.some.inj found
      rw [← trivia_append false text, equal]
  | identifier => exact eq_append_of_word? found
  | wordContinue => exact eq_append_of_wordContinue? found
  | reserved => exact eq_append_of_reserved? found

/-! ## Lexemes that are not empty -/

theorem ne_nil_of_digits? (found : digits? text = some (lexeme, rest)) : lexeme ≠ [] :=
  (digits?_eq_some_iff.mp found).2.2

theorem ne_nil_of_number? (found : number? text = some (lexeme, rest)) : lexeme ≠ [] := by
  unfold number? at found
  split at found
  · cases found
    simp
  · rename_i wholeFound
    cases found
    exact ne_nil_of_digits? wholeFound
  · split at found
    · split at found
      · cases found
        simp
      · cases found
    · cases found

theorem ne_nil_of_word? (found : word? text = some (lexeme, rest)) : lexeme ≠ [] := by
  unfold word? at found
  split at found
  · cases found
  · split at found
    · cases found
      simp
    · cases found

theorem ne_nil_of_wordContinue? (found : wordContinue? text = some (lexeme, rest)) :
    lexeme ≠ [] := by
  unfold wordContinue? at found
  split at found
  · cases found
  · split at found
    · cases found
      simp
    · cases found

theorem ne_nil_of_reserved? (found : reserved? text = some (lexeme, rest)) :
    lexeme ≠ [] := by
  obtain ⟨keyword, _, matched⟩ := List.exists_of_findSome?_eq_some found
  unfold keyword? at matched
  split at matched
  · cases matched
  · split at matched
    · cases matched
    · cases matched
      cases keyword <;> decide

theorem Shape.ne_nil_of_split? {shape : Shape} (other : shape ≠ .trivia)
    (found : shape.split? text = some (lexeme, rest)) : lexeme ≠ [] := by
  cases shape with
  | number => exact ne_nil_of_number? found
  | digits => exact ne_nil_of_digits? found
  | trivia => exact absurd rfl other
  | identifier => exact ne_nil_of_word? found
  | wordContinue => exact ne_nil_of_wordContinue? found
  | reserved => exact ne_nil_of_reserved? found

/-! ## Patterns -/

namespace Pattern

def isNullable : Pattern → Bool
  | .empty | .star _ | .notAhead _ => true
  | .one _ => false
  | .seq first second => first.isNullable && second.isNullable
  | .alt first second => first.isNullable || second.isNullable

theorem mem_lengths_seq {first second : Pattern} {length : Nat} :
    length ∈ (seq first second).lengths text ↔
      ∃ early ∈ first.lengths text, ∃ late ∈ second.lengths (text.drop early),
        early + late = length := by
  simp only [lengths, List.mem_flatMap, List.mem_map]

theorem le_of_mem_iterated {lengths : Text → List Nat}
    (bounded : ∀ text, ∀ length ∈ lengths text, length ≤ text.length) :
    ∀ bound text, ∀ length ∈ iterated lengths bound text, length ≤ text.length
  | 0, text, length, member => by
      rw [iterated, List.mem_singleton] at member
      omega
  | bound + 1, text, length, member => by
      rw [iterated, List.mem_append, List.mem_flatMap, List.mem_singleton] at member
      rcases member with ⟨early, first, more⟩ | rfl
      · obtain ⟨late, second, rfl⟩ := List.mem_map.mp more
        have early_le := bounded text early first
        have late_le := le_of_mem_iterated bounded bound _ late second
        rw [List.length_drop] at late_le
        omega
      · exact Nat.zero_le _

theorem le_of_mem_lengths (pattern : Pattern) :
    ∀ text, ∀ length ∈ pattern.lengths text, length ≤ text.length := by
  induction pattern with
  | empty =>
      intro text length member
      rw [lengths, List.mem_singleton] at member
      omega
  | one accepts =>
      intro text length member
      cases text with
      | nil => cases member
      | cons first rest =>
          rw [lengths] at member
          split at member <;> simp_all
  | seq first second firstBounded secondBounded =>
      intro text length member
      obtain ⟨early, earlier, late, later, rfl⟩ := mem_lengths_seq.mp member
      have early_le := firstBounded text early earlier
      have late_le := secondBounded _ late later
      rw [List.length_drop] at late_le
      omega
  | alt first second firstBounded secondBounded =>
      intro text length member
      rcases List.mem_append.mp member with left | right
      · exact firstBounded text length left
      · exact secondBounded text length right
  | star body bounded =>
      exact fun text length member => le_of_mem_iterated bounded text.length text length member
  | notAhead body _ =>
      intro text length member
      rw [lengths] at member
      split at member <;> simp_all

theorem pos_of_mem_lengths {pattern : Pattern} (consumes : pattern.isNullable = false) :
    ∀ {text : Text} {length : Nat}, length ∈ pattern.lengths text → 0 < length := by
  induction pattern with
  | empty | star _ _ | notAhead _ _ => cases consumes
  | one accepts =>
      intro text length member
      cases text with
      | nil => cases member
      | cons first rest =>
          rw [lengths] at member
          split at member <;> simp_all
  | seq first second firstPos secondPos =>
      intro text length member
      obtain ⟨early, earlier, late, later, rfl⟩ := mem_lengths_seq.mp member
      rcases Bool.and_eq_false_iff.mp consumes with consumes | consumes
      · exact Nat.add_pos_left (firstPos consumes earlier) late
      · exact Nat.add_pos_right early (secondPos consumes later)
  | alt first second firstPos secondPos =>
      intro text length member
      have ⟨firstConsumes, secondConsumes⟩ := Bool.or_eq_false_iff.mp consumes
      rcases List.mem_append.mp member with left | right
      · exact firstPos firstConsumes left
      · exact secondPos secondConsumes right

variable {pattern : Pattern} {text lexeme rest : Text}

theorem exists_of_split? (found : pattern.split? text = some (lexeme, rest)) :
    ∃ length ∈ pattern.lengths text, lexeme = text.take length ∧ rest = text.drop length := by
  obtain ⟨length, head, equal⟩ := Option.map_eq_some_iff.mp found
  rw [List.splitAt_eq, Prod.mk.injEq] at equal
  exact ⟨length, List.mem_of_head? head, equal.1.symm, equal.2.symm⟩

theorem eq_append_of_split? (found : pattern.split? text = some (lexeme, rest)) :
    text = lexeme ++ rest := by
  obtain ⟨length, _, rfl, rfl⟩ := exists_of_split? found
  exact (List.take_append_drop length text).symm

theorem ne_nil_of_split? (consumes : pattern.isNullable = false)
    (found : pattern.split? text = some (lexeme, rest)) : lexeme ≠ [] := by
  obtain ⟨length, member, rfl, rfl⟩ := exists_of_split? found
  have positive := pos_of_mem_lengths consumes member
  have le := le_of_mem_lengths pattern text length member
  apply List.ne_nil_of_length_pos
  rw [List.length_take]
  omega

end Pattern

end Lexical

namespace Peg

/-! ## Terminals -/

def Terminal.isNullable : Terminal → Bool
  | .literal text => text.isEmpty
  | .oneOf _ _ | .anyCharacter => false
  | .shape kind => kind == .trivia
  | .regex expression => expression.pattern.isNullable

variable {terminal : Terminal} {text lexeme rest : Text}

theorem Terminal.eq_append_of_split? (found : terminal.split? text = some (lexeme, rest)) :
    text = lexeme ++ rest := by
  unfold Terminal.split? at found
  split at found
  · obtain ⟨after, afterFound, equal⟩ := Option.map_eq_some_iff.mp found
    cases equal
    exact Lexical.afterPrefix?_eq_some_iff.mp afterFound
  · split at found
    · cases found
      rfl
    · cases found
  · cases found
  · cases found
    rfl
  · cases found
  · exact Lexical.Shape.eq_append_of_split? found
  · exact Lexical.Pattern.eq_append_of_split? found

theorem Terminal.ne_nil_of_split? (consumes : terminal.isNullable = false)
    (found : terminal.split? text = some (lexeme, rest)) : lexeme ≠ [] := by
  unfold Terminal.split? at found
  split at found
  · obtain ⟨after, _, equal⟩ := Option.map_eq_some_iff.mp found
    cases equal
    simpa [Terminal.isNullable] using consumes
  · split at found
    · cases found
      simp
    · cases found
  · cases found
  · cases found
    simp
  · cases found
  · exact Lexical.Shape.ne_nil_of_split? (by simpa [Terminal.isNullable] using consumes)
      found
  · exact Lexical.Pattern.ne_nil_of_split? consumes found

/-! ## Cursors in a text -/

def Cursor.at (text : Text) (offset : Nat) : Cursor := ⟨offset, text.drop offset⟩

def Cursor.IsIn (cursor : Cursor) (text : Text) : Prop :=
  cursor.rest = text.drop cursor.offset

theorem Cursor.isIn_start (text : Text) : (Cursor.start text).IsIn text := rfl

theorem Cursor.IsIn.eq_at {cursor : Cursor} (isIn : cursor.IsIn text) :
    cursor = Cursor.at text cursor.offset := by
  cases cursor
  simp_all [IsIn, Cursor.at]

theorem Terminal.isIn_of_advance? {cursor next : Cursor} (isIn : cursor.IsIn text)
    (found : terminal.advance? cursor = some next) : next.IsIn text := by
  obtain ⟨⟨lexeme, rest⟩, split, equal⟩ := Option.map_eq_some_iff.mp found
  cases equal
  have parts := Terminal.eq_append_of_split? split
  change rest = text.drop (cursor.offset + lexeme.length)
  rw [← List.drop_drop, ← isIn, parts, List.drop_left]

/-- A terminal never goes back, and goes on unless it can match nothing. -/
theorem Terminal.length_of_advance? {cursor next : Cursor}
    (found : terminal.advance? cursor = some next) :
    next.rest.length ≤ cursor.rest.length ∧
      (terminal.isNullable = false → next.rest.length < cursor.rest.length) := by
  obtain ⟨⟨lexeme, rest⟩, split, equal⟩ := Option.map_eq_some_iff.mp found
  cases equal
  have parts := congrArg List.length (Terminal.eq_append_of_split? split)
  rw [List.length_append] at parts
  refine ⟨by simp only; omega, fun consumes => ?_⟩
  have positive := List.length_pos_iff.mpr (Terminal.ne_nil_of_split? consumes split)
  change rest.length < cursor.rest.length
  omega

end Peg

end QubitLang
