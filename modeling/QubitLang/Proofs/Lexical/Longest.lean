import QubitLang.Proofs.Lexical.Split
import Mathlib.Data.List.TakeWhile

/-! What the lexical functions split off is the longest head of the text that
belongs to the class. -/

namespace QubitLang.Lexical

/-- Whether a lexeme is the longest head of a text that belongs to a class. -/
structure IsLongest (belongs : Text → Bool) (text lexeme rest : Text) : Prop where
  text_eq : text = lexeme ++ rest
  isMember : belongs lexeme = true
  longest : ∀ other after, text = other ++ after → belongs other = true →
    other.length ≤ lexeme.length

theorem IsLongest.unique {belongs : Text → Bool} {text lexeme rest lexeme' rest' : Text}
    (left : IsLongest belongs text lexeme rest)
    (right : IsLongest belongs text lexeme' rest') : lexeme = lexeme' ∧ rest = rest' := by
  have sameLength : lexeme.length = lexeme'.length :=
    Nat.le_antisymm (right.longest _ _ left.text_eq left.isMember)
      (left.longest _ _ right.text_eq right.isMember)
  exact List.append_inj (left.text_eq.symm.trans right.text_eq) sameLength

theorem length_le_takeWhile {keeps : Char → Bool} {text other after : Text}
    (text_eq : text = other ++ after) (all : other.all keeps = true) :
    other.length ≤ (text.takeWhile keeps).length := by
  rw [text_eq, List.takeWhile_append_of_pos (List.all_eq_true.mp all)]
  simp

/-! ## Digits -/

variable {text lexeme rest other after : Text}

theorem isDigits_iff : isDigits text = true ↔ text ≠ [] ∧ text.all Char.isDigit = true := by
  simp [isDigits]

theorem all_takeWhile (keeps : Char → Bool) (text : Text) :
    (text.takeWhile keeps).all keeps = true := by
  simp [List.all_takeWhile]

theorem digits?_isLongest (found : digits? text = some (lexeme, rest)) :
    IsLongest isDigits text lexeme rest := by
  obtain ⟨rfl, rfl, nonempty⟩ := digits?_eq_some_iff.mp found
  refine ⟨List.takeWhile_append_dropWhile.symm, ?_, ?_⟩
  · exact isDigits_iff.mpr ⟨nonempty, all_takeWhile _ _⟩
  · intro other after text_eq member
    exact length_le_takeWhile text_eq (isDigits_iff.mp member).2

theorem not_isDigits_of_digits?_eq_none (missing : digits? text = none)
    (text_eq : text = other ++ after) : isDigits other = false := by
  cases member : isDigits other with
  | false => rfl
  | true =>
      obtain ⟨nonempty, all⟩ := isDigits_iff.mp member
      have long := length_le_takeWhile text_eq all
      have some : digits? text = some (text.takeWhile Char.isDigit,
          text.dropWhile Char.isDigit) := by
        refine digits?_eq_some_iff.mpr ⟨rfl, rfl, fun empty => nonempty ?_⟩
        rw [empty] at long
        exact List.length_eq_zero_iff.mp (Nat.le_zero.mp long)
      rw [some] at missing
      cases missing

/-! ## Words -/

theorem word?_isLongest (found : word? text = some (lexeme, rest)) :
    IsLongest isWord text lexeme rest := by
  have text_eq := eq_append_of_word? found
  unfold word? at found
  split at found
  · cases found
  · rename_i first following
    split at found
    · rename_i starts
      cases found
      refine ⟨text_eq, ?_, ?_⟩
      · simp [isWord, starts, List.all_takeWhile]
      · intro other after other_eq member
        cases other with
        | nil => simp
        | cons head tail =>
            rw [List.cons_append, List.cons.injEq] at other_eq
            simp only [isWord, Bool.and_eq_true] at member
            have long := length_le_takeWhile other_eq.2 member.2
            simpa using long
    · cases found

theorem not_isWord_of_word?_eq_none (missing : word? text = none)
    (text_eq : text = other ++ after) : isWord other = false := by
  cases other with
  | nil => rfl
  | cons head tail =>
      subst text_eq
      simp only [List.cons_append, word?] at missing
      split at missing
      · cases missing
      · rename_i stops
        simp [isWord, stops]

/-! ## Numbers -/

theorem takeWhile_digits_append_point {whole : Text} (all : whole.all Char.isDigit = true)
    (rest : Text) :
    (whole ++ '.' :: rest).takeWhile Char.isDigit = whole ∧
      (whole ++ '.' :: rest).dropWhile Char.isDigit = '.' :: rest := by
  have digits := List.all_eq_true.mp all
  constructor
  · rw [List.takeWhile_append_of_pos digits]
    simp [show Char.isDigit '.' = false by decide]
  · rw [List.dropWhile_append_of_pos digits]
    simp [show Char.isDigit '.' = false by decide]

theorem numberParts_append_point {whole : Text} (noPoint : '.' ∉ whole) (rest : Text) :
    numberParts (whole ++ '.' :: rest) = (whole, rest) := by
  have others : ∀ character ∈ whole, (character != '.') = true := by
    intro character member
    simpa using ne_of_mem_of_not_mem member noPoint
  simp [numberParts, List.takeWhile_append_of_pos others, List.dropWhile_append_of_pos others]

theorem numberParts_of_noPoint (noPoint : '.' ∉ text) : numberParts text = (text, []) := by
  have others : ∀ character ∈ text, (character != '.') = true := by
    intro character member
    simpa using ne_of_mem_of_not_mem member noPoint
  have taken : text.takeWhile (· != '.') = text := List.takeWhile_eq_self_iff.mpr others
  have dropped : text.dropWhile (· != '.') = [] := List.dropWhile_eq_nil_iff.mpr others
  simp [numberParts, taken, dropped]

theorem point_notMem_of_digits {whole : Text} (all : whole.all Char.isDigit = true) :
    '.' ∉ whole := by
  intro member
  exact absurd (List.all_eq_true.mp all _ member) (by decide)

theorem isNumber_iff : isNumber text = true ↔
    isDigits text = true ∨ ∃ whole fraction, text = whole ++ '.' :: fraction ∧
      whole.all Char.isDigit = true ∧ fraction.all Char.isDigit = true ∧
        (whole ≠ [] ∨ fraction ≠ []) := by
  by_cases point : '.' ∈ text
  · obtain ⟨whole, fraction, rfl, noPoint⟩ := List.eq_append_cons_of_mem point
    have notDigits : isDigits (whole ++ '.' :: fraction) = false := by
      cases digits : isDigits (whole ++ '.' :: fraction) with
      | false => rfl
      | true => exact absurd point (point_notMem_of_digits (isDigits_iff.mp digits).2)
    simp only [isNumber, numberParts_append_point noPoint, notDigits, Bool.and_eq_true,
      Bool.or_eq_true, isDigits_iff, Bool.false_eq_true, false_or]
    constructor
    · rintro ⟨⟨wholeDigits, fractionDigits⟩, some⟩
      exact ⟨whole, fraction, rfl, wholeDigits, fractionDigits, some.imp And.left And.left⟩
    · rintro ⟨left, right, equal, leftDigits, rightDigits, some⟩
      have parts := numberParts_append_point noPoint fraction
      rw [equal, numberParts_append_point (point_notMem_of_digits leftDigits)] at parts
      cases parts
      exact ⟨⟨leftDigits, rightDigits⟩, some.imp (⟨·, leftDigits⟩) (⟨·, rightDigits⟩)⟩
  · simp only [isNumber, numberParts_of_noPoint point, Bool.and_eq_true, Bool.or_eq_true,
      isDigits_iff]
    constructor
    · rintro ⟨⟨digits, _⟩, nonempty | nonempty⟩
      · exact .inl nonempty
      · exact absurd rfl nonempty.1
    · rintro (⟨nonempty, digits⟩ | ⟨left, right, rfl, _⟩)
      · exact ⟨⟨digits, rfl⟩, .inl ⟨nonempty, digits⟩⟩
      · simp at point

theorem number?_isLongest (found : number? text = some (lexeme, rest)) :
    IsLongest isNumber text lexeme rest := by
  have text_eq := eq_append_of_number? found
  unfold number? at found
  split at found
  · rename_i whole following digitsFound
    cases found
    obtain ⟨taken, dropped, nonempty⟩ := digits?_eq_some_iff.mp digitsFound
    have wholeDigits : whole.all Char.isDigit = true := taken ▸ all_takeWhile _ _
    refine ⟨text_eq, isNumber_iff.mpr (.inr ⟨whole, _, rfl, wholeDigits,
      all_takeWhile _ _, .inl nonempty⟩), ?_⟩
    intro other after other_eq member
    rcases isNumber_iff.mp member with digits | ⟨left, right, rfl, leftDigits, rightDigits, _⟩
    · have long := (digits?_isLongest digitsFound).longest other after other_eq digits
      simp only [List.length_append]
      omega
    · rw [List.append_assoc, List.cons_append] at other_eq
      obtain ⟨leftTaken, leftDropped⟩ := takeWhile_digits_append_point leftDigits (right ++ after)
      rw [← other_eq] at leftTaken leftDropped
      have sameWhole : whole = left := taken.symm.trans leftTaken
      have sameRest : following = right ++ after := by
        have equal := dropped.symm.trans leftDropped
        simpa using equal
      have long := length_le_takeWhile sameRest rightDigits
      rw [sameWhole]
      simp only [List.length_append, List.length_cons]
      omega
  · rename_i noPoint digitsFound
    cases found
    have digitsLongest := digits?_isLongest digitsFound
    obtain ⟨taken, dropped, _⟩ := digits?_eq_some_iff.mp digitsFound
    refine ⟨text_eq, isNumber_iff.mpr (.inl digitsLongest.isMember), ?_⟩
    intro other after other_eq member
    rcases isNumber_iff.mp member with digits | ⟨left, right, rfl, leftDigits, _⟩
    · exact digitsLongest.longest other after other_eq digits
    · rw [List.append_assoc, List.cons_append] at other_eq
      obtain ⟨_, leftDropped⟩ := takeWhile_digits_append_point leftDigits (right ++ after)
      rw [← other_eq, dropped] at leftDropped
      exact (noPoint _ leftDropped).elim
  · rename_i missing
    split at found
    · split at found
      · rename_i fraction following digitsFound
        cases found
        obtain ⟨_, _, nonempty⟩ := digits?_eq_some_iff.mp digitsFound
        have fractionLongest := digits?_isLongest digitsFound
        refine ⟨text_eq, isNumber_iff.mpr (.inr ⟨[], fraction, rfl, rfl,
          (isDigits_iff.mp fractionLongest.isMember).2, .inr nonempty⟩), ?_⟩
        intro other after other_eq member
        rcases isNumber_iff.mp member with digits | ⟨left, right, rfl, leftDigits,
          rightDigits, some⟩
        · rw [not_isDigits_of_digits?_eq_none missing other_eq] at digits
          cases digits
        · cases left with
          | nil =>
              simp only [List.nil_append, List.cons_append, List.cons.injEq, true_and]
                at other_eq
              have rightMember : isDigits right = true :=
                isDigits_iff.mpr ⟨some.resolve_left (fun bad => bad rfl), rightDigits⟩
              have long := fractionLongest.longest right after other_eq rightMember
              simpa using long
          | cons head tail =>
              simp only [List.cons_append, List.cons.injEq] at other_eq
              rw [← other_eq.1] at leftDigits
              simp [show Char.isDigit '.' = false by decide] at leftDigits
      · cases found
    · cases found

theorem not_isNumber_of_number?_eq_none (missing : number? text = none)
    (text_eq : text = other ++ after) : isNumber other = false := by
  cases member : isNumber other with
  | false => rfl
  | true =>
      unfold number? at missing
      split at missing
      · cases missing
      · cases missing
      · rename_i noDigits
        rcases isNumber_iff.mp member with digits | ⟨left, right, rfl, leftDigits,
          rightDigits, some⟩
        · rw [not_isDigits_of_digits?_eq_none noDigits text_eq] at digits
          cases digits
        · -- Without digits in front, the number has to begin with its point.
          rw [List.append_assoc, List.cons_append] at text_eq
          have noLeft : isDigits left = false := not_isDigits_of_digits?_eq_none noDigits text_eq
          cases left with
          | nil =>
              subst text_eq
              simp only [List.nil_append] at missing
              split at missing
              · cases missing
              · rename_i noFraction
                have rightMember : isDigits right = true :=
                  isDigits_iff.mpr ⟨some.resolve_left (fun bad => bad rfl), rightDigits⟩
                rw [not_isDigits_of_digits?_eq_none noFraction rfl] at rightMember
                cases rightMember
          | cons head tail =>
              rw [isDigits_iff.mpr ⟨by simp, leftDigits⟩] at noLeft
              cases noLeft

/-! ## Trivia -/

theorem trivia_of_rest : ∀ (insideComment : Bool) (text : Text),
    trivia false (trivia insideComment text).2 = ([], (trivia insideComment text).2)
  | _, [] => rfl
  | true, character :: rest => by
      simpa [trivia] using trivia_of_rest (character != '\n') rest
  | false, character :: rest => by
      rw [trivia]
      by_cases skips : (isBlank character || character == '#') = true
      · simpa [skips] using trivia_of_rest (character == '#') rest
      · simp [skips, trivia]

def isTriviaLine (line : Text) : Bool :=
  (line.dropWhile isBlank).isEmpty || (line.dropWhile isBlank).head? == some '#'

/-- A text is trivia if nothing of it is left once all trivia is skipped; inside
a comment, the line on which it begins may hold anything. -/
theorem trivia_eq_nil_iff : ∀ text : Text,
    ((trivia false text).2 = [] ↔ (text.splitOn '\n').all isTriviaLine = true) ∧
      ((trivia true text).2 = [] ↔ (text.splitOn '\n').tail.all isTriviaLine = true)
  | [] => by decide
  | character :: rest => by
      obtain ⟨outside, inside⟩ := trivia_eq_nil_iff rest
      obtain ⟨line, lines, split⟩ := List.exists_cons_of_ne_nil
        (List.splitOn_ne_nil '\n' rest)
      rw [List.splitOn_cons_eq_if_modifyHead]
      rw [split] at outside inside
      by_cases ends : character = '\n'
      · subst ends
        have stepOutside : (trivia false ('\n' :: rest)).2 = (trivia false rest).2 := rfl
        have stepInside : (trivia true ('\n' :: rest)).2 = (trivia false rest).2 := rfl
        rw [stepOutside, stepInside, outside, split]
        simp [isTriviaLine]
      · have stepInside : (trivia true (character :: rest)).2 = (trivia true rest).2 := by
          have goesOn : (character != '\n') = true := by simpa using ends
          simp [trivia, goesOn]
        rw [stepInside, inside, split]
        simp only [beq_iff_eq, ends, if_false, List.modifyHead_cons, List.tail_cons,
          List.all_cons, iff_self, and_true]
        by_cases blank : isBlank character = true
        · have notComment : (character == '#') = false := by
            cases hash : character == '#' with
            | false => rfl
            | true => rw [beq_iff_eq.mp hash] at blank; cases blank
          have stepOutside : (trivia false (character :: rest)).2 = (trivia false rest).2 := by
            simp [trivia, blank, notComment]
          rw [stepOutside, outside]
          simp [isTriviaLine, blank]
        · by_cases comment : character = '#'
          · subst comment
            have stepOutside : (trivia false ('#' :: rest)).2 = (trivia true rest).2 := rfl
            rw [stepOutside, inside]
            simp [isTriviaLine, blank]
          · simp [trivia, isTriviaLine, blank, comment]

theorem isTrivia_iff : isTrivia text = true ↔ (trivia false text).2 = [] :=
  (trivia_eq_nil_iff text).1.symm

/-- What was skipped is skipped again if nothing follows it. -/
theorem trivia_of_skipped : ∀ (insideComment : Bool) (text : Text),
    (trivia insideComment (trivia insideComment text).1).2 = []
  | _, [] => rfl
  | true, character :: rest => by
      simpa [trivia] using trivia_of_skipped (character != '\n') rest
  | false, character :: rest => by
      by_cases skips : (isBlank character || character == '#') = true
      · simpa [trivia, skips] using trivia_of_skipped (character == '#') rest
      · simp [trivia, skips]

theorem length_le_trivia (after : Text) : ∀ (insideComment : Bool) (other : Text),
    (trivia insideComment other).2 = [] →
      other.length ≤ (trivia insideComment (other ++ after)).1.length
  | _, [], _ => Nat.zero_le _
  | true, character :: rest, skipped => by
      simp only [trivia, if_true] at skipped
      simpa [trivia] using length_le_trivia after _ rest skipped
  | false, character :: rest, skipped => by
      by_cases skips : (isBlank character || character == '#') = true
      · simp only [trivia, skips, if_true, Bool.false_eq_true, if_false] at skipped
        simpa [trivia, skips] using length_le_trivia after _ rest skipped
      · simp [trivia, skips] at skipped

theorem trivia_isLongest (text : Text) :
    IsLongest isTrivia text (trivia false text).1 (trivia false text).2 where
  text_eq := (trivia_append false text).symm
  isMember := isTrivia_iff.mpr (trivia_of_skipped false text)
  longest := by
    rintro other after rfl member
    exact length_le_trivia after false other (isTrivia_iff.mp member)

theorem isLongest_trivia_iff : IsLongest isTrivia text lexeme rest ↔
    trivia false text = (lexeme, rest) := by
  constructor
  · intro longest
    obtain ⟨lexeme_eq, rest_eq⟩ := (trivia_isLongest text).unique longest
    exact Prod.ext lexeme_eq rest_eq
  · intro equal
    have longest := trivia_isLongest text
    rwa [equal] at longest

end QubitLang.Lexical
