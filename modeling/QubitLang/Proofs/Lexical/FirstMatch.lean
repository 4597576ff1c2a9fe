import QubitLang.Proofs.Language.Naming
import QubitLang.Proofs.Lexical.Longest
import QubitLang.Proofs.Lexical.Pattern

/-! The first match of a lexical class is its longest one. What is split off a text is what its
pattern finds first, no other match is longer, and what belongs to a class as a whole is what is
matched from end to end. -/

namespace QubitLang.Lexical

namespace Pattern

variable {first second : Pattern} {text : Text} {length longest : Nat}

/-! ## Ways in order -/

/-- The first way through two parts is the first way through each of them, if there is one. -/
theorem head?_flatMap {ways : List Nat} {next : Nat → List Nat} {early late : Nat}
    (ways_eq : ways.head? = some early) (next_eq : (next early).head? = some late) :
    (ways.flatMap next).head? = some late := by
  obtain ⟨others, rfl⟩ := List.head?_eq_some_iff.mp ways_eq
  rw [List.flatMap_cons, List.head?_append, next_eq, Option.some_or]

theorem head?_lengths_seq {early late : Nat} (first_eq : (first.lengths text).head? = some early)
    (second_eq : (second.lengths (text.drop early)).head? = some late) :
    ((seq first second).lengths text).head? = some (early + late) := by
  apply head?_flatMap first_eq
  rw [List.head?_map, second_eq, Option.map_some]

theorem lengths_seq_eq_nil
    (none : ∀ early ∈ first.lengths text, second.lengths (text.drop early) = []) :
    (seq first second).lengths text = [] := by
  apply List.flatMap_eq_nil_iff.mpr
  intro early member
  rw [none early member, List.map_nil]

/-! ## Runs of characters -/

theorem iterated_one (accepts : Char → Bool) : ∀ (bound : Nat) (text : Text),
    text.length ≤ bound →
      (iterated (one accepts).lengths bound text).head? = some (text.takeWhile accepts).length ∧
        ∀ length ∈ iterated (one accepts).lengths bound text,
          length ≤ (text.takeWhile accepts).length
  | 0, text, enough => by
      obtain rfl : text = [] := List.length_eq_zero_iff.mp (Nat.le_zero.mp enough)
      exact ⟨rfl, by simp [iterated]⟩
  | bound + 1, [], _ => ⟨rfl, by simp [iterated, lengths]⟩
  | bound + 1, character :: rest, enough => by
      obtain ⟨head, le⟩ := iterated_one accepts bound rest (Nat.le_of_succ_le_succ enough)
      by_cases accepted : accepts character = true
      · rw [iterated, lengths, if_pos accepted, List.flatMap_singleton, List.drop_succ_cons,
          List.drop_zero, List.takeWhile_cons_of_pos accepted, List.length_cons]
        constructor
        · rw [List.head?_append, List.head?_map, head, Option.map_some, Option.some_or,
            Nat.add_comm]
        · intro length member
          rcases List.mem_append.mp member with more | last
          · obtain ⟨later, inside, rfl⟩ := List.mem_map.mp more
            have bounded := le later inside
            omega
          · rw [List.mem_singleton.mp last]
            exact Nat.zero_le _
      · rw [iterated, lengths, if_neg accepted, List.takeWhile_cons_of_neg accepted]
        exact ⟨rfl, by simp⟩

theorem head?_lengths_run (accepts : Char → Bool) (text : Text) :
    ((star (one accepts)).lengths text).head? = some (text.takeWhile accepts).length :=
  (iterated_one accepts _ text (Nat.le_refl _)).1

theorem le_of_mem_lengths_run {accepts : Char → Bool}
    (member : length ∈ (star (one accepts)).lengths text) :
    length ≤ (text.takeWhile accepts).length :=
  (iterated_one accepts _ text (Nat.le_refl _)).2 length member

theorem head?_lengths_headed {starts : Char → Bool} {character : Char}
    (accepted : starts character = true) (continues : Char → Bool) (rest : Text) :
    ((headed starts continues).lengths (character :: rest)).head? =
      some (1 + (rest.takeWhile continues).length) := by
  apply head?_lengths_seq
  · rw [lengths, if_pos accepted, List.head?_cons]
  · exact head?_lengths_run continues rest

theorem lengths_headed_eq_nil {starts continues : Char → Bool}
    (refused : ∀ character rest, text = character :: rest → starts character = false) :
    (headed starts continues).lengths text = [] := by
  cases text with
  | nil => rfl
  | cons character rest => simp [headed, lengths, refused character rest rfl]

theorem exists_of_mem_lengths_headed {starts continues : Char → Bool}
    (member : length ∈ (headed starts continues).lengths text) :
    ∃ character rest more, text = character :: rest ∧ starts character = true ∧
      more ≤ (rest.takeWhile continues).length ∧ length = more + 1 := by
  obtain ⟨early, first, more, later, rfl⟩ := mem_lengths_seq.mp member
  cases text with
  | nil => cases first
  | cons character rest =>
      rw [lengths] at first
      split at first
      · rename_i accepted
        obtain rfl := List.mem_singleton.mp first
        exact ⟨character, rest, more, rfl, accepted, le_of_mem_lengths_run later,
          Nat.add_comm 1 more⟩
      · cases first

/-! ## Classes -/

/-- A pattern finds first what is split off, no match is longer, and it matches from end to end
what belongs to the class. -/
structure Munches (pattern : Pattern) (split? : Text → Option (Text × Text))
    (spells : Text → Bool) : Prop where
  first : ∀ text, (pattern.lengths text).head? = (split? text).map fun found => found.1.length
  le : ∀ text, ∀ length ∈ pattern.lengths text, ∀ first ∈ (pattern.lengths text).head?,
    length ≤ first
  full : ∀ text, text.length ∈ pattern.lengths text ↔ spells text = true

theorem Munches.of_isLongest {pattern : Pattern} {split? : Text → Option (Text × Text)}
    {spells : Text → Bool}
    (first : ∀ text, (pattern.lengths text).head? = (split? text).map fun found => found.1.length)
    (sound : ∀ text, ∀ length ∈ pattern.lengths text,
      length ≤ text.length ∧ spells (text.take length) = true)
    (longest : ∀ {text lexeme rest}, split? text = some (lexeme, rest) →
      IsLongest spells text lexeme rest)
    (missing : ∀ text, split? text = none → spells text = false) :
    Munches pattern split? spells where
  first := first
  le := by
    intro text length member first_length head
    rw [first] at head
    obtain ⟨⟨lexeme, rest⟩, found, rfl⟩ := Option.map_eq_some_iff.mp head
    obtain ⟨inside, belongs⟩ := sound text length member
    have bounded := (longest found).longest _ _ (List.take_append_drop length text).symm belongs
    rwa [List.length_take_of_le inside] at bounded
  full := by
    intro text
    constructor
    · intro member
      have belongs := (sound text _ member).2
      rwa [List.take_length] at belongs
    · intro belongs
      cases found : split? text with
      | none =>
          rw [missing text found] at belongs
          cases belongs
      | some result =>
          obtain ⟨lexeme, rest⟩ := result
          have isLongest := longest found
          have whole := isLongest.longest text [] (List.append_nil text).symm belongs
          have parts := congrArg List.length isLongest.text_eq
          rw [List.length_append] at parts
          have head := first text
          rw [found, Option.map_some, show lexeme.length = text.length by omega] at head
          exact List.mem_of_mem_head? head

theorem Munches.first_eq_length_iff {pattern : Pattern} {split? : Text → Option (Text × Text)}
    {spells : Text → Bool} (munches : Munches pattern split? spells)
    (eq_append : ∀ {text lexeme rest}, split? text = some (lexeme, rest) → text = lexeme ++ rest)
    (text : Text) :
    (split? text).map (fun found => found.1.length) = some text.length ↔ spells text = true := by
  rw [← munches.full, ← munches.first]
  constructor
  · exact List.mem_of_mem_head?
  · intro member
    cases head : (pattern.lengths text).head? with
    | none =>
        rw [List.head?_eq_none_iff.mp head] at member
        cases member
    | some longest =>
        have le := munches.le text _ member longest head
        have found := munches.first text
        rw [head] at found
        obtain ⟨⟨lexeme, rest⟩, split, rfl⟩ := Option.map_eq_some_iff.mp found.symm
        have parts := congrArg List.length (eq_append split)
        rw [List.length_append] at parts
        simp only at le ⊢
        congr 1
        omega

/-! ## Words and digits -/

theorem all_take_of_le {accepts : Char → Bool} (le : length ≤ (text.takeWhile accepts).length) :
    (text.take length).all accepts = true := by
  have inside : text.take length = (text.takeWhile accepts).take length := by
    have parts := List.takeWhile_append_dropWhile (p := accepts) (l := text)
    conv_lhs => rw [← parts]
    exact List.take_append_of_le_length le
  rw [inside, List.all_eq_true]
  intro character member
  exact List.all_eq_true.mp (all_takeWhile accepts text) character (List.mem_of_mem_take member)

theorem headed_sound {starts continues : Char → Bool} :
    ∀ length ∈ (headed starts continues).lengths text,
      length ≤ text.length ∧ ∃ character rest, text.take length = character :: rest ∧
        starts character = true ∧ rest.all continues = true := by
  intro length member
  obtain ⟨character, rest, more, rfl, accepted, bounded, rfl⟩ := exists_of_mem_lengths_headed member
  have shorter := (List.takeWhile_prefix continues (l := rest)).length_le
  refine ⟨?_, character, rest.take more, List.take_succ_cons, accepted, all_take_of_le bounded⟩
  rw [List.length_cons]
  omega

theorem head?_lengths_digits (text : Text) :
    (digits.lengths text).head? = (digits? text).map fun found => found.1.length := by
  cases text with
  | nil => rfl
  | cons character rest =>
      by_cases digit : character.isDigit = true
      · rw [digits, head?_lengths_headed digit, digits?, List.takeWhile_cons_of_pos digit,
          Nat.add_comm]
        rfl
      · have none_found : digits.lengths (character :: rest) = [] := by
          apply lengths_headed_eq_nil
          rintro _ _ ⟨⟩
          simpa using digit
        rw [none_found, digits?, List.takeWhile_cons_of_neg digit]
        rfl

theorem digits_sound : ∀ length ∈ digits.lengths text,
    length ≤ text.length ∧ isDigits (text.take length) = true := by
  intro length member
  obtain ⟨inside, character, rest, taken, digit, more⟩ := headed_sound length member
  refine ⟨inside, isDigits_iff.mpr ?_⟩
  rw [taken, List.all_cons, digit, more]
  exact ⟨List.cons_ne_nil _ _, rfl⟩

theorem munches_digits : Munches digits digits? isDigits := by
  apply Munches.of_isLongest head?_lengths_digits
  · exact fun text => digits_sound
  · exact digits?_isLongest
  · intro text missing
    exact not_isDigits_of_digits?_eq_none missing (List.append_nil text).symm

theorem munches_word : Munches word word? isWord := by
  apply Munches.of_isLongest
  · intro text
    cases text with
    | nil => rfl
    | cons character rest =>
        by_cases starts : isIdentifierStart character = true
        · rw [word, head?_lengths_headed starts, word?, if_pos starts, Nat.add_comm]
          rfl
        · have none_found : word.lengths (character :: rest) = [] := by
            apply lengths_headed_eq_nil
            rintro _ _ ⟨⟩
            simpa using starts
          rw [none_found, word?, if_neg starts]
          rfl
  · intro text length member
    obtain ⟨inside, character, rest, taken, starts, more⟩ := headed_sound length member
    rw [taken, isWord, starts, more]
    exact ⟨inside, rfl⟩
  · exact word?_isLongest
  · intro text missing
    exact not_isWord_of_word?_eq_none missing (List.append_nil text).symm

theorem munches_wordContinue :
    Munches wordContinue wordContinue? (Shape.spells .wordContinue) where
  first text := by
    cases text with
    | nil => rfl
    | cons character rest =>
        rw [wordContinue, lengths, wordContinue?]
        split <;> rfl
  le text length member first head := by
    cases text with
    | nil => cases member
    | cons character rest =>
        rw [wordContinue, lengths] at member head
        split at member
        · rename_i continues
          rw [if_pos continues] at head
          cases head
          exact (List.mem_singleton.mp member).le
        · cases member
  full text := by
    rcases text with _ | ⟨character, _ | ⟨next, rest⟩⟩
    · simp [wordContinue, lengths, Shape.spells]
    · by_cases continues : isIdentifierContinue character = true
      · simp [wordContinue, lengths, Shape.spells, continues]
      · simp [wordContinue, lengths, Shape.spells, continues]
    · by_cases continues : isIdentifierContinue character = true
      · simp [wordContinue, lengths, Shape.spells, continues]
      · simp [wordContinue, lengths, Shape.spells, continues]

/-! ## Numbers -/

theorem exists_of_mem_lengths_point (member : length ∈ (seq point second).lengths text) :
    ∃ rest, text = '.' :: rest ∧ ∃ later ∈ second.lengths rest, length = later + 1 := by
  obtain ⟨early, first, later, behind, rfl⟩ := mem_lengths_seq.mp member
  cases text with
  | nil => cases first
  | cons character rest =>
      rw [point, lengths] at first
      split at first
      · rename_i isPoint
        obtain rfl := List.mem_singleton.mp first
        exact ⟨rest, by rw [beq_iff_eq.mp isPoint], later, behind, Nat.add_comm 1 later⟩
      · cases first

theorem lengths_point_eq_nil (second : Pattern) (other : ∀ rest, text ≠ '.' :: rest) :
    (seq point second).lengths text = [] := by
  apply List.eq_nil_iff_forall_not_mem.mpr
  intro length member
  obtain ⟨rest, text_eq, _⟩ := exists_of_mem_lengths_point member
  exact other rest text_eq

theorem head?_lengths_point {rest : Text} {later : Nat}
    (second_eq : (second.lengths rest).head? = some later) :
    ((seq point second).lengths ('.' :: rest)).head? = some (later + 1) := by
  rw [Nat.add_comm]
  exact head?_lengths_seq rfl second_eq

theorem lengths_digits_eq_nil (missing : digits? text = none) : digits.lengths text = [] := by
  apply List.head?_eq_none_iff.mp
  rw [head?_lengths_digits, missing, Option.map_none]

theorem ne_point_of_digits {whole rest : Text} (found : digits? text = some (whole, rest))
    (noPoint : ∀ after, rest ≠ '.' :: after) (member : length ∈ digits.lengths text)
    (after : Text) :
    text.drop length ≠ '.' :: after := by
  intro dropped
  have bounded : length ≤ whole.length := by
    apply munches_digits.le text length member
    rw [head?_lengths_digits, found, Option.map_some, Option.mem_def]
  have text_eq := eq_append_of_digits? found
  rw [text_eq, List.drop_append_of_le_length bounded] at dropped
  cases remaining : whole.drop length with
  | nil =>
      rw [remaining, List.nil_append] at dropped
      exact noPoint after dropped
  | cons digit others =>
      rw [remaining, List.cons_append, List.cons.injEq] at dropped
      have inside : digit ∈ whole := List.mem_of_mem_drop (remaining ▸ List.mem_cons_self)
      rw [dropped.1] at inside
      have allDigits := (isDigits_iff.mp (digits?_isLongest found).isMember).2
      exact point_notMem_of_digits allDigits inside

theorem number?_of_point {whole rest : Text} (found : digits? text = some (whole, '.' :: rest)) :
    number? text =
      some (whole ++ '.' :: rest.takeWhile Char.isDigit, rest.dropWhile Char.isDigit) := by
  unfold number?
  split
  · rename_i equal
    rw [found] at equal
    cases equal
    rfl
  · rename_i other equal
    rw [found] at equal
    cases equal
    exact absurd rfl (other rest)
  · rename_i equal
    rw [found] at equal
    cases equal

theorem number?_of_noPoint {whole rest : Text} (found : digits? text = some (whole, rest))
    (noPoint : ∀ after, rest ≠ '.' :: after) : number? text = some (whole, rest) := by
  unfold number?
  split
  · rename_i equal
    rw [found] at equal
    cases equal
    exact absurd rfl (noPoint _)
  · rename_i equal
    rw [found] at equal
    cases equal
    rfl
  · rename_i equal
    rw [found] at equal
    cases equal

theorem number?_point {rest : Text} :
    number? ('.' :: rest) =
      (digits? rest).map fun (fraction, rest) => ('.' :: fraction, rest) := by
  have noDigits : digits? ('.' :: rest) = none := rfl
  unfold number?
  simp only [noDigits]
  cases digits? rest <;> rfl

theorem number?_of_other (missing : digits? text = none) (other : ∀ rest, text ≠ '.' :: rest) :
    number? text = none := by
  unfold number?
  simp only [missing]

/-- The forms of a number are tried in an order in which the first one that matches is the longest:
digits that are followed by a point are matched with it. -/
theorem head?_lengths_number (text : Text) :
    (number.lengths text).head? = (number? text).map fun found => found.1.length := by
  change ((seq digits (seq point (star (one Char.isDigit)))).lengths text ++
    ((seq point digits).lengths text ++ digits.lengths text)).head? = _
  -- With digits in front the middle form cannot match, and without them no other one can.
  cases found : digits? text with
  | none =>
      have noDigits := lengths_digits_eq_nil found
      have noWhole : (seq digits (seq point (star (one Char.isDigit)))).lengths text = [] := by
        rw [lengths, noDigits, List.flatMap_nil]
      rw [noWhole, noDigits, List.nil_append, List.append_nil]
      by_cases begins : ∃ rest, text = '.' :: rest
      · obtain ⟨rest, rfl⟩ := begins
        have head := head?_lengths_digits rest
        rw [number?_point, Option.map_map]
        cases fraction : digits? rest with
        | none =>
            rw [lengths_seq_eq_nil fun early member => ?_]
            · rfl
            · obtain rfl := List.mem_singleton.mp member
              exact lengths_digits_eq_nil fraction
        | some result =>
            rw [fraction] at head
            exact head?_lengths_point head
      · have other : ∀ rest, text ≠ '.' :: rest := fun rest text_eq => begins ⟨rest, text_eq⟩
        rw [lengths_point_eq_nil digits other, number?_of_other found other]
        rfl
  | some result =>
      obtain ⟨whole, rest⟩ := result
      have head := head?_lengths_digits text
      rw [found, Option.map_some] at head
      have text_eq := eq_append_of_digits? found
      by_cases followed : ∃ after, rest = '.' :: after
      · obtain ⟨after, rfl⟩ := followed
        have behind : text.drop whole.length = '.' :: after := by rw [text_eq, List.drop_left]
        have fraction := head?_lengths_point (head?_lengths_run Char.isDigit after)
        rw [← behind] at fraction
        rw [List.head?_append, head?_lengths_seq head fraction, Option.some_or,
          number?_of_point found, Option.map_some, List.length_append, List.length_cons]
      · have noPoint : ∀ after, rest ≠ '.' :: after :=
          fun after rest_eq => followed ⟨after, rest_eq⟩
        have noWhole : (seq digits (seq point (star (one Char.isDigit)))).lengths text = [] :=
          lengths_seq_eq_nil fun early member =>
            lengths_point_eq_nil _ (ne_point_of_digits found noPoint member)
        have noFraction : (seq point digits).lengths text = [] := by
          apply lengths_point_eq_nil
          rintro after rfl
          cases found
        rw [noWhole, noFraction, List.nil_append, List.nil_append, head,
          number?_of_noPoint found noPoint, Option.map_some]

theorem number_sound : ∀ length ∈ number.lengths text,
    length ≤ text.length ∧ isNumber (text.take length) = true := by
  intro length member
  rcases List.mem_append.mp member with whole | others
  · obtain ⟨early, first, late, behind, rfl⟩ := mem_lengths_seq.mp whole
    obtain ⟨inside, belongs⟩ := digits_sound early first
    obtain ⟨nonempty, allDigits⟩ := isDigits_iff.mp belongs
    obtain ⟨rest, dropped, more, run, rfl⟩ := exists_of_mem_lengths_point behind
    have bounded := le_of_mem_lengths_run run
    have shorter := (List.takeWhile_prefix Char.isDigit (l := rest)).length_le
    have parts := congrArg List.length dropped
    rw [List.length_drop, List.length_cons] at parts
    refine ⟨by omega, isNumber_iff.mpr (.inr ⟨_, rest.take more, ?_, allDigits,
      all_take_of_le bounded, .inl nonempty⟩)⟩
    rw [List.take_add, dropped, List.take_succ_cons]
  · rcases List.mem_append.mp others with fraction | digitsOnly
    · obtain ⟨rest, rfl, later, behind, rfl⟩ := exists_of_mem_lengths_point fraction
      obtain ⟨inside, belongs⟩ := digits_sound later behind
      obtain ⟨nonempty, allDigits⟩ := isDigits_iff.mp belongs
      refine ⟨Nat.succ_le_succ inside, isNumber_iff.mpr (.inr ⟨[], rest.take later, rfl, rfl,
        allDigits, .inr nonempty⟩)⟩
    · obtain ⟨inside, belongs⟩ := digits_sound length digitsOnly
      exact ⟨inside, isNumber_iff.mpr (.inl belongs)⟩

theorem munches_number : Munches number number? isNumber := by
  apply Munches.of_isLongest head?_lengths_number
  · exact fun text => number_sound
  · exact number?_isLongest
  · intro text missing
    exact not_isNumber_of_number?_eq_none missing (List.append_nil text).symm

/-! ## Trivia -/

def gap : Pattern := .alt (.one isBlank) (headed (· == '#') (· != '\n'))

theorem length_trivia_inside : ∀ rest : Text, (Lexical.trivia true rest).1.length =
    (rest.takeWhile (· != '\n')).length +
      (Lexical.trivia false (rest.dropWhile (· != '\n'))).1.length
  | [] => rfl
  | character :: rest => by
      by_cases goesOn : (character != '\n') = true
      · have later := length_trivia_inside rest
        simp only [Lexical.trivia, List.takeWhile, List.dropWhile, goesOn, if_true,
          List.length_cons]
        omega
      · obtain rfl : character = '\n' := by simpa using goesOn
        simp [Lexical.trivia, List.takeWhile, List.dropWhile, isBlank]

theorem skipped_inside (skipped : (Lexical.trivia false text).2 = []) :
    (Lexical.trivia true text).2 = [] := by
  rw [(trivia_eq_nil_iff text).1, List.all_eq_true] at skipped
  rw [(trivia_eq_nil_iff text).2, List.all_eq_true]
  exact fun line member => skipped line (List.mem_of_mem_tail member)

theorem skipped_comment {comment : Text} (noEnd : comment.all (· != '\n') = true)
    (skipped : (Lexical.trivia false text).2 = []) :
    (Lexical.trivia true (comment ++ text)).2 = [] := by
  induction comment with
  | nil => exact skipped_inside skipped
  | cons character comment induction =>
      rw [List.all_cons, Bool.and_eq_true] at noEnd
      rw [List.cons_append, Lexical.trivia, if_pos rfl, noEnd.1]
      exact induction noEnd.2

theorem exists_of_mem_lengths_gap (member : length ∈ gap.lengths text) :
    ∃ character rest, text = character :: rest ∧
      (isBlank character = true ∧ length = 1 ∨
        character = '#' ∧ ∃ more ≤ (rest.takeWhile (· != '\n')).length, length = more + 1) := by
  rcases List.mem_append.mp member with blank | comment
  · cases text with
    | nil => cases blank
    | cons character rest =>
        rw [lengths] at blank
        split at blank
        · rename_i isBlank
          exact ⟨character, rest, rfl, .inl ⟨isBlank, List.mem_singleton.mp blank⟩⟩
        · cases blank
  · obtain ⟨character, rest, more, rfl, begins, bounded, rfl⟩ :=
      exists_of_mem_lengths_headed comment
    exact ⟨character, rest, rfl, .inr ⟨beq_iff_eq.mp begins, more, bounded, rfl⟩⟩

theorem lengths_gap_blank {character : Char} (blank : isBlank character = true) (rest : Text) :
    gap.lengths (character :: rest) = [1] := by
  have noComment : (headed (· == '#') (· != '\n')).lengths (character :: rest) = [] := by
    apply lengths_headed_eq_nil
    rintro _ _ ⟨⟩
    rw [beq_eq_false_iff_ne]
    rintro rfl
    cases blank
  rw [gap, lengths, lengths, if_pos blank, noComment]
  rfl

theorem trivia_blank {character : Char} (blank : isBlank character = true) (rest : Text) :
    Lexical.trivia false (character :: rest) =
      (character :: (Lexical.trivia false rest).1, (Lexical.trivia false rest).2) := by
  have noComment : (character == '#') = false := by
    rw [beq_eq_false_iff_ne]
    rintro rfl
    cases blank
  simp [Lexical.trivia, blank, noComment]

theorem head?_iterated_gap : ∀ (bound : Nat) (text : Text), text.length ≤ bound →
    (iterated gap.lengths bound text).head? = some (Lexical.trivia false text).1.length
  | 0, text, enough => by
      obtain rfl : text = [] := List.length_eq_zero_iff.mp (Nat.le_zero.mp enough)
      rfl
  | bound + 1, [], _ => rfl
  | bound + 1, character :: rest, enough => by
      have shorter := Nat.le_of_succ_le_succ enough
      have goOn {length later : Nat} (first : (gap.lengths (character :: rest)).head? = some length)
          (behind : (iterated gap.lengths bound ((character :: rest).drop length)).head? =
            some later) :
          (iterated gap.lengths (bound + 1) (character :: rest)).head? = some (length + later) := by
        have ways : ((gap.lengths (character :: rest)).flatMap fun length =>
            (iterated gap.lengths bound ((character :: rest).drop length)).map
              (length + ·)).head? = some (length + later) :=
          head?_flatMap first (by rw [List.head?_map, behind, Option.map_some])
        rw [iterated, List.head?_append, ways, Option.some_or]
      by_cases blank : isBlank character = true
      · have first : (gap.lengths (character :: rest)).head? = some 1 := by
          rw [lengths_gap_blank blank, List.head?_cons]
        rw [goOn first (head?_iterated_gap bound rest shorter), trivia_blank blank,
          List.length_cons, Nat.add_comm]
      · by_cases comment : character = '#'
        · subst comment
          have first : (gap.lengths ('#' :: rest)).head? =
              some (1 + (rest.takeWhile (· != '\n')).length) :=
            head?_lengths_headed rfl _ rest
          have behind : ('#' :: rest).drop (1 + (rest.takeWhile (· != '\n')).length) =
              rest.dropWhile (· != '\n') := by
            have parts := congrArg (List.drop (rest.takeWhile (· != '\n')).length)
              (List.takeWhile_append_dropWhile (p := (· != '\n')) (l := rest))
            rw [List.drop_left] at parts
            rw [Nat.add_comm, List.drop_succ_cons, parts]
          have lower := (List.dropWhile_suffix (· != '\n') (l := rest)).length_le
          have later := head?_iterated_gap bound _ (Nat.le_trans lower shorter)
          rw [← behind] at later
          rw [goOn first later, behind, Nat.add_assoc, ← length_trivia_inside, Nat.add_comm]
          rfl
        · have nothing : gap.lengths (character :: rest) = [] := by
            apply List.eq_nil_iff_forall_not_mem.mpr
            intro length member
            obtain ⟨_, _, ⟨⟩, isBlank | begins⟩ := exists_of_mem_lengths_gap member
            · exact blank isBlank.1
            · exact comment begins.1
          rw [iterated, nothing, Lexical.trivia, if_neg Bool.false_ne_true,
            if_neg (by simp [blank, comment])]
          rfl

theorem iterated_gap_sound : ∀ (bound : Nat) (text : Text),
    ∀ length ∈ iterated gap.lengths bound text,
      length ≤ text.length ∧ (Lexical.trivia false (text.take length)).2 = []
  | 0, text, length, member => by
      obtain rfl := List.mem_singleton.mp member
      exact ⟨Nat.zero_le _, rfl⟩
  | bound + 1, text, length, member => by
      rcases List.mem_append.mp member with more | last
      · obtain ⟨early, first, inside⟩ := List.mem_flatMap.mp more
        obtain ⟨late, behind, rfl⟩ := List.mem_map.mp inside
        obtain ⟨character, rest, rfl, ⟨blank, rfl⟩ | ⟨rfl, some, bounded, rfl⟩⟩ :=
          exists_of_mem_lengths_gap first
        · obtain ⟨within, skipped⟩ := iterated_gap_sound bound _ late behind
          rw [List.drop_succ_cons, List.drop_zero] at within skipped
          rw [List.length_cons, Nat.add_comm 1 late, List.take_succ_cons]
          rw [trivia_blank blank]
          exact ⟨Nat.succ_le_succ within, skipped⟩
        · obtain ⟨within, skipped⟩ := iterated_gap_sound bound _ late behind
          rw [List.drop_succ_cons] at within skipped
          rw [List.length_drop] at within
          rw [List.length_cons, Nat.add_right_comm, List.take_succ_cons, List.take_add]
          have longer := (List.takeWhile_prefix (· != '\n') (l := rest)).length_le
          exact ⟨by omega, skipped_comment (all_take_of_le bounded) skipped⟩
      · obtain rfl := List.mem_singleton.mp last
        exact ⟨Nat.zero_le _, rfl⟩

theorem munches_trivia : Munches trivia (Shape.split? .trivia) isTrivia := by
  apply Munches.of_isLongest
  · exact fun text => head?_iterated_gap _ text (Nat.le_refl _)
  · intro text length member
    obtain ⟨inside, skipped⟩ := iterated_gap_sound _ text length member
    exact ⟨inside, isTrivia_iff.mpr skipped⟩
  · intro text lexeme rest found
    exact isLongest_trivia_iff.mpr (Option.some.inj found)
  · rintro text ⟨⟩

/-! ## Reserved words -/

theorem mem_lengths_spelled : ∀ {spelling text : Text} {length : Nat},
    length ∈ (spelled spelling).lengths text ↔
      length = spelling.length ∧ ∃ rest, text = spelling ++ rest
  | [], text, length => by simp [spelled, lengths]
  | character :: spelling, [], length => by simp [spelled, lengths]
  | character :: spelling, first :: text, length => by
      rw [spelled, mem_lengths_seq]
      by_cases same : first = character
      · subst same
        simp only [lengths, beq_self_eq_true, if_true, List.mem_singleton, exists_eq_left,
          List.drop_succ_cons, List.drop_zero, mem_lengths_spelled, List.length_cons,
          List.cons_append, List.cons.injEq, true_and]
        constructor
        · rintro ⟨_, ⟨rfl, stands⟩, rfl⟩
          exact ⟨Nat.add_comm _ _, stands⟩
        · rintro ⟨rfl, stands⟩
          exact ⟨_, ⟨rfl, stands⟩, Nat.add_comm _ _⟩
      · simp [lengths, same]

theorem mem_lengths_firstOf : ∀ {patterns : List Pattern} {text : Text} {length : Nat},
    length ∈ (firstOf patterns).lengths text ↔
      ∃ pattern ∈ patterns, length ∈ pattern.lengths text
  | [], text, length => by cases text <;> simp [firstOf, lengths]
  | [pattern], text, length => by simp [firstOf]
  | pattern :: other :: rest, text, length => by
      have others := @mem_lengths_firstOf (other :: rest) text length
      simp only [firstOf, lengths, List.mem_append, others, List.mem_cons, exists_eq_or_imp]

theorem mem_lengths_notContinued : length ∈ (notAhead wordContinue).lengths text ↔
    length = 0 ∧ wordContinue? text = none := by
  have first := munches_wordContinue.first text
  cases next : wordContinue? text with
  | none =>
      rw [next] at first
      simp [lengths, List.head?_eq_none_iff.mp first]
  | some found =>
      rw [next] at first
      have some : wordContinue.lengths text ≠ [] := by
        intro empty
        rw [empty] at first
        cases first
      simp [lengths, some]

theorem mem_lengths_reserved {order : List Keyword} (complete : ∀ keyword, keyword ∈ order) :
    length ∈ (reserved order).lengths text ↔
      ∃ lexeme rest, reserved? text = some (lexeme, rest) ∧ length = lexeme.length := by
  simp only [reserved, mem_lengths_seq, mem_lengths_firstOf, List.mem_map,
    mem_lengths_notContinued]
  constructor
  · rintro ⟨_, ⟨_, ⟨keyword, _, rfl⟩, stands⟩, _, ⟨rfl, ends⟩, rfl⟩
    obtain ⟨rfl, rest, rfl⟩ := mem_lengths_spelled.mp stands
    rw [List.drop_left] at ends
    have found := (Scan.word?_eq_some_iff (Scan.isWord_keyword keyword)).mpr ⟨rfl, ends⟩
    refine ⟨keyword.spelling.toList, rest, ?_, rfl⟩
    exact Language.reserved?_eq_some_iff.mpr ⟨found, Language.isReserved_spelling keyword⟩
  · rintro ⟨lexeme, rest, found, rfl⟩
    obtain ⟨keyword, _, matched⟩ := List.exists_of_findSome?_eq_some found
    obtain ⟨rfl, word⟩ := Scan.keyword?_eq_some_iff.mp matched
    obtain ⟨rfl, ends⟩ := (Scan.word?_eq_some_iff (Scan.isWord_keyword keyword)).mp word
    refine ⟨_, ⟨_, ⟨keyword, complete keyword, rfl⟩, mem_lengths_spelled.mpr ⟨rfl, rest, rfl⟩⟩, 0,
      ⟨rfl, ?_⟩, rfl⟩
    rwa [List.drop_left]

theorem isReserved_iff : isReserved text = true ↔ reserved? text = some (text, []) := by
  rw [Language.reserved?_eq_some_iff]
  constructor
  · intro isReserved
    obtain ⟨keyword, _, same⟩ := List.any_eq_true.mp isReserved
    obtain rfl := beq_iff_eq.mp same
    exact ⟨(Scan.word?_eq_some_iff (Scan.isWord_keyword keyword)).mpr
      ⟨(List.append_nil _).symm, rfl⟩, isReserved⟩
  · exact And.right

theorem munches_reserved {order : List Keyword} (complete : ∀ keyword, keyword ∈ order) :
    Munches (reserved order) reserved? isReserved where
  first text := by
    cases found : reserved? text with
    | none =>
        apply List.head?_eq_none_iff.mpr
        apply List.eq_nil_iff_forall_not_mem.mpr
        intro length member
        obtain ⟨_, _, other, _⟩ := (mem_lengths_reserved complete).mp member
        rw [found] at other
        cases other
    | some result =>
        obtain ⟨lexeme, rest⟩ := result
        have member := (mem_lengths_reserved complete).mpr ⟨lexeme, rest, found, rfl⟩
        obtain ⟨first, head⟩ := Option.isSome_iff_exists.mp
          (List.isSome_head?.mpr (List.ne_nil_of_mem member))
        obtain ⟨_, _, other, rfl⟩ :=
          (mem_lengths_reserved complete).mp (List.mem_of_mem_head? head)
        rw [found] at other
        cases other
        exact head
  le text length member first head := by
    obtain ⟨_, _, found, rfl⟩ := (mem_lengths_reserved complete).mp member
    obtain ⟨_, _, other, rfl⟩ := (mem_lengths_reserved complete).mp (List.mem_of_mem_head? head)
    rw [found] at other
    cases other
    exact Nat.le_refl _
  full text := by
    rw [mem_lengths_reserved complete, isReserved_iff]
    constructor
    · rintro ⟨lexeme, rest, found, same⟩
      have parts := eq_append_of_reserved? found
      obtain ⟨rfl, rfl⟩ := List.append_inj ((List.append_nil text).trans parts) same
      exact found
    · exact fun found => ⟨text, [], found, rfl⟩

end Pattern

open Pattern

/-! ## Matches at an offset -/

namespace Shape

variable {order : List Keyword}

theorem munches (complete : ∀ keyword, keyword ∈ order) (shape : Shape) :
    Munches (shape.pattern order) shape.split? shape.spells := by
  cases shape with
  | number => exact munches_number
  | digits => exact munches_digits
  | trivia => exact munches_trivia
  | identifier => exact munches_word
  | wordContinue => exact munches_wordContinue
  | reserved => exact munches_reserved complete

theorem endAt?_eq_head? (complete : ∀ keyword, keyword ∈ order) (shape : Shape) (text : Text)
    (offset : Int) : shape.endAt? text offset = (shape.endsAt order text offset).head? := by
  rw [endsAt, List.head?_map, (shape.munches complete).first, Option.map_map]
  rfl

theorem next_of_skipped {text : Text} (skipped : Lexical.trivia false text = ([], text)) :
    ∀ next, text.head? = some next → isBlank next = false ∧ next ≠ '#' := by
  intro next head
  obtain ⟨rest, rfl⟩ := List.head?_eq_some_iff.mp head
  rw [Lexical.trivia, if_neg Bool.false_ne_true] at skipped
  split at skipped
  · cases skipped
  · rename_i solid
    simpa using solid

theorem endAt?_trivia (text : Text) (offset : Int) :
    ∃ stop, Shape.trivia.endAt? text offset = some stop ∧
      (∀ next, text[stop]? = some next → isBlank next = false ∧ next ≠ '#') ∧
      Shape.trivia.endAt? text stop = some stop := by
  let start := min offset.toNat text.length
  let skipped := Lexical.trivia false (text.drop start)
  have parts : skipped.1 ++ skipped.2 = text.drop start := trivia_append false (text.drop start)
  have lengths := congrArg List.length parts
  rw [List.length_append, List.length_drop] at lengths
  have within : start ≤ text.length := Nat.min_le_right _ _
  have rest_eq : text.drop (start + skipped.1.length) = skipped.2 := by
    rw [← List.drop_drop, ← parts, List.drop_left]
  have nothing : Lexical.trivia false skipped.2 = ([], skipped.2) := trivia_of_rest false _
  refine ⟨start + skipped.1.length, rfl, ?_, ?_⟩
  · intro next found
    apply next_of_skipped nothing
    rw [← rest_eq, List.head?_drop, found]
  · have inside : min ((start + skipped.1.length : Nat) : Int).toNat text.length =
        start + skipped.1.length := by
      rw [Int.toNat_natCast]
      omega
    simp only [endAt?, inside, split?, rest_eq, nothing, Option.map_some, List.length_nil,
      Nat.add_zero]

/-- What a class matches at an offset of a text is what its pattern finds first there, and no match
of the pattern there is longer. A match at the start of a text reaches the end of the text exactly
if the pattern matches it from end to end, and exactly then the text belongs to the class. Behind
trivia there is neither a blank nor a comment, and nothing is left to be skipped. -/
theorem first_match_longest (complete : ∀ keyword, keyword ∈ order) :
    (∀ (shape : Shape) (text : Text) (offset : Int),
      shape.endAt? text offset = (shape.endsAt order text offset).head? ∧
      ∀ stop ∈ shape.endsAt order text offset, ∀ first ∈ shape.endAt? text offset, stop ≤ first) ∧
    (∀ (shape : Shape) (text : Text),
      (shape.endAt? text 0 = some text.length ↔ text.length ∈ shape.endsAt order text 0) ∧
      (shape.spells text = true ↔ text.length ∈ shape.endsAt order text 0)) ∧
    ∀ (text : Text) (offset : Int), ∃ stop, Shape.trivia.endAt? text offset = some stop ∧
      (∀ next, text[stop]? = some next → isBlank next = false ∧ next ≠ '#') ∧
      Shape.trivia.endAt? text stop = some stop := by
  have endsAt_zero (shape : Shape) (text : Text) :
      shape.endsAt order text 0 = (shape.pattern order).lengths text := by
    simp [endsAt]
  have endAt?_zero (shape : Shape) (text : Text) :
      shape.endAt? text 0 = (shape.split? text).map fun found => found.1.length := by
    simp [endAt?]
  refine ⟨fun shape text offset => ⟨endAt?_eq_head? complete shape text offset, ?_⟩,
    fun shape text => ⟨?_, ?_⟩, endAt?_trivia⟩
  · intro stop member first found
    rw [endAt?_eq_head? complete, endsAt, List.head?_map] at found
    obtain ⟨length, inside, rfl⟩ := List.mem_map.mp member
    obtain ⟨longest, head, rfl⟩ := Option.map_eq_some_iff.mp found
    exact Nat.add_le_add_left ((shape.munches complete).le _ length inside longest head) _
  · rw [endsAt_zero, endAt?_zero, (shape.munches complete).full]
    exact (shape.munches complete).first_eq_length_iff Shape.eq_append_of_split? text
  · rw [endsAt_zero, (shape.munches complete).full]

def longerFirst : List Keyword :=
  [.returnWord, .external, .whileWord, .falseWord, .elseWord, .trueWord, .define, .var, .ifWord]

/-- A number ends before its second point, and a word that begins like a reserved one is none. -/
theorem first_match_longest_point :
    (∀ keyword, keyword ∈ longerFirst) ∧
      Shape.number.endAt? ['a', '1', '.', '5', '.'] 1 = some 4 ∧
      (∀ stop ∈ Shape.number.endsAt longerFirst ['a', '1', '.', '5', '.'] 1, stop ≤ 4) ∧
      ¬ 4 ∈ Shape.reserved.endsAt longerFirst ['i', 'f', 'f', 'y'] 0 := by
  have complete : ∀ keyword, keyword ∈ longerFirst := by
    intro keyword
    cases keyword <;> decide
  obtain ⟨atOffset, asWhole, _⟩ := first_match_longest complete
  have found : Shape.number.endAt? ['a', '1', '.', '5', '.'] 1 = some 4 := by decide
  refine ⟨complete, found, fun stop member => (atOffset _ _ _).2 stop member 4 found, ?_⟩
  have other : ¬ Shape.reserved.spells ['i', 'f', 'f', 'y'] = true := by decide
  exact fun member => other ((asWhole .reserved ['i', 'f', 'f', 'y']).2.mpr member)

end Shape

end QubitLang.Lexical
