import QubitLang.Nesting

/-! Which bracket is refused. The scan of a text that knows the depth and whether it is in a
comment finds the first bracket outside of comments that brings the count of open brackets
above the limit. -/

namespace QubitLang.Nesting

/-! ## Brackets outside of comments -/

/-- A comment goes on at an offset: a `#` stands in front of it on its line. -/
def InComment (text : Text) (offset : Nat) : Prop :=
  ∃ start < offset, text[start]? = some '#' ∧
    ∀ between < offset, start < between → text[between]? ≠ some '\n'

instance (text : Text) (offset : Nat) : Decidable (InComment text offset) :=
  inferInstanceAs (Decidable (∃ start, start < offset ∧ _))

def Stands (kind : Char → Bool) (text : Text) (offset : Nat) : Prop :=
  text[offset]?.any kind = true ∧ ¬ InComment text offset

instance (kind : Char → Bool) (text : Text) (offset : Nat) :
    Decidable (Stands kind text offset) :=
  inferInstanceAs (Decidable (_ ∧ _))

/-- How many brackets are open in front of an offset. One that closes nothing is ignored. -/
def openBefore (text : Text) : (offset : Nat) → Nat
  | 0 => 0
  | offset + 1 =>
    if Stands opens text offset then openBefore text offset + 1
    else if Stands closes text offset then openBefore text offset - 1
    else openBefore text offset

def Exceeds (limit : Int) (text : Text) (offset : Nat) : Prop :=
  Stands opens text offset ∧ limit < (openBefore text offset + 1 : Nat)

/-- An offset is the first one behind some offset where brackets nest too deeply. -/
def IsFirstExcess (limit : Int) (text : Text) (start : Nat) : Option Nat → Prop
  | some offset => start ≤ offset ∧ Exceeds limit text offset ∧
    ∀ earlier, start ≤ earlier → earlier < offset → ¬ Exceeds limit text earlier
  | none => ∀ offset, start ≤ offset → ¬ Exceeds limit text offset

/-! ## The scan -/

section

variable {limit : Int} {text : Text} {offset : Nat} {character : Char}

theorem inComment_succ_iff (found : text[offset]? = some character) :
    InComment text (offset + 1) ↔
      character = '#' ∨ InComment text offset ∧ character ≠ '\n' := by
  constructor
  · rintro ⟨start, before, hash, noEnd⟩
    rcases Nat.lt_or_eq_of_le (Nat.le_of_lt_succ before) with earlier | rfl
    · refine .inr ⟨⟨start, earlier, hash, fun between le => noEnd between (by omega)⟩, ?_⟩
      rintro rfl
      exact noEnd offset (Nat.lt_succ_self offset) earlier found
    · rw [found] at hash
      exact .inl (Option.some.inj hash)
  · rintro (rfl | ⟨⟨start, before, hash, noEnd⟩, goesOn⟩)
    · exact ⟨offset, Nat.lt_succ_self offset, found, fun between le later => by omega⟩
    · refine ⟨start, by omega, hash, fun between le later => ?_⟩
      rcases Nat.lt_or_eq_of_le (Nat.le_of_lt_succ le) with earlier | rfl
      · exact noEnd between earlier later
      · rw [found]
        exact fun equal => goesOn (Option.some.inj equal)

theorem stands_iff (kind : Char → Bool) (found : text[offset]? = some character) :
    Stands kind text offset ↔ kind character = true ∧ ¬ InComment text offset := by
  rw [Stands, found, Option.any_some]

theorem IsFirstExcess.skip {found : Option Nat} (within : ¬ Exceeds limit text offset)
    (isFirst : IsFirstExcess limit text (offset + 1) found) :
    IsFirstExcess limit text offset found := by
  cases found with
  | none =>
      intro other le
      rcases Nat.lt_or_eq_of_le le with later | rfl
      · exact isFirst other later
      · exact within
  | some index =>
      obtain ⟨le, exceeds, earlier⟩ := isFirst
      refine ⟨by omega, exceeds, fun other otherLe before => ?_⟩
      rcases Nat.lt_or_eq_of_le otherLe with later | rfl
      · exact earlier other later before
      · exact within

/-- The scan of the text behind an offset, in the state that the text in front has brought
it to. -/
theorem isFirstExcess_excessFrom (limit : Int) (text : Text) : ∀ (rest : Text) (offset : Nat),
    text.drop offset = rest →
      IsFirstExcess limit text offset (excessFrom limit offset (openBefore text offset)
        (decide (InComment text offset)) rest)
  | [], offset, rest_eq => by
      rintro other le ⟨⟨present, _⟩, _⟩
      have none : text[other]? = none :=
        List.getElem?_eq_none (Nat.le_trans (List.drop_eq_nil_iff.mp rest_eq) le)
      rw [none] at present
      cases present
  | character :: rest, offset, rest_eq => by
      have found : text[offset]? = some character := by
        rw [← List.head?_drop, rest_eq, List.head?_cons]
      have behind : text.drop (offset + 1) = rest := by
        rw [← List.drop_drop, rest_eq, List.drop_one, List.tail_cons]
      -- The state of the scan is that of the text in front, so the next step is the same claim.
      have later := isFirstExcess_excessFrom limit text rest (offset + 1) behind
      have comment_iff := inComment_succ_iff found
      by_cases comment : InComment text offset
      · have within : ¬ Exceeds limit text offset := fun exceeds => exceeds.1.2 comment
        have goesOn : decide (InComment text (offset + 1)) = (character != '\n') := by
          rw [Bool.eq_iff_iff, decide_eq_true_iff, comment_iff, bne_iff_ne]
          constructor
          · rintro (rfl | ⟨_, goesOn⟩)
            · decide
            · exact goesOn
          · exact fun goesOn => .inr ⟨comment, goesOn⟩
        rw [openBefore, if_neg fun stands => stands.2 comment,
          if_neg fun stands => stands.2 comment, goesOn] at later
        rw [excessFrom, decide_eq_true comment, if_pos rfl]
        exact later.skip within
      · have opens_iff : Stands opens text offset ↔ opens character = true := by
          rw [stands_iff opens found, and_iff_left comment]
        have closes_iff : Stands closes text offset ↔ closes character = true := by
          rw [stands_iff closes found, and_iff_left comment]
        have begins : decide (InComment text (offset + 1)) = (character == '#') := by
          rw [Bool.eq_iff_iff, decide_eq_true_iff, comment_iff, beq_iff_eq]
          exact or_iff_left fun inside => comment inside.1
        rw [openBefore, begins] at later
        rw [excessFrom, decide_eq_false comment, if_neg Bool.false_ne_true]
        by_cases opening : opens character = true
        · have noHash : (character == '#') = false := by
            rw [beq_eq_false_iff_ne]
            rintro rfl
            cases opening
          rw [if_pos (opens_iff.mpr opening), noHash] at later
          rw [noHash, if_neg Bool.false_ne_true, if_pos opening]
          split
          · rename_i deep
            exact ⟨Nat.le_refl _, ⟨opens_iff.mpr opening, deep⟩, fun other le before => by omega⟩
          · rename_i shallow
            exact later.skip fun exceeds => shallow exceeds.2
        · have within : ¬ Exceeds limit text offset := fun exceeds =>
            opening (opens_iff.mp exceeds.1)
          rw [if_neg ((not_congr opens_iff).mpr opening)] at later
          apply IsFirstExcess.skip within
          by_cases hash : character = '#'
          · subst hash
            rwa [if_neg ((not_congr closes_iff).mpr (by decide))] at later
          · have noHash : (character == '#') = false := beq_eq_false_iff_ne.mpr hash
            rw [noHash] at later
            rw [noHash, if_neg Bool.false_ne_true, if_neg opening]
            split
            · rename_i closing
              rwa [if_pos (closes_iff.mpr closing)] at later
            · rename_i noBracket
              rwa [if_neg ((not_congr closes_iff).mpr noBracket)] at later

/-! ## The check -/

theorem isFirstExcess_firstExcess? (limit : Int) (text : Text) :
    IsFirstExcess limit text 0 (firstExcess? limit text) := by
  have noComment : decide (InComment text 0) = false :=
    decide_eq_false fun ⟨_, before, _⟩ => absurd before (Nat.not_lt_zero _)
  have found := isFirstExcess_excessFrom limit text text 0 List.drop_zero
  rwa [noComment] at found

theorem IsFirstExcess.unique {start : Nat} {found other : Option Nat}
    (isFirst : IsFirstExcess limit text start found)
    (otherIsFirst : IsFirstExcess limit text start other) : other = found := by
  cases found with
  | none =>
      cases other with
      | none => rfl
      | some index => exact absurd otherIsFirst.2.1 (isFirst index otherIsFirst.1)
  | some index =>
      cases other with
      | none => exact absurd isFirst.2.1 (otherIsFirst index isFirst.1)
      | some otherIndex =>
          obtain ⟨le, exceeds, earlier⟩ := isFirst
          obtain ⟨otherLe, otherExceeds, otherEarlier⟩ := otherIsFirst
          rcases Nat.lt_trichotomy index otherIndex with before | rfl | behind
          · exact absurd exceeds (otherEarlier index le before)
          · rfl
          · exact absurd otherExceeds (earlier otherIndex otherLe behind)

/-- The check refuses a text at the first bracket that nests too deeply, and no other text. -/
theorem check_eq_error_iff {error : SyntaxError} : check limit text = .error error ↔
    ∃ offset, (Exceeds limit text offset ∧ ∀ earlier < offset, ¬ Exceeds limit text earlier) ∧
      error = Nesting.error limit text offset := by
  have first := isFirstExcess_firstExcess? limit text
  have first_iff (offset : Nat) : IsFirstExcess limit text 0 (some offset) ↔
      Exceeds limit text offset ∧ ∀ earlier < offset, ¬ Exceeds limit text earlier := by
    simp [IsFirstExcess]
  simp only [← first_iff, check]
  cases found : firstExcess? limit text with
  | none =>
      rw [found] at first
      refine iff_of_false nofun ?_
      rintro ⟨offset, isFirst, _⟩
      cases first.unique isFirst
  | some index =>
      rw [found] at first
      rw [Except.error.injEq]
      constructor
      · rintro rfl
        exact ⟨index, first, rfl⟩
      · rintro ⟨offset, isFirst, rfl⟩
        cases first.unique isFirst
        rfl

theorem check_eq_ok_iff : check limit text = .ok () ↔ ∀ offset, ¬ Exceeds limit text offset := by
  have first := isFirstExcess_firstExcess? limit text
  rw [check]
  cases found : firstExcess? limit text with
  | none =>
      rw [found] at first
      exact iff_of_true rfl fun offset => first offset (Nat.zero_le offset)
  | some index =>
      rw [found] at first
      exact iff_of_false nofun fun within => within index first.2.1

end

end QubitLang.Nesting
