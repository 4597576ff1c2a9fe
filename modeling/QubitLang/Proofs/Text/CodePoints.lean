import QubitLang.Text.IdentifierContinue
import QubitLang.Text.IdentifierStart

/-! Ranges read off a property. They hold the code points with the property, and since each of
them is as long as it can be, no other ranges do: a table of such ranges is what is read off the
property that it stands for. -/

namespace QubitLang.CodePoints

/-- Ranges from `least` on and below `bound`, none of which touches the next. -/
def areRuns (bound : Nat) : (least : Nat) → CodePoints → Bool
  | _, [] => true
  | least, (first, last) :: rest =>
    least ≤ first && first ≤ last && last < bound && areRuns bound (last + 2) rest

/-! ## What ranges hold -/

section

variable {bound least otherLeast first last point sought : Nat} {ranges others rest : CodePoints}

theorem areRuns_cons : areRuns bound least ((first, last) :: rest) = true ↔
    least ≤ first ∧ first ≤ last ∧ last < bound ∧ areRuns bound (last + 2) rest = true := by
  simp [areRuns, and_assoc]

theorem areRuns_mono (runs : areRuns bound least ranges = true) (le : otherLeast ≤ least) :
    areRuns bound otherLeast ranges = true := by
  cases ranges with
  | nil => rfl
  | cons range rest =>
    rw [areRuns_cons] at runs ⊢
    exact ⟨Nat.le_trans le runs.1, runs.2⟩

theorem includes_of_lt (runs : areRuns bound least ranges = true) (below : point < least) :
    ranges.includes point = false := by
  cases ranges with
  | nil => rfl
  | cons range rest =>
    have le := (areRuns_cons.mp runs).1
    rw [includes, if_pos (by omega)]

theorem includes_cons (runs : areRuns bound least ((first, last) :: rest) = true) :
    includes ((first, last) :: rest) point = true ↔
      (first ≤ point ∧ point ≤ last) ∨ rest.includes point = true := by
  obtain ⟨_, ordered, _, later⟩ := areRuns_cons.mp runs
  rw [includes]
  split
  · next early =>
    have nowhere := includes_of_lt later (show point < last + 2 by omega)
    simp [nowhere]
    omega
  · split
    · next late inside => simp [inside]; omega
    · next late outside => simp [outside]

theorem lt_of_includes (runs : areRuns bound least ranges = true)
    (included : ranges.includes point = true) : point < bound := by
  induction ranges generalizing least with
  | nil => cases included
  | cons range rest later_lt =>
    obtain ⟨_, _, lt, later⟩ := areRuns_cons.mp runs
    obtain ⟨_, le⟩ | included := (includes_cons runs).mp included
    · omega
    · exact later_lt later included

/-! ## Ranges with the same code points -/

theorem first_le {otherFirst otherLast : Nat} {otherRest : CodePoints}
    (runs : areRuns bound least ((first, last) :: rest) = true)
    (same : ∀ point, includes ((first, last) :: rest) point =
      includes ((otherFirst, otherLast) :: otherRest) point) : otherFirst ≤ first := by
  obtain ⟨_, ordered, _, _⟩ := areRuns_cons.mp runs
  have included := (includes_cons runs).mpr (.inl ⟨Nat.le_refl first, ordered⟩)
  refine Nat.le_of_not_lt fun early => ?_
  rw [same, includes, if_pos early] at included
  cases included

theorem last_le {otherLast : Nat} {otherRest : CodePoints}
    (runs : areRuns bound least ((first, last) :: rest) = true)
    (otherRuns : areRuns bound otherLeast ((first, otherLast) :: otherRest) = true)
    (same : ∀ point, includes ((first, last) :: rest) point =
      includes ((first, otherLast) :: otherRest) point) : last ≤ otherLast := by
  obtain ⟨_, ordered, _, _⟩ := areRuns_cons.mp runs
  obtain ⟨_, otherOrdered, _, otherLater⟩ := areRuns_cons.mp otherRuns
  refine Nat.le_of_not_lt fun short => ?_
  -- The code point after the shorter range is in the longer one.
  have included := (includes_cons runs).mpr (.inl (show first ≤ otherLast + 1 ∧ _ by omega))
  rw [same, includes_cons otherRuns, includes_of_lt otherLater (by omega)] at included
  cases included with
  | inl inside => omega
  | inr later => cases later

/-- Ranges as long as possible are determined by the code points that they hold. -/
theorem eq_of_includes (runs : areRuns bound least ranges = true)
    (otherRuns : areRuns bound otherLeast others = true)
    (same : ∀ point, ranges.includes point = others.includes point) : ranges = others := by
  induction ranges generalizing least otherLeast others with
  | nil =>
    cases others with
    | nil => rfl
    | cons range rest =>
      have included := (includes_cons otherRuns).mpr
        (.inl ⟨Nat.le_refl _, (areRuns_cons.mp otherRuns).2.1⟩)
      rw [← same] at included
      cases included
  | cons range rest eq_of_same =>
    cases others with
    | nil =>
      have included := (includes_cons runs).mpr
        (.inl ⟨Nat.le_refl _, (areRuns_cons.mp runs).2.1⟩)
      rw [same] at included
      cases included
    | cons other otherRest =>
      obtain ⟨first, last⟩ := range
      obtain ⟨otherFirst, otherLast⟩ := other
      obtain rfl : otherFirst = first := Nat.le_antisymm (first_le runs same)
        (first_le otherRuns fun point => (same point).symm)
      obtain rfl : otherLast = last := Nat.le_antisymm
        (last_le otherRuns runs fun point => (same point).symm) (last_le runs otherRuns same)
      obtain ⟨_, _, _, later⟩ := areRuns_cons.mp runs
      obtain ⟨_, _, _, otherLater⟩ := areRuns_cons.mp otherRuns
      rw [eq_of_same later otherLater fun point => ?_]
      rcases Nat.lt_or_ge point (otherLast + 2) with early | late
      · rw [includes_of_lt later early, includes_of_lt otherLater early]
      · have same := same point
        rw [Bool.eq_iff_iff, includes_cons runs, includes_cons otherRuns] at same
        rw [Bool.eq_iff_iff]
        grind

end

/-! ## What is read off a property -/

section

variable {holds : Nat → Bool} {bound least point sought count : Nat} {ranges : CodePoints}

theorem areRuns_prepend (runs : areRuns bound (point + 1) ranges = true) (lt : point < bound) :
    areRuns bound point (prepend point ranges) = true := by
  cases ranges with
  | nil => simp [prepend, areRuns, lt]
  | cons range rest =>
    obtain ⟨first, last⟩ := range
    obtain ⟨le, ordered, last_lt, later⟩ := areRuns_cons.mp runs
    rw [prepend]
    split
    · exact areRuns_cons.mpr ⟨Nat.le_refl _, by omega, last_lt, later⟩
    · exact areRuns_cons.mpr ⟨Nat.le_refl _, Nat.le_refl _, lt,
        areRuns_cons.mpr ⟨by omega, ordered, last_lt, later⟩⟩

theorem includes_prepend (runs : areRuns bound (point + 1) ranges = true) (lt : point < bound) :
    (prepend point ranges).includes sought = true ↔
      sought = point ∨ ranges.includes sought = true := by
  have longer := areRuns_prepend runs lt
  cases ranges with
  | nil =>
    rw [prepend] at longer ⊢
    rw [includes_cons longer]
    simp [includes]
    omega
  | cons range rest =>
    obtain ⟨first, last⟩ := range
    obtain ⟨_, ordered, _, _⟩ := areRuns_cons.mp runs
    rw [prepend] at longer ⊢
    split at longer
    · next adjacent =>
      rw [if_pos adjacent, includes_cons longer, includes_cons runs]
      grind
    · next apart =>
      rw [if_neg apart, includes_cons longer]
      grind

theorem runsFrom_spec (holds : Nat → Bool) (whole : point + count = bound) :
    areRuns bound point (runsFrom holds point count) = true ∧
      ∀ sought, (runsFrom holds point count).includes sought = true ↔
        point ≤ sought ∧ sought < bound ∧ holds sought = true := by
  induction count generalizing point with
  | zero => exact ⟨rfl, fun sought => by simp [runsFrom, includes]; omega⟩
  | succ count later =>
    obtain ⟨runs, includes_iff⟩ := later (show point + 1 + count = bound by omega)
    have lt : point < bound := by omega
    rw [runsFrom]
    split
    · next held =>
      refine ⟨areRuns_prepend runs lt, fun sought => ?_⟩
      rw [includes_prepend runs lt, includes_iff]
      grind
    · next lacking =>
      refine ⟨areRuns_mono runs (Nat.le_succ point), fun sought => ?_⟩
      rw [includes_iff]
      grind

theorem includes_ofProperty :
    (ofProperty holds).includes point = true ↔ point < 0x110000 ∧ holds point = true := by
  rw [ofProperty, (runsFrom_spec holds (Nat.zero_add _)).2]
  exact and_iff_right (Nat.zero_le point)

theorem ofProperty_includes (runs : areRuns 0x110000 least ranges = true) :
    ofProperty ranges.includes = ranges := by
  refine eq_of_includes (runsFrom_spec _ (Nat.zero_add _)).1 runs fun sought => ?_
  rw [Bool.eq_iff_iff]
  exact includes_ofProperty.trans (and_iff_right_of_imp (lt_of_includes runs))

end

/-! ## The tables -/

theorem areRuns_identifierStart : areRuns 0x110000 0x41 identifierStart = true := by
  decide +kernel

theorem areRuns_identifierContinue : areRuns 0x110000 0x30 identifierContinue = true := by
  decide +kernel

end QubitLang.CodePoints
