import Mathlib.Data.Finset.Max
import QubitLang.Peg.Match
import QubitLang.Proofs.Expectations
import QubitLang.Proofs.Peg.Plain

/-! A failed match is reported at the furthest offset at which anything was
expected, with all that was expected there. -/

namespace QubitLang.Peg

def Expectation.entry (expectation : Expectation) : String × Int :=
  (expectation.1, expectation.2)

theorem expectationsOf_eq_foldl (events : List Event) :
    expectationsOf events =
      ((events.filterMap Event.expectation?).map Expectation.entry).foldl
        (fun sofar entry => sofar.record entry.2 entry.1) .none := by
  unfold expectationsOf
  generalize Expectations.none = expectations
  induction events generalizing expectations with
  | nil => rfl
  | cons event events induction =>
      cases event with
      | expected label offset => exact induction (expectations.record offset label)
      | matched | failed | passed => exact induction expectations

theorem expectationsOf_gathers (events : List Event) :
    Expectations.none.Gathers
      {entry | entry ∈ (events.filterMap Event.expectation?).map Expectation.entry}
      (expectationsOf events) := by
  rw [expectationsOf_eq_foldl]
  exact Expectations.gathers_foldl _ _

theorem tooDeep_syntaxErrorOf (text : Text) (events : List Event) :
    (syntaxErrorOf text events).tooDeep = false := by
  simp only [syntaxErrorOf]
  split
  · rfl
  · rfl

theorem pairwise_expected_syntaxErrorOf (text : Text) (events : List Event) :
    (syntaxErrorOf text events).expected.Pairwise (· < ·) := by
  simp only [syntaxErrorOf]
  split
  · exact pairwise_sortedLabels _
  · exact pairwise_sortedLabels _

theorem syntaxErrorOf_of_furthest (text : Text) {events : List Event}
    {expected : List Expectation} (furthest : Nat)
    (same : ∀ expectation, expectation ∈ events.filterMap Event.expectation? ↔
      expectation ∈ expected)
    (offset_le : ∀ expectation ∈ expected, expectation.2 ≤ furthest)
    (reached : ∃ expectation ∈ expected, expectation.2 = furthest) :
    (syntaxErrorOf text events).offset = furthest ∧
      (syntaxErrorOf text events).found = text[furthest]? ∧
      ∀ label, label ∈ (syntaxErrorOf text events).expected ↔
        (label, furthest) ∈ expected := by
  have gathers := expectationsOf_gathers events
  have memEntries : ∀ label (offset : Nat),
      (label, (offset : Int)) ∈
          (events.filterMap Event.expectation?).map Expectation.entry ↔
        (label, offset) ∈ expected := by
    intro label offset
    rw [List.mem_map]
    constructor
    · rintro ⟨expectation, member, equal⟩
      have member := (same expectation).mp member
      obtain ⟨other, otherOffset⟩ := expectation
      simp only [Expectation.entry, Prod.mk.injEq, Int.natCast_inj] at equal
      rwa [equal.1, equal.2] at member
    · intro member
      exact ⟨(label, offset), (same _).mpr member, rfl⟩
  have furthestEq : (expectationsOf events).furthest = (furthest : Int) := by
    refine gathers.furthest.unique ⟨?_, ?_⟩
    · obtain ⟨⟨label, offset⟩, member, rfl⟩ := reached
      exact Set.mem_insert_of_mem _ ⟨label, (memEntries label offset).mpr member⟩
    · rintro other (rfl | ⟨label, member⟩)
      · exact Int.le_trans (by decide) (Int.natCast_nonneg furthest)
      · obtain ⟨expectation, expectationMember, equal⟩ := List.mem_map.mp member
        cases equal
        exact Int.ofNat_le.mpr (offset_le expectation ((same expectation).mp expectationMember))
  have recorded : ¬ (expectationsOf events).furthest < 0 := by
    rw [furthestEq]
    omega
  have offsetEq : (expectationsOf events).errorOffset = furthest := by
    rw [Expectations.errorOffset, furthestEq, Int.toNat_natCast]
  simp only [syntaxErrorOf, if_neg recorded, Expectations.error, SyntaxError.atOffset,
    SyntaxError.ofPlace, offsetEq, true_and]
  intro label
  rw [mem_sortedLabels, gathers.mem_labels_none, furthestEq]
  exact memEntries label furthest

/-- An error at the furthest of some expectations, with all that was expected there in ascending
order, each of it once. -/
structure IsFurthest (expected : List Expectation) (error : SyntaxError) : Prop where
  offset_le : ∀ expectation ∈ expected, expectation.2 ≤ error.offset
  reached : expected ≠ [] → ∃ expectation ∈ expected, expectation.2 = error.offset
  mem_expected : ∀ label, label ∈ error.expected ↔ (label, error.offset) ∈ expected
  ascending : error.expected.Pairwise (· < ·)
  not_tooDeep : error.tooDeep = false

theorem expected_syntaxErrorOf_nil (text : Text) {events : List Event}
    (nothing : events.filterMap Event.expectation? = []) :
    (syntaxErrorOf text events).expected = [] := by
  have none_eq : expectationsOf events = .none := by
    rw [expectationsOf_eq_foldl, nothing]
    rfl
  rw [syntaxErrorOf, none_eq]
  rfl

theorem isFurthest_syntaxErrorOf (text : Text) {events : List Event}
    {expected : List Expectation}
    (same : ∀ expectation, expectation ∈ events.filterMap Event.expectation? ↔
      expectation ∈ expected) : IsFurthest expected (syntaxErrorOf text events) := by
  have ascending := pairwise_expected_syntaxErrorOf text events
  have not_tooDeep := tooDeep_syntaxErrorOf text events
  by_cases empty : expected = []
  · subst empty
    have nothing := expected_syntaxErrorOf_nil text
      (List.eq_nil_iff_forall_not_mem.mpr fun expectation member =>
        List.not_mem_nil ((same expectation).mp member))
    exact ⟨by simp, fun some => absurd rfl some, by simp [nothing], ascending, not_tooDeep⟩
  · obtain ⟨last, member, offset_le⟩ := expected.toFinset.exists_max_image Prod.snd
      ((List.toFinset_nonempty_iff expected).mpr empty)
    rw [List.mem_toFinset] at member
    have bounded : ∀ expectation ∈ expected, expectation.2 ≤ last.2 := fun expectation inside =>
      offset_le expectation (List.mem_toFinset.mpr inside)
    obtain ⟨offset_eq, _, labels⟩ :=
      syntaxErrorOf_of_furthest text last.2 same bounded ⟨last, member, rfl⟩
    rw [← offset_eq] at bounded labels
    exact ⟨bounded, fun _ => ⟨last, member, offset_eq.symm⟩, labels, ascending, not_tooDeep⟩

end QubitLang.Peg
