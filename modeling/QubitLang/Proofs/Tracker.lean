import QubitLang.Proofs.Peg.Furthest
import QubitLang.Tracker

/-! A tracker keeps how far a match got, and what was expected there. In which order failures are
noted does not matter, nor how often each of them is, nor what else is asked in between. -/

namespace QubitLang

theorem sortedLabels_of_pairwise {labels : List String} (ascending : labels.Pairwise (· < ·)) :
    sortedLabels labels = labels :=
  (pairwise_sortedLabels labels).eq_of_mem_iff ascending fun _ => mem_sortedLabels

namespace Tracker

def after (tracker : Tracker) (steps : List Step) : Tracker :=
  steps.foldl (fun tracker step => (tracker.take step).2) tracker

/-- Whether a tracker is what an earlier one comes to by some failures, of which each is a label
at an offset. -/
structure Follows (earlier : Tracker) (failed : Set (String × Int)) (later : Tracker) : Prop where
  text_eq : later.text = earlier.text
  options_eq : later.options = earlier.options
  gathers : earlier.expectations.Gathers failed later.expectations

variable {earlier later other : Tracker} {failed : Set (String × Int)}

theorem Follows.refl (tracker : Tracker) : tracker.Follows ∅ tracker :=
  ⟨rfl, rfl, .refl tracker.expectations⟩

theorem Follows.take (follows : earlier.Follows failed later) (step : Step) :
    earlier.Follows ({entry | step = .fail entry.2 entry.1} ∪ failed) (later.take step).2 := by
  cases step with
  | fail offset label =>
      have new : {entry : String × Int | Step.fail offset label = .fail entry.2 entry.1} =
          {(label, offset)} := by
        ext entry
        simp [Prod.ext_iff, eq_comm, and_comm]
      rw [new, Set.singleton_union]
      exact ⟨follows.text_eq, follows.options_eq, follows.gathers.record offset label⟩
  | token | tree | syntaxError => simpa [Tracker.take] using follows

/-- A tracker is determined by what failed. -/
theorem Follows.unique (follows : earlier.Follows failed later)
    (otherFollows : earlier.Follows failed other) : later = other :=
  Tracker.ext (follows.text_eq.trans otherFollows.text_eq.symm)
    (follows.options_eq.trans otherFollows.options_eq.symm)
    (follows.gathers.unique later.ascending otherFollows.gathers other.ascending)

theorem follows_after (tracker : Tracker) (steps : List Step) :
    tracker.Follows {entry | .fail entry.2 entry.1 ∈ steps} (tracker.after steps) := by
  induction steps using List.reverseRecOn with
  | nil => simpa [after] using Follows.refl tracker
  | append_singleton steps step induction =>
      have split : {entry : String × Int | Step.fail entry.2 entry.1 ∈ steps ++ [step]} =
          {entry | step = .fail entry.2 entry.1} ∪ {entry | .fail entry.2 entry.1 ∈ steps} := by
        ext entry
        simp [or_comm, eq_comm]
      rw [split, after, List.foldl_concat]
      exact induction.take step

theorem after_eq_of_fail_mem_iff (tracker : Tracker) {steps others : List Step}
    (same : ∀ offset label, Step.fail offset label ∈ others ↔ .fail offset label ∈ steps) :
    tracker.after others = tracker.after steps := by
  have follows := follows_after tracker others
  simp only [same] at follows
  exact follows.unique (follows_after tracker steps)

/-! ## Errors -/

theorem atSignedOffset_natCast (text : Text) (offset : Nat) (expected : List String)
    (tooDeep : Bool) (summary : String) :
    SyntaxError.atSignedOffset text offset expected tooDeep summary =
      .ok (.ofPlace tooDeep text offset ((LineIndex.ofText text).place offset).line
        ((LineIndex.ofText text).place offset).column expected summary) := by
  have ordered : (0 : Int) ≤ offset := Int.natCast_nonneg offset
  simp only [SyntaxError.atSignedOffset, SyntaxError.ofSignedPlace, Span.ofOffsets, ordered,
    Int.le_refl, and_self, dif_pos, Except.map, Int.toNat_natCast]

theorem syntaxError_none (tracker : Tracker) (tooDeep : Bool) (summary : String) :
    tracker.syntaxError tooDeep none summary =
      .ok (.ofPlace tooDeep tracker.text tracker.expectations.errorOffset
        (tracker.lines.place tracker.expectations.errorOffset).line
        (tracker.lines.place tracker.expectations.errorOffset).column tracker.labels summary) := by
  rw [syntaxError, Option.getD_none, furthest, ← Int.ofNat_toNat]
  exact atSignedOffset_natCast _ _ _ _ _

/-- The error for which no place is given is at the furthest offset, or at the start of the text
if that is before it, and expects all that was expected there. -/
theorem syntaxError_furthest (tracker : Tracker) (tooDeep : Bool) (summary : String) :
    ∃ error, tracker.syntaxError tooDeep none summary = .ok error ∧
      (error.offset : Int) = max tracker.furthest 0 ∧ error.expected = tracker.labels :=
  ⟨_, syntaxError_none tracker tooDeep summary, Int.ofNat_toNat _,
    sortedLabels_of_pairwise tracker.ascending⟩

/-! ## Failed matches -/

def Step.ofExpectation (expectation : Peg.Expectation) : Step :=
  .fail expectation.2 expectation.1

theorem expectations_after_ofExpectation (tracker : Tracker) (expected : List Peg.Expectation) :
    (tracker.after (expected.map Step.ofExpectation)).expectations =
      (expected.map Peg.Expectation.entry).foldl
        (fun sofar entry => sofar.record entry.2 entry.1) tracker.expectations := by
  induction expected generalizing tracker with
  | nil => rfl
  | cons expectation expected induction =>
      exact induction (tracker.fail expectation.2 expectation.1)

theorem syntaxError_after_ofExpectation (text : Text) (options : Options)
    {events : List Peg.Event} (expects : events.filterMap Peg.Event.expectation? ≠ []) :
    ((start text options).after
        ((events.filterMap Peg.Event.expectation?).map Step.ofExpectation)).syntaxError
      false none "" = .ok (Peg.syntaxErrorOf text events) := by
  obtain ⟨expectation, member⟩ := List.exists_mem_of_ne_nil _ expects
  have le_furthest : (expectation.2 : Int) ≤ (Peg.expectationsOf events).furthest :=
    (Peg.expectationsOf_gathers events).furthest.2
      (Set.mem_insert_of_mem _ ⟨expectation.1, List.mem_map.mpr ⟨expectation, member, rfl⟩⟩)
  have recorded : ¬ (Peg.expectationsOf events).furthest < 0 := by omega
  rw [syntaxError_none, labels, lines, (follows_after _ _).text_eq,
    expectations_after_ofExpectation, Peg.syntaxErrorOf, if_neg recorded,
    Peg.expectationsOf_eq_foldl]
  rfl

theorem syntaxErrorOf_eq_of_expectation_mem_iff (text : Text) {events others : List Peg.Event}
    (expects : events.filterMap Peg.Event.expectation? ≠ [])
    (same : ∀ expectation, expectation ∈ others.filterMap Peg.Event.expectation? ↔
      expectation ∈ events.filterMap Peg.Event.expectation?) :
    Peg.syntaxErrorOf text others = Peg.syntaxErrorOf text events := by
  obtain ⟨expectation, member⟩ := List.exists_mem_of_ne_nil _ expects
  have othersExpect := List.ne_nil_of_mem ((same expectation).mpr member)
  have sameFailures : ∀ offset label,
      Step.fail offset label ∈ (others.filterMap Peg.Event.expectation?).map Step.ofExpectation ↔
        .fail offset label ∈ (events.filterMap Peg.Event.expectation?).map Step.ofExpectation := by
    simp only [List.mem_map, same, implies_true]
  have reported := syntaxError_after_ofExpectation text {} othersExpect
  rw [after_eq_of_fail_mem_iff _ sameFailures, syntaxError_after_ofExpectation text {} expects]
    at reported
  exact (Except.ok.inj reported).symm

/-! ## Tracking -/

/-- What failed, and nothing else, tells what a tracker comes to. From the start, the furthest offset
is the greatest of -1 and all offsets at which something failed, and the labels are those that
failed there. Whether the same failures are noted in another order or more than once, and whatever
else is asked in between, the tracker is the same, and so is the error that it answers. -/
theorem tracks_failures (text : Text) (options : Options) (tracker : Tracker)
    (steps : List Step) :
    IsGreatest (insert (-1) {offset | ∃ label, Step.fail offset label ∈ steps})
        ((start text options).after steps).furthest ∧
      (∀ label, label ∈ ((start text options).after steps).labels ↔
        .fail ((start text options).after steps).furthest label ∈ steps) ∧
      tracker.Follows {entry | .fail entry.2 entry.1 ∈ steps} (tracker.after steps) ∧
      ∀ others, (∀ offset label, Step.fail offset label ∈ others ↔ .fail offset label ∈ steps) →
        tracker.after others = tracker.after steps ∧
          ∀ tooDeep summary, ∃ error,
            (tracker.after others).syntaxError tooDeep none summary = .ok error ∧
            (tracker.after steps).syntaxError tooDeep none summary = .ok error ∧
            (error.offset : Int) = max (tracker.after steps).furthest 0 ∧
            error.expected = (tracker.after steps).labels := by
  have gathers := (follows_after (start text options) steps).gathers
  refine ⟨gathers.furthest, gathers.mem_labels_none, follows_after tracker steps,
    fun others same => ?_⟩
  have after_eq := after_eq_of_fail_mem_iff tracker same
  rw [after_eq]
  refine ⟨rfl, fun tooDeep summary => ?_⟩
  obtain ⟨error, answers, offset_eq, expected_eq⟩ :=
    (tracker.after steps).syntaxError_furthest tooDeep summary
  exact ⟨error, answers, answers, offset_eq, expected_eq⟩

/-- One of two failures at the furthest offset is noted again, one is before the start of the text,
and an error at no place is asked for in between. -/
theorem tracks_failures_shuffled :
    let tracker := start ['a', 'b', 'c'] {}
    let steps : List Step := [.fail 2 "b", .token "K" 0 1, .fail (-1) "z", .fail 2 "a"]
    let others : List Step :=
      [.fail 2 "a", .syntaxError true (some (-3, ["q"])) "", .fail (-1) "z", .fail 2 "b",
        .tree "t" [] 1 2, .fail 2 "a"]
    (∀ offset label, Step.fail offset label ∈ others ↔ .fail offset label ∈ steps) ∧
      IsGreatest (insert (-1) {offset | ∃ label, Step.fail offset label ∈ steps})
        (tracker.after steps).furthest ∧
      tracker.after others = tracker.after steps ∧
      ∃ error, (tracker.after others).syntaxError false none "" = .ok error ∧
        (error.offset : Int) = 2 ∧ error.expected = ["a", "b"] := by
  intro tracker steps others
  have same : ∀ offset label,
      Step.fail offset label ∈ others ↔ .fail offset label ∈ steps := by
    intro offset label
    simp only [others, steps, List.mem_cons, Step.fail.injEq, reduceCtorEq, List.not_mem_nil]
    tauto
  obtain ⟨furthest, _, _, unordered⟩ := tracks_failures ['a', 'b', 'c'] {} tracker steps
  obtain ⟨after_eq, answers⟩ := unordered others same
  obtain ⟨error, answered, _, offset_eq, expected_eq⟩ := answers false ""
  exact ⟨same, furthest, after_eq, error, answered, offset_eq, expected_eq⟩

/-- What failed at -1 counts as long as nothing failed further on, and what failed before that never
does. -/
example : ((start [] {}).after [.fail (-2) "early", .fail (-1) "late"]).labels = ["late"] := by
  decide

end Tracker

end QubitLang
