import Mathlib.Data.List.Induction
import Mathlib.Data.List.Sort
import Mathlib.Data.String.Basic
import Mathlib.Order.Bounds.Basic
import QubitLang.Expectations

/-! Recorded expectations tell the furthest offset at which anything was
expected, and all that was expected there, in whatever order it was recorded. -/

namespace QubitLang

theorem mem_foldl_insertLabel {other : String} : ∀ {labels sorted : List String},
    other ∈ labels.foldl (fun sorted label => insertLabel label sorted) sorted ↔
      other ∈ sorted ∨ other ∈ labels
  | [], sorted => by simp
  | label :: labels, sorted => by
      rw [List.foldl_cons, mem_foldl_insertLabel, mem_insertLabel, List.mem_cons]
      rw [or_comm (a := other = label), or_assoc]

@[simp] theorem mem_sortedLabels {other : String} {labels : List String} :
    other ∈ sortedLabels labels ↔ other ∈ labels := by
  rw [sortedLabels, mem_foldl_insertLabel]
  simp

theorem pairwise_sortedLabels (labels : List String) :
    (sortedLabels labels).Pairwise (· < ·) := by
  have ascends : ∀ (labels sorted : List String), sorted.Pairwise (· < ·) →
      (labels.foldl (fun sorted label => insertLabel label sorted) sorted).Pairwise (· < ·) := by
    intro labels
    induction labels with
    | nil => exact fun _ ascends => ascends
    | cons label labels induction =>
        exact fun sorted ascends => induction _ (pairwise_insertLabel ascends)
  exact ascends labels [] .nil

namespace Expectations

/-- Whether expectations are what earlier ones come to by some entries, of which each is a label
at an offset. The greatest of all offsets counts, and what was expected there. -/
structure Gathers (earlier : Expectations) (entries : Set (String × Int))
    (later : Expectations) : Prop where
  furthest : IsGreatest (insert earlier.furthest {offset | ∃ label, (label, offset) ∈ entries})
    later.furthest
  mem_labels : ∀ label, label ∈ later.labels ↔ (label, later.furthest) ∈ entries ∨
    later.furthest = earlier.furthest ∧ label ∈ earlier.labels

theorem furthest_record (expectations : Expectations) (offset : Int) (label : String) :
    (expectations.record offset label).furthest = max offset expectations.furthest := by
  unfold record
  split
  · rename_i further
    exact (max_eq_left (Int.le_of_lt further)).symm
  · rename_i notFurther
    split
    · rename_i same
      rw [same, max_self]
    · exact (max_eq_right (Int.not_lt.mp notFurther)).symm

theorem mem_labels_record (expectations : Expectations) (offset : Int) (label other : String) :
    other ∈ (expectations.record offset label).labels ↔
      other = label ∧ expectations.furthest ≤ offset ∨
        offset ≤ expectations.furthest ∧ other ∈ expectations.labels := by
  unfold record
  split
  · rename_i further
    simp only [List.mem_singleton, Int.le_of_lt further, Int.not_le.mpr further, and_true,
      false_and, or_false]
  · split
    · rename_i same
      simp only [mem_insertLabel, same, Int.le_refl, and_true, true_and]
    · have further : offset < expectations.furthest := by omega
      simp only [Int.not_le.mpr further, Int.le_of_lt further, and_false, false_or, true_and]

theorem Gathers.refl (expectations : Expectations) : expectations.Gathers ∅ expectations where
  furthest := by simp
  mem_labels := by simp

theorem Gathers.record {earlier later : Expectations} {entries : Set (String × Int)}
    (gathers : earlier.Gathers entries later) (offset : Int) (label : String) :
    earlier.Gathers (insert (label, offset) entries) (later.record offset label) := by
  have offsets : insert earlier.furthest
        {other | ∃ name, (name, other) ∈ insert (label, offset) entries} =
      insert offset (insert earlier.furthest {other | ∃ name, (name, other) ∈ entries}) := by
    ext other
    simp only [Set.mem_insert_iff, Set.mem_ofPred_eq, Prod.mk.injEq, exists_or, exists_and_right,
      exists_eq, true_and]
    exact or_left_comm
  have earlier_le : earlier.furthest ≤ later.furthest :=
    gathers.furthest.2 (Set.mem_insert _ _)
  have le_of_mem : ∀ {name other}, (name, other) ∈ entries → other ≤ later.furthest :=
    fun member => gathers.furthest.2 (Set.mem_insert_of_mem _ ⟨_, member⟩)
  constructor
  · rw [offsets, furthest_record]
    exact gathers.furthest.insert offset
  · intro other
    rw [mem_labels_record, gathers.mem_labels, furthest_record, Set.mem_insert_iff,
      Prod.mk.injEq]
    rcases lt_or_ge later.furthest offset with further | notFurther
    · -- Nothing that was expected before counts any more.
      have notMem : (other, offset) ∉ entries := fun member =>
        Int.not_le.mpr further (le_of_mem member)
      have different : offset ≠ earlier.furthest := by omega
      simp [Int.le_of_lt further, Int.not_le.mpr further, notMem, different]
    · have same : later.furthest ≤ offset ↔ later.furthest = offset :=
        ⟨fun le => Int.le_antisymm le notFurther, Int.le_of_eq⟩
      simp only [max_eq_right notFurther, notFurther, same, true_and, or_assoc]

theorem gathers_foldl (expectations : Expectations) (entries : List (String × Int)) :
    expectations.Gathers {entry | entry ∈ entries}
      (entries.foldl (fun sofar entry => sofar.record entry.2 entry.1) expectations) := by
  induction entries using List.reverseRecOn with
  | nil => simpa using Gathers.refl expectations
  | append_singleton entries entry induction =>
      rw [List.foldl_concat]
      have extended : {other | other ∈ entries ++ [entry]} =
          insert entry {other | other ∈ entries} := by
        ext other
        simp [or_comm]
      rw [extended]
      exact induction.record entry.2 entry.1

theorem Gathers.mem_labels_none {later : Expectations} {entries : Set (String × Int)}
    (gathers : none.Gathers entries later) (label : String) :
    label ∈ later.labels ↔ (label, later.furthest) ∈ entries := by
  simp [gathers.mem_labels, none]

/-- Expectations are determined by the entries, if the labels of both ascend. -/
theorem Gathers.unique {earlier later other : Expectations} {entries : Set (String × Int)}
    (gathers : earlier.Gathers entries later) (ascending : later.labels.Pairwise (· < ·))
    (otherGathers : earlier.Gathers entries other)
    (otherAscending : other.labels.Pairwise (· < ·)) : later = other := by
  have furthest_eq : later.furthest = other.furthest :=
    gathers.furthest.unique otherGathers.furthest
  have labels_eq : later.labels = other.labels := by
    refine ascending.eq_of_mem_iff otherAscending fun label => ?_
    rw [gathers.mem_labels, otherGathers.mem_labels, furthest_eq]
  obtain ⟨furthest, labels⟩ := later
  obtain ⟨otherFurthest, otherLabels⟩ := other
  cases furthest_eq
  cases labels_eq
  rfl

end Expectations

end QubitLang
