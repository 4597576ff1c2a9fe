import QubitLang.Text.Basic

namespace QubitLang

/-! What a match expected, as far as an error tells it. -/

/-! ## Sets of labels

A set of labels is its ascending list. -/

def insertLabel (label : String) : List String → List String
  | [] => [label]
  | first :: rest =>
    if label = first then first :: rest
    else if label < first then label :: first :: rest
    else first :: insertLabel label rest

theorem mem_insertLabel {label other : String} : ∀ {labels : List String},
    other ∈ insertLabel label labels ↔ other = label ∨ other ∈ labels
  | [] => by simp [insertLabel]
  | first :: rest => by
      unfold insertLabel
      split
      · rename_i equal
        subst equal
        simp
      · split
        · simp
        · rw [List.mem_cons, mem_insertLabel, List.mem_cons]
          exact or_left_comm

theorem pairwise_insertLabel {label : String} : ∀ {sorted : List String},
    sorted.Pairwise (· < ·) → (insertLabel label sorted).Pairwise (· < ·)
  | [], _ => List.pairwise_singleton _ _
  | first :: rest, ascends => by
      obtain ⟨least, restAscends⟩ := List.pairwise_cons.mp ascends
      unfold insertLabel
      split
      · exact ascends
      · rename_i different
        split
        · rename_i before
          refine List.pairwise_cons.mpr ⟨fun other member => ?_, ascends⟩
          rcases List.mem_cons.mp member with rfl | later
          · exact before
          · exact String.lt_trans before (least other later)
        · rename_i notBefore
          have behind : first < label :=
            Std.lt_of_le_of_ne (String.not_lt.mp notBefore) (Ne.symm different)
          refine List.pairwise_cons.mpr ⟨fun other member => ?_, pairwise_insertLabel restAscends⟩
          rcases mem_insertLabel.mp member with rfl | later
          · exact behind
          · exact least other later

def sortedLabels (labels : List String) : List String :=
  labels.foldl (fun sorted label => insertLabel label sorted) []

/-! ## What was expected where -/

/-- The furthest offset at which something was expected, and all that was
expected there. -/
structure Expectations where
  furthest : Int
  labels : List String
  deriving DecidableEq, Repr

namespace Expectations

def none : Expectations := ⟨-1, []⟩

def record (expectations : Expectations) (offset : Int) (label : String) :
    Expectations :=
  if expectations.furthest < offset then ⟨offset, [label]⟩
  else if offset = expectations.furthest then
    ⟨offset, insertLabel label expectations.labels⟩
  else expectations

theorem pairwise_record {expectations : Expectations}
    (ascending : expectations.labels.Pairwise (· < ·)) (offset : Int) (label : String) :
    (expectations.record offset label).labels.Pairwise (· < ·) := by
  unfold record
  split
  · exact List.pairwise_singleton _ _
  · split
    · exact pairwise_insertLabel ascending
    · exact ascending

def errorOffset (expectations : Expectations) : Nat :=
  expectations.furthest.toNat

end Expectations

end QubitLang
