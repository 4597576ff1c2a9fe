import QubitLang.Node
import QubitLang.Proofs.Json.Reading

/-! The view of a node keeps apart all that the node is made of, and is what the text of the node
stands for. -/

namespace QubitLang.Node

/-! ## Equal views -/

theorem offsetView_inj {offset other : Option Int} :
    offsetView offset = offsetView other ↔ offset = other := by
  cases offset <;> cases other <;> simp [offsetView]

theorem endsView_inj {ends other : Ends} : endsView ends = endsView other ↔ ends = other := by
  cases ends
  cases other
  simp [endsView, offsetView_inj]

theorem locationView_inj {location other : Location} :
    locationView location = locationView other ↔ location = other := by
  cases location <;> cases other <;>
    simp [locationView, endsView_inj, Ends.between, Prod.ext_iff]
  all_goals simp [endsView]

mutual

theorem eq_of_view_eq : ∀ {node other : Node}, node.view = other.view → node = other
  | .tree rule location children, .tree otherRule otherLocation otherChildren, equal => by
      simp only [view, Json.object.injEq, List.cons.injEq, Prod.mk.injEq, Json.text.injEq,
        Json.array.injEq, String.toList_inj, locationView_inj, true_and, and_true] at equal
      obtain ⟨rfl, rfl, inner_eq⟩ := equal
      rw [eq_of_viewAll_eq inner_eq]
  | .token rule ends text, .token otherRule otherEnds otherText, equal => by
      simp only [view, Json.object.injEq, List.cons.injEq, Prod.mk.injEq, Json.text.injEq,
        String.toList_inj, endsView_inj, true_and, and_true] at equal
      obtain ⟨rfl, rfl, rfl⟩ := equal
      rfl
  | .tree _ _ _, .token _ _ _, equal | .token _ _ _, .tree _ _ _, equal => by
      simp [view] at equal

theorem eq_of_viewAll_eq : ∀ {nodes others : List Node}, viewAll nodes = viewAll others →
    nodes = others
  | [], [], _ => rfl
  | node :: rest, other :: others, equal => by
      simp only [viewAll, List.cons.injEq] at equal
      rw [eq_of_view_eq equal.1, eq_of_viewAll_eq equal.2]
  | [], _ :: _, equal | _ :: _, [], equal => by
      simp [viewAll] at equal

end

theorem view_injective : Function.Injective view := fun _ _ => eq_of_view_eq

/-! ## Texts -/

theorem toJsonWith_eq_ok_iff {indent : Option Int} {node : Node} {source : Text} :
    node.toJsonWith indent = .ok source ↔
      (∀ spaces ∈ indent, fitsWord spaces = true) ∧
        source = node.toJson (indent.map Int.toNat) := by
  cases indent with
  | none => simp [toJsonWith, pure, Except.pure, Except.map, eq_comm (a := source)]
  | some spaces =>
      cases fits : fitsWord spaces with
      | false => simp [toJsonWith, asWord, fits, Except.map]
      | true => simp [toJsonWith, asWord, fits, Except.map, eq_comm (a := source)]

/-- The text of a node is written as JSON, whatever the indent, and stands for the view of the node
and for nothing else. Nodes with the same view, or with the same text, are the same. There is such
a text for every indent that fits into a word. -/
theorem toJson_stands_for_view (node : Node) (indent : Option Nat) :
    (∀ value, Json.Padded (Json.Writes value) (node.toJson indent) ↔ value = node.view) ∧
    Json.read? (node.toJson indent) = some node.view ∧
    (∀ other : Option Nat, Json.read? (node.toJson other) = Json.read? (node.toJson indent)) ∧
    (∀ other : Node, other.toJson indent = node.toJson indent ↔ other.view = node.view) ∧
    (∀ other : Node, other.view = node.view ↔ other = node) ∧
    ∀ (signed : Option Int) (text : Text), node.toJsonWith signed = .ok text ↔
      (∀ spaces ∈ signed, fitsWord spaces = true) ∧ text = node.toJson (signed.map Int.toNat) := by
  have written := Json.padded_writes_render indent node.view
  have found : ∀ (node : Node) (indent : Option Nat),
      Json.read? (node.toJson indent) = some node.view :=
    fun node indent => Json.read?_render indent node.view
  refine ⟨?_, found node indent, ?_, ?_, fun other => view_injective.eq_iff,
    fun signed text => toJsonWith_eq_ok_iff⟩
  · intro value
    constructor
    · exact Json.eq_of_padded_writes written
    · rintro rfl
      exact written
  · intro other
    rw [found, found]
  · intro other
    constructor
    · intro equal
      have same := found other indent
      rw [equal, found] at same
      exact (Option.some.inj same).symm
    · intro equal
      rw [toJson, equal, toJson]

end QubitLang.Node
