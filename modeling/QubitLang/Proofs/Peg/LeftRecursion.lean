import Mathlib.Data.Finset.Card
import Mathlib.Data.Finset.Filter
import Mathlib.Data.Finset.Dedup
import Mathlib.Logic.Relation
import QubitLang.Proofs.Peg.Termination

/-! Left recursion, as it shows in the rules: a rule that may call itself before it has
matched anything. A grammar without left recursion has ranks, so that every match ends. -/

namespace QubitLang.Peg

variable {ν : Type}

/-! ## Rules that may match nothing -/

theorem Expr.isNullable_mono {nullable other : ν → Bool}
    (more : ∀ name, nullable name = true → other name = true) (expr : Expr ν) :
    expr.isNullable nullable = true → expr.isNullable other = true := by
  induction expr with
  | empty | star _ _ | opt _ _ | ahead _ _ | notAhead _ _ => exact fun _ => rfl
  | never | noAlternative => exact fun may => may
  | terminal _ => exact fun may => may
  | call name => exact more name
  | seq first second firstInduction secondInduction =>
      simp only [isNullable, Bool.and_eq_true]
      exact And.imp firstInduction secondInduction
  | alt first second firstInduction secondInduction =>
      simp only [isNullable, Bool.or_eq_true]
      exact Or.imp firstInduction secondInduction
  | remember _ body induction | plus body induction => exact induction

theorem Expr.leftCalls_subset_calls (nullable : ν → Bool) (expr : Expr ν) :
    expr.leftCalls nullable ⊆ expr.calls := by
  induction expr with
  | empty | never | noAlternative | terminal _ | call _ => exact List.Subset.refl _
  | seq first second firstInduction secondInduction =>
      apply List.append_subset.mpr
      constructor
      · exact List.subset_append_of_subset_left _ firstInduction
      · split
        · exact List.subset_append_of_subset_right _ secondInduction
        · exact List.nil_subset _
  | alt first second firstInduction secondInduction =>
      apply List.append_subset.mpr
      exact ⟨List.subset_append_of_subset_left _ firstInduction,
        List.subset_append_of_subset_right _ secondInduction⟩
  | remember _ body induction | star body induction | plus body induction
  | opt body induction | ahead body induction | notAhead body induction => exact induction

theorem Expr.leftCalls_mono {nullable other : ν → Bool}
    (more : ∀ name, nullable name = true → other name = true) (expr : Expr ν) :
    expr.leftCalls nullable ⊆ expr.leftCalls other := by
  induction expr with
  | empty | never | noAlternative | terminal _ | call _ => exact List.Subset.refl _
  | seq first second firstInduction secondInduction =>
      intro callee member
      rcases List.mem_append.mp member with inFirst | inSecond
      · exact List.mem_append_left _ (firstInduction inFirst)
      · apply List.mem_append_right
        split at inSecond
        · rename_i may
          rw [if_pos (Expr.isNullable_mono more first may)]
          exact secondInduction inSecond
        · cases inSecond
  | alt first second firstInduction secondInduction =>
      intro callee member
      rcases List.mem_append.mp member with inFirst | inSecond
      · exact List.mem_append_left _ (firstInduction inFirst)
      · exact List.mem_append_right _ (secondInduction inSecond)
  | remember _ body induction | star body induction | plus body induction
  | opt body induction | ahead body induction | notAhead body induction => exact induction

namespace Grammar

variable (grammar : Grammar ν)

/-- Whether each rule whose body may match nothing is among some rules, if those may. -/
def IsClosed (nullable : ν → Bool) : Prop :=
  ∀ name rule, grammar.rule name = some rule → rule.body.isNullable nullable = true →
    nullable name = true

/-- A rule may match nothing if it is among all rules that are closed in this way. -/
def MayMatchNothing (name : ν) : Prop :=
  ∀ nullable, grammar.IsClosed nullable → nullable name = true

open Classical in
noncomputable def nullable (name : ν) : Bool := decide (grammar.MayMatchNothing name)

theorem isClosed_nullable : grammar.IsClosed grammar.nullable := by
  classical
  intro name rule found may
  apply decide_eq_true
  intro closed isClosed
  apply isClosed name rule found
  apply Expr.isNullable_mono _ rule.body may
  intro other member
  exact of_decide_eq_true member closed isClosed

/-! ## Left recursion -/

def LeftCalls (caller callee : ν) : Prop :=
  ∃ rule, grammar.rule caller = some rule ∧ callee ∈ rule.body.leftCalls grammar.nullable

/-- Some rule may come back to itself before anything was matched. -/
def IsLeftRecursive : Prop := ∃ name, Relation.TransGen grammar.LeftCalls name name

structure IsComplete : Prop where
  mem_names : ∀ name rule, grammar.rule name = some rule → name ∈ grammar.names
  mem_of_call : ∀ name rule, grammar.rule name = some rule →
    ∀ callee ∈ rule.body.calls, callee ∈ grammar.names

open Classical in
noncomputable def leftReach (name : ν) : Finset ν :=
  grammar.names.toFinset.filter (Relation.TransGen grammar.LeftCalls name)

variable {grammar}

theorem IsComplete.mem_of_leftCalls (complete : grammar.IsComplete) {caller callee : ν}
    (calls : grammar.LeftCalls caller callee) :
    caller ∈ grammar.names ∧ callee ∈ grammar.names := by
  obtain ⟨rule, found, member⟩ := calls
  exact ⟨complete.mem_names caller rule found, complete.mem_of_call caller rule found callee
    (Expr.leftCalls_subset_calls _ _ member)⟩

theorem mem_leftReach {caller callee : ν} : callee ∈ grammar.leftReach caller ↔
    callee ∈ grammar.names ∧ Relation.TransGen grammar.LeftCalls caller callee := by
  classical
  rw [leftReach, Finset.mem_filter, List.mem_toFinset]

theorem IsComplete.card_leftReach_lt (complete : grammar.IsComplete)
    (acyclic : ¬ grammar.IsLeftRecursive) {caller callee : ν}
    (calls : grammar.LeftCalls caller callee) :
    (grammar.leftReach callee).card < (grammar.leftReach caller).card := by
  apply Finset.card_lt_card
  refine ⟨?_, ?_⟩
  · intro name member
    obtain ⟨inside, path⟩ := mem_leftReach.mp member
    exact mem_leftReach.mpr ⟨inside, .head calls path⟩
  · -- The callee is reached by the caller; by itself it would be only in a circle.
    intro backwards
    have reached := mem_leftReach.mpr ⟨(complete.mem_of_leftCalls calls).2, .single calls⟩
    exact acyclic ⟨callee, (mem_leftReach.mp (backwards reached)).2⟩

/-- Without left recursion, no rule can come to all rules: it cannot come to itself, and what
is no rule comes to nothing. -/
theorem IsComplete.card_leftReach_lt_length (complete : grammar.IsComplete)
    (inhabited : grammar.names ≠ []) (acyclic : ¬ grammar.IsLeftRecursive) (name : ν) :
    (grammar.leftReach name).card < grammar.names.length := by
  classical
  by_cases reaches : (grammar.leftReach name).Nonempty
  · obtain ⟨reached, member⟩ := reaches
    obtain ⟨next, calls, _⟩ := Relation.TransGen.head'_iff.mp (mem_leftReach.mp member).2
    have listed := List.mem_toFinset.mpr (complete.mem_of_leftCalls calls).1
    calc (grammar.leftReach name).card
        < grammar.names.toFinset.card := by
          apply Finset.card_lt_card
          refine ⟨fun other member => List.mem_toFinset.mpr (mem_leftReach.mp member).1, ?_⟩
          intro all
          exact acyclic ⟨name, (mem_leftReach.mp (all listed)).2⟩
      _ ≤ grammar.names.length := List.toFinset_card_le _
  · rw [Finset.not_nonempty_iff_eq_empty.mp reaches]
    exact List.length_pos_iff.mpr inhabited

theorem IsComplete.isRanked (complete : grammar.IsComplete) (inhabited : grammar.names ≠ [])
    (acyclic : ¬ grammar.IsLeftRecursive) :
    grammar.IsRanked grammar.nullable fun name => (grammar.leftReach name).card where
  nullable_of_body := grammar.isClosed_nullable
  rank_of_leftCall _ rule found _ member :=
    complete.card_leftReach_lt acyclic ⟨rule, found, member⟩
  rank_lt := complete.card_leftReach_lt_length inhabited acyclic

theorem IsClosed.of_nullable {closed : ν → Bool} (isClosed : grammar.IsClosed closed)
    (name : ν) (may : grammar.nullable name = true) : closed name = true := by
  classical
  exact of_decide_eq_true may closed isClosed

/-- A grammar is not left recursive if ranks fall on the way from a rule to what it may call
before it has matched anything. -/
theorem IsClosed.not_isLeftRecursive {closed : ν → Bool} {rank : ν → Nat}
    (isClosed : grammar.IsClosed closed)
    (falls : ∀ name rule, grammar.rule name = some rule →
      ∀ callee ∈ rule.body.leftCalls closed, rank callee < rank name) :
    ¬ grammar.IsLeftRecursive := by
  have step : ∀ {caller callee}, grammar.LeftCalls caller callee →
      rank callee < rank caller := by
    intro caller callee calls
    obtain ⟨rule, found, member⟩ := calls
    apply falls caller rule found callee
    exact Expr.leftCalls_mono isClosed.of_nullable rule.body member
  have path_falls : ∀ {caller callee}, Relation.TransGen grammar.LeftCalls caller callee →
      rank callee < rank caller := by
    intro caller callee path
    induction path with
    | single calls => exact step calls
    | tail _ calls induction => exact Nat.lt_trans (step calls) induction
  intro recursive
  obtain ⟨name, path⟩ := recursive
  exact Nat.lt_irrefl _ (path_falls path)

end Grammar

end QubitLang.Peg
