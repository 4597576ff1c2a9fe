import Mathlib
import QubitLang.Peg.Match
import QubitLang.Proofs.Peg.Leading

/-! A remembered expression is tried at most once at an offset. It does not come back to itself
while it is tried, and what comes later finds its outcome. So a rule that is only called where
remembered expressions are entered is invoked at an offset no more often than it is called in the
rules. -/

namespace QubitLang.Peg

variable {ν : Type}

/-! ## What is tried before anything was matched -/

namespace Expr

def leftRemembered (nullable : ν → Bool) : Expr ν → List (Nat × Expr ν)
  | .empty | .never | .noAlternative | .terminal _ | .call _ => []
  | .seq first second =>
    first.leftRemembered nullable ++
      if first.isNullable nullable then second.leftRemembered nullable else []
  | .alt first second => first.leftRemembered nullable ++ second.leftRemembered nullable
  | .remember site body => (site, body) :: body.leftRemembered nullable
  | .star body | .plus body | .opt body | .ahead body | .notAhead body =>
    body.leftRemembered nullable

theorem leftRemembered_subset (nullable : ν → Bool) (expr : Expr ν) :
    expr.leftRemembered nullable ⊆ expr.remembered := by
  induction expr with
  | empty | never | noAlternative | terminal _ | call _ => exact List.Subset.refl _
  | seq first second firstInduction secondInduction =>
      apply List.append_subset.mpr
      constructor
      · exact List.subset_append_of_subset_left _ firstInduction
      · split
        · exact List.subset_append_of_subset_right _ secondInduction
        · exact List.nil_subset _
  | alt first second firstInduction secondInduction =>
      apply List.append_subset.mpr
      exact ⟨List.subset_append_of_subset_left _ firstInduction,
        List.subset_append_of_subset_right _ secondInduction⟩
  | remember site body induction => exact List.cons_subset_cons _ induction
  | star body induction | plus body induction | opt body induction | ahead body induction
  | notAhead body induction => exact induction

theorem leftCalls_subset_of_mem {nullable : ν → Bool} {expr body : Expr ν} {site : Nat}
    (member : (site, body) ∈ expr.leftRemembered nullable) :
    body.leftCalls nullable ⊆ expr.leftCalls nullable := by
  induction expr with
  | empty | never | noAlternative | terminal _ | call _ => cases member
  | seq first second firstInduction secondInduction =>
      rcases List.mem_append.mp member with inFirst | inSecond
      · exact List.subset_append_of_subset_left _ (firstInduction inFirst)
      · split at inSecond
        · rename_i may
          rw [leftCalls, if_pos may]
          exact List.subset_append_of_subset_right _ (secondInduction inSecond)
        · cases inSecond
  | alt first second firstInduction secondInduction =>
      rcases List.mem_append.mp member with inFirst | inSecond
      · exact List.subset_append_of_subset_left _ (firstInduction inFirst)
      · exact List.subset_append_of_subset_right _ (secondInduction inSecond)
  | remember other inner induction =>
      rcases List.mem_cons.mp member with same | inside
      · cases same
        exact List.Subset.refl _
      · exact induction inside
  | star _ induction | plus _ induction | opt _ induction | ahead _ induction
  | notAhead _ induction => exact induction member

end Expr

/-- Whether a remembered expression may be tried on the way of an expression of a rule: where no
more of the text is left, and where as much is left only as a part of the expression, or of a rule
that it may come to before anything was matched. -/
structure Expr.MayTry (grammar : Grammar ν) (nullable : ν → Bool) (rank : ν → Nat) (text : Text)
    (expr : Expr ν) (owner : ν) (cursor : Cursor) (key : MemoryKey ν) : Prop where
  length_le : (text.drop key.2.2).length ≤ cursor.rest.length
  atOnce : (text.drop key.2.2).length = cursor.rest.length →
    (key.1 = owner ∧ ∃ body, (key.2.1, body) ∈ expr.leftRemembered nullable) ∨
      ∃ callee ∈ expr.leftCalls nullable, rank key.1 ≤ rank callee ∧
        ∃ rule body, grammar.rule key.1 = some rule ∧
          (key.2.1, body) ∈ rule.body.leftRemembered nullable

section

variable {grammar : Grammar ν} {nullable : ν → Bool} {rank : ν → Nat} {text : Text} {owner : ν}
  {cursor : Cursor} {key : MemoryKey ν}

theorem Expr.MayTry.of_part {part whole : Expr ν} {later : Cursor}
    (may : part.MayTry grammar nullable rank text owner later key)
    (length_le : later.rest.length ≤ cursor.rest.length)
    (atOnce : later.rest.length = cursor.rest.length →
      part.leftRemembered nullable ⊆ whole.leftRemembered nullable ∧
        part.leftCalls nullable ⊆ whole.leftCalls nullable) :
    whole.MayTry grammar nullable rank text owner cursor key := by
  have key_le := may.length_le
  refine ⟨Nat.le_trans key_le length_le, fun same => ?_⟩
  obtain ⟨remembered, calls⟩ := atOnce (by omega)
  rcases may.atOnce (by omega) with ⟨isOwner, body, member⟩ | ⟨callee, member, lower⟩
  · exact .inl ⟨isOwner, body, remembered member⟩
  · exact .inr ⟨callee, calls member, lower⟩

theorem Expr.MayTry.of_inner {part whole : Expr ν}
    (may : part.MayTry grammar nullable rank text owner cursor key)
    (remembered : part.leftRemembered nullable ⊆ whole.leftRemembered nullable)
    (calls : part.leftCalls nullable ⊆ whole.leftCalls nullable) :
    whole.MayTry grammar nullable rank text owner cursor key :=
  may.of_part (Nat.le_refl _) fun _ => ⟨remembered, calls⟩

theorem Expr.MayTry.of_body (ranked : grammar.IsRanked nullable rank) {name : ν} {rule : Rule ν}
    (found : grammar.rule name = some rule)
    (may : rule.body.MayTry grammar nullable rank text name cursor key) :
    (Expr.call name).MayTry grammar nullable rank text owner cursor key := by
  refine ⟨may.length_le, fun same => .inr ⟨name, List.mem_singleton.mpr rfl, ?_⟩⟩
  rcases may.atOnce same with ⟨isName, body, member⟩ | ⟨callee, member, lower, inner⟩
  · rw [isName]
    exact ⟨Nat.le_refl _, rule, body, found, member⟩
  · exact ⟨Nat.le_trans lower (ranked.rank_of_leftCall name rule found callee member).le, inner⟩

variable [BEq ν] [Hashable ν] [LawfulBEq ν] [DecidableEq ν]

theorem Expr.Leads.mayTry (ranked : grammar.IsRanked nullable rank) {expr : Expr ν}
    {before after : Progress ν} (leads : expr.Leads grammar text owner cursor before after) :
    cursor.IsIn text → (after.outcomeOf? key).isSome = true →
      (before.outcomeOf? key).isSome = true ∨
        expr.MayTry grammar nullable rank text owner cursor key := by
  have closed := ranked.nullable_of_body
  induction leads with
  | still | failed => exact fun _ known => .inl known
  | call found _ induction =>
      exact fun isIn known => (induction isIn known).imp_right (.of_body ranked found)
  | finish found _ _ induction =>
      intro isIn known
      rw [Progress.outcomeOf?_noteIf] at known
      exact (induction isIn known).imp_right (.of_body ranked found)
  | seqFirst _ induction | altFirst _ induction =>
      exact fun isIn known => (induction isIn known).imp_right fun may =>
        may.of_inner (List.subset_append_left _ _) (List.subset_append_left _ _)
  | @seqSecond first second owner cursor middle values _ _ _ _ _ settled middleIsIn _ firstInduction
      secondInduction =>
      intro isIn known
      rcases secondInduction middleIsIn known with earlier | may
      · exact (firstInduction isIn earlier).imp_right fun may =>
          may.of_inner (List.subset_append_left _ _) (List.subset_append_left _ _)
      · refine .inr (may.of_part settled.length_le fun same => ?_)
        have mayBeNothing : first.isNullable nullable = true := by
          by_contra consumes
          have shorter := (settled.goesOn closed middle values rfl).2 (by simpa using consumes)
          omega
        rw [leftRemembered, leftCalls, if_pos mayBeNothing, if_pos mayBeNothing]
        exact ⟨List.subset_append_right _ _, List.subset_append_right _ _⟩
  | altSecond _ _ firstInduction secondInduction =>
      intro isIn known
      rcases secondInduction isIn known with earlier | may
      · exact (firstInduction isIn earlier).imp_right fun may =>
          may.of_inner (List.subset_append_left _ _) (List.subset_append_left _ _)
      · exact .inr (may.of_inner (List.subset_append_right _ _) (List.subset_append_right _ _))
  | @remember site body owner cursor _ _ _ _ _ induction =>
      intro isIn known
      rw [Progress.outcomeOf?_remember] at known
      split at known
      · rename_i isKey
        subst isKey
        refine .inr ⟨?_, fun _ => .inl ⟨rfl, body, List.mem_cons_self⟩⟩
        rw [← isIn]
      · exact (induction isIn known).imp_right fun may =>
          may.of_inner (List.subset_cons_self _ _) (List.Subset.refl _)
  | starAgain _ settled middleIsIn _ firstInduction secondInduction =>
      intro isIn known
      rcases secondInduction middleIsIn known with earlier | may
      · exact (firstInduction isIn earlier).imp_right fun may =>
          may.of_inner (List.Subset.refl _) (List.Subset.refl _)
      · exact .inr (may.of_part settled.length_le fun _ =>
          ⟨List.Subset.refl _, List.Subset.refl _⟩)
  | star _ induction | plus _ induction | opt _ induction | ahead _ induction
  | notAhead _ induction =>
      exact fun isIn known => (induction isIn known).imp_right fun may =>
        may.of_inner (List.Subset.refl _) (List.Subset.refl _)

/-- A remembered expression is not tried again inside itself. -/
theorem Expr.Leads.outcomeOf?_eq_none (ranked : grammar.IsRanked nullable rank)
    (own : grammar.HasOwnSites) {rule : Rule ν} (found : grammar.rule owner = some rule)
    {site : Nat} {body : Expr ν}
    (inside : List.Sublist (Expr.remember site body).remembered rule.body.remembered)
    {before after : Progress ν} (leads : body.Leads grammar text owner cursor before after)
    (isIn : cursor.IsIn text) (unknown : before.outcomeOf? (owner, site, cursor.offset) = none) :
    after.outcomeOf? (owner, site, cursor.offset) = none := by
  by_contra known
  have known := Option.isSome_iff_ne_none.mpr known
  have ownSites := own owner rule found
  rcases leads.mayTry ranked isIn known with earlier | may
  · rw [unknown] at earlier
    cases earlier
  · rcases may.atOnce (by rw [← isIn]) with ⟨_, inner, member⟩ | ⟨callee, member, lower, inner⟩
    · have nodup := ownSites.sublist (inside.map Prod.fst)
      have member := List.mem_map_of_mem (f := Prod.fst) (leftRemembered_subset nullable _ member)
      exact (List.nodup_cons.mp nodup).1 member
    · obtain ⟨other, body', otherFound, leftMember⟩ := inner
      obtain rfl : other = rule := Option.some.inj (otherFound.symm.trans found)
      obtain rfl : body' = body := ownSites.eq_of_mem (leftRemembered_subset nullable _ leftMember)
        (inside.subset List.mem_cons_self)
      have falls := ranked.rank_of_leftCall owner other found callee
        (leftCalls_subset_of_mem leftMember member)
      exact Nat.not_lt.mpr lower falls

end

/-! ## Calls where something is entered -/

namespace Expr

def outerCalls : Expr ν → List ν
  | .empty | .never | .noAlternative | .terminal _ | .remember _ _ => []
  | .call rule => [rule]
  | .seq first second | .alt first second => first.outerCalls ++ second.outerCalls
  | .star body | .plus body | .opt body | .ahead body | .notAhead body => body.outerCalls

/-- Whether some rules are called only where the expression, or something that it remembers, is
entered: neither behind a part of it nor in a repetition. -/
def callsOnEntry (chosen : ν → Bool) : Expr ν → Bool
  | .empty | .never | .noAlternative | .terminal _ | .call _ => true
  | .seq first second =>
    first.callsOnEntry chosen && second.callsOnEntry chosen && !second.outerCalls.any chosen
  | .alt first second => first.callsOnEntry chosen && second.callsOnEntry chosen
  | .star body | .plus body => body.callsOnEntry chosen && !body.outerCalls.any chosen
  | .remember _ body | .opt body | .ahead body | .notAhead body => body.callsOnEntry chosen

theorem countP_calls (chosen : ν → Bool) (expr : Expr ν) :
    expr.calls.countP chosen = expr.outerCalls.countP chosen +
      (expr.remembered.map fun entry => entry.2.outerCalls.countP chosen).sum := by
  induction expr with
  | empty | never | noAlternative | terminal _ | call _ => rfl
  | seq first second firstInduction secondInduction
  | alt first second firstInduction secondInduction =>
      simp only [calls, outerCalls, remembered, List.countP_append, List.map_append,
        List.sum_append, firstInduction, secondInduction]
      omega
  | remember site body induction =>
      simp only [calls, outerCalls, remembered, List.map_cons, List.sum_cons, induction,
        List.countP_nil, Nat.zero_add]
  | star body induction | plus body induction | opt body induction | ahead body induction
  | notAhead body induction => exact induction

end Expr

theorem countP_eq_zero_of_any {α : Type} {chosen : α → Bool} {names : List α}
    (none : names.any chosen = false) : names.countP chosen = 0 := by
  rw [List.countP_eq_zero]
  intro name member isChosen
  exact Bool.false_ne_true (none.symm.trans (List.any_eq_true.mpr ⟨name, member, isChosen⟩))

namespace Grammar

def CallsOnEntry (grammar : Grammar ν) (chosen : ν → Bool) : Prop :=
  ∀ name rule, grammar.rule name = some rule →
    rule.body.outerCalls.any chosen = false ∧ rule.body.callsOnEntry chosen = true

def callsOf (grammar : Grammar ν) (name : ν) : List ν :=
  match grammar.rule name with
  | some rule => rule.body.calls
  | none => []

def calls (grammar : Grammar ν) : List ν := grammar.names.flatMap grammar.callsOf

def places (grammar : Grammar ν) : List (ν × Nat × Expr ν) :=
  grammar.names.flatMap fun name =>
    match grammar.rule name with
    | some rule => rule.body.remembered.map (name, ·)
    | none => []

theorem mem_places {grammar : Grammar ν} (complete : grammar.IsComplete) {name : ν} {rule : Rule ν}
    (found : grammar.rule name = some rule) {entry : Nat × Expr ν}
    (member : entry ∈ rule.body.remembered) : (name, entry) ∈ grammar.places := by
  refine List.mem_flatMap.mpr ⟨name, complete.mem_names name rule found, ?_⟩
  rw [found]
  exact List.mem_map_of_mem member

theorem CallsOnEntry.sum_places {grammar : Grammar ν} {chosen : ν → Bool}
    (onEntry : grammar.CallsOnEntry chosen) :
    (grammar.places.map fun place => place.2.2.outerCalls.countP chosen).sum =
      grammar.calls.countP chosen := by
  rw [places, calls]
  induction grammar.names with
  | nil => rfl
  | cons name names induction =>
      rw [List.flatMap_cons, List.flatMap_cons, List.map_append, List.sum_append,
        List.countP_append, induction, Nat.add_right_cancel_iff]
      rw [callsOf]
      cases found : grammar.rule name with
      | none => rfl
      | some rule =>
          simp only
          rw [Expr.countP_calls, countP_eq_zero_of_any (onEntry name rule found).1, Nat.zero_add,
            List.map_map]
          rfl

end Grammar

/-! ## Lines of a trace -/

def lineOffset : LogLine → Nat
  | .matched _ start _ => start
  | .expected _ offset => offset
  | .assembled _ _ | .built _ | .rejected _ _ => 0

def RuleKind.writes : RuleKind → LogLine → Bool
  | .tree name, .matched rule _ _ | .token name, .matched rule _ _ => name == rule
  | .marker label, .expected other _ => label == other
  | _, _ => false

def Grammar.writes (grammar : Grammar ν) (line : LogLine) (name : ν) : Bool :=
  match grammar.rule name with
  | some rule => rule.kind.writes line
  | none => false

theorem RuleKind.writes_of_finish {kind : RuleKind} {start stop : Cursor} {values : List Value}
    {event : Event} {line : LogLine} (noted : (kind.finish start stop values).2 = some event)
    (isLine : LogLine.ofEvent? event = some line) :
    kind.writes line = true ∧ start.offset = lineOffset line := by
  cases kind with
  | tree | token | marker =>
      cases noted
      cases isLine
      exact ⟨beq_self_eq_true _, rfl⟩
  | silent | entry => cases noted

/-- What an expression may write on entry at a cursor. -/
def Expr.allowance (chosen : ν → Bool) (line : LogLine) (cursor : Cursor) (expr : Expr ν) : Nat :=
  if cursor.offset = lineOffset line then expr.outerCalls.countP chosen else 0

namespace Expr

variable {chosen : ν → Bool} {line : LogLine} {first second expr : Expr ν} {cursor : Cursor}

theorem allowance_eq_zero (none : expr.outerCalls.any chosen = false) :
    expr.allowance chosen line cursor = 0 := by
  rw [allowance, countP_eq_zero_of_any none, ite_self]

theorem allowance_append {whole : Expr ν}
    (calls : whole.outerCalls = first.outerCalls ++ second.outerCalls) :
    whole.allowance chosen line cursor =
      first.allowance chosen line cursor + second.allowance chosen line cursor := by
  rw [allowance, allowance, allowance, calls, List.countP_append]
  split <;> rfl

theorem le_allowance_call {grammar : Grammar ν} {name : ν} {rule : Rule ν}
    (found : grammar.rule name = some rule)
    (writers : ∀ name, grammar.writes line name = true → chosen name = true) :
    (if rule.kind.writes line = true ∧ cursor.offset = lineOffset line then 1 else 0) ≤
      (Expr.call name).allowance chosen line cursor := by
  by_cases writes : rule.kind.writes line = true
  · have isChosen : chosen name = true := by
      apply writers
      rwa [Grammar.writes, found]
    simp [writes, allowance, outerCalls, isChosen]
  · simp [writes]

end Expr

section

variable [BEq ν] [Hashable ν]

namespace Progress

def lines (progress : Progress ν) : List LogLine := progress.events.filterMap LogLine.ofEvent?

/-- How many calls of chosen rules a remembered expression may make on entry at an offset, if its
outcome there is known. -/
def spentAt (progress : Progress ν) (chosen : ν → Bool) (offset : Nat)
    (place : ν × Nat × Expr ν) : Nat :=
  if (progress.outcomeOf? (place.1, place.2.1, offset)).isSome then
    place.2.2.outerCalls.countP chosen
  else 0

def spent (progress : Progress ν) (grammar : Grammar ν) (chosen : ν → Bool) (offset : Nat) : Nat :=
  (grammar.places.map (progress.spentAt chosen offset)).sum

variable {grammar : Grammar ν} {chosen : ν → Bool} {offset : Nat}

theorem lines_noteIf (progress : Progress ν) (event : Option Event) :
    (progress.noteIf event).lines = (event.bind LogLine.ofEvent?).toList ++ progress.lines := by
  cases event with
  | none => rfl
  | some event => cases found : LogLine.ofEvent? event <;> simp [noteIf, note, lines, found]

theorem lines_remember (progress : Progress ν) (key : MemoryKey ν) (outcome : Outcome) :
    (progress.remember key outcome).lines = progress.lines := by
  cases outcome <;> rfl

theorem spent_noteIf (progress : Progress ν) (event : Option Event) :
    (progress.noteIf event).spent grammar chosen offset = progress.spent grammar chosen offset := by
  cases event <;> rfl

theorem spent_start : (start : Progress ν).spent grammar chosen offset = 0 := by
  apply List.sum_eq_zero
  intro amount member
  obtain ⟨place, _, rfl⟩ := List.mem_map.mp member
  simp [spentAt, start, outcomeOf?]

theorem spent_le (progress : Progress ν) : progress.spent grammar chosen offset ≤
    (grammar.places.map fun place => place.2.2.outerCalls.countP chosen).sum := by
  apply List.sum_le_sum
  intro place _
  rw [spentAt]
  split
  · exact Nat.le_refl _
  · exact Nat.zero_le _

variable [LawfulBEq ν] [DecidableEq ν]

theorem spentAt_le_remember (progress : Progress ν) (key : MemoryKey ν) (outcome : Outcome)
    (place : ν × Nat × Expr ν) :
    progress.spentAt chosen offset place ≤
      (progress.remember key outcome).spentAt chosen offset place := by
  rw [spentAt, spentAt, outcomeOf?_remember]
  by_cases same : key = (place.1, place.2.1, offset)
  · rw [if_pos same, if_pos Option.isSome_some]
    split
    · exact Nat.le_refl _
    · exact Nat.zero_le _
  · rw [if_neg same]

theorem spent_remember {progress : Progress ν} {name : ν} {site : Nat} {body : Expr ν}
    (member : (name, site, body) ∈ grammar.places)
    (unknown : progress.outcomeOf? (name, site, offset) = none) (outcome : Outcome) :
    progress.spent grammar chosen offset + body.outerCalls.countP chosen ≤
      (progress.remember (name, site, offset) outcome).spent grammar chosen offset := by
  obtain ⟨earlier, later, places_eq⟩ := List.append_of_mem member
  have le (place : ν × Nat × Expr ν) : progress.spentAt chosen offset place ≤ _ :=
    progress.spentAt_le_remember (name, site, offset) outcome place
  have first := List.sum_le_sum fun place (_ : place ∈ earlier) => le place
  have last := List.sum_le_sum fun place (_ : place ∈ later) => le place
  have before : progress.spentAt chosen offset (name, site, body) = 0 := by
    simp [spentAt, unknown]
  have after : (progress.remember (name, site, offset) outcome).spentAt chosen offset
      (name, site, body) = body.outerCalls.countP chosen := by
    simp [spentAt, outcomeOf?_remember]
  rw [spent, spent, places_eq, List.map_append, List.map_append, List.map_cons, List.map_cons,
    List.sum_append, List.sum_append, List.sum_cons, List.sum_cons, before, after]
  omega

theorem spent_le_remember (progress : Progress ν) (key : MemoryKey ν) (outcome : Outcome) :
    progress.spent grammar chosen offset ≤
      (progress.remember key outcome).spent grammar chosen offset :=
  List.sum_le_sum fun place _ => progress.spentAt_le_remember key outcome place

end Progress

/-! ## Counting -/

variable {grammar : Grammar ν} {chosen : ν → Bool} {nullable : ν → Bool} {rank : ν → Nat}
  {text : Text} {line : LogLine}

theorem RuleKind.count_finish (kind : RuleKind) (start last : Cursor) (values : List Value)
    (progress : Progress ν) :
    ((progress.noteIf (kind.finish start last values).2).lines.count line) ≤
      progress.lines.count line +
        if kind.writes line = true ∧ start.offset = lineOffset line then 1 else 0 := by
  rw [Progress.lines_noteIf, List.count_append]
  cases noted : (kind.finish start last values).2 with
  | none => simp
  | some event =>
      cases written : LogLine.ofEvent? event with
      | none => simp [written]
      | some other =>
          by_cases same : other = line
          · subst same
            rw [if_pos (RuleKind.writes_of_finish noted written)]
            simp [written, Nat.add_comm]
          · simp [written, same]

namespace Progress

/-- What was written between two progresses is paid for, by what became known in between and by an
amount. -/
def Pays (grammar : Grammar ν) (chosen : ν → Bool) (line : LogLine) (before after : Progress ν)
    (amount : Nat) : Prop :=
  after.lines.count line + before.spent grammar chosen (lineOffset line) ≤
    before.lines.count line + after.spent grammar chosen (lineOffset line) + amount

namespace Pays

variable {before between after : Progress ν} {amount more : Nat}

theorem mono (pays : before.Pays grammar chosen line after amount) (le : amount ≤ more) :
    before.Pays grammar chosen line after more :=
  Nat.le_trans pays (Nat.add_le_add_left le _)

theorem trans (first : before.Pays grammar chosen line between amount)
    (second : between.Pays grammar chosen line after more) :
    before.Pays grammar chosen line after (amount + more) := by
  rw [Pays] at first second ⊢
  omega

theorem finish (pays : before.Pays grammar chosen line after amount) (kind : RuleKind)
    (start last : Cursor) (values : List Value) :
    before.Pays grammar chosen line (after.noteIf (kind.finish start last values).2)
      (amount + if kind.writes line = true ∧ start.offset = lineOffset line then 1 else 0) := by
  have written : _ ≤ after.lines.count line + _ := kind.count_finish start last values after
  rw [Pays] at pays ⊢
  rw [spent_noteIf]
  omega

end Pays

end Progress

variable [LawfulBEq ν] [DecidableEq ν]

theorem Progress.Pays.remember {before after : Progress ν} {name : ν} {site : Nat} {body : Expr ν}
    (member : (name, site, body) ∈ grammar.places) {offset : Nat}
    (unknown : after.outcomeOf? (name, site, offset) = none) (outcome : Outcome)
    (pays : before.Pays grammar chosen line after
      (if offset = lineOffset line then body.outerCalls.countP chosen else 0)) :
    before.Pays grammar chosen line (after.remember (name, site, offset) outcome) 0 := by
  rw [Progress.Pays] at pays ⊢
  rw [Progress.lines_remember]
  by_cases here : offset = lineOffset line
  · have gained : after.spent grammar chosen offset + _ ≤ _ :=
      Progress.spent_remember member unknown outcome
    rw [if_pos here] at pays
    rw [here] at gained ⊢
    omega
  · have gained : after.spent grammar chosen (lineOffset line) ≤ _ :=
      after.spent_le_remember (name, site, offset) outcome
    rw [if_neg here] at pays
    omega

/-- What is written on the way of an expression is paid for by what is remembered there, or called
on entry. -/
theorem Expr.Leads.pays (ranked : grammar.IsRanked nullable rank) (own : grammar.HasOwnSites)
    (complete : grammar.IsComplete) (onEntry : grammar.CallsOnEntry chosen)
    (writers : ∀ name, grammar.writes line name = true → chosen name = true) {expr : Expr ν}
    {owner : ν} {cursor : Cursor} {before after : Progress ν}
    (leads : expr.Leads grammar text owner cursor before after) :
    cursor.IsIn text → ∀ rule, grammar.rule owner = some rule →
      expr.remembered.Sublist rule.body.remembered → expr.callsOnEntry chosen = true →
        before.Pays grammar chosen line after (expr.allowance chosen line cursor) := by
  induction leads with
  | still | failed => exact fun _ _ _ _ _ => Nat.le_add_right _ _
  | @call name _ rule _ _ _ found _ induction =>
      intro isIn _ _ _ _
      obtain ⟨outer, entered⟩ := onEntry name rule found
      have paid := induction isIn rule found (List.Sublist.refl _) entered
      rw [allowance_eq_zero outer] at paid
      exact paid.mono (Nat.zero_le _)
  | @finish name _ rule start last values _ before after found _ _ induction =>
      intro isIn _ _ _ _
      obtain ⟨outer, entered⟩ := onEntry name rule found
      have paid := induction isIn rule found (List.Sublist.refl _) entered
      rw [allowance_eq_zero outer] at paid
      refine (paid.finish rule.kind start last values).mono ?_
      rw [Nat.zero_add]
      exact le_allowance_call found writers
  | @seqFirst part _ _ _ _ _ _ induction | @altFirst part _ _ _ _ _ _ induction =>
      intro isIn rule found inside onEntry
      simp only [callsOnEntry, Bool.and_eq_true] at onEntry
      have partOnEntry : part.callsOnEntry chosen = true := by tauto
      have paid := induction isIn rule found ((List.sublist_append_left _ _).trans inside)
        partOnEntry
      rw [allowance_append rfl]
      exact paid.mono (Nat.le_add_right _ _)
  | seqSecond _ _ middleIsIn _ firstInduction secondInduction =>
      intro isIn rule found inside onEntry
      simp only [callsOnEntry, Bool.and_eq_true, Bool.not_eq_true'] at onEntry
      obtain ⟨⟨firstOnEntry, secondOnEntry⟩, noneBehind⟩ := onEntry
      have first := firstInduction isIn rule found ((List.sublist_append_left _ _).trans inside)
        firstOnEntry
      have second := secondInduction middleIsIn rule found
        ((List.sublist_append_right _ _).trans inside) secondOnEntry
      -- Behind its first part, a sequence calls none of the rules that count.
      rw [allowance_eq_zero noneBehind] at second
      rw [allowance_append rfl, allowance_eq_zero noneBehind]
      exact first.trans second
  | altSecond _ _ firstInduction secondInduction =>
      intro isIn rule found inside onEntry
      simp only [callsOnEntry, Bool.and_eq_true] at onEntry
      have first := firstInduction isIn rule found ((List.sublist_append_left _ _).trans inside)
        onEntry.1
      have second := secondInduction isIn rule found ((List.sublist_append_right _ _).trans inside)
        onEntry.2
      rw [allowance_append rfl]
      exact first.trans second
  | remember unknown leads induction =>
      intro isIn rule found inside onEntry
      have paid := induction isIn rule found ((List.sublist_cons_self _ _).trans inside) onEntry
      -- What is remembered is not tried inside itself, so it becomes known only once.
      have stillUnknown := leads.outcomeOf?_eq_none ranked own found inside isIn unknown
      have member := Grammar.mem_places complete found (inside.subset List.mem_cons_self)
      exact (paid.remember member stillUnknown _).mono (Nat.zero_le _)
  | star _ induction =>
      intro isIn rule found inside onEntry
      simp only [callsOnEntry, Bool.and_eq_true] at onEntry
      exact induction isIn rule found inside onEntry.1
  | @starAgain body _ _ middle _ _ _ _ _ _ _ middleIsIn _ firstInduction secondInduction =>
      intro isIn rule found inside onEntry
      obtain ⟨bodyOnEntry, noneInside⟩ := Bool.and_eq_true_iff.mp onEntry
      have noneInside := (Bool.not_eq_true' _).mp noneInside
      have first := firstInduction isIn rule found inside bodyOnEntry
      have second := secondInduction middleIsIn rule found inside onEntry
      rw [allowance_eq_zero noneInside] at first
      have nothing : (Expr.star body).allowance chosen line middle = 0 :=
        allowance_eq_zero noneInside
      rw [nothing] at second
      exact (first.trans second).mono (Nat.zero_le _)
  | plus _ induction | opt _ induction | ahead _ induction | notAhead _ induction =>
      exact induction

/-- A line is written at most as often as the rules that may write it are called in the rules, and
once more by the start rule, if these rules are only called where something that is remembered is
entered. -/
theorem Grammar.count_le_of_run (ranked : grammar.IsRanked nullable rank)
    (own : grammar.HasOwnSites) (complete : grammar.IsComplete)
    (onEntry : grammar.CallsOnEntry (grammar.writes line)) {start : ν} {outcome : Outcome}
    {events : List Event} (result : grammar.run start text = some (outcome, events)) :
    (events.filterMap LogLine.ofEvent?).count line ≤
      grammar.calls.countP (grammar.writes line) +
        if grammar.writes line start = true ∧ lineOffset line = 0 then 1 else 0 := by
  obtain ⟨after, leads, rfl⟩ := exists_leads_of_run own result
  rw [List.filterMap_reverse, List.count_reverse]
  cases found : grammar.rule start with
  | none =>
      have written : after.lines.count line = 0 := by
        cases leads with
        | still | failed => rfl
        | call isRule _ | finish isRule _ _ =>
            rw [found] at isRule
            cases isRule
      exact written.trans_le (Nat.zero_le _)
  | some rule =>
      have paid : _ ≤ _ := leads.pays ranked own complete onEntry (fun _ writes => writes)
        (Cursor.isIn_start text) rule found (List.nil_sublist _) rfl
      have le : after.spent grammar (grammar.writes line) (lineOffset line) ≤ _ := after.spent_le
      rw [onEntry.sum_places] at le
      have nothing : (Progress.start : Progress ν).lines.count line = 0 := rfl
      have calls : (Expr.call start).outerCalls.countP (grammar.writes line) =
          if grammar.writes line start = true then 1 else 0 := by
        simp [Expr.outerCalls, List.countP_cons]
      rw [nothing, Progress.spent_start, Expr.allowance, calls, ← ite_and] at paid
      have same : ((Cursor.start text).offset = lineOffset line ∧ grammar.writes line start = true) ↔
          grammar.writes line start = true ∧ lineOffset line = 0 :=
        and_comm.trans (and_congr_right' eq_comm)
      simp only [same] at paid
      exact (Nat.le_add_right _ _).trans (paid.trans (by omega))

end

end QubitLang.Peg
