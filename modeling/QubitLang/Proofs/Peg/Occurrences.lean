import QubitLang.Proofs.Peg.Once
import QubitLang.Proofs.Peg.Unlabelled

/-! Where the marker of a label is called. The rules call it no more often than the label stands in
their patterns, and only where something that is remembered is entered. -/

namespace QubitLang.Peg

/-! ## Patterns -/

mutual

def Pattern.labels : Pattern → List String
  | .terminal _ | .call _ => []
  | .sequence parts | .choice parts => labelsOfAll parts
  | .star body | .plus body | .opt body | .ahead body | .notAhead body => body.labels
  | .expect label body => body.labels ++ [label]

def Pattern.labelsOfAll : List Pattern → List String
  | [] => []
  | pattern :: rest => pattern.labels ++ labelsOfAll rest

end

mutual

def Pattern.calls : Pattern → List String
  | .terminal _ => []
  | .call rule => [rule]
  | .sequence parts | .choice parts => callsOfAll parts
  | .star body | .plus body | .opt body | .ahead body | .notAhead body | .expect _ body =>
    body.calls

def Pattern.callsOfAll : List Pattern → List String
  | [] => []
  | pattern :: rest => pattern.calls ++ callsOfAll rest

end

theorem Pattern.sum_count_labels (label : String) (patterns : List Pattern) :
    (patterns.map fun pattern => pattern.labels.count label).sum =
      (Pattern.labelsOfAll patterns).count label := by
  induction patterns with
  | nil => rfl
  | cons pattern rest induction =>
      rw [List.map_cons, List.sum_cons, induction, labelsOfAll, List.count_append]

/-! ## Calls of what patterns stand for -/

namespace Expr

variable {ν : Type} {chosen : ν → Bool}

theorem calls_sequence : ∀ parts : List (Expr ν), (sequence parts).calls = parts.flatMap calls
  | [] => rfl
  | [_] => (List.append_nil _).symm
  | part :: next :: rest => congrArg (part.calls ++ ·) (calls_sequence (next :: rest))

theorem outerCalls_sequence : ∀ parts : List (Expr ν),
    (sequence parts).outerCalls = parts.flatMap outerCalls
  | [] => rfl
  | [_] => (List.append_nil _).symm
  | part :: next :: rest => congrArg (part.outerCalls ++ ·) (outerCalls_sequence (next :: rest))

theorem calls_firstOf : ∀ parts : List (Expr ν), (firstOf parts).calls = parts.flatMap calls
  | [] => rfl
  | [_] => (List.append_nil _).symm
  | part :: next :: rest => congrArg (part.calls ++ ·) (calls_firstOf (next :: rest))

theorem callsOnEntry_firstOf : ∀ parts : List (Expr ν),
    (firstOf parts).callsOnEntry chosen = parts.all (callsOnEntry chosen)
  | [] => rfl
  | [_] => (Bool.and_true _).symm
  | part :: next :: rest =>
    congrArg (part.callsOnEntry chosen && ·) (callsOnEntry_firstOf (next :: rest))

theorem flatMap_calls_branches (expr : Expr ν) : expr.branches.flatMap calls = expr.calls := by
  induction expr with
  | noAlternative => rfl
  | alt first second _ induction => rw [branches, List.flatMap_cons, induction, calls]
  | _ => exact List.append_nil _

theorem all_callsOnEntry_branches (expr : Expr ν) :
    expr.branches.all (callsOnEntry chosen) = expr.callsOnEntry chosen := by
  induction expr with
  | noAlternative => rfl
  | alt first second _ induction => rw [branches, List.all_cons, induction, callsOnEntry]
  | _ => exact Bool.and_true _

theorem flatMap_calls_alternatives (expr : Expr ν) :
    expr.alternatives.flatMap calls = expr.calls := by
  cases expr with
  | remember site body => exact body.flatMap_calls_branches
  | _ => exact List.append_nil _

theorem all_callsOnEntry_alternatives (expr : Expr ν) :
    expr.alternatives.all (callsOnEntry chosen) = expr.callsOnEntry chosen := by
  cases expr with
  | remember site body => exact body.all_callsOnEntry_branches
  | _ => exact Bool.and_true _

theorem calls_choice (parts : List (Expr ν)) : (choice parts).calls = parts.flatMap calls := by
  have merged : (firstOf (parts.flatMap alternatives)).calls = parts.flatMap calls := by
    rw [calls_firstOf, List.flatMap_assoc]
    exact congrArg parts.flatMap (funext flatMap_calls_alternatives)
  match parts with
  | [_] => exact (List.append_nil _).symm
  | [] | _ :: _ :: _ => exact merged

theorem callsOnEntry_choice (parts : List (Expr ν)) :
    (choice parts).callsOnEntry chosen = parts.all (callsOnEntry chosen) := by
  have merged : (firstOf (parts.flatMap alternatives)).callsOnEntry chosen =
      parts.all (callsOnEntry chosen) := by
    rw [callsOnEntry_firstOf, List.all_flatMap]
    exact congrArg parts.all (funext all_callsOnEntry_alternatives)
  match parts with
  | [_] => exact (Bool.and_true _).symm
  | [] | _ :: _ :: _ => exact merged

theorem calls_numberFrom (chosen : ν → Bool) (expr : Expr ν) : ∀ site,
    (expr.numberFrom site).1.calls = expr.calls ∧
      (expr.numberFrom site).1.outerCalls = expr.outerCalls ∧
      (expr.numberFrom site).1.callsOnEntry chosen = expr.callsOnEntry chosen := by
  induction expr with
  | empty | never | noAlternative | terminal _ | call _ => exact fun _ => ⟨rfl, rfl, rfl⟩
  | seq first second firstInduction secondInduction
  | alt first second firstInduction secondInduction =>
      intro site
      obtain ⟨firstCalls, firstOuter, firstOnEntry⟩ := firstInduction site
      obtain ⟨secondCalls, secondOuter, secondOnEntry⟩ :=
        secondInduction (first.numberFrom site).2
      simp only [numberFrom, calls, outerCalls, callsOnEntry, firstCalls, firstOuter, firstOnEntry,
        secondCalls, secondOuter, secondOnEntry, and_self]
  | remember _ body induction =>
      intro site
      obtain ⟨sameCalls, _, sameOnEntry⟩ := induction (site + 1)
      exact ⟨sameCalls, rfl, sameOnEntry⟩
  | star body induction | plus body induction =>
      intro site
      obtain ⟨sameCalls, sameOuter, sameOnEntry⟩ := induction site
      simp only [numberFrom, calls, outerCalls, callsOnEntry, sameCalls, sameOuter, sameOnEntry,
        and_self]
  | opt body induction | ahead body induction | notAhead body induction => exact induction

/-! ## Chosen calls -/

/-- Some rules are called a number of times at most, and only where something that is remembered
is entered. -/
structure CallsAtMost (chosen : ν → Bool) (expr : Expr ν) (count : Nat) : Prop where
  outer : expr.outerCalls.any chosen = false
  onEntry : expr.callsOnEntry chosen = true
  count_le : expr.calls.countP chosen ≤ count

theorem forall_callsAtMost {parts : List (Expr ν)} {counts : List Nat}
    (all : List.Forall₂ (CallsAtMost chosen) parts counts) :
    (∀ part ∈ parts, part.outerCalls.any chosen = false) ∧
      parts.all (callsOnEntry chosen) = true ∧
      (parts.flatMap calls).countP chosen ≤ counts.sum := by
  induction all with
  | nil => exact ⟨nofun, rfl, Nat.le_refl _⟩
  | cons atMost _ induction =>
      obtain ⟨outer, onEntry, count_le⟩ := induction
      refine ⟨List.forall_mem_cons.mpr ⟨atMost.outer, outer⟩, ?_, ?_⟩
      · rw [List.all_cons, atMost.onEntry, onEntry, Bool.and_self]
      · rw [List.flatMap_cons, List.countP_append, List.sum_cons]
        exact Nat.add_le_add atMost.count_le count_le

theorem any_outerCalls_sequence {parts : List (Expr ν)}
    (outer : ∀ part ∈ parts, part.outerCalls.any chosen = false) :
    (sequence parts).outerCalls.any chosen = false := by
  rw [outerCalls_sequence, List.any_flatMap, List.any_eq_false]
  exact fun part member => ne_true_of_eq_false (outer part member)

theorem callsOnEntry_sequence {parts : List (Expr ν)}
    (outer : ∀ part ∈ parts, part.outerCalls.any chosen = false)
    (onEntry : parts.all (callsOnEntry chosen) = true) :
    (sequence parts).callsOnEntry chosen = true := by
  induction parts with
  | nil => rfl
  | cons part rest induction =>
      obtain ⟨partOnEntry, restOnEntry⟩ := Bool.and_eq_true_iff.mp onEntry
      have restOuter := (List.forall_mem_cons.mp outer).2
      have later := induction restOuter restOnEntry
      cases rest with
      | nil => exact partOnEntry
      | cons next rest =>
          have split : sequence (part :: next :: rest) = .seq part (sequence (next :: rest)) := rfl
          rw [split, callsOnEntry, partOnEntry, later, any_outerCalls_sequence restOuter]
          rfl

namespace CallsAtMost

theorem sequence {parts : List (Expr ν)} {counts : List Nat}
    (all : List.Forall₂ (CallsAtMost chosen) parts counts) :
    (Expr.sequence parts).CallsAtMost chosen counts.sum := by
  obtain ⟨outer, onEntry, count_le⟩ := forall_callsAtMost all
  refine ⟨any_outerCalls_sequence outer, callsOnEntry_sequence outer onEntry, ?_⟩
  rwa [calls_sequence]

theorem choice {parts : List (Expr ν)} {counts : List Nat}
    (all : List.Forall₂ (CallsAtMost chosen) parts counts) :
    (Expr.choice parts).CallsAtMost chosen counts.sum := by
  obtain ⟨outer, onEntry, count_le⟩ := forall_callsAtMost all
  refine ⟨?_, ?_, ?_⟩
  · match parts with
    | [part] => exact outer part (List.mem_singleton.mpr rfl)
    | [] | _ :: _ :: _ => rfl
  · rwa [callsOnEntry_choice]
  · rwa [calls_choice]

theorem expecting {marker : ν} {body : Expr ν} {count : Nat}
    (atMost : body.CallsAtMost chosen count) :
    (Expr.expecting marker body).CallsAtMost chosen
      (count + if chosen marker = true then 1 else 0) where
  outer := rfl
  onEntry := by
    rw [Expr.expecting, callsOnEntry_choice, List.all_cons, atMost.onEntry]
    rfl
  count_le := by
    rw [Expr.expecting, calls_choice]
    simpa [calls, List.countP_cons] using atMost.count_le

/-- What is chosen is not called in a body outside of what is remembered there, so it may be
repeated. -/
theorem star {body : Expr ν} {count : Nat} (atMost : body.CallsAtMost chosen count) :
    (Expr.star body).CallsAtMost chosen count where
  outer := atMost.outer
  onEntry := by rw [callsOnEntry, atMost.onEntry, atMost.outer]; rfl
  count_le := atMost.count_le

theorem numbered {body : Expr ν} {count : Nat} (atMost : body.CallsAtMost chosen count) :
    body.numbered.CallsAtMost chosen count := by
  obtain ⟨sameCalls, sameOuter, sameOnEntry⟩ := calls_numberFrom chosen body 0
  exact ⟨by rw [Expr.numbered, sameOuter, atMost.outer],
    by rw [Expr.numbered, sameOnEntry, atMost.onEntry],
    by rw [Expr.numbered, sameCalls]; exact atMost.count_le⟩

end CallsAtMost

end Expr

section

variable {table after : RuleTable} {chosen : String → Bool} {label : String}

mutual

/-- What a pattern denotes calls the marker of a label as often as the label stands there, if the
pattern itself calls no markers. -/
theorem Pattern.callsAtMost
    (marks : ∀ other marker, table.markers.lookup other = some marker → chosen marker = true →
      other = label) :
    ∀ (pattern : Pattern) (expr : Expr String), pattern.Denotes table expr →
      (∀ callee ∈ pattern.calls, chosen callee = false) →
        expr.CallsAtMost chosen (pattern.labels.count label)
  | .terminal _, _, denotes, _ => by
      cases denotes
      exact ⟨rfl, rfl, Nat.le_refl _⟩
  | .call rule, _, denotes, others => by
      cases denotes
      have other := others rule (List.mem_singleton.mpr rfl)
      refine ⟨?_, rfl, ?_⟩
      · simp [Expr.outerCalls, other]
      · simp [Expr.calls, other]
  | .sequence parts, _, denotes, others => by
      obtain ⟨exprs, all, rfl⟩ := denotes
      have sum := Expr.CallsAtMost.sequence (callsAtMostAll marks parts exprs all others)
      rwa [sum_count_labels] at sum
  | .choice parts, _, denotes, others => by
      obtain ⟨exprs, all, rfl⟩ := denotes
      have sum := Expr.CallsAtMost.choice (callsAtMostAll marks parts exprs all others)
      rwa [sum_count_labels] at sum
  | .star body, _, denotes, others | .plus body, _, denotes, others => by
      obtain ⟨inner, denotes, rfl⟩ := denotes
      obtain ⟨outer, onEntry, count_le⟩ := (callsAtMost marks body inner denotes others).star
      exact ⟨outer, onEntry, count_le⟩
  | .opt body, _, denotes, others | .ahead body, _, denotes, others
  | .notAhead body, _, denotes, others => by
      obtain ⟨inner, denotes, rfl⟩ := denotes
      obtain ⟨outer, onEntry, count_le⟩ := callsAtMost marks body inner denotes others
      exact ⟨outer, onEntry, count_le⟩
  | .expect other body, _, denotes, others => by
      obtain ⟨marker, inner, known, denotes, rfl⟩ := denotes
      obtain ⟨outer, onEntry, count_le⟩ := (callsAtMost marks body inner denotes others).expecting
      refine ⟨outer, onEntry, Nat.le_trans count_le ?_⟩
      rw [Pattern.labels, List.count_append]
      by_cases isChosen : chosen marker = true
      · rw [if_pos isChosen, marks other marker known isChosen, List.count_singleton_self]
      · rw [if_neg isChosen]
        exact Nat.le_add_right _ _

theorem Pattern.callsAtMostAll
    (marks : ∀ other marker, table.markers.lookup other = some marker → chosen marker = true →
      other = label) :
    ∀ (patterns : List Pattern) (exprs : List (Expr String)),
      Pattern.DenoteAll table patterns exprs →
        (∀ callee ∈ Pattern.callsOfAll patterns, chosen callee = false) →
          List.Forall₂ (Expr.CallsAtMost chosen) exprs
            (patterns.map fun pattern => pattern.labels.count label)
  | [], _, denote, _ => by
      cases denote
      exact .nil
  | pattern :: rest, _, denote, others => by
      obtain ⟨expr, later, denotes, all, rfl⟩ := denote
      obtain ⟨first, last⟩ := List.forall_mem_append.mp others
      exact .cons (callsAtMost marks pattern expr denotes first)
        (callsAtMostAll marks rest later all last)

end

end

/-! ## Names in a table -/

theorem sum_lookup_le {α : Type} {names : List String} (nodup : names.Nodup) (amount : α → Nat)
    (entries : List (String × α)) :
    (names.map fun name => ((entries.lookup name).map amount).getD 0).sum ≤
      (entries.map fun entry => amount entry.2).sum := by
  induction entries with
  | nil =>
      have zero : (names.map fun _ => 0).sum = 0 := by simp
      exact zero.le
  | cons entry entries induction =>
      obtain ⟨key, value⟩ := entry
      have once : (names.map fun name => if name = key then amount value else 0).sum ≤
          amount value := by
        rw [← List.sum_toFinset _ nodup, Finset.sum_ite_eq']
        split
        · exact Nat.le_refl _
        · exact Nat.zero_le _
      have split : ∀ name ∈ names,
          ((((key, value) :: entries).lookup name).map amount).getD 0 ≤
            (if name = key then amount value else 0) +
              ((entries.lookup name).map amount).getD 0 := by
        intro name _
        rw [List.lookup_cons]
        by_cases same : name = key
        · simp [same]
        · simp [same, beq_eq_false_iff_ne.mpr same]
      rw [List.map_cons, List.sum_cons]
      exact ((List.sum_le_sum split).trans_eq List.sum_map_add).trans
        (Nat.add_le_add once induction)

def RuleKind.notesAs (name : String) : RuleKind → Bool
  | .tree other | .token other => other == name
  | .silent | .entry => true
  | .marker _ => false

namespace RuleTable

structure HasOwnNames (table : RuleTable) : Prop where
  definitions : (table.definitions.map Prod.fst).Nodup
  compiled : ∀ start grammar, table.compiled.lookup start = some grammar → grammar.names.Nodup

section

variable {table after : RuleTable} {start : String} {grammar : Grammar String}
  {patterns : List (String × Pattern)}

theorem nodup_of_free {entries : List (String × Rule String)} {name : String} {rule : Rule String}
    (nodup : (entries.map Prod.fst).Nodup) (free : entries.lookup name = none) :
    ((entries ++ [(name, rule)]).map Prod.fst).Nodup := by
  rw [List.map_append]
  refine nodup.append (List.nodup_singleton _) (List.disjoint_singleton.mpr fun member => ?_)
  obtain ⟨entry, isEntry, isName⟩ := List.mem_map.mp member
  have other := List.lookup_eq_none_iff.mp free entry isEntry
  rw [isName, bne_self_eq_false] at other
  cases other

theorem Step.hasOwnNames (step : Step table after) (own : table.HasOwnNames) :
    after.HasOwnNames := by
  cases step with
  | define free _ => exact ⟨nodup_of_free own.definitions free, own.compiled⟩
  | mark marks =>
      obtain ⟨_, free⟩ := marks
      exact ⟨nodup_of_free own.definitions free, own.compiled⟩
  | keep new compiles =>
      refine ⟨own.definitions, fun other grammar found => ?_⟩
      rw [List.lookup_cons] at found
      split at found
      · cases found
        exact own.definitions
      · exact own.compiled other grammar found

theorem Evolves.hasOwnNames (evolves : Evolves table after) (own : table.HasOwnNames) :
    after.HasOwnNames := by
  induction evolves with
  | refl => exact own
  | tail _ step induction => exact step.hasOwnNames induction

theorem Arises.hasOwnNames (arises : table.Arises) : table.HasOwnNames :=
  arises.evolves.hasOwnNames ⟨List.nodup_nil, nofun⟩

theorem HasOwnNames.nodup_of_compile (own : table.HasOwnNames)
    (compiles : ((compile start).run table).1 = .ok grammar) : grammar.names.Nodup := by
  rw [run_compile] at compiles
  cases kept : table.compiled.lookup start with
  | some other =>
      rw [kept] at compiles
      cases compiles
      exact own.compiled start grammar kept
  | none =>
      rw [kept] at compiles
      cases refused : table.compileError? start with
      | some error =>
          simp only [refused] at compiles
          cases compiles
      | none =>
          simp only [refused] at compiles
          cases compiles
          exact own.definitions

/-! ## Rules that are no markers -/

/-- A rule that has a pattern is no marker, and notes what it matches under its own name. The
patterns call such rules only. -/
structure IsOrdinary (table : RuleTable) (patterns : List (String × Pattern)) : Prop where
  notesAs : ∀ name rule, table.definitions.lookup name = some rule →
    (patterns.lookup name).isSome = true → rule.kind.notesAs name = true
  calls : ∀ name pattern, patterns.lookup name = some pattern →
    ∀ callee ∈ pattern.calls, (patterns.lookup callee).isSome = true

theorem IsOrdinary.writes_expected (ordinary : table.IsOrdinary patterns)
    (isGrammar : table.IsGrammarOf start grammar) {name : String}
    (known : (patterns.lookup name).isSome = true) (label : String) (offset : Nat) :
    grammar.writes (.expected label offset) name = false := by
  unfold Grammar.writes
  cases found : grammar.rule name with
  | none => rfl
  | some rule =>
      have notesAs := ordinary.notesAs name rule (isGrammar.registered name rule found) known
      cases kind : rule.kind with
      | tree | token | silent | entry => simp only [kind, RuleKind.writes]
      | marker =>
          rw [kind] at notesAs
          cases notesAs

theorem IsOrdinary.callsAtMost (ordinary : table.IsOrdinary patterns) (sound : table.IsSound)
    (comesFrom : table.ComesFrom patterns) (isGrammar : table.IsGrammarOf start grammar)
    (label : String) (offset : Nat) {name : String} {rule : Rule String}
    (found : grammar.rule name = some rule) :
    rule.body.CallsAtMost (grammar.writes (.expected label offset))
      (((patterns.lookup name).map fun pattern => pattern.labels.count label).getD 0) := by
  have marks : ∀ other marker, table.markers.lookup other = some marker →
      grammar.writes (.expected label offset) marker = true → other = label := by
    intro other marker known writes
    unfold Grammar.writes at writes
    cases isRule : grammar.rule marker with
    | none => simp [isRule] at writes
    | some rule =>
        have registered := isGrammar.registered marker rule isRule
        rw [sound.markers other marker known] at registered
        cases registered
        rw [isRule] at writes
        exact beq_iff_eq.mp writes
  have standsFor := comesFrom.rules name rule (isGrammar.registered name rule found)
  cases known : patterns.lookup name with
  | none =>
      rw [known] at standsFor
      obtain ⟨other, rfl⟩ := standsFor
      exact ⟨rfl, rfl, Nat.le_refl _⟩
  | some pattern =>
      rw [known] at standsFor
      obtain ⟨expr, denotes, rule_eq⟩ := standsFor
      have others : ∀ callee ∈ pattern.calls,
          grammar.writes (.expected label offset) callee = false := fun callee member =>
        ordinary.writes_expected isGrammar (ordinary.calls name pattern known callee member) _ _
      rw [rule_eq]
      exact (pattern.callsAtMost marks expr denotes others).numbered

/-- Markers are called only where something that is remembered is entered, and no more often than
their labels stand in the patterns of a table. -/
theorem IsOrdinary.calls_markers (ordinary : table.IsOrdinary patterns) (arises : table.Arises)
    (comesFrom : table.ComesFrom patterns)
    (compiles : ((compile start).run table).1 = .ok grammar) (label : String) (offset : Nat) :
    grammar.CallsOnEntry (grammar.writes (.expected label offset)) ∧
      grammar.calls.countP (grammar.writes (.expected label offset)) ≤
        (patterns.flatMap fun entry => entry.2.labels).count label := by
  have sound := arises.isSound
  have isGrammar := (sound.compile start).2 grammar compiles
  have atMost := @ordinary.callsAtMost _ _ _ _ sound comesFrom isGrammar label offset
  refine ⟨fun name rule found => ⟨(atMost found).outer, (atMost found).onEntry⟩, ?_⟩
  have each : ∀ name ∈ grammar.names,
      (grammar.callsOf name).countP (grammar.writes (.expected label offset)) ≤
        ((patterns.lookup name).map fun pattern => pattern.labels.count label).getD 0 := by
    intro name _
    rw [Grammar.callsOf]
    cases found : grammar.rule name with
    | none => exact Nat.zero_le _
    | some rule => exact (atMost found).count_le
  rw [Grammar.calls, List.countP_flatMap, List.count_flatMap]
  exact (List.sum_le_sum each).trans
    (sum_lookup_le (arises.hasOwnNames.nodup_of_compile compiles) _ patterns)

end

end RuleTable

end QubitLang.Peg
