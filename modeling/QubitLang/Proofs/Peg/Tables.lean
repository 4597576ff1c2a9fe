import QubitLang.Peg.Table
import QubitLang.Proofs.Peg.Recurrence

/-! The grammars that come from a table of rules. Whatever was registered or refused before, the
rules of a grammar have sites of their own, and what they call has a rule. -/

namespace QubitLang.Peg

namespace RuleTable

/-- The tables that come from an empty one, whatever is registered, refused or compiled. -/
inductive Arises : RuleTable → Prop
  | empty : Arises .empty
  | register {table : RuleTable} (name : String) (kind : RuleKind) (body : Pattern) :
    Arises table → Arises ((register name kind body).run table).2
  | resolve {table : RuleTable} (pattern : Pattern) :
    Arises table → Arises ((resolve pattern).run table).2
  | compile {table : RuleTable} (start : String) :
    Arises table → Arises ((compile start).run table).2

/-! ## What is kept -/

theorem mem_of_lookup {α : Type} {entries : List (String × α)} {key : String} {value : α}
    (found : entries.lookup key = some value) : (key, value) ∈ entries := by
  obtain ⟨before, behind, rfl, _⟩ := List.lookup_eq_some_iff.mp found
  exact List.mem_append_right _ List.mem_cons_self

structure IsKeptIn (table other : RuleTable) : Prop where
  rules : ∀ name rule, table.definitions.lookup name = some rule →
    other.definitions.lookup name = some rule
  markers : ∀ label marker, table.markers.lookup label = some marker →
    other.markers.lookup label = some marker
  compiled : ∀ start grammar, table.compiled.lookup start = some grammar →
    other.compiled.lookup start = some grammar

/-- A grammar that can be matched with: its rules have sites of their own, all that they call has
a rule, and the rules are those of a table. -/
structure IsGrammarOf (table : RuleTable) (start : String) (grammar : Grammar String) : Prop where
  ownSites : grammar.HasOwnSites
  complete : grammar.IsComplete
  start_mem : start ∈ grammar.names
  registered : ∀ name rule, grammar.rule name = some rule →
    table.definitions.lookup name = some rule

/-- Rules have sites of their own, a marker notes the label that it is the marker of, and what was
compiled can be matched with. -/
structure IsSound (table : RuleTable) : Prop where
  ownSites : ∀ name rule, table.definitions.lookup name = some rule → rule.HasOwnSites
  markers : ∀ label marker, table.markers.lookup label = some marker →
    table.definitions.lookup marker = some (.ofBody (.marker label) .empty)
  compiled : ∀ start grammar, table.compiled.lookup start = some grammar →
    table.IsGrammarOf start grammar

variable {table before after : RuleTable} {start name label : String}
  {grammar : Grammar String}

theorem IsKeptIn.refl (table : RuleTable) : table.IsKeptIn table :=
  ⟨fun _ _ found => found, fun _ _ found => found, fun _ _ found => found⟩

theorem IsKeptIn.trans {middle : RuleTable} (first : before.IsKeptIn middle)
    (second : middle.IsKeptIn after) : before.IsKeptIn after where
  rules name rule found := second.rules name rule (first.rules name rule found)
  markers label marker found := second.markers label marker (first.markers label marker found)
  compiled start grammar found :=
    second.compiled start grammar (first.compiled start grammar found)

theorem IsGrammarOf.of_isKeptIn (fine : before.IsGrammarOf start grammar)
    (kept : before.IsKeptIn after) : after.IsGrammarOf start grammar where
  ownSites := fine.ownSites
  complete := fine.complete
  start_mem := fine.start_mem
  registered name rule found := kept.rules name rule (fine.registered name rule found)

theorem isSound_empty : empty.IsSound := ⟨nofun, nofun, nofun⟩

theorem mem_names_of_contains (member : table.contains name = true) :
    name ∈ table.grammar.names := by
  obtain ⟨rule, found⟩ := Option.isSome_iff_exists.mp member
  exact List.mem_map_of_mem (mem_of_lookup found)

theorem isComplete_grammar (defined : table.firstUndefined? = none) :
    table.grammar.IsComplete where
  mem_names name rule found := List.mem_map_of_mem (mem_of_lookup found)
  mem_of_call name rule found callee called := by
    apply mem_names_of_contains
    have known := List.find?_eq_none.mp defined callee
      (List.mem_flatMap.mpr ⟨(name, rule), mem_of_lookup found, called⟩)
    simpa using known

theorem of_compileError?_eq_none (compiles : table.compileError? start = none) :
    start ∈ table.grammar.names ∧ table.firstUndefined? = none := by
  unfold compileError? at compiles
  split at compiles
  · cases compiles
  · rename_i known
    split at compiles
    · cases compiles
    · rename_i defined
      exact ⟨mem_names_of_contains (by simpa using known), defined⟩

theorem IsSound.isGrammarOf (sound : table.IsSound)
    (compiles : table.compileError? start = none) : table.IsGrammarOf start table.grammar := by
  obtain ⟨known, defined⟩ := of_compileError?_eq_none compiles
  exact ⟨sound.ownSites, isComplete_grammar defined, known, fun _ _ found => found⟩

/-! ## Steps -/

inductive MarkStep : RuleTable → RuleTable → Prop
  | mark {table : RuleTable} {label name : String} (new : table.markers.lookup label = none)
    (free : table.definitions.lookup name = none) :
    MarkStep table { table with
      definitions := table.definitions ++ [(name, .ofBody (.marker label) .empty)]
      markers := table.markers ++ [(label, name)] }

inductive Step : RuleTable → RuleTable → Prop
  | define {table : RuleTable} {name : String} {rule : Rule String}
    (free : table.definitions.lookup name = none) (own : rule.HasOwnSites) :
    Step table { table with definitions := table.definitions ++ [(name, rule)] }
  | mark {table other : RuleTable} (marks : MarkStep table other) : Step table other
  | keep {table : RuleTable} {start : String} (new : table.compiled.lookup start = none)
    (compiles : table.compileError? start = none) :
    Step table { table with compiled := (start, table.grammar) :: table.compiled }

abbrev Evolves : RuleTable → RuleTable → Prop := Relation.ReflTransGen Step

theorem lookup_append_singleton {α : Type} {entries : List (String × α)} {key other : String}
    {value found : α} (isFound : (entries ++ [(key, value)]).lookup other = some found) :
    entries.lookup other = some found ∨
      entries.lookup other = none ∧ other = key ∧ found = value := by
  rw [List.lookup_append, Option.or_eq_some_iff] at isFound
  rcases isFound with earlier | ⟨missing, last⟩
  · exact .inl earlier
  · rw [List.lookup_cons] at last
    split at last
    · rename_i same
      cases last
      exact .inr ⟨missing, beq_iff_eq.mp same, rfl⟩
    · cases last

theorem lookup_append_of_ne {α : Type} {entries : List (String × α)} {key other : String}
    {value : α} (different : other ≠ key) :
    (entries ++ [(key, value)]).lookup other = entries.lookup other := by
  rw [List.lookup_append, List.lookup_cons, beq_eq_false_iff_ne.mpr different, List.lookup_nil,
    Option.or_none]

theorem Step.isKeptIn (step : Step before after) : before.IsKeptIn after := by
  cases step with
  | define free own =>
      refine ⟨fun name rule found => ?_, fun _ _ found => found, fun _ _ found => found⟩
      rw [List.lookup_append, found, Option.some_or]
  | mark marks =>
      obtain ⟨new, free⟩ := marks
      refine ⟨fun name rule found => ?_, fun label marker found => ?_, fun _ _ found => found⟩
      · rw [List.lookup_append, found, Option.some_or]
      · rw [List.lookup_append, found, Option.some_or]
  | @keep start new compiles =>
      refine ⟨fun _ _ found => found, fun _ _ found => found, fun other grammar found => ?_⟩
      have different : (other == start) = false := by
        rw [beq_eq_false_iff_ne]
        rintro rfl
        rw [new] at found
        cases found
      rw [List.lookup_cons, different]
      exact found

theorem Step.isSound (step : Step before after) (sound : before.IsSound) : after.IsSound := by
  have kept := step.isKeptIn
  cases step with
  | define free own =>
      refine ⟨fun name rule found => ?_, fun label marker found => ?_,
        fun start grammar found => ?_⟩
      · rcases lookup_append_singleton found with earlier | ⟨_, _, rfl⟩
        · exact sound.ownSites name rule earlier
        · exact own
      · exact kept.rules marker _ (sound.markers label marker found)
      · exact (sound.compiled start grammar found).of_isKeptIn kept
  | mark marks =>
      obtain ⟨new, free⟩ := marks
      refine ⟨fun name rule found => ?_, fun label marker found => ?_,
        fun start grammar found => ?_⟩
      · rcases lookup_append_singleton found with earlier | ⟨_, _, rfl⟩
        · exact sound.ownSites name rule earlier
        · exact Rule.ofBody_hasOwnSites _ _
      · rcases lookup_append_singleton found with earlier | ⟨_, rfl, rfl⟩
        · exact kept.rules marker _ (sound.markers label marker earlier)
        · rw [List.lookup_append, free, Option.none_or, List.lookup_cons_self]
      · exact (sound.compiled start grammar found).of_isKeptIn kept
  | @keep start new compiles =>
      refine ⟨sound.ownSites, sound.markers, fun other grammar found => ?_⟩
      rw [List.lookup_cons] at found
      split at found
      · rename_i same
        cases found
        cases beq_iff_eq.mp same
        exact (sound.isGrammarOf compiles).of_isKeptIn kept
      · exact (sound.compiled other grammar found).of_isKeptIn kept

theorem Evolves.isKeptIn (evolves : Evolves before after) : before.IsKeptIn after := by
  induction evolves with
  | refl => exact .refl _
  | tail _ step induction => exact induction.trans step.isKeptIn

theorem Evolves.isSound (evolves : Evolves before after) (sound : before.IsSound) :
    after.IsSound := by
  induction evolves with
  | refl => exact sound
  | tail _ step induction => exact step.isSound induction

/-! ## Registration -/

theorem run_bind {α β : Type} (action : Registration α) (next : α → Registration β)
    (table : RuleTable) :
    (action >>= next).run table =
      match action.run table with
      | (.ok value, after) => (next value).run after
      | (.error error, after) => (.error error, after) := by
  change ExceptT.bindCont next (action.run table).1 (action.run table).2 = _
  rcases action.run table with ⟨error | value, after⟩ <;> rfl

theorem run_pure {α : Type} (value : α) (table : RuleTable) :
    (pure value : Registration α).run table = (.ok value, table) := rfl

theorem run_throw {α : Type} (error : DefinitionError) (table : RuleTable) :
    (throw error : Registration α).run table = (.error error, table) := rfl

theorem run_get (table : RuleTable) :
    (get : Registration RuleTable).run table = (.ok table, table) := rfl

theorem run_modify (change : RuleTable → RuleTable) (table : RuleTable) :
    (modify change : Registration Unit).run table = (.ok (), change table) := rfl

theorem run_define (table : RuleTable) (name : String) (rule : Rule String) :
    (define name rule).run table =
      if table.contains name then (.error (.duplicateRule name), table)
      else (.ok (), { table with definitions := table.definitions ++ [(name, rule)] }) := by
  simp only [define, run_bind, run_get]
  by_cases taken : table.contains name = true
  · simp only [if_pos taken, run_throw, run_bind]
  · simp only [if_neg taken, run_modify]

theorem run_marker (table : RuleTable) (label : String) :
    (marker label).run table =
      match table.markers.lookup label with
      | some name => (.ok name, table)
      | none =>
        let name := s!"_expect_{table.markers.length}"
        if table.contains name then (.error (.duplicateRule name), table)
        else (.ok name,
          { table with
            definitions := table.definitions ++ [(name, .ofBody (.marker label) .empty)]
            markers := table.markers ++ [(label, name)] }) := by
  simp only [marker, run_bind, run_get]
  cases table.markers.lookup label with
  | some name => rfl
  | none =>
      simp only [run_bind, run_define]
      by_cases taken : table.contains s!"_expect_{table.markers.length}" = true
      · simp only [if_pos taken]
      · simp only [if_neg taken, run_modify, run_pure]

theorem eq_of_define_error {rule : Rule String} {error : DefinitionError}
    (refused : ((define name rule).run table).1 = .error error) :
    ((define name rule).run table).2 = table := by
  rw [run_define] at refused ⊢
  by_cases taken : table.contains name = true
  · rw [if_pos taken]
  · rw [if_neg taken] at refused
    cases refused

theorem lookup_of_define {rule : Rule String}
    (defined : ((define name rule).run table).1 = .ok ()) :
    ((define name rule).run table).2.definitions.lookup name = some rule := by
  rw [run_define] at defined ⊢
  by_cases taken : table.contains name = true
  · rw [if_pos taken] at defined
    cases defined
  · have free : table.definitions.lookup name = none := Option.not_isSome_iff_eq_none.mp taken
    rw [if_neg taken, List.lookup_append, free, Option.none_or, List.lookup_cons_self]

theorem lookup_of_marker (marked : ((marker label).run table).1 = .ok name) :
    ((marker label).run table).2.markers.lookup label = some name := by
  rw [run_marker] at marked ⊢
  cases known : table.markers.lookup label with
  | some other =>
      rw [known] at marked
      cases marked
      exact known
  | none =>
      simp only [known] at marked ⊢
      by_cases taken : table.contains s!"_expect_{table.markers.length}" = true
      · simp only [if_pos taken] at marked
        cases marked
      · simp only [if_neg taken] at marked ⊢
        cases marked
        rw [List.lookup_append, known, Option.none_or, List.lookup_cons_self]

/-- An action that takes nothing but some steps, also where it is refused. -/
def Takes {α : Type} (steps : RuleTable → RuleTable → Prop) (action : Registration α) : Prop :=
  ∀ table : RuleTable, Relation.ReflTransGen steps table (action.run table).2

section

variable {α β : Type} {steps : RuleTable → RuleTable → Prop}

theorem takes_pure (value : α) : Takes steps (pure value) := fun _ => .refl

theorem takes_throw (error : DefinitionError) : Takes steps (throw error : Registration α) :=
  fun _ => .refl

theorem Takes.bind {action : Registration α} {next : α → Registration β}
    (first : Takes steps action) (second : ∀ value, Takes steps (next value)) :
    Takes steps (action >>= next) := by
  intro table
  have path := first table
  rw [run_bind]
  rcases tried : action.run table with ⟨error | value, middle⟩
  · rw [tried] at path
    exact path
  · rw [tried] at path
    exact path.trans (second value middle)

end

theorem takes_define (name : String) {rule : Rule String} (own : rule.HasOwnSites) :
    Takes Step (define name rule) := by
  intro table
  rw [run_define]
  by_cases taken : table.contains name = true
  · rw [if_pos taken]
  · rw [if_neg taken]
    exact .single (.define (Option.not_isSome_iff_eq_none.mp taken) own)

theorem takes_marker (label : String) : Takes MarkStep (marker label) := by
  intro table
  rw [run_marker]
  cases new : table.markers.lookup label with
  | some name => exact .refl
  | none =>
      by_cases taken : table.contains s!"_expect_{table.markers.length}" = true
      · simp only [if_pos taken]
        exact .refl
      · simp only [if_neg taken]
        exact .single (.mark new (Option.not_isSome_iff_eq_none.mp taken))

theorem takes_single {steps : RuleTable → RuleTable → Prop} (body : Expr String) :
    Takes steps (single body) := by
  unfold single
  split
  · exact takes_throw _
  · exact takes_pure _

mutual

theorem takes_resolve : ∀ pattern : Pattern, Takes MarkStep (resolve pattern)
  | .terminal _ | .call _ => by
    unfold resolve
    exact takes_pure _
  | .sequence parts | .choice parts => by
    unfold resolve
    exact (takes_resolveAll parts).bind fun _ => takes_pure _
  | .star body | .plus body | .opt body => by
    unfold resolve
    exact (takes_resolve body).bind fun expr => (takes_single expr).bind fun _ => takes_pure _
  | .ahead body | .notAhead body => by
    unfold resolve
    exact (takes_resolve body).bind fun _ => takes_pure _
  | .expect label body => by
    unfold resolve
    exact (takes_resolve body).bind fun _ => (takes_marker label).bind fun _ => takes_pure _

theorem takes_resolveAll : ∀ patterns : List Pattern, Takes MarkStep (resolveAll patterns)
  | [] => by
    unfold resolveAll
    exact takes_pure _
  | pattern :: rest => by
    unfold resolveAll
    exact (takes_resolve pattern).bind fun _ =>
      (takes_resolveAll rest).bind fun _ => takes_pure _

end

theorem Takes.evolves {α : Type} {action : Registration α} (takes : Takes MarkStep action) :
    Takes Step action :=
  fun table => Relation.ReflTransGen.mono (fun _ _ => Step.mark) _ _ (takes table)

theorem takes_register (name : String) (kind : RuleKind) (body : Pattern) :
    Takes Step (register name kind body) :=
  (takes_resolve body).evolves.bind fun _ => takes_define name (Rule.ofBody_hasOwnSites _ _)

/-! ## Compilation -/

theorem run_compile (table : RuleTable) (start : String) :
    (compile start).run table =
      match table.compiled.lookup start with
      | some grammar => (.ok grammar, table)
      | none =>
        match table.compileError? start with
        | some error => (.error error, table)
        | none =>
          (.ok table.grammar,
            { table with compiled := (start, table.grammar) :: table.compiled }) := by
  change ((match table.compiled.lookup start with
    | some grammar => pure grammar
    | none => _ : ExceptT CompileError (StateM RuleTable) _).run table) = _
  cases table.compiled.lookup start with
  | some grammar => rfl
  | none => cases table.compileError? start <;> rfl

theorem definitions_compile (table : RuleTable) (start : String) :
    ((compile start).run table).2.definitions = table.definitions := by
  rw [run_compile]
  cases table.compiled.lookup start with
  | some grammar => rfl
  | none => cases table.compileError? start <;> rfl

theorem evolves_compile (table : RuleTable) (start : String) :
    Evolves table ((compile start).run table).2 := by
  rw [run_compile]
  cases new : table.compiled.lookup start with
  | some grammar => exact .refl
  | none =>
      cases compiles : table.compileError? start with
      | some error => exact .refl
      | none => exact .single (.keep new compiles)

theorem IsSound.compile (sound : table.IsSound) (start : String) :
    ((compile start).run table).2.IsSound ∧
      ∀ grammar, ((RuleTable.compile start).run table).1 = .ok grammar →
        table.IsGrammarOf start grammar := by
  refine ⟨(evolves_compile table start).isSound sound, fun grammar compiles => ?_⟩
  rw [run_compile] at compiles
  cases kept : table.compiled.lookup start with
  | some other =>
      rw [kept] at compiles
      cases compiles
      exact sound.compiled start grammar kept
  | none =>
      rw [kept] at compiles
      cases refused : table.compileError? start with
      | some error =>
          simp only [refused] at compiles
          cases compiles
      | none =>
          simp only [refused] at compiles
          cases compiles
          exact sound.isGrammarOf refused

theorem Arises.evolves (arises : table.Arises) : Evolves .empty table := by
  induction arises with
  | empty => exact .refl
  | register name kind body _ induction =>
      exact induction.trans (takes_register name kind body _)
  | resolve pattern _ induction => exact induction.trans ((takes_resolve pattern).evolves _)
  | compile start _ induction => exact induction.trans (evolves_compile _ start)

theorem Arises.isSound (arises : table.Arises) : table.IsSound :=
  arises.evolves.isSound isSound_empty

/-- Whether some ranks show that no rule of the table comes back to itself before anything was
matched, if no other rules than the given ones may match nothing. -/
def isRankedBy (table : RuleTable) (nullable : String → Bool) (rank : String → Nat) : Bool :=
  table.definitions.all fun (name, rule) =>
    (!rule.body.isNullable nullable || nullable name) &&
      (rule.body.leftCalls nullable).all fun callee => rank callee < rank name

theorem not_isLeftRecursive_of_isRankedBy (nullable : String → Bool) (rank : String → Nat)
    (ranked : table.isRankedBy nullable rank = true) : ¬ table.grammar.IsLeftRecursive := by
  have fine : ∀ name rule, table.grammar.rule name = some rule →
      (rule.body.isNullable nullable = true → nullable name = true) ∧
        ∀ callee ∈ rule.body.leftCalls nullable, rank callee < rank name := by
    intro name rule found
    have checked := List.all_eq_true.mp ranked (name, rule) (mem_of_lookup found)
    simpa [Bool.or_eq_true, imp_iff_not_or] using checked
  have isClosed : table.grammar.IsClosed nullable := fun name rule found =>
    (fine name rule found).1
  exact isClosed.not_isLeftRecursive fun name rule found => (fine name rule found).2

/-! ## Matching -/

theorem run_matchText (table : RuleTable) (start : String) (text : Text) (options : Options) :
    (matchText start text options).run table =
      match admission text options with
      | .error error => (⟨[], .error error⟩, table)
      | .ok () =>
        match (compile start).run table with
        | (.error error, after) => (⟨[], .error (.notCompiled error)⟩, after)
        | (.ok grammar, after) => (grammar.matchText start text options.trace, after) := by
  rw [matchText]
  cases admission text options with
  | error error => rfl
  | ok admitted =>
      have same : (compile start).run table = StateT.run (compile start).run table := rfl
      rw [StateT.run_bind, same]
      rcases StateT.run (compile start).run table with ⟨error | grammar, after⟩ <;> rfl

theorem outcome_matchText {options : Options} {text : Text}
    (admitted : admission text options = .ok ())
    (compiles : ((RuleTable.compile start).run table).1 = .ok grammar) :
    ((matchText start text options).run table).1 =
      grammar.matchText start text options.trace := by
  have compiled : (RuleTable.compile start).run table =
      (.ok grammar, ((RuleTable.compile start).run table).2) := Prod.ext compiles rfl
  rw [run_matchText, admitted, compiled]

end RuleTable

end QubitLang.Peg
