import QubitLang.Proofs.Peg.Labels

/-! Tables whose labels are left out. What is compiled from patterns with labels matches as the same
patterns without labels do. -/

namespace QubitLang.Peg

/-! ## What is registered -/

namespace RuleTable

section

variable {table after : RuleTable}

mutual

theorem denotes_of_isKeptIn (kept : table.IsKeptIn after) :
    ∀ (pattern : Pattern) (expr : Expr String), pattern.Denotes table expr →
      pattern.Denotes after expr
  | .terminal _, _, denotes | .call _, _, denotes => denotes
  | .sequence parts, _, ⟨exprs, all, equal⟩ | .choice parts, _, ⟨exprs, all, equal⟩ =>
      ⟨exprs, denoteAll_of_isKeptIn kept parts exprs all, equal⟩
  | .star body, _, ⟨inner, denotes, equal⟩ | .plus body, _, ⟨inner, denotes, equal⟩
  | .opt body, _, ⟨inner, denotes, equal⟩ | .ahead body, _, ⟨inner, denotes, equal⟩
  | .notAhead body, _, ⟨inner, denotes, equal⟩ =>
      ⟨inner, denotes_of_isKeptIn kept body inner denotes, equal⟩
  | .expect label body, _, ⟨marker, inner, known, denotes, equal⟩ =>
      ⟨marker, inner, kept.markers label marker known,
        denotes_of_isKeptIn kept body inner denotes, equal⟩

theorem denoteAll_of_isKeptIn (kept : table.IsKeptIn after) :
    ∀ (patterns : List Pattern) (exprs : List (Expr String)),
      Pattern.DenoteAll table patterns exprs → Pattern.DenoteAll after patterns exprs
  | [], _, denote => denote
  | pattern :: rest, _, ⟨expr, later, denotes, all, equal⟩ =>
      ⟨expr, later, denotes_of_isKeptIn kept pattern expr denotes,
        denoteAll_of_isKeptIn kept rest later all, equal⟩

end

theorem exists_of_run_bind {α β : Type} {action : Registration α} {next : α → Registration β}
    {result : β} (ran : (action >>= next).run table = (.ok result, after)) :
    ∃ value middle, action.run table = (.ok value, middle) ∧
      (next value).run middle = (.ok result, after) := by
  rw [run_bind] at ran
  rcases first : action.run table with ⟨error | value, middle⟩
  · rw [first] at ran
    cases ran
  · rw [first] at ran
    exact ⟨value, middle, rfl, ran⟩

theorem eq_of_single {body expr : Expr String}
    (ran : (single body).run table = (.ok expr, after)) : expr = body ∧ after = table := by
  unfold single at ran
  split at ran
  · cases ran
  · cases ran
    exact ⟨rfl, rfl⟩

theorem isKeptIn_of_takes {α : Type} {action : Registration α} {result : Except DefinitionError α}
    (takes : Takes MarkStep action) (ran : action.run table = (result, after)) :
    table.IsKeptIn after := by
  have steps := takes.evolves table
  rw [ran] at steps
  exact Evolves.isKeptIn steps

mutual

theorem denotes_of_resolve : ∀ (pattern : Pattern) (table : RuleTable) (expr : Expr String)
    (after : RuleTable), (resolve pattern).run table = (.ok expr, after) →
      pattern.Denotes after expr
  | .terminal _, table, expr, after, ran | .call _, table, expr, after, ran => by
      unfold resolve at ran
      cases ran
      rfl
  | .sequence parts, table, expr, after, ran | .choice parts, table, expr, after, ran => by
      unfold resolve at ran
      obtain ⟨exprs, _, all, last⟩ := exists_of_run_bind ran
      cases last
      exact ⟨exprs, denoteAll_of_resolveAll parts table exprs _ all, rfl⟩
  | .star body, table, expr, after, ran | .plus body, table, expr, after, ran
  | .opt body, table, expr, after, ran => by
      unfold resolve at ran
      obtain ⟨inner, middle, resolved, checked⟩ := exists_of_run_bind ran
      obtain ⟨_, _, single, last⟩ := exists_of_run_bind checked
      obtain ⟨rfl, rfl⟩ := eq_of_single single
      cases last
      exact ⟨_, denotes_of_resolve body table _ _ resolved, rfl⟩
  | .ahead body, table, expr, after, ran | .notAhead body, table, expr, after, ran => by
      unfold resolve at ran
      obtain ⟨inner, _, resolved, last⟩ := exists_of_run_bind ran
      cases last
      exact ⟨inner, denotes_of_resolve body table inner _ resolved, rfl⟩
  | .expect label body, table, expr, after, ran => by
      unfold resolve at ran
      obtain ⟨inner, middle, resolved, labelled⟩ := exists_of_run_bind ran
      obtain ⟨marker, last, marked, returned⟩ := exists_of_run_bind labelled
      cases returned
      have kept := isKeptIn_of_takes (takes_marker label) marked
      refine ⟨marker, inner, ?_, ?_, rfl⟩
      · have known := lookup_of_marker (congrArg Prod.fst marked)
        rwa [marked] at known
      · exact denotes_of_isKeptIn kept body inner
          (denotes_of_resolve body table inner middle resolved)

theorem denoteAll_of_resolveAll : ∀ (patterns : List Pattern) (table : RuleTable)
    (exprs : List (Expr String)) (after : RuleTable),
      (resolveAll patterns).run table = (.ok exprs, after) →
        Pattern.DenoteAll after patterns exprs
  | [], table, exprs, after, ran => by
      unfold resolveAll at ran
      cases ran
      rfl
  | pattern :: rest, table, exprs, after, ran => by
      unfold resolveAll at ran
      obtain ⟨expr, middle, resolved, others⟩ := exists_of_run_bind ran
      obtain ⟨later, last, all, returned⟩ := exists_of_run_bind others
      cases returned
      have kept := isKeptIn_of_takes (takes_resolveAll rest) all
      exact ⟨expr, later, denotes_of_isKeptIn kept pattern expr
          (denotes_of_resolve pattern table expr middle resolved),
        denoteAll_of_resolveAll rest middle later _ all, rfl⟩

end

end

/-! ## Tables of patterns -/

/-- A table that comes from an empty one, and the patterns that were registered in it, by the names
of their rules. -/
inductive Registers : List (String × Pattern) → RuleTable → Prop
  | empty : Registers [] .empty
  | register {patterns : List (String × Pattern)} {table : RuleTable} {name : String}
    {kind : RuleKind} {body : Pattern} (registers : Registers patterns table)
    (done : ((register name kind body).run table).1 = .ok ()) :
    Registers (patterns ++ [(name, body)]) ((register name kind body).run table).2
  | refused {patterns : List (String × Pattern)} {table : RuleTable} {name : String}
    {kind : RuleKind} {body : Pattern} {error : DefinitionError}
    (registers : Registers patterns table)
    (refused : ((register name kind body).run table).1 = .error error) :
    Registers patterns ((register name kind body).run table).2
  | resolve {patterns : List (String × Pattern)} {table : RuleTable} (pattern : Pattern)
    (registers : Registers patterns table) : Registers patterns ((resolve pattern).run table).2
  | compile {patterns : List (String × Pattern)} {table : RuleTable} (start : String)
    (registers : Registers patterns table) : Registers patterns ((compile start).run table).2

/-- A rule has a pattern as its body, with the markers of a table, or is a marker itself. -/
def StandsFor (table : RuleTable) (rule : Rule String) : Option Pattern → Prop
  | some pattern => ∃ expr, pattern.Denotes table expr ∧ rule = .ofBody rule.kind expr
  | none => ∃ label, rule = .ofBody (.marker label) .empty

structure ComesFrom (table : RuleTable) (patterns : List (String × Pattern)) : Prop where
  defined : ∀ name, table.definitions.lookup name = none → patterns.lookup name = none
  rules : ∀ name rule, table.definitions.lookup name = some rule →
    table.StandsFor rule (patterns.lookup name)

section

variable {table after : RuleTable} {patterns : List (String × Pattern)} {name : String}

theorem Registers.arises (registers : Registers patterns table) : table.Arises := by
  induction registers with
  | empty => exact .empty
  | register _ _ induction | refused _ _ induction => exact .register _ _ _ induction
  | resolve pattern _ induction => exact .resolve pattern induction
  | compile start _ induction => exact .compile start induction

theorem StandsFor.of_isKeptIn (kept : table.IsKeptIn after) {rule : Rule String}
    {pattern? : Option Pattern} (standsFor : table.StandsFor rule pattern?) :
    after.StandsFor rule pattern? := by
  cases pattern? with
  | none => exact standsFor
  | some pattern =>
      obtain ⟨expr, denotes, equal⟩ := standsFor
      exact ⟨expr, denotes_of_isKeptIn kept pattern expr denotes, equal⟩

theorem ComesFrom.marks (comesFrom : table.ComesFrom patterns) (step : MarkStep table after) :
    after.ComesFrom patterns := by
  have kept := (Step.mark step).isKeptIn
  obtain ⟨new, free⟩ := step
  constructor
  · intro other missing
    rw [List.lookup_append, Option.or_eq_none_iff] at missing
    exact comesFrom.defined other missing.1
  · intro other rule found
    rcases lookup_append_singleton found with earlier | ⟨_, rfl, rfl⟩
    · exact (comesFrom.rules other rule earlier).of_isKeptIn kept
    · rw [comesFrom.defined _ free]
      exact ⟨_, rfl⟩

theorem ComesFrom.evolves (comesFrom : table.ComesFrom patterns)
    (steps : Relation.ReflTransGen MarkStep table after) : after.ComesFrom patterns := by
  induction steps with
  | refl => exact comesFrom
  | tail _ step induction => exact induction.marks step

theorem ComesFrom.define {kind : RuleKind} {pattern : Pattern} {expr : Expr String}
    (comesFrom : table.ComesFrom patterns) (denotes : pattern.Denotes table expr)
    (defined : ((define name (.ofBody kind expr)).run table).1 = .ok ()) :
    ((RuleTable.define name (.ofBody kind expr)).run table).2.ComesFrom
      (patterns ++ [(name, pattern)]) := by
  have kept := Evolves.isKeptIn (takes_define name (Rule.ofBody_hasOwnSites kind expr) table)
  have registered := lookup_of_define defined
  rw [run_define] at defined kept registered ⊢
  by_cases taken : table.contains name = true
  · rw [if_pos taken] at defined
    cases defined
  · have free : table.definitions.lookup name = none := Option.not_isSome_iff_eq_none.mp taken
    rw [if_neg taken] at kept registered ⊢
    constructor
    · intro other missing
      have different : other ≠ name := by
        rintro rfl
        rw [registered] at missing
        cases missing
      rw [lookup_append_of_ne different] at missing ⊢
      exact comesFrom.defined other missing
    · intro other rule found
      by_cases same : other = name
      · subst same
        rw [registered] at found
        cases found
        rw [List.lookup_append, comesFrom.defined _ free, Option.none_or, List.lookup_cons_self]
        exact ⟨expr, denotes_of_isKeptIn kept pattern expr denotes, rfl⟩
      · rw [lookup_append_of_ne same] at found ⊢
        exact (comesFrom.rules other rule found).of_isKeptIn kept

theorem ComesFrom.compile (comesFrom : table.ComesFrom patterns) (start : String) :
    ((compile start).run table).2.ComesFrom patterns := by
  have kept := Evolves.isKeptIn (evolves_compile table start)
  constructor
  · rw [definitions_compile]
    exact comesFrom.defined
  · rw [definitions_compile]
    exact fun name rule found => (comesFrom.rules name rule found).of_isKeptIn kept

/-- What is resolved and then refused leaves markers at most. -/
theorem ComesFrom.refused {kind : RuleKind} {body : Pattern} {error : DefinitionError}
    (comesFrom : table.ComesFrom patterns)
    (refused : ((register name kind body).run table).1 = .error error) :
    ((register name kind body).run table).2.ComesFrom patterns := by
  have resolved := comesFrom.evolves (takes_resolve body table)
  simp only [register, run_bind] at refused ⊢
  rcases ran : (resolve body).run table with ⟨cause | expr, middle⟩
  · rw [ran] at resolved
    exact resolved
  · rw [ran] at resolved refused
    simp only at refused ⊢
    rwa [eq_of_define_error refused]

theorem Registers.comesFrom (registers : Registers patterns table) :
    table.ComesFrom patterns := by
  induction registers with
  | empty => exact ⟨fun _ _ => rfl, nofun⟩
  | @register patterns table name kind body _ done induction =>
      have resolved := induction.evolves (takes_resolve body table)
      simp only [RuleTable.register, run_bind] at done ⊢
      rcases ran : (RuleTable.resolve body).run table with ⟨cause | expr, middle⟩
      · rw [ran] at done
        cases done
      · rw [ran] at resolved done
        exact resolved.define (denotes_of_resolve body table expr middle ran) done
  | refused _ refused induction => exact induction.refused refused
  | resolve pattern _ induction => exact induction.evolves (takes_resolve pattern _)
  | compile start _ induction => exact induction.compile start

end

end RuleTable

/-! ## Grammars without labels -/

def Rule.withoutLabels (rule : Rule String) : Option Pattern → Rule String
  | some pattern => .ofBody rule.kind pattern.unlabelled
  | none => rule

def Grammar.withoutLabels (grammar : Grammar String) (patterns : List (String × Pattern)) :
    Grammar String where
  names := grammar.names
  rule name := (grammar.rule name).map fun rule => rule.withoutLabels (patterns.lookup name)

def HasEmptyLabels (patterns : List (String × Pattern)) : Prop :=
  ∃ name pattern, patterns.lookup name = some pattern ∧ pattern.HasEmptyLabel

section

variable {excuse : Prop} {table : RuleTable} {start name label marker : String}
  {grammar other : Grammar String} {patterns : List (String × Pattern)}

theorem Rule.kind_withoutLabels (rule : Rule String) (pattern? : Option Pattern) :
    (rule.withoutLabels pattern?).kind = rule.kind := by
  cases pattern? <;> rfl

theorem Rule.HasOwnSites.withoutLabels {rule : Rule String} (own : rule.HasOwnSites)
    (pattern? : Option Pattern) : (rule.withoutLabels pattern?).HasOwnSites := by
  cases pattern? with
  | none => exact own
  | some pattern => exact Rule.ofBody_hasOwnSites _ _

theorem Grammar.rule_withoutLabels (grammar : Grammar String)
    (patterns : List (String × Pattern)) (name : String) :
    (grammar.withoutLabels patterns).rule name =
      (grammar.rule name).map fun rule => rule.withoutLabels (patterns.lookup name) := rfl

theorem Grammar.HasOwnSites.withoutLabels (own : grammar.HasOwnSites)
    (patterns : List (String × Pattern)) : (grammar.withoutLabels patterns).HasOwnSites := by
  intro name rule found
  obtain ⟨labelled, isRule, rfl⟩ := Option.map_eq_some_iff.mp found
  exact (own name labelled isRule).withoutLabels _

theorem RuleTable.IsGrammarOf.alwaysFails (isGrammar : table.IsGrammarOf start grammar)
    (sound : table.IsSound) (marked : table.markers.lookup label = some marker) (depth : Nat) :
    (Expr.seq (.call marker) .never).AlwaysFails (grammar.plain depth) := by
  intro cursor outcome expected tried
  cases depth with
  | zero => cases tried
  | succ depth =>
      cases found : grammar.rule marker with
      | none =>
          simp only [Expr.plain, Grammar.plain, found] at tried
          cases tried
          exact ⟨true, rfl⟩
      | some rule =>
          have registered := isGrammar.registered marker rule found
          rw [sound.markers label marker marked] at registered
          cases registered
          simp only [Expr.plain, Grammar.plain, found] at tried
          cases tried
          exact ⟨true, rfl⟩

theorem RuleTable.StandsFor.follows {bare invoke : String → Trial} {rule : Rule String}
    {pattern? : Option Pattern} (standsFor : table.StandsFor rule pattern?)
    (calls : ∀ name, Trial.Follows excuse (bare name) (invoke name))
    (fails : ∀ label marker, table.markers.lookup label = some marker →
      (Expr.seq (.call marker) .never).AlwaysFails invoke)
    (excused : ∀ pattern, pattern? = some pattern → pattern.HasEmptyLabel → excuse) :
    Expr.Follows excuse bare invoke (rule.withoutLabels pattern?).body rule.body := by
  cases pattern? with
  | none =>
      obtain ⟨label, rfl⟩ := standsFor
      exact .refl_empty
  | some pattern =>
      obtain ⟨expr, denotes, rule_eq⟩ := standsFor
      have standsIn := pattern.standsIn calls fails expr denotes (excused pattern rfl)
      rw [rule_eq, Expr.Follows, Rule.withoutLabels, Rule.ofBody, Rule.ofBody,
        Expr.plain_numbered, Expr.plain_numbered]
      exact standsIn.follows

theorem Grammar.follows_of_body {depth : Nat} {rule otherRule : Rule String}
    (found : grammar.rule name = some rule) (otherFound : other.rule name = some otherRule)
    (same : otherRule.kind = rule.kind)
    (follows : Expr.Follows excuse (other.plain depth) (grammar.plain depth) otherRule.body
      rule.body) :
    Trial.Follows excuse (other.plain (depth + 1) name) (grammar.plain (depth + 1) name) := by
  intro cursor outcome expected tried
  simp only [plain, found] at tried
  simp only [plain, otherFound, same]
  cases bodyTried : rule.body.plain (grammar.plain depth) cursor with
  | none =>
      rw [bodyTried] at tried
      cases tried
  | some result =>
      obtain ⟨bodyOutcome, early⟩ := result
      obtain ⟨_, fewer, otherTried, agrees, subset⟩ := follows _ _ _ bodyTried
      rw [bodyTried] at tried
      rw [otherTried]
      cases agrees with
      | matched last values =>
          cases tried
          exact ⟨_, _, rfl, .matched _ _, append_subset_append subset (List.Subset.refl _)⟩
      | failed _ _ =>
          cases tried
          exact ⟨_, _, rfl, .failed _ _, subset⟩
      | stuck =>
          cases tried
          exact ⟨_, _, rfl, .stuck, subset⟩
      | excused _ excused =>
          cases bodyOutcome <;> cases tried
          · exact ⟨_, _, rfl, .excused _ excused, List.subset_append_of_subset_left _ subset⟩
          · exact ⟨_, _, rfl, .excused _ excused, subset⟩
          · exact ⟨_, _, rfl, .excused _ excused, subset⟩

theorem Grammar.follows_of_none {depth : Nat} (missing : grammar.rule name = none)
    (otherMissing : other.rule name = none) :
    Trial.Follows excuse (other.plain (depth + 1) name) (grammar.plain (depth + 1) name) := by
  intro cursor outcome expected tried
  simp only [plain, missing] at tried
  simp only [plain, otherMissing]
  cases tried
  exact ⟨_, _, rfl, .failed _ _, List.nil_subset _⟩

/-- Without labels, every rule follows what it is with labels, at every depth. -/
theorem RuleTable.IsGrammarOf.follows (isGrammar : table.IsGrammarOf start grammar)
    (sound : table.IsSound) (comesFrom : table.ComesFrom patterns) (depth : Nat) : ∀ name,
      Trial.Follows (HasEmptyLabels patterns) ((grammar.withoutLabels patterns).plain depth name)
        (grammar.plain depth name) := by
  induction depth with
  | zero => exact fun name => nofun
  | succ depth induction =>
      intro name
      have otherFound := grammar.rule_withoutLabels patterns name
      cases found : grammar.rule name with
      | none =>
          rw [found, Option.map_none] at otherFound
          exact Grammar.follows_of_none found otherFound
      | some rule =>
          rw [found, Option.map_some] at otherFound
          have standsFor := comesFrom.rules name rule (isGrammar.registered name rule found)
          exact Grammar.follows_of_body found otherFound (rule.kind_withoutLabels _)
            (standsFor.follows induction
              (fun label marker marked => isGrammar.alwaysFails sound marked depth)
              fun pattern known empty => ⟨name, pattern, known, empty⟩)

end

namespace RuleTable

end RuleTable

end QubitLang.Peg
