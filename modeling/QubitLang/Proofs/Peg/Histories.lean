import QubitLang.Proofs.Peg.Tables

/-! Tables of rules over time. Whatever is registered, compiled and matched, and whatever of it is
refused: what a table holds it keeps, a label has one marker of its own, and a start rule is matched
with the rules of the time at which it was compiled first. -/

namespace QubitLang.Peg

namespace RuleTable

/-- What can be asked of a table. The labels inside a body are registered by operations of their
own before the rule is. -/
inductive Operation where
  | rule (name : String) (kind : RuleKind) (body : Expr String)
  | expect (label : String) (body : Expr String)
  | compile (start : String)
  | matchText (start : String) (text : Text) (options : Options)

def Operation.literal (text : String) : Operation :=
  .expect ("\"" ++ text ++ "\"") (.terminal (.literal text.toList))

inductive Answer where
  | registered
  | expecting (marker : String) (expr : Expr String)
  | refused (error : DefinitionError)
  | compiled (grammar : Grammar String)
  | notCompiled (error : CompileError)
  | matched (report : Report MatchError (Option Value))

/-- An operation was refused; a match is, if its start rule cannot be compiled. -/
inductive Answer.IsRefusal : Answer → Prop
  | refused (error : DefinitionError) : IsRefusal (.refused error)
  | notCompiled (error : CompileError) : IsRefusal (.notCompiled error)
  | matched {report : Report MatchError (Option Value)} {error : CompileError}
    (outcome_eq : report.outcome = .error (.notCompiled error)) : IsRefusal (.matched report)

namespace Operation

def run (operation : Operation) (table : RuleTable) : Answer × RuleTable :=
  match operation with
  | .rule name kind body =>
    ((define name (.ofBody kind body)).run table).map
      (fun result => match result with
        | .ok () => .registered
        | .error error => .refused error) id
  | .expect label body =>
    ((marker label).run table).map
      (fun result => match result with
        | .ok marker => .expecting marker (.expecting marker body)
        | .error error => .refused error) id
  | .compile start =>
    ((RuleTable.compile start).run table).map
      (fun result => match result with
        | .ok grammar => .compiled grammar
        | .error error => .notCompiled error) id
  | .matchText start text options =>
    ((RuleTable.matchText start text options).run table).map .matched id

end Operation

def afterAll (operations : List Operation) : RuleTable :=
  operations.foldl (fun table operation => (operation.run table).2) .empty

def matchedWith (grammar : Grammar String) (start : String) (text : Text) (options : Options) :
    Report MatchError (Option Value) :=
  match admission text options with
  | .error error => ⟨[], .error error⟩
  | .ok () => grammar.matchText start text options.trace

/-- Two tables hold the same, but for the grammar kept for a start rule. -/
structure SameBut (table : RuleTable) (start : String) (other : RuleTable) : Prop where
  definitions_eq : other.definitions = table.definitions
  markers_eq : other.markers = table.markers
  compiled_eq : ∀ name, name ≠ start → other.compiled.lookup name = table.compiled.lookup name

/-- A label has a marker that is the marker of no other label. Wherever it is invoked, it matches
nothing and notes its own label. -/
structure MarksOnly (table : RuleTable) (marker label : String) : Prop where
  markers : table.markers.lookup label = some marker
  only : ∀ other, table.markers.lookup other = some marker → other = label
  notes : ∀ start grammar rule, ((compile start).run table).1 = .ok grammar →
    grammar.rule marker = some rule → ∀ depth cursor progress,
      grammar.invoke (depth + 1) marker cursor progress =
        some (.matched cursor [], progress.note (.expected label cursor.offset))

/-! ## One operation -/

section

variable {table : RuleTable} {start name label : String} {grammar : Grammar String}

theorem SameBut.refl (table : RuleTable) (start : String) : table.SameBut start table :=
  ⟨rfl, rfl, fun _ _ => rfl⟩

theorem sameBut_compile (table : RuleTable) (start : String) :
    table.SameBut start ((compile start).run table).2 := by
  rw [run_compile]
  cases table.compiled.lookup start with
  | some grammar => exact .refl table start
  | none =>
      cases table.compileError? start with
      | some error => exact .refl table start
      | none =>
          refine ⟨rfl, rfl, fun name different => ?_⟩
          rw [List.lookup_cons, beq_eq_false_iff_ne.mpr different]

theorem eq_grammar_of_compile (new : table.compiled.lookup start = none)
    (compiles : ((compile start).run table).1 = .ok grammar) : grammar = table.grammar := by
  rw [run_compile, new] at compiles
  cases refused : table.compileError? start with
  | some error =>
      simp only [refused] at compiles
      cases compiles
  | none =>
      simp only [refused] at compiles
      cases compiles
      rfl

theorem eq_grammar_of_kept_compile (new : table.compiled.lookup start = none)
    (kept : ((compile start).run table).2.compiled.lookup start = some grammar) :
    grammar = table.grammar := by
  rw [run_compile, new] at kept
  cases refused : table.compileError? start with
  | some error =>
      simp only [refused, new] at kept
      cases kept
  | none =>
      simp only [refused, List.lookup_cons_self, Option.some.injEq] at kept
      exact kept.symm

theorem compiled_define (table : RuleTable) (name : String) (rule : Rule String) :
    ((define name rule).run table).2.compiled = table.compiled := by
  rw [run_define]
  split <;> rfl

theorem compiled_marker (table : RuleTable) (label : String) :
    ((marker label).run table).2.compiled = table.compiled := by
  rw [run_marker]
  cases table.markers.lookup label with
  | some name => rfl
  | none =>
      dsimp only
      split <;> rfl

theorem table_matchText (table : RuleTable) (start : String) (text : Text) (options : Options) :
    ((matchText start text options).run table).2 = table ∨
      ((matchText start text options).run table).2 = ((compile start).run table).2 := by
  rw [run_matchText]
  cases admission text options with
  | error error => exact .inl rfl
  | ok admitted =>
      rcases (compile start).run table with ⟨error | grammar, after⟩
      · exact .inr rfl
      · exact .inr rfl

theorem evolves_matchText (table : RuleTable) (start : String) (text : Text)
    (options : Options) : Evolves table ((matchText start text options).run table).2 := by
  rcases table_matchText table start text options with same | compiled
  · rw [same]
  · rw [compiled]
    exact evolves_compile table start

theorem Operation.evolves (operation : Operation) (table : RuleTable) :
    Evolves table (operation.run table).2 := by
  cases operation with
  | rule name kind body => exact takes_define name (Rule.ofBody_hasOwnSites kind body) table
  | expect label body => exact (takes_marker label).evolves table
  | compile start => exact evolves_compile table start
  | matchText start text options => exact evolves_matchText table start text options

theorem sameBut_matchText (table : RuleTable) (start : String) (text : Text) (options : Options) :
    table.SameBut start ((matchText start text options).run table).2 := by
  rcases table_matchText table start text options with same | compiled
  · rw [same]
    exact .refl table start
  · rw [compiled]
    exact sameBut_compile table start

theorem Operation.eq_grammar_of_kept (operation : Operation)
    (new : table.compiled.lookup start = none)
    (kept : (operation.run table).2.compiled.lookup start = some grammar) :
    grammar = table.grammar := by
  have ofCompile : ∀ other,
      ((RuleTable.compile other).run table).2.compiled.lookup start = some grammar →
        grammar = table.grammar := by
    intro other kept
    by_cases same : start = other
    · subst same
      exact eq_grammar_of_kept_compile new kept
    · rw [(sameBut_compile table other).compiled_eq start same, new] at kept
      cases kept
  cases operation with
  | rule name kind body =>
      change ((define name (.ofBody kind body)).run table).2.compiled.lookup start = _ at kept
      rw [compiled_define, new] at kept
      cases kept
  | expect label body =>
      change ((marker label).run table).2.compiled.lookup start = _ at kept
      rw [compiled_marker, new] at kept
      cases kept
  | compile other => exact ofCompile other kept
  | matchText other text options =>
      change
        ((RuleTable.matchText other text options).run table).2.compiled.lookup start = _ at kept
      rcases table_matchText table other text options with same | compiled
      · rw [same, new] at kept
        cases kept
      · rw [compiled] at kept
        exact ofCompile other kept

theorem Operation.of_expecting {body expr : Expr String} {marker : String}
    (answered : ((Operation.expect label body).run table).1 = .expecting marker expr) :
    expr = .expecting marker body ∧
      ((Operation.expect label body).run table).2.markers.lookup label = some marker := by
  cases marked : ((RuleTable.marker label).run table).1 with
  | error error =>
      simp only [run, Prod.map_fst, marked] at answered
      cases answered
  | ok name =>
      simp only [run, Prod.map_fst, marked] at answered
      cases answered
      exact ⟨rfl, lookup_of_marker marked⟩

theorem Operation.of_registered {kind : RuleKind} {body : Expr String}
    (answered : ((Operation.rule name kind body).run table).1 = .registered) :
    ((Operation.rule name kind body).run table).2.definitions.lookup name =
      some (.ofBody kind body) := by
  cases defined : ((define name (.ofBody kind body)).run table).1 with
  | error error =>
      simp only [run, Prod.map_fst, defined] at answered
      cases answered
  | ok _ => exact lookup_of_define defined

/-! ## Refusals -/

theorem eq_of_marker_error {error : DefinitionError}
    (refused : ((marker label).run table).1 = .error error) :
    ((marker label).run table).2 = table := by
  rw [run_marker] at refused ⊢
  cases marked : table.markers.lookup label with
  | some name => rfl
  | none =>
      simp only [marked] at refused ⊢
      by_cases taken : table.contains s!"_expect_{table.markers.length}" = true
      · simp only [if_pos taken]
      · simp only [if_neg taken] at refused
        cases refused

theorem eq_of_compile_error {error : CompileError}
    (refused : ((compile start).run table).1 = .error error) :
    ((compile start).run table).2 = table := by
  rw [run_compile] at refused ⊢
  cases kept : table.compiled.lookup start with
  | some grammar => rfl
  | none =>
      simp only [kept] at refused ⊢
      cases reason : table.compileError? start with
      | some error => rfl
      | none =>
          simp only [reason] at refused
          cases refused

theorem Grammar.matchText_ne_notCompiled (grammar : Grammar String) (start : String) (text : Text)
    (trace : Bool) (error : CompileError) :
    (grammar.matchText start text trace).outcome ≠ .error (.notCompiled error) := by
  simp only [Grammar.matchText]
  cases grammar.run start text with
  | none => exact nofun
  | some result =>
      obtain ⟨outcome, events⟩ := result
      cases outcome with
      | matched _ _ | stuck => exact nofun
      | failed explained =>
          simp only [failure]
          split <;> exact nofun

theorem eq_of_matchText_notCompiled {text : Text} {options : Options} {error : CompileError}
    (refused : ((matchText start text options).run table).1.outcome =
      .error (.notCompiled error)) : ((matchText start text options).run table).2 = table := by
  rw [run_matchText] at refused ⊢
  cases admitted : admission text options with
  | error error => rfl
  | ok =>
      simp only [admitted] at refused ⊢
      rcases compiled : (compile start).run table with ⟨reason | grammar, after⟩
      · have same : ((compile start).run table).2 = table :=
          eq_of_compile_error (by rw [compiled])
        rwa [compiled] at same
      · simp only [compiled] at refused
        exact absurd refused (Grammar.matchText_ne_notCompiled grammar start text _ error)

theorem Operation.eq_of_isRefusal (operation : Operation)
    (refused : (operation.run table).1.IsRefusal) : (operation.run table).2 = table := by
  cases operation with
  | rule name kind body =>
      cases defined : ((define name (.ofBody kind body)).run table).1 with
      | error error => exact eq_of_define_error defined
      | ok _ =>
          simp only [run, Prod.map_fst, defined] at refused
          cases refused
  | expect label body =>
      cases marked : ((marker label).run table).1 with
      | error error => exact eq_of_marker_error marked
      | ok _ =>
          simp only [run, Prod.map_fst, marked] at refused
          cases refused
  | compile start =>
      cases compiled : ((RuleTable.compile start).run table).1 with
      | error error => exact eq_of_compile_error compiled
      | ok _ =>
          simp only [run, Prod.map_fst, compiled] at refused
          cases refused
  | matchText start text options =>
      cases refused with
      | matched outcome_eq => exact eq_of_matchText_notCompiled outcome_eq

end

/-! ## Many operations -/

section

variable {start marker label : String}

theorem evolves_foldl (operations : List Operation) : ∀ table : RuleTable,
    Evolves table (operations.foldl (fun table operation => (operation.run table).2) table) := by
  induction operations with
  | nil => exact fun _ => .refl
  | cons operation operations induction =>
      exact fun table => (operation.evolves table).trans (induction _)

theorem evolves_afterAll (earlier later : List Operation) :
    Evolves (afterAll earlier) (afterAll (earlier ++ later)) := by
  have appended : afterAll (earlier ++ later) =
      later.foldl (fun table operation => (operation.run table).2) (afterAll earlier) :=
    List.foldl_append
  rw [appended]
  exact evolves_foldl later _

theorem isSound_afterAll (operations : List Operation) : (afterAll operations).IsSound :=
  (evolves_foldl operations .empty).isSound isSound_empty

theorem isKeptIn_afterAll (earlier later : List Operation) (operation : Operation) :
    (operation.run (afterAll earlier)).2.IsKeptIn (afterAll (earlier ++ operation :: later)) := by
  have kept := (evolves_afterAll (earlier ++ [operation]) later).isKeptIn
  rw [List.append_assoc, List.singleton_append] at kept
  have appended : afterAll (earlier ++ [operation]) = (operation.run (afterAll earlier)).2 :=
    List.foldl_append
  rwa [appended] at kept

theorem IsSound.marksOnly {table : RuleTable} (sound : table.IsSound)
    (found : table.markers.lookup label = some marker) : table.MarksOnly marker label where
  markers := found
  only other otherFound := by
    have registered := (sound.markers label marker found).symm.trans
      (sound.markers other marker otherFound)
    have kinds := congrArg Rule.kind (Option.some.inj registered)
    exact (RuleKind.marker.inj kinds).symm
  notes start grammar rule compiles isRule depth cursor progress := by
    have registered := ((sound.compile start).2 grammar compiles).registered marker rule isRule
    rw [sound.markers label marker found] at registered
    cases registered
    rw [Grammar.invoke, isRule]
    rfl

theorem matchText_of_compiles {table : RuleTable} {grammar : Grammar String}
    (compiles : ((compile start).run table).1 = .ok grammar) (text : Text) (options : Options) :
    ((matchText start text options).run table).1 = matchedWith grammar start text options := by
  rw [run_matchText, matchedWith]
  cases admission text options with
  | error error => rfl
  | ok admitted =>
      rcases compiled : (compile start).run table with ⟨error | other, after⟩
      all_goals
        rw [compiled] at compiles
        cases compiles
      rfl

theorem compile_of_kept {table : RuleTable} {grammar : Grammar String}
    (kept : table.compiled.lookup start = some grammar) :
    ((compile start).run table).1 = .ok grammar := by
  rw [run_compile, kept]

end

/-! ## Histories -/

/-- Any operations on an empty table, one of them between others. (i) What the table holds it
keeps, a rule that is registered is held, what is refused changes nothing, and a match changes
nothing but what is kept for its start rule. (ii) The label of a registered body has a marker that
marks no other label, and another label has the same marker only if it is the same label. (iii) A
start rule that is compiled for the first time is matched with the rules of that time, then and
later on. -/
theorem histories_keep (earlier later : List Operation) (operation : Operation) :
    ((afterAll earlier).IsKeptIn (afterAll (earlier ++ later)) ∧
      (∀ name kind body, operation = .rule name kind body →
        (operation.run (afterAll earlier)).1 = .registered →
          (afterAll (earlier ++ operation :: later)).definitions.lookup name =
            some (.ofBody kind body)) ∧
      ((operation.run (afterAll earlier)).1.IsRefusal →
        (operation.run (afterAll earlier)).2 = afterAll earlier) ∧
      ∀ start text options, operation = .matchText start text options →
        (afterAll earlier).SameBut start (operation.run (afterAll earlier)).2) ∧
    (∀ label body marker expr, operation = .expect label body →
      (operation.run (afterAll earlier)).1 = .expecting marker expr →
        expr = .expecting marker body ∧
        (afterAll (earlier ++ operation :: later)).MarksOnly marker label ∧
        ∀ other otherBody otherMarker otherExpr,
          ((Operation.expect other otherBody).run
            (afterAll (earlier ++ operation :: later))).1 = .expecting otherMarker otherExpr →
              (otherMarker = marker ↔ other = label)) ∧
    ∀ start, (afterAll earlier).compiled.lookup start = none →
      ((operation.run (afterAll earlier)).2.compiled.lookup start ≠ none →
        ∀ text options,
          ((matchText start text options).run (afterAll (earlier ++ operation :: later))).1 =
            matchedWith (afterAll earlier).grammar start text options) ∧
      ∀ text options grammar, ((compile start).run (afterAll earlier)).1 = .ok grammar →
        ((matchText start text options).run (afterAll earlier)).1 =
          matchedWith (afterAll earlier).grammar start text options := by
  have kept := isKeptIn_afterAll earlier later operation
  have sound := isSound_afterAll (earlier ++ operation :: later)
  refine ⟨⟨(evolves_afterAll earlier later).isKeptIn, ?_, operation.eq_of_isRefusal, ?_⟩, ?_, ?_⟩
  · rintro name kind body rfl registered
    exact kept.rules name _ (Operation.of_registered registered)
  · rintro start text options rfl
    exact sameBut_matchText _ start text options
  · rintro label body marker expr rfl answered
    obtain ⟨expr_eq, marked⟩ := Operation.of_expecting answered
    have found := kept.markers label marker marked
    refine ⟨expr_eq, sound.marksOnly found, ?_⟩
    intro other otherBody otherMarker otherExpr otherAnswered
    obtain ⟨_, otherFound⟩ := Operation.of_expecting otherAnswered
    have steps := (Operation.expect other otherBody).evolves
      (afterAll (earlier ++ .expect label body :: later))
    have still := steps.isKeptIn.markers label marker found
    constructor
    · rintro rfl
      exact ((steps.isSound sound).marksOnly still).only other otherFound
    · rintro rfl
      exact Option.some.inj (otherFound.symm.trans still)
  · intro start new
    constructor
    · intro keeps text options
      obtain ⟨grammar, isKept⟩ := Option.ne_none_iff_exists'.mp keeps
      have same := operation.eq_grammar_of_kept new isKept
      subst same
      exact matchText_of_compiles (compile_of_kept (kept.compiled start _ isKept)) text options
    · intro text options grammar compiles
      have same := eq_grammar_of_compile new compiles
      subst same
      exact matchText_of_compiles compiles text options

def takenHistory : List Operation := [.rule "_expect_1" .silent .empty, .literal "a"]

/-- Another label is refused then, which changes nothing, and the first one is matched with the
rules of now, even if there are more of them later. -/
theorem histories_keep_taken :
    ((Operation.expect "x" .empty).run (afterAll takenHistory)).1.IsRefusal ∧
      ((Operation.expect "x" .empty).run (afterAll takenHistory)).2 = afterAll takenHistory ∧
      (afterAll takenHistory).compiled.lookup "_expect_0" = none ∧
      ((Operation.compile "_expect_0").run (afterAll takenHistory)).2.compiled.lookup
        "_expect_0" ≠ none ∧
      ∀ text options,
        ((matchText "_expect_0" text options).run (afterAll
          (takenHistory ++ .compile "_expect_0" :: [.rule "late" .silent .empty]))).1 =
            matchedWith (afterAll takenHistory).grammar "_expect_0" text options := by
  have refused : ((Operation.expect "x" .empty).run (afterAll takenHistory)).1.IsRefusal :=
    .refused (.duplicateRule "_expect_1")
  have new : (afterAll takenHistory).compiled.lookup "_expect_0" = none := rfl
  have keeps : ((Operation.compile "_expect_0").run (afterAll takenHistory)).2.compiled.lookup
      "_expect_0" ≠ none := nofun
  exact ⟨refused, (histories_keep takenHistory [] _).1.2.2.1 refused, new, keeps,
    ((histories_keep takenHistory _ _).2.2 "_expect_0" new).1 keeps⟩

end RuleTable

end QubitLang.Peg
