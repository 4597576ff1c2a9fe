import QubitLang.Proofs.Peg.Occurrences
import QubitLang.Proofs.Peg.Refinement

/-! What a trace may say again. Rules themselves are not remembered, only choices are, so a rule may
match more than once at an offset; it always matches the same then. -/

namespace QubitLang.Peg

section

variable {ν : Type} [BEq ν] [Hashable ν] {grammar : Grammar ν} {text : Text} {start : ν}
  {outcome : Outcome} {events : List Event}

def Grammar.Matches (grammar : Grammar ν) (text : Text) (noted : String) (begin stop : Nat) :
    Prop :=
  ∃ name rule last values expected, grammar.rule name = some rule ∧
    (rule.kind = .tree noted ∨ rule.kind = .token noted) ∧
    rule.body.Settles grammar (Cursor.at text begin) (.matched last values) expected ∧
    last.offset = stop

/-- Whether an event is no match, or one that a rule settles on. -/
def Event.IsTrue (grammar : Grammar ν) (text : Text) : Event → Prop
  | .matched noted begin stop => grammar.Matches text noted begin stop
  | .expected _ _ | .failed _ _ | .passed _ => True

def Progress.NotesTruly (grammar : Grammar ν) (text : Text) (progress : Progress ν) : Prop :=
  ∀ event ∈ progress.events, event.IsTrue grammar text

theorem Expr.Leads.notesTruly {expr : Expr ν} {owner : ν} {cursor : Cursor}
    {before after : Progress ν} (leads : expr.Leads grammar text owner cursor before after)
    (isIn : cursor.IsIn text) (earlier : before.NotesTruly grammar text) :
    after.NotesTruly grammar text := by
  refine leads.keeps ?_ ?_ ?_ isIn earlier
  · exact fun progress offset earlier => List.forall_mem_cons.mpr ⟨trivial, earlier⟩
  · intro name rule first last values expected progress found isIn settled earlier
    rw [isIn.eq_at] at settled
    cases kind : rule.kind with
    | tree other | token other =>
        refine List.forall_mem_cons.mpr ⟨?_, earlier⟩
        exact ⟨name, rule, last, values, expected, found, by simp [kind], settled, rfl⟩
    | silent | entry => exact earlier
    | marker label => exact List.forall_mem_cons.mpr ⟨trivial, earlier⟩
  · intro progress key outcome earlier
    cases outcome with
    | matched _ _ | failed _ => exact List.forall_mem_cons.mpr ⟨trivial, earlier⟩
    | stuck => exact earlier

variable [LawfulBEq ν] [DecidableEq ν]

theorem Grammar.matches_of_run (own : grammar.HasOwnSites)
    (result : grammar.run start text = some (outcome, events)) {noted : String} {begin stop : Nat}
    (member : .matched noted begin stop ∈ events) : grammar.Matches text noted begin stop := by
  obtain ⟨after, leads, rfl⟩ := exists_leads_of_run own result
  exact leads.notesTruly (Cursor.isIn_start text) (fun _ => nofun) _ (List.mem_reverse.mp member)

end

namespace RuleTable

variable {patterns : List (String × Pattern)} {table : RuleTable} {start : String}
  {grammar : Grammar String}

theorem IsOrdinary.eq_of_notes (ordinary : table.IsOrdinary patterns)
    (comesFrom : table.ComesFrom patterns) {name noted : String} {rule : Rule String}
    (registered : table.definitions.lookup name = some rule)
    (notes : rule.kind = .tree noted ∨ rule.kind = .token noted) : noted = name := by
  have standsFor := comesFrom.rules name rule registered
  cases known : patterns.lookup name with
  | none =>
      rw [known] at standsFor
      obtain ⟨label, rfl⟩ := standsFor
      rcases notes with isTree | isToken
      · cases isTree
      · cases isToken
  | some pattern =>
      have notesAs := ordinary.notesAs name rule registered (by rw [known]; rfl)
      rcases notes with isTree | isToken
      · rw [isTree] at notesAs
        exact beq_iff_eq.mp notesAs
      · rw [isToken] at notesAs
        exact beq_iff_eq.mp notesAs

/-- What is noted under a name at an offset ends where the rule of that name settles. -/
theorem IsOrdinary.unique_of_matches (ordinary : table.IsOrdinary patterns)
    (comesFrom : table.ComesFrom patterns) (isGrammar : table.IsGrammarOf start grammar)
    {text : Text} {noted : String} {begin stop other : Nat}
    (left : grammar.Matches text noted begin stop)
    (right : grammar.Matches text noted begin other) : stop = other := by
  obtain ⟨name, rule, last, _, _, found, notes, settled, rfl⟩ := left
  obtain ⟨otherName, otherRule, otherLast, _, _, otherFound, otherNotes, otherSettled, rfl⟩ := right
  obtain rfl := ordinary.eq_of_notes comesFrom (isGrammar.registered _ _ found) notes
  obtain rfl := ordinary.eq_of_notes comesFrom (isGrammar.registered _ _ otherFound) otherNotes
  cases found.symm.trans otherFound
  cases (settled.unique otherSettled).1
  rfl

theorem sublist_log (compiles : ((compile start).run table).1 = .ok grammar) {text : Text}
    {events : List Event} {outcome : Outcome}
    (result : grammar.run start text = some (outcome, events)) (options : Options) :
    List.Sublist ((matchText start text options).run table).1.log
      (events.filterMap LogLine.ofEvent?) := by
  cases admitted : admission text options with
  | error error =>
      rw [run_matchText, admitted]
      exact List.nil_sublist _
  | ok _ =>
      rw [outcome_matchText admitted compiles]
      simp only [Grammar.matchText, result]
      split
      · exact List.Sublist.refl _
      · exact List.nil_sublist _

/-- In the trace of a match with an ordinary table without left recursion, a rule that matches more
than once at an offset always ends at the same one. A line is written no more often than the rules
call what may write it, and once more by the start rule, if they call it only where something is
entered that is remembered. A label is so called, and hence expected at an offset no more often than
it stands in the patterns, however much the match backtracks. -/
theorem lines_seldom_repeat (registers : Registers patterns table)
    (ordinary : table.IsOrdinary patterns) (isRule : (patterns.lookup start).isSome = true)
    (compiles : ((compile start).run table).1 = .ok grammar) (acyclic : ¬ grammar.IsLeftRecursive)
    (text : Text) (options : Options) {log : List LogLine}
    (logs : ((matchText start text options).run table).1.log = log) :
    (∀ noted begin stop other, .matched noted begin stop ∈ log → .matched noted begin other ∈ log →
      stop = other) ∧
    (∀ line, grammar.CallsOnEntry (grammar.writes line) → log.count line ≤
      grammar.calls.countP (grammar.writes line) +
        if grammar.writes line start = true ∧ lineOffset line = 0 then 1 else 0) ∧
    ∀ label offset, log.count (.expected label offset) ≤
      (patterns.flatMap fun entry => entry.2.labels).count label := by
  have arises := registers.arises
  have comesFrom := registers.comesFrom
  have isGrammar := (arises.isSound.compile start).2 grammar compiles
  have ranked := isGrammar.complete.isRanked (List.ne_nil_of_mem isGrammar.start_mem) acyclic
  obtain ⟨outcome, events, result⟩ := ranked.run_eq_some isGrammar.ownSites start text
  have sublist := sublist_log compiles result options
  rw [logs] at sublist
  have isMatch : ∀ noted begin stop, .matched noted begin stop ∈ log →
      grammar.Matches text noted begin stop := by
    intro noted begin stop member
    obtain ⟨event, isEvent, isLine⟩ := List.mem_filterMap.mp (sublist.subset member)
    cases event with
    | matched =>
        cases isLine
        exact Grammar.matches_of_run isGrammar.ownSites result isEvent
    | expected | failed | passed => cases isLine
  have bounded : ∀ line, grammar.CallsOnEntry (grammar.writes line) → log.count line ≤
      grammar.calls.countP (grammar.writes line) +
        if grammar.writes line start = true ∧ lineOffset line = 0 then 1 else 0 :=
    fun line onEntry => (sublist.count_le line).trans
      (Grammar.count_le_of_run ranked isGrammar.ownSites isGrammar.complete onEntry result)
  refine ⟨?_, bounded, fun label offset => ?_⟩
  · exact fun noted begin stop other left right =>
      ordinary.unique_of_matches comesFrom isGrammar (isMatch _ _ _ left) (isMatch _ _ _ right)
  · obtain ⟨onEntry, calls_le⟩ := ordinary.calls_markers arises comesFrom compiles label offset
    have atMost := bounded _ onEntry
    rw [ordinary.writes_expected isGrammar isRule] at atMost
    exact atMost.trans (by simpa using calls_le)

/-! ## A rule that is tried again -/

def twicePatterns : List (String × Pattern) :=
  [("A", .terminal (.literal ['a'])),
    ("S", .sequence [.opt (.sequence [.call "A", .quotedLiteral "x"]), .call "A",
      .quotedLiteral "x"])]

def twiceTable : RuleTable :=
  ((register "S" (.tree "S") (.sequence [.opt (.sequence [.call "A", .quotedLiteral "x"]),
    .call "A", .quotedLiteral "x"])).run
      ((register "A" (.tree "A") (.terminal (.literal ['a']))).run empty).2).2

theorem registers_twice : Registers twicePatterns twiceTable :=
  .register (.register .empty rfl) rfl

theorem not_isLeftRecursive_twice : ¬ twiceTable.grammar.IsLeftRecursive :=
  not_isLeftRecursive_of_isRankedBy (fun name => ["_expect_0"].contains name)
    (fun name => twiceTable.grammar.names.idxOf name) rfl

theorem isOrdinary_twice : twiceTable.IsOrdinary twicePatterns where
  notesAs name rule found known := by
    have all : twiceTable.definitions.all (fun entry =>
      !(twicePatterns.lookup entry.1).isSome || entry.2.kind.notesAs entry.1) = true := rfl
    have each := List.all_eq_true.mp all (name, rule) (mem_of_lookup found)
    simpa [known] using each
  calls name pattern found := by
    have all : twicePatterns.all (fun entry => entry.2.calls.all fun callee =>
      (twicePatterns.lookup callee).isSome) = true := rfl
    have each := List.all_eq_true.mp all (name, pattern) (mem_of_lookup found)
    exact fun callee member => List.all_eq_true.mp each callee member

/-- The letter with the label stands twice, so that it may be expected twice at an offset. -/
theorem lines_seldom_repeat_twice :
    Registers twicePatterns twiceTable ∧ twiceTable.IsOrdinary twicePatterns ∧
      (twicePatterns.lookup "S").isSome = true ∧
      ((compile "S").run twiceTable).1 = .ok twiceTable.grammar ∧
      ¬ twiceTable.grammar.IsLeftRecursive ∧
      ((matchText "S" ['a'] { trace := true }).run twiceTable).1.log.count
        (.expected "\"x\"" 1) ≤ 2 := by
  have compiles : ((compile "S").run twiceTable).1 = .ok twiceTable.grammar := rfl
  refine ⟨registers_twice, isOrdinary_twice, rfl, compiles, not_isLeftRecursive_twice, ?_⟩
  exact (lines_seldom_repeat registers_twice isOrdinary_twice rfl compiles
    not_isLeftRecursive_twice ['a'] { trace := true } rfl).2.2 "\"x\"" 1

def twicePair (site : Nat) : Expr String :=
  .seq (.call "A")
    (.remember site (.alt (.terminal (.literal ['x'])) (.seq (.call "_expect_0") .never)))

theorem rule_twiceTable : twiceTable.grammar.rule "S" =
    some ⟨.tree "S", .seq (.opt (twicePair 0)) (twicePair 1)⟩ := rfl

def afterPair (progress : Progress String) (site : Nat) : Progress String :=
  ((((progress.note (.matched "A" 0 1)).note (.failed 1 true)).note (.expected "\"x\"" 1)).note
    (.failed 1 true)).remember ("S", site, 1) (.failed true)

theorem attempt_twicePair {progress : Progress String} {site : Nat}
    (unknown : progress.outcomeOf? ("S", site, 1) = none) :
    (twicePair site).attempt (twiceTable.grammar.invoke 6) "S" (Cursor.start ['a']) progress =
      some (.failed true, afterPair progress site) := by
  have called : (Expr.call "A").attempt (twiceTable.grammar.invoke 6) "S" (Cursor.start ['a'])
      progress = some (.matched ⟨1, []⟩ [.tree "A" 0 1 []], progress.note (.matched "A" 0 1)) := rfl
  rw [twicePair, Expr.attempt, called]
  simp only [Expr.attempt, Progress.outcomeOf?_note, unknown]
  rfl

theorem run_twiceTable : twiceTable.grammar.run "S" ['a'] =
    some (.failed true, (afterPair (afterPair .start 0) 1).events.reverse) := by
  have unknown : (afterPair .start 0).outcomeOf? ("S", 1, 1) = none := by
    rw [afterPair, Progress.outcomeOf?_remember, if_neg (by decide)]
    exact outcomeOf?_start _
  have bodyFails : (Expr.seq (.opt (twicePair 0)) (twicePair 1)).attempt
      (twiceTable.grammar.invoke 6) "S" (Cursor.start ['a']) .start =
        some (.failed true, afterPair (afterPair .start 0) 1) := by
    rw [Expr.attempt, Expr.attempt, attempt_twicePair (outcomeOf?_start _)]
    simp only [attempt_twicePair unknown]
  have invoked : twiceTable.grammar.invoke (twiceTable.grammar.depthBound ['a']) "S"
      (Cursor.start ['a']) .start = some (.failed true, afterPair (afterPair .start 0) 1) := by
    change twiceTable.grammar.invoke (6 + 1) _ _ _ = _
    rw [Grammar.invoke, rule_twiceTable]
    simp only [bodyFails]
  rw [Grammar.run, invoked, Option.map_some]

/-- Without left recursion, the rule is matched twice where it is tried again, and the label that
stands twice is expected twice. -/
theorem log_twiceTable :
    Registers twicePatterns twiceTable ∧ twiceTable.IsOrdinary twicePatterns ∧
      ((compile "S").run twiceTable).1 = .ok twiceTable.grammar ∧
      ¬ twiceTable.grammar.IsLeftRecursive ∧
      ((matchText "S" ['a'] { trace := true }).run twiceTable).1.log =
        [.matched "A" 0 1, .expected "\"x\"" 1, .matched "A" 0 1, .expected "\"x\"" 1] := by
  have compiles : ((compile "S").run twiceTable).1 = .ok twiceTable.grammar := rfl
  refine ⟨registers_twice, isOrdinary_twice, compiles, not_isLeftRecursive_twice, ?_⟩
  rw [outcome_matchText (admission_eq_ok rfl (by decide)) compiles]
  simp only [Grammar.matchText, run_twiceTable]
  rfl

end RuleTable

end QubitLang.Peg
