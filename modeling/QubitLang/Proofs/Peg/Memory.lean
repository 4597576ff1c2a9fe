import QubitLang.Proofs.Lexical.Split
import QubitLang.Proofs.Peg.Plain
import QubitLang.Proofs.Peg.Sites

/-! Memory changes no result. Whatever an attempt with memory ends with is the
settled result of the attempt without, and the expectations among its events are
those of the attempt without memory, although it may not repeat them. -/

namespace QubitLang.Peg

variable {ν : Type} [BEq ν] [Hashable ν]

def Outcome.IsIn (outcome : Outcome) (text : Text) : Prop :=
  ∀ cursor values, outcome = .matched cursor values → cursor.IsIn text

def Grammar.HasOwnSites (grammar : Grammar ν) : Prop :=
  ∀ name rule, grammar.rule name = some rule → rule.HasOwnSites

namespace Progress

def expectations (progress : Progress ν) : List Expectation :=
  progress.events.filterMap Event.expectation?

/-- Whether every remembered outcome is the settled one of its expression, and
what was expected on the way to it is among the events. -/
def IsSound (grammar : Grammar ν) (text : Text) (progress : Progress ν) : Prop :=
  ∀ owner site offset outcome,
    progress.outcomeOf? (owner, site, offset) = some outcome →
      ∃ rule body expected, grammar.rule owner = some rule ∧
        (site, body) ∈ rule.body.remembered ∧
        body.Settles grammar (Cursor.at text offset) outcome expected ∧
        outcome.IsIn text ∧ expected ⊆ progress.expectations

def Gains (before : Progress ν) (expected : List Expectation)
    (after : Progress ν) : Prop :=
  ∀ expectation, expectation ∈ after.expectations ↔
    expectation ∈ before.expectations ∨ expectation ∈ expected

theorem isSound_start (grammar : Grammar ν) (text : Text) :
    (start : Progress ν).IsSound grammar text := by
  intro owner site offset outcome found
  simp [start, outcomeOf?] at found

theorem Gains.refl (progress : Progress ν) : progress.Gains [] progress := by
  intro expectation
  simp

theorem Gains.trans {before middle after : Progress ν}
    {expected later : List Expectation} (first : before.Gains expected middle)
    (second : middle.Gains later after) : before.Gains (expected ++ later) after := by
  intro expectation
  rw [second, first, List.mem_append, or_assoc]

theorem Gains.subset {before after : Progress ν} {expected : List Expectation}
    (gains : before.Gains expected after) :
    before.expectations ⊆ after.expectations :=
  fun expectation member => (gains expectation).mpr (Or.inl member)

@[simp] theorem expectations_note (progress : Progress ν) (event : Event) :
    (progress.note event).expectations =
      event.expectation?.toList ++ progress.expectations := by
  cases found : event.expectation? <;> simp [expectations, note, found]

@[simp] theorem expectations_noteIf (progress : Progress ν) (event : Option Event) :
    (progress.noteIf event).expectations =
      (event.bind Event.expectation?).toList ++ progress.expectations := by
  cases event <;> simp [noteIf]

@[simp] theorem outcomeOf?_note (progress : Progress ν) (event : Event)
    (key : MemoryKey ν) : (progress.note event).outcomeOf? key =
      progress.outcomeOf? key := rfl

@[simp] theorem outcomeOf?_noteIf (progress : Progress ν) (event : Option Event)
    (key : MemoryKey ν) : (progress.noteIf event).outcomeOf? key =
      progress.outcomeOf? key := by
  cases event <;> rfl

@[simp] theorem expectations_remember (progress : Progress ν) (key : MemoryKey ν)
    (outcome : Outcome) :
    (progress.remember key outcome).expectations = progress.expectations := by
  cases outcome <;> rfl

theorem Gains.noteIf (progress : Progress ν) (event : Option Event) :
    progress.Gains (event.bind Event.expectation?).toList
      (progress.noteIf event) := by
  intro expectation
  rw [expectations_noteIf, List.mem_append, or_comm]

theorem IsSound.noteIf {grammar : Grammar ν} {text : Text} {progress : Progress ν}
    (sound : progress.IsSound grammar text) (event : Option Event) :
    (progress.noteIf event).IsSound grammar text := by
  intro owner site offset outcome found
  rw [outcomeOf?_noteIf] at found
  obtain ⟨rule, body, expected, ruleFound, member, settled, isIn, known⟩ :=
    sound owner site offset outcome found
  exact ⟨rule, body, expected, ruleFound, member, settled, isIn,
    List.Subset.trans known (Gains.noteIf progress event).subset⟩

theorem outcomeOf?_remember [LawfulBEq ν] [DecidableEq ν] (progress : Progress ν)
    (key other : MemoryKey ν) (outcome : Outcome) :
    (progress.remember key outcome).outcomeOf? other =
      if key = other then some outcome else progress.outcomeOf? other := by
  rw [remember, outcomeOf?_noteIf]
  simp only [outcomeOf?, Std.HashMap.getElem?_insert, beq_iff_eq]

theorem IsSound.remember [LawfulBEq ν] [DecidableEq ν] {grammar : Grammar ν}
    {text : Text} {progress : Progress ν} (sound : progress.IsSound grammar text)
    {owner : ν} {rule : Rule ν} {site : Nat} {body : Expr ν} {cursor : Cursor}
    {outcome : Outcome} {expected : List Expectation}
    (found : grammar.rule owner = some rule)
    (member : (site, body) ∈ rule.body.remembered)
    (cursorIsIn : cursor.IsIn text)
    (settled : body.Settles grammar cursor outcome expected)
    (isIn : outcome.IsIn text) (known : expected ⊆ progress.expectations) :
    (progress.remember (owner, site, cursor.offset) outcome).IsSound grammar text := by
  intro otherOwner otherSite offset otherOutcome otherFound
  rw [outcomeOf?_remember] at otherFound
  split at otherFound
  · rename_i equal
    cases equal
    cases otherFound
    rw [cursorIsIn.eq_at] at settled
    exact ⟨rule, body, expected, found, member, settled, isIn, by simpa using known⟩
  · simpa using sound otherOwner otherSite offset otherOutcome otherFound

end Progress

/-! ## Attempts -/

/-- Whether whatever the attempt ends with is what the expression settles to. -/
def Attempt.IsFaithful (grammar : Grammar ν) (text : Text) (expr : Expr ν)
    (attempt : Attempt ν) : Prop :=
  ∀ {cursor progress outcome after}, cursor.IsIn text →
    progress.IsSound grammar text → attempt cursor progress = some (outcome, after) →
      ∃ expected, expr.Settles grammar cursor outcome expected ∧
        outcome.IsIn text ∧ after.IsSound grammar text ∧
        progress.Gains expected after

section

variable {grammar : Grammar ν} {text : Text}

theorem Outcome.isIn_matched {cursor : Cursor} (values : List Value)
    (isIn : cursor.IsIn text) : (Outcome.matched cursor values).IsIn text := by
  intro other _ equal
  cases equal
  exact isIn

theorem Outcome.isIn_failed (explained : Bool) :
    (Outcome.failed explained).IsIn text := by
  intro _ _ equal
  cases equal

theorem Outcome.isIn_stuck : Outcome.stuck.IsIn text := by
  intro _ _ equal
  cases equal

theorem Outcome.IsIn.precededBy {outcome : Outcome} (isIn : outcome.IsIn text)
    (values : List Value) : (outcome.precededBy values).IsIn text := by
  cases outcome with
  | matched last more => exact isIn_matched _ (isIn last more rfl)
  | failed | stuck => exact isIn

theorem Outcome.IsIn.orNothing {outcome : Outcome} {cursor : Cursor} (isIn : outcome.IsIn text)
    (start : cursor.IsIn text) : (outcome.orNothing cursor).IsIn text := by
  cases outcome with
  | failed _ => exact isIn_matched [] start
  | matched | stuck => exact isIn

theorem Outcome.isIn_asAhead (outcome : Outcome) {cursor : Cursor} (start : cursor.IsIn text) :
    (outcome.asAhead cursor).IsIn text := by
  cases outcome with
  | matched _ _ => exact isIn_matched [] start
  | failed _ => exact isIn_failed true
  | stuck => exact isIn_stuck

theorem Outcome.isIn_asNotAhead (outcome : Outcome) {cursor : Cursor}
    (start : cursor.IsIn text) : (outcome.asNotAhead cursor).IsIn text := by
  cases outcome with
  | matched _ _ => exact isIn_failed true
  | failed _ => exact isIn_matched [] start
  | stuck => exact isIn_stuck

theorem RuleKind.isIn_finished (kind : RuleKind) (start : Cursor) {outcome : Outcome}
    (isIn : outcome.IsIn text) : (kind.finished start outcome).IsIn text := by
  cases outcome with
  | matched last values => exact Outcome.isIn_matched _ (isIn last values rfl)
  | failed | stuck => exact isIn

theorem Repetition.isIn_outcome {repetition : Repetition}
    (isIn : repetition.cursor.IsIn text) : repetition.outcome.IsIn text := by
  unfold outcome
  split
  · exact Outcome.isIn_stuck
  · exact Outcome.isIn_matched _ isIn

theorem Repetition.isIn_outcomeOfSome {repetition : Repetition}
    (isIn : repetition.cursor.IsIn text) : repetition.outcomeOfSome.IsIn text := by
  unfold outcomeOfSome
  split
  · exact Outcome.isIn_stuck
  · exact Outcome.isIn_failed _
  · exact Outcome.isIn_matched _ isIn

theorem Attempt.IsFaithful.repeated {body : Expr ν} {attempt : Attempt ν}
    (faithful : Attempt.IsFaithful grammar text body attempt) (bound : Nat) :
    ∀ {cursor progress repetition after}, cursor.IsIn text →
      progress.IsSound grammar text →
      repeated attempt bound cursor progress = some (repetition, after) →
        ∃ expected, body.Retries grammar bound cursor repetition expected ∧
          repetition.cursor.IsIn text ∧ after.IsSound grammar text ∧
          progress.Gains expected after := by
  induction bound with
  | zero =>
      intro cursor progress repetition after isIn sound result
      rcases repeated_cases result with ⟨_, _, _, _, _, ⟨⟩, _⟩ | ⟨last, attempted, rfl, isLast⟩
      obtain ⟨expected, settled, _, afterSound, gains⟩ := faithful isIn sound attempted
      exact ⟨expected, settled.ended isLast, isIn, afterSound, gains⟩
  | succ bound induction =>
      intro cursor progress repetition after isIn sound result
      rcases repeated_cases result with
        ⟨_, next, values, between, rest, ⟨⟩, attempted, again, rfl⟩ | ⟨last, attempted, rfl, isLast⟩
      · obtain ⟨early, settled, nextIsIn, betweenSound, gains⟩ := faithful isIn sound attempted
        obtain ⟨late, retries, restIsIn, afterSound, laterGains⟩ :=
          induction (nextIsIn next values rfl) betweenSound again
        exact ⟨early ++ late, settled.again retries, restIsIn, afterSound,
          gains.trans laterGains⟩
      · obtain ⟨expected, settled, _, afterSound, gains⟩ := faithful isIn sound attempted
        exact ⟨expected, settled.ended isLast, isIn, afterSound, gains⟩

variable [LawfulBEq ν] [DecidableEq ν]

/-- What is found in memory was put there by the same expression, and what is put there is what
it settles to. -/
theorem Attempt.IsFaithful.remember (own : grammar.HasOwnSites) {owner : ν} {rule : Rule ν}
    (found : grammar.rule owner = some rule) {site : Nat} {body : Expr ν}
    (member : (site, body) ∈ rule.body.remembered) {invoke : ν → Attempt ν}
    (faithful : IsFaithful grammar text body (body.attempt invoke owner)) :
    IsFaithful grammar text (.remember site body)
      ((Expr.remember site body).attempt invoke owner) := by
  intro cursor progress outcome after isIn sound result
  rcases Expr.attempt_remember result with ⟨known, rfl⟩ | ⟨_, between, attempted, rfl⟩
  · obtain ⟨_, _, expected, sameRule, otherMember, settled, outcomeIsIn, gained⟩ :=
      sound _ _ _ _ known
    cases found.symm.trans sameRule
    cases (own owner rule found).eq_of_mem member otherMember
    rw [← isIn.eq_at] at settled
    refine ⟨expected, settled, outcomeIsIn, sound, fun expectation => ?_⟩
    exact ⟨.inl, Or.rec id fun new => gained new⟩
  · obtain ⟨expected, settled, outcomeIsIn, betweenSound, gains⟩ := faithful isIn sound attempted
    refine ⟨expected, settled, outcomeIsIn, ?_, fun expectation => ?_⟩
    · exact betweenSound.remember found member isIn settled outcomeIsIn
        fun expectation new => (gains expectation).mpr (.inr new)
    · rw [Progress.expectations_remember]
      exact gains expectation

theorem Expr.attempt_isFaithful {invoke : ν → Attempt ν}
    (invokeFaithful : ∀ name, Attempt.IsFaithful grammar text (.call name) (invoke name))
    (own : grammar.HasOwnSites) {owner : ν} {rule : Rule ν}
    (found : grammar.rule owner = some rule) (expr : Expr ν) :
    expr.remembered ⊆ rule.body.remembered →
      Attempt.IsFaithful grammar text expr (expr.attempt invoke owner) := by
  induction expr with
  | empty =>
      intro _ cursor progress outcome after isIn sound result
      cases result
      exact ⟨[], .of_forall fun _ => rfl, Outcome.isIn_matched [] isIn, sound, .refl progress⟩
  | never =>
      intro _ cursor progress outcome after isIn sound result
      cases result
      exact ⟨[], .of_forall fun _ => rfl, Outcome.isIn_failed true,
        sound.noteIf (some (.failed cursor.offset true)),
        .noteIf progress (some (.failed cursor.offset true))⟩
  | noAlternative =>
      intro _ cursor progress outcome after isIn sound result
      cases result
      exact ⟨[], .of_forall fun _ => rfl, Outcome.isIn_stuck, sound, .refl progress⟩
  | terminal accepted =>
      intro _ cursor progress outcome after isIn sound result
      rcases attempt_terminal result with ⟨next, advanced, rfl, rfl⟩ | ⟨absent, rfl, rfl⟩
      · exact ⟨[], .of_forall fun _ => by simp only [plain, advanced],
          Outcome.isIn_matched [] (Terminal.isIn_of_advance? isIn advanced), sound,
          .refl _⟩
      · exact ⟨[], .of_forall fun _ => by simp only [plain, absent], Outcome.isIn_failed true,
          sound.noteIf (some (.failed cursor.offset true)),
          .noteIf progress (some (.failed cursor.offset true))⟩
  | call name => exact fun _ => invokeFaithful name
  | seq first second firstInduction secondInduction =>
      intro inside cursor progress outcome after isIn sound result
      obtain ⟨firstInside, secondInside⟩ := List.append_subset.mp inside
      rcases attempt_seq result with
        ⟨middle, values, between, later, attempted, again, rfl⟩ | ⟨attempted, unmatched⟩
      · obtain ⟨early, settled, middleIsIn, betweenSound, gains⟩ :=
          firstInduction firstInside isIn sound attempted
        obtain ⟨late, laterSettled, laterIsIn, afterSound, laterGains⟩ :=
          secondInduction secondInside (middleIsIn _ _ rfl) betweenSound again
        exact ⟨early ++ late, settled.seq laterSettled, laterIsIn.precededBy values, afterSound,
          gains.trans laterGains⟩
      · obtain ⟨expected, settled, others⟩ := firstInduction firstInside isIn sound attempted
        exact ⟨expected, settled.seq_of_unmatched unmatched, others⟩
  | alt first second firstInduction secondInduction =>
      intro inside cursor progress outcome after isIn sound result
      obtain ⟨firstInside, secondInside⟩ := List.append_subset.mp inside
      rcases attempt_alt result with
        ⟨explained, between, attempted, again⟩ | ⟨attempted, unfailed⟩
      · obtain ⟨early, settled, _, betweenSound, gains⟩ :=
          firstInduction firstInside isIn sound attempted
        obtain ⟨late, laterSettled, laterIsIn, afterSound, laterGains⟩ :=
          secondInduction secondInside isIn betweenSound again
        exact ⟨early ++ late, settled.alt laterSettled, laterIsIn, afterSound,
          gains.trans laterGains⟩
      · obtain ⟨expected, settled, others⟩ := firstInduction firstInside isIn sound attempted
        exact ⟨expected, settled.alt_of_unfailed unfailed, others⟩
  | remember site body induction =>
      intro inside
      exact Attempt.IsFaithful.remember own found (inside List.mem_cons_self)
        (induction fun _ inner => inside (List.mem_cons_of_mem _ inner))
  | star body induction =>
      intro inside cursor progress outcome after isIn sound result
      obtain ⟨repetition, repeats, rfl⟩ := attempt_star result
      obtain ⟨expected, retries, lastIsIn, others⟩ :=
        Attempt.IsFaithful.repeated (induction inside) _ isIn sound repeats
      exact ⟨expected, Settles.star retries, Repetition.isIn_outcome lastIsIn, others⟩
  | plus body induction =>
      intro inside cursor progress outcome after isIn sound result
      obtain ⟨repetition, repeats, rfl⟩ := attempt_plus result
      obtain ⟨expected, retries, lastIsIn, others⟩ :=
        Attempt.IsFaithful.repeated (induction inside) _ isIn sound repeats
      exact ⟨expected, Settles.plus retries, Repetition.isIn_outcomeOfSome lastIsIn, others⟩
  | opt body induction =>
      intro inside cursor progress outcome after isIn sound result
      obtain ⟨bodyOutcome, attempted, rfl⟩ := attempt_opt result
      obtain ⟨expected, settled, bodyIsIn, others⟩ := induction inside isIn sound attempted
      exact ⟨expected, settled.opt, bodyIsIn.orNothing isIn, others⟩
  | ahead body induction =>
      intro inside cursor progress outcome after isIn sound result
      obtain ⟨bodyOutcome, attempted, rfl⟩ := attempt_ahead result
      obtain ⟨expected, settled, _, others⟩ := induction inside isIn sound attempted
      exact ⟨expected, settled.ahead, bodyOutcome.isIn_asAhead isIn, others⟩
  | notAhead body induction =>
      intro inside cursor progress outcome after isIn sound result
      obtain ⟨bodyOutcome, attempted, rfl⟩ := attempt_notAhead result
      obtain ⟨expected, settled, _, others⟩ := induction inside isIn sound attempted
      exact ⟨expected, settled.notAhead, bodyOutcome.isIn_asNotAhead isIn, others⟩

theorem Grammar.invoke_isFaithful (own : grammar.HasOwnSites) (depth : Nat) :
    ∀ name, Attempt.IsFaithful grammar text (.call name) (grammar.invoke depth name) := by
  induction depth with
  | zero =>
      intro name cursor progress outcome after isIn sound result
      cases result
  | succ depth induction =>
      intro name cursor progress outcome after isIn sound result
      rcases invoke_cases result with
        ⟨unknown, rfl, rfl⟩ | ⟨rule, bodyOutcome, between, found, attempted, rfl, rfl⟩
      · exact ⟨[], .of_no_rule unknown, Outcome.isIn_failed true, sound, .refl _⟩
      · obtain ⟨expected, settled, bodyIsIn, betweenSound, gains⟩ :=
          Expr.attempt_isFaithful induction own found rule.body (List.Subset.refl _) isIn sound
            attempted
        exact ⟨_, settled.of_rule found, rule.kind.isIn_finished cursor bodyIsIn,
          betweenSound.noteIf _, gains.trans (.noteIf _ _)⟩

/-- A whole run ends with the settled outcome of its start rule, and its events
hold the same expectations. -/
theorem Grammar.settles_of_run (own : grammar.HasOwnSites) {start : ν}
    {outcome : Outcome} {events : List Event}
    (result : grammar.run start text = some (outcome, events)) :
    ∃ expected, (Expr.call start).Settles grammar (Cursor.start text) outcome expected ∧
      ∀ expectation, expectation ∈ events.filterMap Event.expectation? ↔
        expectation ∈ expected := by
  obtain ⟨⟨runOutcome, after⟩, invoked, equal⟩ := Option.map_eq_some_iff.mp result
  cases equal
  obtain ⟨expected, settled, _, _, gains⟩ :=
    grammar.invoke_isFaithful own _ start (Cursor.isIn_start text)
      (Progress.isSound_start grammar text) invoked
  refine ⟨expected, settled, fun expectation => ?_⟩
  rw [List.filterMap_reverse, List.mem_reverse]
  have gained := gains expectation
  simpa [Progress.expectations, Progress.start] using gained

end

end QubitLang.Peg
