import QubitLang.Proofs.Peg.Tables

/-! Labels are for reports only. With every labelled body in the place of its label, rules match as
they did, and expect no more than they did. A labelled choice without alternatives is the exception:
it fails under its label, and cannot be tried without. -/

namespace QubitLang.Peg

/-! ## Outcomes that agree -/

/-- Two outcomes are the same but for what a failure explains, or else the second one is stuck and
there is an excuse for it. -/
inductive Outcome.Agrees (excuse : Prop) : Outcome → Outcome → Prop
  | matched (cursor : Cursor) (values : List Value) :
    Agrees excuse (.matched cursor values) (.matched cursor values)
  | failed (explained other : Bool) : Agrees excuse (.failed explained) (.failed other)
  | stuck : Agrees excuse .stuck .stuck
  | excused (outcome : Outcome) (excused : excuse) : Agrees excuse outcome .stuck

/-- Another trial has a result wherever one has, with an outcome that agrees, and expects no
more. -/
def Trial.Follows (excuse : Prop) (other trial : Trial) : Prop :=
  ∀ cursor outcome expected, trial cursor = some (outcome, expected) →
    ∃ otherOutcome fewer, other cursor = some (otherOutcome, fewer) ∧
      outcome.Agrees excuse otherOutcome ∧ fewer ⊆ expected

inductive Repetition.Agrees (excuse : Prop) : Repetition → Repetition → Prop
  | same (count : Nat) (cursor : Cursor) (values : List Value) {last other : Outcome}
    (agrees : last.Agrees excuse other) :
    Agrees excuse ⟨count, cursor, values, last⟩ ⟨count, cursor, values, other⟩
  | excused (repetition : Repetition) {other : Repetition} (stuck : other.last = .stuck)
    (excused : excuse) : Agrees excuse repetition other

section

variable {excuse : Prop}

section

variable {outcome other : Outcome}

theorem Outcome.Agrees.precededBy (agrees : outcome.Agrees excuse other) (values : List Value) :
    (outcome.precededBy values).Agrees excuse (other.precededBy values) := by
  cases agrees with
  | matched last more => exact .matched last (values ++ more)
  | failed explained other => exact .failed explained other
  | stuck => exact .stuck
  | excused _ excused => exact .excused _ excused

theorem Outcome.Agrees.orNothing (agrees : outcome.Agrees excuse other) (cursor : Cursor) :
    (outcome.orNothing cursor).Agrees excuse (other.orNothing cursor) := by
  cases agrees with
  | matched last values => exact .matched last values
  | failed _ _ => exact .matched cursor []
  | stuck => exact .stuck
  | excused _ excused => exact .excused _ excused

theorem Outcome.Agrees.asAhead (agrees : outcome.Agrees excuse other) (cursor : Cursor) :
    (outcome.asAhead cursor).Agrees excuse (other.asAhead cursor) := by
  cases agrees with
  | matched _ _ => exact .matched cursor []
  | failed _ _ => exact .failed true true
  | stuck => exact .stuck
  | excused _ excused => exact .excused _ excused

theorem Outcome.Agrees.asNotAhead (agrees : outcome.Agrees excuse other) (cursor : Cursor) :
    (outcome.asNotAhead cursor).Agrees excuse (other.asNotAhead cursor) := by
  cases agrees with
  | matched _ _ => exact .failed true true
  | failed _ _ => exact .matched cursor []
  | stuck => exact .stuck
  | excused _ excused => exact .excused _ excused

end

theorem Repetition.Agrees.precededBy {repetition other : Repetition}
    (agrees : repetition.Agrees excuse other) (values : List Value) :
    (repetition.precededBy values).Agrees excuse (other.precededBy values) := by
  cases agrees with
  | same count cursor more agrees => exact .same _ _ _ agrees
  | excused _ stuck excused => exact .excused _ stuck excused

theorem Repetition.Agrees.outcome {repetition other : Repetition}
    (agrees : repetition.Agrees excuse other) :
    repetition.outcome.Agrees excuse other.outcome := by
  cases agrees with
  | same count cursor values agrees =>
      cases agrees with
      | matched _ _ | failed _ _ => exact .matched _ _
      | stuck => exact .stuck
      | excused _ excused => exact .excused _ excused
  | excused _ stuck excused =>
      rw [show other.outcome = .stuck by simp only [Repetition.outcome, stuck]]
      exact .excused _ excused

theorem Repetition.Agrees.outcomeOfSome {repetition other : Repetition}
    (agrees : repetition.Agrees excuse other) :
    repetition.outcomeOfSome.Agrees excuse other.outcomeOfSome := by
  cases agrees with
  | same count cursor values agrees =>
      cases agrees with
      | matched _ _ | failed _ _ =>
          cases count with
          | zero => exact .failed _ _
          | succ count => exact .matched _ _
      | stuck => exact .stuck
      | excused _ excused => exact .excused _ excused
  | excused _ stuck excused =>
      rw [show other.outcomeOfSome = .stuck by simp only [Repetition.outcomeOfSome, stuck]]
      exact .excused _ excused

end

/-! ## Expressions that agree -/

def Expr.Follows (excuse : Prop) (bare invoke : String → Trial) (other expr : Expr String) : Prop :=
  Trial.Follows excuse (other.plain bare) (expr.plain invoke)

section

variable {excuse : Prop} {bare invoke : String → Trial}
  {first second body otherFirst otherSecond other : Expr String}

theorem Expr.Follows.refl_empty : Expr.Follows excuse bare invoke .empty .empty := by
  rintro cursor _ _ ⟨⟩
  exact ⟨_, _, rfl, .matched _ _, List.nil_subset _⟩

theorem Expr.Follows.refl_terminal (accepted : Terminal) :
    Expr.Follows excuse bare invoke (.terminal accepted) (.terminal accepted) := by
  intro cursor outcome expected tried
  simp only [plain] at tried ⊢
  cases advanced : accepted.advance? cursor with
  | none =>
      rw [advanced] at tried
      cases tried
      exact ⟨_, _, rfl, .failed _ _, List.nil_subset _⟩
  | some next =>
      rw [advanced] at tried
      cases tried
      exact ⟨_, _, rfl, .matched _ _, List.nil_subset _⟩

theorem append_subset_append {α : Type} {early late fewer lateFewer : List α}
    (left : fewer ⊆ early) (right : lateFewer ⊆ late) : fewer ++ lateFewer ⊆ early ++ late :=
  List.append_subset.mpr
    ⟨List.subset_append_of_subset_left _ left, List.subset_append_of_subset_right _ right⟩

theorem Expr.subset_of_plain_seq {cursor : Cursor} {outcome firstOutcome : Outcome}
    {expected early : List Expectation}
    (tried : (Expr.seq first second).plain invoke cursor = some (outcome, expected))
    (firstTried : first.plain invoke cursor = some (firstOutcome, early)) : early ⊆ expected := by
  rcases Expr.plain_seq tried with ⟨_, _, _, _, _, found, _, _, rfl⟩ | ⟨found, _⟩
  all_goals
    rw [firstTried] at found
    cases found
  · exact List.subset_append_left _ _
  · exact List.Subset.refl _

theorem Expr.Follows.seq (firstFollows : Expr.Follows excuse bare invoke otherFirst first)
    (secondFollows : Expr.Follows excuse bare invoke otherSecond second) :
    Expr.Follows excuse bare invoke (.seq otherFirst otherSecond) (.seq first second) := by
  intro cursor outcome expected tried
  cases firstTried : first.plain invoke cursor with
  | none => simp [plain, firstTried] at tried
  | some result =>
      obtain ⟨firstOutcome, early⟩ := result
      obtain ⟨_, fewer, otherTried, agrees, subset⟩ := firstFollows _ _ _ firstTried
      have grows := subset_of_plain_seq tried firstTried
      cases agrees with
      | matched middle values =>
          rw [plain_seq_of_matched firstTried] at tried
          obtain ⟨⟨secondOutcome, late⟩, secondTried, equal⟩ := Option.map_eq_some_iff.mp tried
          cases equal
          obtain ⟨_, lateFewer, otherLate, lateAgrees, lateSubset⟩ :=
            secondFollows _ _ _ secondTried
          rw [plain_seq_of_matched otherTried, otherLate]
          exact ⟨_, _, rfl, lateAgrees.precededBy values, append_subset_append subset lateSubset⟩
      | failed _ _ =>
          simp only [plain, firstTried] at tried
          simp only [plain, otherTried]
          cases tried
          exact ⟨_, _, rfl, .failed _ _, subset⟩
      | stuck =>
          simp only [plain, firstTried] at tried
          simp only [plain, otherTried]
          cases tried
          exact ⟨_, _, rfl, .stuck, subset⟩
      | excused _ excused =>
          simp only [plain, otherTried]
          exact ⟨_, _, rfl, .excused _ excused, List.Subset.trans subset grows⟩

theorem Expr.Follows.alt (firstFollows : Expr.Follows excuse bare invoke otherFirst first)
    (secondFollows : Expr.Follows excuse bare invoke otherSecond second) :
    Expr.Follows excuse bare invoke (.alt otherFirst otherSecond) (.alt first second) := by
  intro cursor outcome expected tried
  rcases Expr.plain_alt tried with ⟨explained, early, late, firstTried, secondTried, rfl⟩ |
    ⟨firstTried, unfailed⟩
  · obtain ⟨_, fewer, otherTried, agrees, subset⟩ := firstFollows _ _ _ firstTried
    simp only [plain, otherTried]
    cases agrees with
    | excused _ excused =>
        exact ⟨_, _, rfl, .excused _ excused, List.subset_append_of_subset_left _ subset⟩
    | failed _ _ =>
        obtain ⟨_, lateFewer, otherLate, lateAgrees, lateSubset⟩ := secondFollows _ _ _ secondTried
        simp only [otherLate]
        exact ⟨_, _, rfl, lateAgrees, append_subset_append subset lateSubset⟩
  · obtain ⟨_, fewer, otherTried, agrees, subset⟩ := firstFollows _ _ _ firstTried
    simp only [plain, otherTried]
    cases agrees with
    | matched _ _ => exact ⟨_, _, rfl, .matched _ _, subset⟩
    | failed explained _ => exact absurd rfl (unfailed explained)
    | stuck => exact ⟨_, _, rfl, .stuck, subset⟩
    | excused _ excused => exact ⟨_, _, rfl, .excused _ excused, subset⟩

theorem Trial.Follows.retried {otherTrial trial : Trial}
    (follows : Trial.Follows excuse otherTrial trial) (bound : Nat) :
    ∀ cursor repetition expected,
      Peg.retried trial bound cursor = some (repetition, expected) →
        ∃ otherRepetition fewer,
          Peg.retried otherTrial bound cursor = some (otherRepetition, fewer) ∧
            repetition.Agrees excuse otherRepetition ∧ fewer ⊆ expected := by
  induction bound with
  | zero =>
      intro cursor repetition expected tried
      rw [retried_zero, Option.map_eq_some_iff] at tried
      obtain ⟨⟨outcome, found⟩, attempted, equal⟩ := tried
      cases equal
      obtain ⟨_, fewer, otherTried, agrees, subset⟩ := follows _ _ _ attempted
      rw [retried_zero, otherTried]
      exact ⟨_, _, rfl, .same _ _ _ agrees, subset⟩
  | succ bound induction =>
      intro cursor repetition expected tried
      unfold Peg.retried at tried ⊢
      cases attempted : trial cursor with
      | none => simp [attempted] at tried
      | some result =>
          obtain ⟨outcome, found⟩ := result
          obtain ⟨_, fewer, otherTried, agrees, subset⟩ := follows _ _ _ attempted
          rw [attempted] at tried
          rw [otherTried]
          cases agrees with
          | matched next values =>
              simp only at tried ⊢
              cases again : Peg.retried trial bound next with
              | none => simp [again] at tried
              | some result =>
                  obtain ⟨rest, later⟩ := result
                  obtain ⟨_, lateFewer, otherAgain, restAgrees, lateSubset⟩ :=
                    induction _ _ _ again
                  simp only [again] at tried
                  cases tried
                  simp only [otherAgain]
                  exact ⟨_, _, rfl, restAgrees.precededBy values,
                    append_subset_append subset lateSubset⟩
          | failed _ _ =>
              cases tried
              exact ⟨_, _, rfl, .same _ _ _ (.failed _ _), subset⟩
          | stuck =>
              cases tried
              exact ⟨_, _, rfl, .same _ _ _ .stuck, subset⟩
          -- Nothing goes on behind the excuse, whatever the other repetition would still match.
          | excused _ excused =>
              cases outcome with
              | failed _ | stuck =>
                  cases tried
                  exact ⟨_, _, rfl, .excused _ rfl excused, subset⟩
              | matched next values =>
                  simp only at tried
                  cases again : Peg.retried trial bound next with
                  | none => simp [again] at tried
                  | some result =>
                      simp only [again] at tried
                      cases tried
                      exact ⟨_, _, rfl, .excused _ rfl excused,
                        List.subset_append_of_subset_left _ subset⟩

theorem Expr.Follows.star (follows : Expr.Follows excuse bare invoke other body) :
    Expr.Follows excuse bare invoke (.star other) (.star body) := by
  intro cursor outcome expected tried
  obtain ⟨⟨repetition, found⟩, again, equal⟩ := Option.map_eq_some_iff.mp tried
  cases equal
  obtain ⟨_, fewer, otherAgain, agrees, subset⟩ := Trial.Follows.retried follows _ _ _ _ again
  simp only [plain, otherAgain]
  exact ⟨_, _, rfl, agrees.outcome, subset⟩

theorem Expr.Follows.plus (follows : Expr.Follows excuse bare invoke other body) :
    Expr.Follows excuse bare invoke (.plus other) (.plus body) := by
  intro cursor outcome expected tried
  obtain ⟨⟨repetition, found⟩, again, equal⟩ := Option.map_eq_some_iff.mp tried
  cases equal
  obtain ⟨_, fewer, otherAgain, agrees, subset⟩ := Trial.Follows.retried follows _ _ _ _ again
  simp only [plain, otherAgain]
  exact ⟨_, _, rfl, agrees.outcomeOfSome, subset⟩

theorem Expr.Follows.opt (follows : Expr.Follows excuse bare invoke other body) :
    Expr.Follows excuse bare invoke (.opt other) (.opt body) := by
  intro cursor outcome expected tried
  rw [plain_opt_eq] at tried
  obtain ⟨⟨bodyOutcome, found⟩, bodyTried, equal⟩ := Option.map_eq_some_iff.mp tried
  cases equal
  obtain ⟨_, fewer, otherTried, agrees, subset⟩ := follows _ _ _ bodyTried
  rw [plain_opt_eq, otherTried]
  exact ⟨_, _, rfl, agrees.orNothing cursor, subset⟩

theorem Expr.Follows.ahead (follows : Expr.Follows excuse bare invoke other body) :
    Expr.Follows excuse bare invoke (.ahead other) (.ahead body) := by
  intro cursor outcome expected tried
  rw [plain_ahead_eq] at tried
  obtain ⟨⟨bodyOutcome, found⟩, bodyTried, equal⟩ := Option.map_eq_some_iff.mp tried
  cases equal
  obtain ⟨_, fewer, otherTried, agrees, subset⟩ := follows _ _ _ bodyTried
  rw [plain_ahead_eq, otherTried]
  exact ⟨_, _, rfl, agrees.asAhead cursor, subset⟩

theorem Expr.Follows.notAhead (follows : Expr.Follows excuse bare invoke other body) :
    Expr.Follows excuse bare invoke (.notAhead other) (.notAhead body) := by
  intro cursor outcome expected tried
  rw [plain_notAhead_eq] at tried
  obtain ⟨⟨bodyOutcome, found⟩, bodyTried, equal⟩ := Option.map_eq_some_iff.mp tried
  cases equal
  obtain ⟨_, fewer, otherTried, agrees, subset⟩ := follows _ _ _ bodyTried
  rw [plain_notAhead_eq, otherTried]
  exact ⟨_, _, rfl, agrees.asNotAhead cursor, subset⟩

/-! ## Choices

The alternatives of a choice are those of its parts, and where a part had a label, one that calls
the marker and fails. -/

def Expr.AlwaysFails (invoke : String → Trial) (expr : Expr String) : Prop :=
  ∀ cursor outcome expected, expr.plain invoke cursor = some (outcome, expected) →
    ∃ explained, outcome = .failed explained

/-- Alternatives that follow others one by one, but for some that always fail and are left out. -/
inductive AlternativesFollow (excuse : Prop) (bare invoke : String → Trial) :
    List (Expr String) → List (Expr String) → Prop
  | nil : AlternativesFollow excuse bare invoke [] []
  | cons {other expr : Expr String} {others exprs : List (Expr String)}
    (follows : Expr.Follows excuse bare invoke other expr)
    (later : AlternativesFollow excuse bare invoke others exprs) :
    AlternativesFollow excuse bare invoke (other :: others) (expr :: exprs)
  | skip {expr : Expr String} {others exprs : List (Expr String)}
    (fails : expr.AlwaysFails invoke)
    (later : AlternativesFollow excuse bare invoke others exprs) :
    AlternativesFollow excuse bare invoke others (expr :: exprs)

theorem AlternativesFollow.append {others exprs moreOthers more : List (Expr String)}
    (first : AlternativesFollow excuse bare invoke others exprs)
    (second : AlternativesFollow excuse bare invoke moreOthers more) :
    AlternativesFollow excuse bare invoke (others ++ moreOthers) (exprs ++ more) := by
  induction first with
  | nil => exact second
  | cons follows _ induction => exact .cons follows induction
  | skip fails _ induction => exact .skip fails induction

theorem AlternativesFollow.alwaysFails (exprs : List (Expr String)) :
    AlternativesFollow excuse bare invoke [] exprs → exprs ≠ [] →
      (Expr.firstOf exprs).AlwaysFails invoke := by
  induction exprs with
  | nil => exact fun _ some => absurd rfl some
  | cons expr exprs induction =>
      intro follow _
      obtain ⟨fails, later⟩ : expr.AlwaysFails invoke ∧
          AlternativesFollow excuse bare invoke [] exprs := by
        cases follow with
        | skip fails later => exact ⟨fails, later⟩
      cases exprs with
      | nil => exact fails
      | cons next exprs =>
          intro cursor outcome expected tried
          rcases Expr.plain_alt tried with
            ⟨_, _, _, _, secondTried, _⟩ | ⟨firstTried, unfailed⟩
          · exact induction later (List.cons_ne_nil _ _) _ _ _ secondTried
          · obtain ⟨explained, failed⟩ := fails _ _ _ firstTried
            exact absurd failed (unfailed explained)

theorem AlternativesFollow.firstOf {others exprs : List (Expr String)}
    (follow : AlternativesFollow excuse bare invoke others exprs) :
    (others = [] → exprs = [] ∨ excuse) →
      Expr.Follows excuse bare invoke (Expr.firstOf others) (Expr.firstOf exprs) := by
  induction follow with
  | nil =>
      rintro _ cursor _ _ ⟨⟩
      exact ⟨_, _, rfl, .stuck, List.nil_subset _⟩
  | @cons other expr others exprs follows later induction =>
      intro _
      cases exprs with
      | nil =>
          cases later
          exact follows
      | cons next exprs =>
          cases others with
          | cons otherNext others => exact follows.alt (induction nofun)
          | nil =>
              have fails := later.alwaysFails _ (List.cons_ne_nil _ _)
              intro cursor outcome expected tried
              rcases Expr.plain_alt tried with
                ⟨explained, early, late, firstTried, secondTried, rfl⟩ | ⟨firstTried, _⟩
              · obtain ⟨_, fewer, otherTried, agrees, subset⟩ := follows _ _ _ firstTried
                obtain ⟨_, rfl⟩ := fails _ _ _ secondTried
                refine ⟨_, fewer, otherTried, ?_, List.subset_append_of_subset_left _ subset⟩
                cases agrees with
                | failed _ _ => exact .failed _ _
                | excused _ excused => exact .excused _ excused
              · exact follows _ _ _ firstTried
  | @skip expr others exprs fails later induction =>
      intro excused
      have excuses (none : others = []) : excuse :=
        (excused none).resolve_left (List.cons_ne_nil _ _)
      cases exprs with
      | nil =>
          cases later
          intro cursor outcome expected tried
          exact ⟨_, _, rfl, .excused _ (excuses rfl), List.nil_subset _⟩
      | cons next exprs =>
          intro cursor outcome expected tried
          rcases Expr.plain_alt tried with
            ⟨explained, early, late, firstTried, secondTried, rfl⟩ | ⟨firstTried, unfailed⟩
          · obtain ⟨_, fewer, otherTried, agrees, subset⟩ :=
              induction (fun none => .inr (excuses none)) _ _ _ secondTried
            exact ⟨_, fewer, otherTried, agrees, List.subset_append_of_subset_right _ subset⟩
          · obtain ⟨explained, failed⟩ := fails _ _ _ firstTried
            exact absurd failed (unfailed explained)

/-! ## Expressions in the place of others -/

theorem Expr.branches_firstOf : ∀ {parts : List (Expr String)},
    (∀ part ∈ parts, part.branches = [part]) → (Expr.firstOf parts).branches = parts
  | [], _ => rfl
  | [part], single => single part (List.mem_singleton.mpr rfl)
  | part :: next :: rest, single => by
      have later : (Expr.firstOf (next :: rest)).branches = next :: rest :=
        branches_firstOf fun other member => single other (List.mem_cons_of_mem _ member)
      rw [firstOf, branches, later]
      exact nofun

/-- An expression may take the place of another one, and as a part of a choice, its alternatives
may. -/
structure Expr.StandsIn (excuse : Prop) (bare invoke : String → Trial) (other expr : Expr String) :
    Prop where
  follows : Expr.Follows excuse bare invoke other expr
  alternativesFollow :
    AlternativesFollow excuse bare invoke other.alternatives expr.alternatives
  excused : other.alternatives = [] → expr.alternatives = [] ∨ excuse
  single : ∀ part ∈ expr.alternatives, part.branches = [part]
  otherSingle : ∀ part ∈ other.alternatives, part.branches = [part]
  plain_firstOf : (Expr.firstOf other.alternatives).plain bare = other.plain bare

namespace Expr.StandsIn

theorem ofFollows (follows : Expr.Follows excuse bare invoke other body)
    (alternatives : body.alternatives = [body] ∧ other.alternatives = [other])
    (branches : body.branches = [body] ∧ other.branches = [other]) :
    Expr.StandsIn excuse bare invoke other body where
  follows := follows
  alternativesFollow := by
    rw [alternatives.1, alternatives.2]
    exact .cons follows .nil
  excused none := by
    rw [alternatives.2] at none
    cases none
  single part member := by
    rw [alternatives.1, List.mem_singleton] at member
    rw [member, branches.1]
  otherSingle part member := by
    rw [alternatives.2, List.mem_singleton] at member
    rw [member, branches.2]
  plain_firstOf := by
    rw [alternatives.2]
    rfl

theorem ofAlternatives {others exprs : List (Expr String)}
    (follow : AlternativesFollow excuse bare invoke others exprs)
    (excused : others = [] → exprs = [] ∨ excuse)
    (single : ∀ part ∈ exprs, part.branches = [part])
    (otherSingle : ∀ part ∈ others, part.branches = [part]) :
    Expr.StandsIn excuse bare invoke (.remember 0 (.firstOf others))
      (.remember 0 (.firstOf exprs)) := by
  have alternatives : (Expr.remember 0 (.firstOf exprs)).alternatives = exprs :=
    Expr.branches_firstOf single
  have otherAlternatives : (Expr.remember 0 (.firstOf others)).alternatives = others :=
    Expr.branches_firstOf otherSingle
  refine ⟨follow.firstOf excused, ?_, ?_, ?_, ?_, ?_⟩
  · rwa [alternatives, otherAlternatives]
  · rwa [alternatives, otherAlternatives]
  · rwa [alternatives]
  · rwa [otherAlternatives]
  · rw [otherAlternatives]
    rfl

theorem sequence {others exprs : List (Expr String)}
    (parts : List.Forall₂ (Expr.StandsIn excuse bare invoke) others exprs) :
    Expr.StandsIn excuse bare invoke (.sequence others) (.sequence exprs) := by
  induction parts with
  | nil => exact .ofFollows .refl_empty ⟨rfl, rfl⟩ ⟨rfl, rfl⟩
  | cons part rest induction =>
      cases rest with
      | nil => exact part
      | cons next rest =>
          exact .ofFollows (part.follows.seq induction.follows) ⟨rfl, rfl⟩ ⟨rfl, rfl⟩

theorem merged {others exprs : List (Expr String)}
    (parts : List.Forall₂ (Expr.StandsIn excuse bare invoke) others exprs) :
    Expr.StandsIn excuse bare invoke (.remember 0 (.firstOf (others.flatMap Expr.alternatives)))
      (.remember 0 (.firstOf (exprs.flatMap Expr.alternatives))) := by
  apply ofAlternatives
  · induction parts with
    | nil => exact .nil
    | cons part _ induction => exact part.alternativesFollow.append induction
  · induction parts with
    | nil => exact fun _ => .inl rfl
    | cons part _ induction =>
        rw [List.flatMap_cons, List.flatMap_cons, List.append_eq_nil_iff, List.append_eq_nil_iff]
        rintro ⟨none, laterNone⟩
        rcases part.excused none with offersNone | excused
        · exact (induction laterNone).imp_left fun later => ⟨offersNone, later⟩
        · exact .inr excused
  · induction parts with
    | nil => exact nofun
    | cons part _ induction => exact List.forall_mem_append.mpr ⟨part.single, induction⟩
  · induction parts with
    | nil => exact nofun
    | cons part _ induction => exact List.forall_mem_append.mpr ⟨part.otherSingle, induction⟩

theorem choice {others exprs : List (Expr String)}
    (parts : List.Forall₂ (Expr.StandsIn excuse bare invoke) others exprs) :
    Expr.StandsIn excuse bare invoke (.choice others) (.choice exprs) := by
  have all := merged parts
  cases parts with
  | nil => exact all
  | cons part rest =>
      cases rest with
      | nil => exact part
      | cons next rest => exact all

/-- A body may take the place of its label, if the marker always fails and the body offers
alternatives. -/
theorem expecting {marker : String} (standsIn : Expr.StandsIn excuse bare invoke other body)
    (fails : (Expr.seq (.call marker) .never).AlwaysFails invoke)
    (excused : other.alternatives = [] → excuse) :
    Expr.StandsIn excuse bare invoke other (.expecting marker body) := by
  have follow : AlternativesFollow excuse bare invoke (other.alternatives ++ [])
      (body.alternatives ++ [.seq (.call marker) .never]) :=
    standsIn.alternativesFollow.append (.skip fails .nil)
  rw [List.append_nil] at follow
  have single : ∀ part ∈ body.alternatives ++ [.seq (.call marker) .never],
      part.branches = [part] := by
    refine List.forall_mem_append.mpr ⟨standsIn.single, fun part member => ?_⟩
    rw [List.mem_singleton.mp member]
    rfl
  have alternatives : (Expr.expecting marker body).alternatives =
      body.alternatives ++ [.seq (.call marker) .never] :=
    Expr.branches_firstOf single
  have offers : other.alternatives = [] →
      body.alternatives ++ [.seq (.call marker) .never] = [] ∨ excuse :=
    fun none => .inr (excused none)
  refine ⟨?_, ?_, ?_, ?_, standsIn.otherSingle, standsIn.plain_firstOf⟩
  · have follows := follow.firstOf offers
    rw [Expr.Follows, standsIn.plain_firstOf] at follows
    exact follows
  · rwa [alternatives]
  · rwa [alternatives]
  · rwa [alternatives]

end Expr.StandsIn

end

/-! ## Patterns without their labels -/

mutual

/-- The expression that a pattern stands for if a label stands for its body. -/
def Pattern.unlabelled : Pattern → Expr String
  | .terminal accepted => .terminal accepted
  | .call rule => .call rule
  | .sequence parts => .sequence (unlabelledAll parts)
  | .choice alternatives => .choice (unlabelledAll alternatives)
  | .star body => .star body.unlabelled
  | .plus body => .plus body.unlabelled
  | .opt body => .opt body.unlabelled
  | .ahead body => .ahead body.unlabelled
  | .notAhead body => .notAhead body.unlabelled
  | .expect _ body => body.unlabelled

def Pattern.unlabelledAll : List Pattern → List (Expr String)
  | [] => []
  | pattern :: rest => pattern.unlabelled :: unlabelledAll rest

end

mutual

def Pattern.HasEmptyLabel : Pattern → Prop
  | .terminal _ | .call _ => False
  | .sequence parts | .choice parts => AnyHasEmptyLabel parts
  | .star body | .plus body | .opt body | .ahead body | .notAhead body => body.HasEmptyLabel
  | .expect _ body => body.unlabelled.alternatives = [] ∨ body.HasEmptyLabel

def Pattern.AnyHasEmptyLabel : List Pattern → Prop
  | [] => False
  | pattern :: rest => pattern.HasEmptyLabel ∨ AnyHasEmptyLabel rest

end

mutual

def Pattern.Denotes (table : RuleTable) : Pattern → Expr String → Prop
  | .terminal accepted, expr => expr = .terminal accepted
  | .call rule, expr => expr = .call rule
  | .sequence parts, expr => ∃ exprs, DenoteAll table parts exprs ∧ expr = .sequence exprs
  | .choice parts, expr => ∃ exprs, DenoteAll table parts exprs ∧ expr = .choice exprs
  | .star body, expr => ∃ inner, body.Denotes table inner ∧ expr = .star inner
  | .plus body, expr => ∃ inner, body.Denotes table inner ∧ expr = .plus inner
  | .opt body, expr => ∃ inner, body.Denotes table inner ∧ expr = .opt inner
  | .ahead body, expr => ∃ inner, body.Denotes table inner ∧ expr = .ahead inner
  | .notAhead body, expr => ∃ inner, body.Denotes table inner ∧ expr = .notAhead inner
  | .expect label body, expr => ∃ marker inner, table.markers.lookup label = some marker ∧
    body.Denotes table inner ∧ expr = .expecting marker inner

def Pattern.DenoteAll (table : RuleTable) : List Pattern → List (Expr String) → Prop
  | [], exprs => exprs = []
  | pattern :: rest, exprs => ∃ expr later, pattern.Denotes table expr ∧
    DenoteAll table rest later ∧ exprs = expr :: later

end

section

variable {excuse : Prop} {bare invoke : String → Trial} {table : RuleTable}

mutual

theorem Pattern.standsIn
    (calls : ∀ name, Trial.Follows excuse (bare name) (invoke name))
    (fails : ∀ label marker, table.markers.lookup label = some marker →
      (Expr.seq (.call marker) .never).AlwaysFails invoke) :
    ∀ (pattern : Pattern) (expr : Expr String), pattern.Denotes table expr →
      (pattern.HasEmptyLabel → excuse) →
        Expr.StandsIn excuse bare invoke pattern.unlabelled expr
  | .terminal accepted, _, denotes, _ => by
      cases denotes
      exact .ofFollows (.refl_terminal _) ⟨rfl, rfl⟩ ⟨rfl, rfl⟩
  | .call rule, _, denotes, _ => by
      cases denotes
      exact .ofFollows (calls rule) ⟨rfl, rfl⟩ ⟨rfl, rfl⟩
  | .sequence parts, _, denotes, excused => by
      obtain ⟨exprs, all, rfl⟩ := denotes
      exact .sequence (standsInAll calls fails parts exprs all excused)
  | .choice parts, _, denotes, excused => by
      obtain ⟨exprs, all, rfl⟩ := denotes
      exact .choice (standsInAll calls fails parts exprs all excused)
  | .star body, _, denotes, excused => by
      obtain ⟨inner, denotes, rfl⟩ := denotes
      exact .ofFollows (standsIn calls fails body inner denotes excused).follows.star
        ⟨rfl, rfl⟩ ⟨rfl, rfl⟩
  | .plus body, _, denotes, excused => by
      obtain ⟨inner, denotes, rfl⟩ := denotes
      exact .ofFollows (standsIn calls fails body inner denotes excused).follows.plus
        ⟨rfl, rfl⟩ ⟨rfl, rfl⟩
  | .opt body, _, denotes, excused => by
      obtain ⟨inner, denotes, rfl⟩ := denotes
      exact .ofFollows (standsIn calls fails body inner denotes excused).follows.opt
        ⟨rfl, rfl⟩ ⟨rfl, rfl⟩
  | .ahead body, _, denotes, excused => by
      obtain ⟨inner, denotes, rfl⟩ := denotes
      exact .ofFollows (standsIn calls fails body inner denotes excused).follows.ahead
        ⟨rfl, rfl⟩ ⟨rfl, rfl⟩
  | .notAhead body, _, denotes, excused => by
      obtain ⟨inner, denotes, rfl⟩ := denotes
      exact .ofFollows (standsIn calls fails body inner denotes excused).follows.notAhead
        ⟨rfl, rfl⟩ ⟨rfl, rfl⟩
  | .expect label body, _, denotes, excused => by
      obtain ⟨marker, inner, known, denotes, rfl⟩ := denotes
      exact (standsIn calls fails body inner denotes fun empty => excused (.inr empty)).expecting
        (fails label marker known) fun none => excused (.inl none)

theorem Pattern.standsInAll
    (calls : ∀ name, Trial.Follows excuse (bare name) (invoke name))
    (fails : ∀ label marker, table.markers.lookup label = some marker →
      (Expr.seq (.call marker) .never).AlwaysFails invoke) :
    ∀ (patterns : List Pattern) (exprs : List (Expr String)),
      Pattern.DenoteAll table patterns exprs → (Pattern.AnyHasEmptyLabel patterns → excuse) →
        List.Forall₂ (Expr.StandsIn excuse bare invoke) (Pattern.unlabelledAll patterns) exprs
  | [], _, denote, _ => by
      cases denote
      exact .nil
  | pattern :: rest, _, denote, excused => by
      obtain ⟨expr, later, denotes, all, rfl⟩ := denote
      exact .cons (standsIn calls fails pattern expr denotes fun empty => excused (.inl empty))
        (standsInAll calls fails rest later all fun empty => excused (.inr empty))

end

end

end QubitLang.Peg
