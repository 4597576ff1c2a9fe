import Mathlib.Data.Finset.Prod
import QubitLang.Proofs.Peg.Depth
import QubitLang.Proofs.Peg.LeftRecursion

/-! Rules that come back to themselves on their way: that are invoked again, inside their own
invocation, where as much of the text is left. A match ends if no rule does. -/

namespace QubitLang.Peg

variable {ν : Type}

/-- An expression that is tried at a cursor invokes a rule at a later one. It does so in
alternatives that are given up and in lookaheads too, and behind each match of what it repeats. -/
inductive Expr.Invokes (grammar : Grammar ν) : Expr ν → Cursor → ν → Cursor → Prop
  | call {name : ν} {cursor : Cursor} : Invokes grammar (.call name) cursor name cursor
  | seqFirst {first second : Expr ν} {cursor later : Cursor} {name : ν} :
    Invokes grammar first cursor name later → Invokes grammar (.seq first second) cursor name later
  | seqSecond {first second : Expr ν} {cursor middle later : Cursor} {name : ν}
    {values : List Value} {expected : List Expectation} :
    first.Settles grammar cursor (.matched middle values) expected →
      Invokes grammar second middle name later →
        Invokes grammar (.seq first second) cursor name later
  | altFirst {first second : Expr ν} {cursor later : Cursor} {name : ν} :
    Invokes grammar first cursor name later → Invokes grammar (.alt first second) cursor name later
  | altSecond {first second : Expr ν} {cursor later : Cursor} {name : ν} {explained : Bool}
    {expected : List Expectation} :
    first.Settles grammar cursor (.failed explained) expected →
      Invokes grammar second cursor name later →
        Invokes grammar (.alt first second) cursor name later
  | remember {site : Nat} {body : Expr ν} {cursor later : Cursor} {name : ν} :
    Invokes grammar body cursor name later →
      Invokes grammar (.remember site body) cursor name later
  | star {body : Expr ν} {cursor later : Cursor} {name : ν} :
    Invokes grammar body cursor name later → Invokes grammar (.star body) cursor name later
  | starAgain {body : Expr ν} {cursor middle later : Cursor} {name : ν}
    {values : List Value} {expected : List Expectation} :
    body.Settles grammar cursor (.matched middle values) expected →
      Invokes grammar (.star body) middle name later →
        Invokes grammar (.star body) cursor name later
  | plus {body : Expr ν} {cursor later : Cursor} {name : ν} :
    Invokes grammar (.star body) cursor name later → Invokes grammar (.plus body) cursor name later
  | opt {body : Expr ν} {cursor later : Cursor} {name : ν} :
    Invokes grammar body cursor name later → Invokes grammar (.opt body) cursor name later
  | ahead {body : Expr ν} {cursor later : Cursor} {name : ν} :
    Invokes grammar body cursor name later → Invokes grammar (.ahead body) cursor name later
  | notAhead {body : Expr ν} {cursor later : Cursor} {name : ν} :
    Invokes grammar body cursor name later → Invokes grammar (.notAhead body) cursor name later

namespace Grammar

variable (grammar : Grammar ν)

def Invokes (caller callee : ν × Cursor) : Prop :=
  ∃ rule, grammar.rule caller.1 = some rule ∧
    rule.body.Invokes grammar caller.2 callee.1 callee.2

/-- Some rule is invoked again inside its own invocation before a character was matched. -/
def ComesBack : Prop :=
  ∃ name cursor again, Relation.TransGen grammar.Invokes (name, cursor) (name, again) ∧
    again.rest.length = cursor.rest.length

end Grammar

/-! ## What is left of the text -/

section

variable {grammar : Grammar ν} {expr : Expr ν} {cursor later : Cursor} {name : ν}

theorem Expr.Settles.length_le {next : Cursor} {values : List Value} {expected : List Expectation}
    (settled : expr.Settles grammar cursor (.matched next values) expected) :
    next.rest.length ≤ cursor.rest.length :=
  (settled.goesOn (fun _ _ _ _ => rfl : ∀ name rule, grammar.rule name = some rule →
    rule.body.isNullable (fun _ => true) = true → true = true) next values rfl).1

theorem Expr.Invokes.length_le (invokes : expr.Invokes grammar cursor name later) :
    later.rest.length ≤ cursor.rest.length := by
  induction invokes with
  | call => exact Nat.le_refl _
  | seqSecond settled _ induction | starAgain settled _ induction =>
      exact Nat.le_trans induction settled.length_le
  | altSecond _ _ induction => exact induction
  | seqFirst _ induction | altFirst _ induction | remember _ induction | star _ induction
  | plus _ induction | opt _ induction | ahead _ induction | notAhead _ induction =>
      exact induction

theorem Expr.Invokes.mem_calls (invokes : expr.Invokes grammar cursor name later) :
    name ∈ expr.calls := by
  induction invokes with
  | call => exact List.mem_singleton.mpr rfl
  | seqFirst _ induction | altFirst _ induction => exact List.mem_append_left _ induction
  | seqSecond _ _ induction | altSecond _ _ induction => exact List.mem_append_right _ induction
  | starAgain _ _ induction => exact induction
  | remember _ induction | star _ induction | plus _ induction | opt _ induction
  | ahead _ induction | notAhead _ induction => exact induction

theorem Expr.Invokes.mem_leftCalls {nullable : ν → Bool}
    (nullable_of_body : ∀ name rule, grammar.rule name = some rule →
      rule.body.isNullable nullable = true → nullable name = true)
    (invokes : expr.Invokes grammar cursor name later) :
    later.rest.length = cursor.rest.length → name ∈ expr.leftCalls nullable := by
  induction invokes with
  | call => exact fun _ => List.mem_singleton.mpr rfl
  | seqFirst _ induction | altFirst _ induction =>
      exact fun same => List.mem_append_left _ (induction same)
  | @seqSecond first second cursor middle later name values expected settled invokes induction =>
      intro same
      have middle_le := settled.length_le
      have later_le := invokes.length_le
      have goesOn := settled.goesOn nullable_of_body middle values rfl
      apply List.mem_append_right
      cases may : first.isNullable nullable with
      | true =>
          rw [if_pos rfl]
          exact induction (by omega)
      | false =>
          have shorter := goesOn.2 may
          omega
  | altSecond _ _ induction => exact fun same => List.mem_append_right _ (induction same)
  | starAgain settled invokes induction =>
      intro same
      have middle_le := settled.length_le
      have later_le := invokes.length_le
      exact induction (by omega)
  | remember _ induction | star _ induction | plus _ induction | opt _ induction
  | ahead _ induction | notAhead _ induction => exact induction

end

namespace Grammar

variable {grammar : Grammar ν} {caller callee : ν × Cursor}

theorem length_le_of_transGen (path : Relation.TransGen grammar.Invokes caller callee) :
    callee.2.rest.length ≤ caller.2.rest.length := by
  induction path with
  | single invokes =>
      obtain ⟨_, _, invokes⟩ := invokes
      exact invokes.length_le
  | tail _ invokes induction =>
      obtain ⟨_, _, invokes⟩ := invokes
      exact Nat.le_trans invokes.length_le induction

theorem ComesBack.isLeftRecursive (comesBack : grammar.ComesBack) : grammar.IsLeftRecursive := by
  obtain ⟨name, cursor, again, path, same⟩ := comesBack
  have step : ∀ {caller callee : ν × Cursor}, grammar.Invokes caller callee →
      callee.2.rest.length = caller.2.rest.length → grammar.LeftCalls caller.1 callee.1 := by
    intro caller callee invokes same
    obtain ⟨rule, found, invokes⟩ := invokes
    exact ⟨rule, found, invokes.mem_leftCalls grammar.isClosed_nullable same⟩
  have along : ∀ {callee : ν × Cursor}, Relation.TransGen grammar.Invokes (name, cursor) callee →
      callee.2.rest.length = cursor.rest.length →
        Relation.TransGen grammar.LeftCalls name callee.1 := by
    intro callee path
    induction path with
    | single invokes => exact fun same => .single (step invokes same)
    | @tail middle last path invokes induction =>
        intro same
        have middle_le := length_le_of_transGen path
        have last_le := length_le_of_transGen (.single invokes)
        simp only at middle_le
        exact (induction (by omega)).tail (step invokes (by omega))
  exact ⟨name, along path same⟩

/-! ## Chains of invocations -/

open Classical in
noncomputable def reach (grammar : Grammar ν) (length : Nat) (caller : ν × Cursor) :
    Finset (ν × Nat) :=
  (grammar.names.toFinset ×ˢ Finset.range (length + 1)).filter fun place =>
    ∃ later, later.rest.length = place.2 ∧
      Relation.TransGen grammar.Invokes caller (place.1, later)

theorem mem_reach {length : Nat} {place : ν × Nat} : place ∈ grammar.reach length caller ↔
    (place.1 ∈ grammar.names ∧ place.2 ≤ length) ∧ ∃ later, later.rest.length = place.2 ∧
      Relation.TransGen grammar.Invokes caller (place.1, later) := by
  classical
  rw [reach, Finset.mem_filter, Finset.mem_product, List.mem_toFinset, Finset.mem_range,
    Nat.lt_succ_iff]

theorem card_reach_le (length : Nat) (caller : ν × Cursor) :
    (grammar.reach length caller).card ≤ grammar.names.length * (length + 1) := by
  classical
  calc (grammar.reach length caller).card
      ≤ (grammar.names.toFinset ×ˢ Finset.range (length + 1)).card := Finset.card_filter_le _ _
    _ = grammar.names.toFinset.card * (length + 1) := by
      rw [Finset.card_product, Finset.card_range]
    _ ≤ grammar.names.length * (length + 1) :=
      Nat.mul_le_mul_right _ (List.toFinset_card_le _)

/-- If no rule comes back to itself, an invocation leads to more places than those that it
makes. -/
theorem IsComplete.card_reach_lt (complete : grammar.IsComplete)
    (never : ¬ grammar.ComesBack) {length : Nat} (within : caller.2.rest.length ≤ length)
    (invokes : grammar.Invokes caller callee) :
    (grammar.reach length callee).card < (grammar.reach length caller).card := by
  have ⟨rule, found, body_invokes⟩ := invokes
  have callee_mem := complete.mem_of_call caller.1 rule found callee.1 body_invokes.mem_calls
  apply Finset.card_lt_card
  constructor
  · intro place member
    obtain ⟨inside, later, left, path⟩ := mem_reach.mp member
    exact mem_reach.mpr ⟨inside, later, left, .head invokes path⟩
  · intro backwards
    have reached : (callee.1, callee.2.rest.length) ∈ grammar.reach length caller :=
      mem_reach.mpr ⟨⟨callee_mem, Nat.le_trans body_invokes.length_le within⟩, callee.2, rfl,
        .single invokes⟩
    obtain ⟨_, again, left, path⟩ := mem_reach.mp (backwards reached)
    exact never ⟨callee.1, callee.2, again, path, left⟩

end Grammar

/-! ## Matches end -/

section

variable {grammar : Grammar ν} {depth : Nat}

theorem exists_retried_plain {body : Expr ν}
    (ends : ∀ cursor, (∀ name later, body.Invokes grammar cursor name later →
      ∃ result, grammar.plain depth name later = some result) →
        ∃ result, body.plain (grammar.plain depth) cursor = some result) (bound : Nat) :
    ∀ cursor, (∀ name later, (Expr.star body).Invokes grammar cursor name later →
      ∃ result, grammar.plain depth name later = some result) →
        ∃ result, retried (body.plain (grammar.plain depth)) bound cursor = some result := by
  induction bound with
  | zero =>
      intro cursor invoked
      obtain ⟨⟨outcome, expected⟩, tried⟩ :=
        ends cursor fun name later invokes => invoked name later (.star invokes)
      rw [retried_zero, tried]
      exact ⟨_, rfl⟩
  | succ bound induction =>
      intro cursor invoked
      obtain ⟨⟨outcome, expected⟩, tried⟩ :=
        ends cursor fun name later invokes => invoked name later (.star invokes)
      unfold retried
      rw [tried]
      cases outcome with
      | failed | stuck => exact ⟨_, rfl⟩
      | matched next values =>
          obtain ⟨rest, again⟩ := induction next fun name later invokes =>
            invoked name later (.starAgain (.of_plain tried) invokes)
          simp only [again]
          exact ⟨_, rfl⟩

theorem Expr.exists_plain (expr : Expr ν) : ∀ cursor,
    (∀ name later, expr.Invokes grammar cursor name later →
      ∃ result, grammar.plain depth name later = some result) →
      ∃ result, expr.plain (grammar.plain depth) cursor = some result := by
  induction expr with
  | empty | never | noAlternative => exact fun _ _ => ⟨_, rfl⟩
  | terminal accepted =>
      intro cursor _
      simp only [plain]
      cases accepted.advance? cursor <;> exact ⟨_, rfl⟩
  | call name => exact fun cursor ends => ends name cursor .call
  | seq first second firstInduction secondInduction =>
      intro cursor ends
      obtain ⟨⟨outcome, early⟩, firstTried⟩ :=
        firstInduction cursor fun name later invokes => ends name later (.seqFirst invokes)
      simp only [plain, firstTried]
      cases outcome with
      | failed | stuck => exact ⟨_, rfl⟩
      | matched middle values =>
          obtain ⟨⟨secondOutcome, late⟩, secondTried⟩ := secondInduction middle
            fun name later invokes => ends name later (.seqSecond (.of_plain firstTried) invokes)
          simp only [secondTried]
          cases secondOutcome <;> exact ⟨_, rfl⟩
  | alt first second firstInduction secondInduction =>
      intro cursor ends
      obtain ⟨⟨outcome, early⟩, firstTried⟩ :=
        firstInduction cursor fun name later invokes => ends name later (.altFirst invokes)
      simp only [plain, firstTried]
      cases outcome with
      | matched | stuck => exact ⟨_, rfl⟩
      | failed explained =>
          obtain ⟨late, secondTried⟩ := secondInduction cursor
            fun name later invokes => ends name later (.altSecond (.of_plain firstTried) invokes)
          simp only [secondTried]
          exact ⟨_, rfl⟩
  | remember site body induction =>
      exact fun cursor ends =>
        induction cursor fun name later invokes => ends name later (.remember invokes)
  | star body induction =>
      intro cursor ends
      obtain ⟨repetition, again⟩ := exists_retried_plain induction cursor.rest.length cursor ends
      simp only [plain, again]
      exact ⟨_, rfl⟩
  | plus body induction =>
      intro cursor ends
      obtain ⟨repetition, again⟩ := exists_retried_plain induction cursor.rest.length cursor
        fun name later invokes => ends name later (.plus invokes)
      simp only [plain, again]
      exact ⟨_, rfl⟩
  | opt body induction =>
      intro cursor ends
      obtain ⟨⟨outcome, early⟩, tried⟩ :=
        induction cursor fun name later invokes => ends name later (.opt invokes)
      simp only [plain, tried]
      cases outcome <;> exact ⟨_, rfl⟩
  | ahead body induction =>
      intro cursor ends
      obtain ⟨⟨outcome, early⟩, tried⟩ :=
        induction cursor fun name later invokes => ends name later (.ahead invokes)
      simp only [plain, tried]
      cases outcome <;> exact ⟨_, rfl⟩
  | notAhead body induction =>
      intro cursor ends
      obtain ⟨⟨outcome, early⟩, tried⟩ :=
        induction cursor fun name later invokes => ends name later (.notAhead invokes)
      simp only [plain, tried]
      cases outcome <;> exact ⟨_, rfl⟩

namespace Grammar

theorem IsComplete.exists_plain (complete : grammar.IsComplete) (never : ¬ grammar.ComesBack)
    (length depth : Nat) : ∀ caller : ν × Cursor, caller.2.rest.length ≤ length →
      (grammar.reach length caller).card < depth →
        ∃ result, grammar.plain depth caller.1 caller.2 = some result := by
  -- The depth bounds the places that can still be come to, and each invocation uses one up.
  induction depth with
  | zero => exact fun _ _ few => absurd few (Nat.not_lt_zero _)
  | succ depth induction =>
      intro caller within few
      simp only [plain]
      cases found : grammar.rule caller.1 with
      | none => exact ⟨_, rfl⟩
      | some rule =>
          have ends : ∀ name later, rule.body.Invokes grammar caller.2 name later →
              ∃ result, grammar.plain depth name later = some result := by
            intro name later invokes
            have step : grammar.Invokes caller (name, later) := ⟨rule, found, invokes⟩
            have fewer := complete.card_reach_lt never within step
            exact induction (name, later) (Nat.le_trans invokes.length_le within) (by omega)
          obtain ⟨⟨outcome, expected⟩, tried⟩ := rule.body.exists_plain caller.2 ends
          simp only [tried]
          cases outcome <;> exact ⟨_, rfl⟩

theorem IsRanked.exists_plain {nullable : ν → Bool} {rank : ν → Nat}
    (ranked : grammar.IsRanked nullable rank) (depth : Nat) : ∀ name cursor,
      grammar.names.length * cursor.rest.length + rank name < depth →
        ∃ result, grammar.plain depth name cursor = some result := by
  induction depth with
  | zero => exact fun _ _ few => absurd few (Nat.not_lt_zero _)
  | succ depth induction =>
      intro name cursor few
      simp only [plain]
      cases found : grammar.rule name with
      | none => exact ⟨_, rfl⟩
      | some rule =>
          have ends : ∀ callee later, rule.body.Invokes grammar cursor callee later →
              ∃ result, grammar.plain depth callee later = some result := by
            intro callee later invokes
            apply induction callee later
            rcases Nat.lt_or_eq_of_le invokes.length_le with shorter | same
            · have low := ranked.rank_lt callee
              have product := Nat.mul_le_mul_left grammar.names.length (Nat.succ_le_of_lt shorter)
              rw [Nat.mul_succ] at product
              omega
            · have lower := ranked.rank_of_leftCall name rule found callee
                (invokes.mem_leftCalls ranked.nullable_of_body same)
              rw [same]
              omega
          obtain ⟨⟨outcome, expected⟩, tried⟩ := rule.body.exists_plain cursor ends
          simp only [tried]
          cases outcome <;> exact ⟨_, rfl⟩

variable [BEq ν] [Hashable ν] [LawfulBEq ν] [DecidableEq ν]

theorem IsRanked.run_eq_some {nullable : ν → Bool} {rank : ν → Nat}
    (ranked : grammar.IsRanked nullable rank) (own : grammar.HasOwnSites) (start : ν)
    (text : Text) : ∃ outcome events, grammar.run start text = some (outcome, events) := by
  have enough : grammar.names.length * text.length + rank start < grammar.depthBound text := by
    have low := ranked.rank_lt start
    rw [depthBound, Nat.mul_succ]
    omega
  obtain ⟨⟨outcome, expected⟩, tried⟩ :=
    ranked.exists_plain (grammar.depthBound text) start (Cursor.start text) enough
  obtain ⟨after, invoked⟩ := exists_invoke_of_plain own (Cursor.isIn_start text) tried
  exact ⟨outcome, after.events.reverse, by
    simp only [run, invoked _ (Nat.le_refl _), Option.map_some]⟩

/-- Every invocation in a text ends if no rule comes back to itself, and no more of them are
inside one another than there are rules and places for them. -/
theorem IsComplete.exists_invoke (complete : grammar.IsComplete) (own : grammar.HasOwnSites)
    (never : ¬ grammar.ComesBack) (text : Text) (name : ν) {cursor : Cursor}
    (isIn : cursor.IsIn text) : ∃ outcome expected after,
      (Expr.call name).Settles grammar cursor outcome expected ∧
      ∀ depth, grammar.depthBound text ≤ depth →
        grammar.invoke depth name cursor .start = some (outcome, after) := by
  have within : cursor.rest.length ≤ text.length := by
    rw [isIn, List.length_drop]
    exact Nat.sub_le _ _
  have few := grammar.card_reach_le text.length (name, cursor)
  obtain ⟨⟨outcome, expected⟩, tried⟩ := complete.exists_plain never text.length
    (grammar.depthBound text) (name, cursor) within (by rw [depthBound]; omega)
  obtain ⟨after, invoked⟩ := exists_invoke_of_plain own isIn tried
  exact ⟨outcome, expected, after, .of_plain tried, invoked⟩

end Grammar

end

end QubitLang.Peg
