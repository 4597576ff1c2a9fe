import QubitLang.Proofs.Peg.Memory

/-! How deeply rules may invoke each other. Where some depth gives a result, any larger one
gives the same, and memory never makes a match go deeper than it goes without. -/

namespace QubitLang.Peg

variable {ν : Type}

/-! ## Larger depths without memory -/

/-- Whether a trial has the results of another one, wherever that has a result. -/
def Trial.Covers (larger trial : Trial) : Prop :=
  ∀ cursor result, trial cursor = some result → larger cursor = some result

theorem Trial.Covers.retried {larger trial : Trial} (covers : larger.Covers trial) (bound : Nat) :
    ∀ cursor result, retried trial bound cursor = some result →
      Peg.retried larger bound cursor = some result := by
  induction bound with
  | zero =>
      intro cursor result tried
      rw [retried_zero] at tried ⊢
      obtain ⟨first, attempted, equal⟩ := Option.map_eq_some_iff.mp tried
      exact Option.map_eq_some_iff.mpr ⟨first, covers cursor first attempted, equal⟩
  | succ bound induction =>
      intro cursor result tried
      unfold Peg.retried at tried ⊢
      cases attempted : trial cursor with
      | none => simp [attempted] at tried
      | some first =>
          obtain ⟨outcome, expected⟩ := first
          rw [attempted] at tried
          rw [covers cursor _ attempted]
          cases outcome with
          | failed | stuck => exact tried
          | matched next values =>
              cases again : Peg.retried trial bound next with
              | none => simp [again] at tried
              | some rest =>
                  simp only [again] at tried
                  simp only [induction next rest again]
                  exact tried

theorem Expr.plain_covers {larger invoke : ν → Trial}
    (covers : ∀ name, (larger name).Covers (invoke name)) (expr : Expr ν) :
    Trial.Covers (expr.plain larger) (expr.plain invoke) := by
  induction expr with
  | empty | never | noAlternative | terminal _ => exact fun _ _ result => result
  | call name => exact covers name
  | seq first second firstInduction secondInduction =>
      intro cursor result tried
      simp only [plain] at tried ⊢
      cases firstTried : first.plain invoke cursor with
      | none => simp [firstTried] at tried
      | some early =>
          obtain ⟨outcome, expected⟩ := early
          rw [firstTried] at tried
          rw [firstInduction cursor _ firstTried]
          cases outcome with
          | failed | stuck => exact tried
          | matched middle values =>
              cases secondTried : second.plain invoke middle with
              | none => simp [secondTried] at tried
              | some late =>
                  simp only [secondTried] at tried
                  simp only [secondInduction middle late secondTried]
                  exact tried
  | alt first second firstInduction secondInduction =>
      intro cursor result tried
      simp only [plain] at tried ⊢
      cases firstTried : first.plain invoke cursor with
      | none => simp [firstTried] at tried
      | some early =>
          obtain ⟨outcome, expected⟩ := early
          rw [firstTried] at tried
          rw [firstInduction cursor _ firstTried]
          cases outcome with
          | matched | stuck => exact tried
          | failed explained =>
              obtain ⟨late, secondTried, equal⟩ := Option.map_eq_some_iff.mp tried
              exact Option.map_eq_some_iff.mpr
                ⟨late, secondInduction cursor late secondTried, equal⟩
  | remember _ body induction => exact induction
  | star body induction | plus body induction =>
      intro cursor result tried
      obtain ⟨repetition, again, equal⟩ := Option.map_eq_some_iff.mp tried
      exact Option.map_eq_some_iff.mpr ⟨repetition, induction.retried _ cursor _ again, equal⟩
  | opt body induction | ahead body induction | notAhead body induction =>
      intro cursor result tried
      simp only [plain] at tried ⊢
      cases bodyTried : body.plain invoke cursor with
      | none => simp [bodyTried] at tried
      | some early =>
          rw [bodyTried] at tried
          rw [induction cursor early bodyTried]
          exact tried

namespace Grammar

variable {grammar : Grammar ν} {depth deeper : Nat}

theorem plain_succ_covers (depth : Nat) :
    ∀ name, (grammar.plain (depth + 1) name).Covers (grammar.plain depth name) := by
  induction depth with
  | zero => exact fun _ _ _ => nofun
  | succ depth induction =>
      intro name cursor result tried
      rw [plain] at tried ⊢
      cases found : grammar.rule name with
      | none =>
          rw [found] at tried
          exact tried
      | some rule =>
          simp only [found] at tried ⊢
          cases bodyTried : rule.body.plain (grammar.plain depth) cursor with
          | none => simp [bodyTried] at tried
          | some early =>
              rw [bodyTried] at tried
              rw [Expr.plain_covers induction rule.body cursor early bodyTried]
              exact tried

theorem plain_covers (le : depth ≤ deeper) (name : ν) :
    (grammar.plain deeper name).Covers (grammar.plain depth name) := by
  induction le with
  | refl => exact fun _ _ result => result
  | step _ induction =>
      exact fun cursor result tried =>
        plain_succ_covers _ name cursor result (induction cursor result tried)

end Grammar

theorem Expr.Settles.of_plain {grammar : Grammar ν} {expr : Expr ν} {cursor : Cursor}
    {outcome : Outcome} {expected : List Expectation} {depth : Nat}
    (tried : expr.plain (grammar.plain depth) cursor = some (outcome, expected)) :
    expr.Settles grammar cursor outcome expected := by
  apply Filter.eventually_atTop.mpr
  refine ⟨depth, fun deeper le => ?_⟩
  exact Expr.plain_covers (Grammar.plain_covers le) expr cursor _ tried

/-! ## Larger depths with memory -/

variable [BEq ν] [Hashable ν]

def Attempt.Covers (larger attempt : Attempt ν) : Prop :=
  ∀ cursor progress result, attempt cursor progress = some result →
    larger cursor progress = some result

theorem Attempt.Covers.repeated {larger attempt : Attempt ν} (covers : larger.Covers attempt)
    (bound : Nat) : ∀ cursor progress result,
      repeated attempt bound cursor progress = some result →
        Peg.repeated larger bound cursor progress = some result := by
  induction bound with
  | zero =>
      intro cursor progress result tried
      unfold Peg.repeated at tried ⊢
      cases attempted : attempt cursor progress with
      | none => simp [attempted] at tried
      | some first =>
          rw [attempted] at tried
          rw [covers cursor progress first attempted]
          exact tried
  | succ bound induction =>
      intro cursor progress result tried
      unfold Peg.repeated at tried ⊢
      cases attempted : attempt cursor progress with
      | none => simp [attempted] at tried
      | some first =>
          obtain ⟨outcome, middle⟩ := first
          rw [attempted] at tried
          rw [covers cursor progress _ attempted]
          cases outcome with
          | failed | stuck => exact tried
          | matched next values =>
              cases again : Peg.repeated attempt bound next middle with
              | none => simp [again] at tried
              | some rest =>
                  simp only [again] at tried
                  simp only [induction next middle rest again]
                  exact tried

theorem Expr.attempt_covers {larger invoke : ν → Attempt ν}
    (covers : ∀ name, (larger name).Covers (invoke name)) (owner : ν) (expr : Expr ν) :
    Attempt.Covers (expr.attempt larger owner) (expr.attempt invoke owner) := by
  induction expr with
  | empty | never | noAlternative | terminal _ => exact fun _ _ _ result => result
  | call name => exact covers name
  | seq first second firstInduction secondInduction =>
      intro cursor progress result tried
      simp only [attempt] at tried ⊢
      cases firstTried : first.attempt invoke owner cursor progress with
      | none => simp [firstTried] at tried
      | some early =>
          obtain ⟨outcome, between⟩ := early
          rw [firstTried] at tried
          rw [firstInduction cursor progress _ firstTried]
          cases outcome with
          | failed | stuck => exact tried
          | matched middle values =>
              cases secondTried : second.attempt invoke owner middle between with
              | none => simp [secondTried] at tried
              | some late =>
                  simp only [secondTried] at tried
                  simp only [secondInduction middle between late secondTried]
                  exact tried
  | alt first second firstInduction secondInduction =>
      intro cursor progress result tried
      simp only [attempt] at tried ⊢
      cases firstTried : first.attempt invoke owner cursor progress with
      | none => simp [firstTried] at tried
      | some early =>
          obtain ⟨outcome, between⟩ := early
          rw [firstTried] at tried
          rw [firstInduction cursor progress _ firstTried]
          cases outcome with
          | matched | stuck => exact tried
          | failed explained => exact secondInduction cursor between result tried
  | remember site body induction =>
      intro cursor progress result tried
      simp only [attempt] at tried ⊢
      cases known : progress.outcomeOf? (owner, site, cursor.offset) with
      | some outcome =>
          rw [known] at tried
          exact tried
      | none =>
          simp only [known] at tried ⊢
          cases bodyTried : body.attempt invoke owner cursor progress with
          | none => simp [bodyTried] at tried
          | some early =>
              rw [bodyTried] at tried
              rw [induction cursor progress early bodyTried]
              exact tried
  | star body induction | plus body induction =>
      intro cursor progress result tried
      simp only [attempt] at tried ⊢
      cases again : repeated (body.attempt invoke owner) cursor.rest.length cursor progress with
      | none => simp [again] at tried
      | some repetition =>
          rw [again] at tried
          rw [induction.repeated _ cursor progress repetition again]
          exact tried
  | opt body induction | ahead body induction | notAhead body induction =>
      intro cursor progress result tried
      simp only [attempt] at tried ⊢
      cases bodyTried : body.attempt invoke owner cursor progress with
      | none => simp [bodyTried] at tried
      | some early =>
          rw [bodyTried] at tried
          rw [induction cursor progress early bodyTried]
          exact tried

namespace Grammar

variable {grammar : Grammar ν} {depth deeper : Nat}

theorem invoke_succ_covers (depth : Nat) :
    ∀ name, (grammar.invoke (depth + 1) name).Covers (grammar.invoke depth name) := by
  induction depth with
  | zero => exact fun _ _ _ _ => nofun
  | succ depth induction =>
      intro name cursor progress result tried
      rw [invoke] at tried ⊢
      cases found : grammar.rule name with
      | none =>
          rw [found] at tried
          exact tried
      | some rule =>
          simp only [found] at tried ⊢
          cases bodyTried : rule.body.attempt (grammar.invoke depth) name cursor progress with
          | none => simp [bodyTried] at tried
          | some early =>
              rw [bodyTried] at tried
              rw [Expr.attempt_covers induction name rule.body cursor progress early bodyTried]
              exact tried

theorem invoke_covers (le : depth ≤ deeper) (name : ν) :
    (grammar.invoke deeper name).Covers (grammar.invoke depth name) := by
  induction le with
  | refl => exact fun _ _ _ result => result
  | step _ induction =>
      exact fun cursor progress result tried =>
        invoke_succ_covers _ name cursor progress result (induction cursor progress result tried)

end Grammar

/-! ## Memory goes no deeper -/

def Attempt.EndsLike (grammar : Grammar ν) (text : Text) (trial : Trial)
    (attempt : Attempt ν) : Prop :=
  ∀ {cursor progress outcome expected}, cursor.IsIn text → progress.IsSound grammar text →
    trial cursor = some (outcome, expected) →
      ∃ after, attempt cursor progress = some (outcome, after)

section

variable {grammar : Grammar ν} {text : Text}

theorem Attempt.EndsLike.repeated {body : Expr ν} {trial : Trial} {attempt : Attempt ν}
    (endsLike : EndsLike grammar text trial attempt)
    (faithful : IsFaithful grammar text body attempt) (bound : Nat) :
    ∀ {cursor progress repetition expected}, cursor.IsIn text → progress.IsSound grammar text →
      retried trial bound cursor = some (repetition, expected) →
        ∃ after, repeated attempt bound cursor progress = some (repetition, after) := by
  induction bound with
  | zero =>
      intro cursor progress repetition expected isIn sound tried
      unfold Peg.retried at tried
      unfold Peg.repeated
      cases once : trial cursor with
      | none => simp [once] at tried
      | some first =>
          obtain ⟨outcome, early⟩ := first
          obtain ⟨middle, attempted⟩ := endsLike isIn sound once
          rw [once] at tried
          rw [attempted]
          cases outcome <;>
          · cases tried
            exact ⟨middle, rfl⟩
  | succ bound induction =>
      intro cursor progress repetition expected isIn sound tried
      unfold Peg.retried at tried
      unfold Peg.repeated
      cases once : trial cursor with
      | none => simp [once] at tried
      | some first =>
          obtain ⟨outcome, early⟩ := first
          obtain ⟨middle, attempted⟩ := endsLike isIn sound once
          obtain ⟨_, _, nextIsIn, middleSound, _⟩ := faithful isIn sound attempted
          rw [once] at tried
          rw [attempted]
          cases outcome with
          | failed | stuck =>
              cases tried
              exact ⟨middle, rfl⟩
          | matched next values =>
              cases again : Peg.retried trial bound next with
              | none => simp [again] at tried
              | some rest =>
                  obtain ⟨after, repeats⟩ :=
                    induction (nextIsIn next values rfl) middleSound again
                  simp only [again] at tried
                  cases tried
                  simp only [repeats]
                  exact ⟨after, rfl⟩

variable [LawfulBEq ν] [DecidableEq ν]

/-- An expression of a rule ends with memory where it ends without: what is remembered is what
the trial has found. -/
theorem Expr.attempt_endsLike (own : grammar.HasOwnSites) {depth : Nat}
    (invokeEndsLike : ∀ name,
      Attempt.EndsLike grammar text (grammar.plain depth name) (grammar.invoke depth name))
    {owner : ν} {rule : Rule ν} (found : grammar.rule owner = some rule) (expr : Expr ν) :
    expr.remembered ⊆ rule.body.remembered →
      Attempt.EndsLike grammar text (expr.plain (grammar.plain depth))
        (expr.attempt (grammar.invoke depth) owner) := by
  have invokeFaithful : ∀ name,
      Attempt.IsFaithful grammar text (.call name) (grammar.invoke depth name) :=
    Grammar.invoke_isFaithful own depth
  have faithful (part : Expr ν) := Expr.attempt_isFaithful invokeFaithful own found part
  -- Only a sound memory is met again, and faithful parts leave one behind.
  induction expr with
  | empty | never | noAlternative =>
      intro _ cursor progress outcome expected _ _ tried
      cases tried
      exact ⟨_, rfl⟩
  | terminal accepted =>
      intro _ cursor progress outcome expected _ _ tried
      simp only [plain] at tried
      simp only [attempt]
      cases advanced : accepted.advance? cursor <;>
      · rw [advanced] at tried
        cases tried
        exact ⟨_, rfl⟩
  | call name =>
      intro _ cursor progress outcome expected isIn sound tried
      exact invokeEndsLike name isIn sound tried
  | seq first second firstInduction secondInduction =>
      intro inside cursor progress outcome expected isIn sound tried
      obtain ⟨firstInside, secondInside⟩ := List.append_subset.mp inside
      rcases plain_seq tried with
        ⟨middle, values, early, later, late, firstTried, secondTried, rfl, rfl⟩ |
        ⟨firstTried, unmatched⟩
      · obtain ⟨between, attempted⟩ := firstInduction firstInside isIn sound firstTried
        obtain ⟨_, _, middleIsIn, middleSound, _⟩ :=
          faithful first firstInside isIn sound attempted
        obtain ⟨after, again⟩ :=
          secondInduction secondInside (middleIsIn _ _ rfl) middleSound secondTried
        simp only [attempt, attempted, again]
        cases later <;> exact ⟨after, rfl⟩
      · obtain ⟨after, attempted⟩ := firstInduction firstInside isIn sound firstTried
        simp only [attempt, attempted]
        cases outcome with
        | matched last more => exact absurd rfl (unmatched last more)
        | failed | stuck => exact ⟨after, rfl⟩
  | alt first second firstInduction secondInduction =>
      intro inside cursor progress outcome expected isIn sound tried
      obtain ⟨firstInside, secondInside⟩ := List.append_subset.mp inside
      rcases plain_alt tried with
        ⟨explained, early, late, firstTried, secondTried, rfl⟩ | ⟨firstTried, succeeded⟩
      · obtain ⟨between, attempted⟩ := firstInduction firstInside isIn sound firstTried
        obtain ⟨_, _, _, middleSound, _⟩ := faithful first firstInside isIn sound attempted
        obtain ⟨after, again⟩ := secondInduction secondInside isIn middleSound secondTried
        simp only [attempt, attempted, again]
        exact ⟨after, rfl⟩
      · obtain ⟨after, attempted⟩ := firstInduction firstInside isIn sound firstTried
        simp only [attempt, attempted]
        cases outcome with
        | failed explained => exact absurd rfl (succeeded explained)
        | matched | stuck => exact ⟨after, rfl⟩
  | remember site body induction =>
      intro inside cursor progress outcome expected isIn sound tried
      have member := inside List.mem_cons_self
      simp only [attempt]
      cases known : progress.outcomeOf? (owner, site, cursor.offset) with
      | none =>
          obtain ⟨between, attempted⟩ := induction
            (fun _ inner => inside (List.mem_cons_of_mem _ inner)) isIn sound tried
          simp only [attempted]
          exact ⟨_, rfl⟩
      | some remembered =>
          -- What is known at this site was found by this very body, so it is what the trial finds.
          obtain ⟨otherRule, otherBody, _, otherFound, otherMember, settled, _⟩ :=
            sound owner site cursor.offset remembered known
          cases found.symm.trans otherFound
          cases (own owner rule found).eq_of_mem member otherMember
          rw [← isIn.eq_at] at settled
          obtain ⟨rfl, _⟩ := settled.unique (Settles.of_plain tried)
          exact ⟨progress, rfl⟩
  | star body induction | plus body induction =>
      intro inside cursor progress outcome expected isIn sound tried
      obtain ⟨⟨repetition, early⟩, again, equal⟩ := Option.map_eq_some_iff.mp tried
      cases equal
      obtain ⟨after, repeats⟩ := Attempt.EndsLike.repeated (induction inside)
        (faithful body inside) _ isIn sound again
      simp only [attempt, repeats]
      exact ⟨after, rfl⟩
  | opt body induction | ahead body induction | notAhead body induction =>
      intro inside cursor progress outcome expected isIn sound tried
      simp only [plain] at tried
      simp only [attempt]
      cases bodyTried : body.plain (grammar.plain depth) cursor with
      | none => simp [bodyTried] at tried
      | some early =>
          obtain ⟨bodyOutcome, bodyExpected⟩ := early
          obtain ⟨after, attempted⟩ := induction inside isIn sound bodyTried
          rw [bodyTried] at tried
          rw [attempted]
          cases bodyOutcome <;>
          · cases tried
            exact ⟨after, rfl⟩

theorem Grammar.invoke_endsLike (own : grammar.HasOwnSites) (depth : Nat) :
    ∀ name, Attempt.EndsLike grammar text (grammar.plain depth name)
      (grammar.invoke depth name) := by
  induction depth with
  | zero => exact fun _ _ _ _ _ _ _ => nofun
  | succ depth induction =>
      intro name cursor progress outcome expected isIn sound tried
      rw [plain] at tried
      rw [invoke]
      cases found : grammar.rule name with
      | none =>
          rw [found] at tried
          cases tried
          exact ⟨progress, rfl⟩
      | some rule =>
          simp only [found] at tried ⊢
          cases bodyTried : rule.body.plain (grammar.plain depth) cursor with
          | none => simp [bodyTried] at tried
          | some early =>
              obtain ⟨bodyOutcome, bodyExpected⟩ := early
              obtain ⟨after, attempted⟩ := Expr.attempt_endsLike own induction found rule.body
                (List.Subset.refl _) isIn sound bodyTried
              rw [bodyTried] at tried
              rw [attempted]
              cases bodyOutcome <;>
              · cases tried
                exact ⟨_, rfl⟩

theorem Grammar.exists_invoke_of_plain (own : grammar.HasOwnSites) {depth : Nat} {name : ν}
    {cursor : Cursor} {outcome : Outcome} {expected : List Expectation} (isIn : cursor.IsIn text)
    (tried : grammar.plain depth name cursor = some (outcome, expected)) :
    ∃ after, ∀ deeper, depth ≤ deeper →
      grammar.invoke deeper name cursor .start = some (outcome, after) := by
  obtain ⟨after, invoked⟩ := invoke_endsLike own depth name isIn
    (Progress.isSound_start grammar text) tried
  exact ⟨after, fun deeper le => invoke_covers le name cursor .start _ invoked⟩

end

end QubitLang.Peg
