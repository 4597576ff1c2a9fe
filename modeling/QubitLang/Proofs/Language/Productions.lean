import QubitLang.Proofs.Language.Brackets

/-! Derivation trees of the grammar over tokens. The pairs of brackets around the deepest place
of a derivation are as many as the brackets that are open at the deepest place of its tokens. -/

namespace QubitLang.Language

inductive Derivation where
  | leaf (token : Token)
  | node (name : Nonterminal) (parts : List Derivation)

namespace Derivation

mutual

def tokens : Derivation → List Token
  | .leaf token => [token]
  | .node _ parts => tokensAll parts

def tokensAll : List Derivation → List Token
  | [] => []
  | part :: rest => part.tokens ++ tokensAll rest

end

def isOpening : Derivation → Bool
  | .leaf (.sign .openParen) | .leaf (.sign .openBrace) => true
  | _ => false

mutual

/-- How many pairs of brackets are around the deepest place of a derivation. No production has
more than one pair of brackets, and what nests in a production with brackets stands between
them. -/
def nesting : Derivation → Nat
  | .leaf _ => 0
  | .node _ parts => if parts.any isOpening then nestingAll parts + 1 else nestingAll parts

def nestingAll : List Derivation → Nat
  | [] => 0
  | part :: rest => max part.nesting (nestingAll rest)

end

theorem tokensAll_append (parts more : List Derivation) :
    tokensAll (parts ++ more) = tokensAll parts ++ tokensAll more := by
  induction parts with
  | nil => rfl
  | cons part parts induction =>
      rw [List.cons_append, tokensAll, tokensAll, induction, List.append_assoc]

theorem nestingAll_append (parts more : List Derivation) :
    nestingAll (parts ++ more) = max (nestingAll parts) (nestingAll more) := by
  induction parts with
  | nil => rw [List.nil_append, nestingAll, Nat.zero_max]
  | cons part parts induction =>
      rw [List.cons_append, nestingAll, nestingAll, induction, Nat.max_assoc]

theorem tokensAll_singleton (part : Derivation) : tokensAll [part] = part.tokens := by
  rw [tokensAll, tokensAll, List.append_nil]

end Derivation

open QubitLang.Language.Derivation

/-! ## Derivations of sentences -/

inductive Derives : Form → List Derivation → Prop where
  | empty : Derives .empty []
  | terminal {label : Label} {token : Token} (accepted : token.reads label = true) :
      Derives (.terminal label) [.leaf token]
  | call {name : Nonterminal} {parts : List Derivation} (body : Derives (form name) parts) :
      Derives (.call name) [.node name parts]
  | seq {left right : Form} {parts more : List Derivation} (first : Derives left parts)
      (second : Derives right more) : Derives (.seq left right) (parts ++ more)
  | altFirst {left right : Form} {parts : List Derivation} (first : Derives left parts) :
      Derives (.alt left right) parts
  | altSecond {left right : Form} {parts : List Derivation} (second : Derives right parts) :
      Derives (.alt left right) parts
  | starStop {body : Form} : Derives (.star body) []
  | starStep {body : Form} {parts more : List Derivation} (first : Derives body parts)
      (others : Derives (.star body) more) : Derives (.star body) (parts ++ more)
  | optNone {body : Form} : Derives (.opt body) []
  | optSome {body : Form} {parts : List Derivation} (present : Derives body parts) :
      Derives (.opt body) parts

theorem generates_iff_exists_derives {form : Form} {tokens : List Token} :
    Generates form tokens ↔ ∃ parts, Derives form parts ∧ tokensAll parts = tokens := by
  constructor
  · intro generates
    induction generates with
    | empty => exact ⟨[], .empty, rfl⟩
    | terminal accepted => exact ⟨_, .terminal accepted, rfl⟩
    | call _ induction =>
        obtain ⟨parts, derives, rfl⟩ := induction
        exact ⟨_, .call derives, tokensAll_singleton _⟩
    | seq _ _ firstInduction secondInduction =>
        obtain ⟨parts, first, rfl⟩ := firstInduction
        obtain ⟨more, second, rfl⟩ := secondInduction
        exact ⟨_, .seq first second, tokensAll_append parts more⟩
    | altFirst _ induction =>
        obtain ⟨parts, derives, tokens_eq⟩ := induction
        exact ⟨parts, .altFirst derives, tokens_eq⟩
    | altSecond _ induction =>
        obtain ⟨parts, derives, tokens_eq⟩ := induction
        exact ⟨parts, .altSecond derives, tokens_eq⟩
    | starStop => exact ⟨[], .starStop, rfl⟩
    | starStep _ _ firstInduction othersInduction =>
        obtain ⟨parts, first, rfl⟩ := firstInduction
        obtain ⟨more, others, rfl⟩ := othersInduction
        exact ⟨_, .starStep first others, tokensAll_append parts more⟩
    | optNone => exact ⟨[], .optNone, rfl⟩
    | optSome _ induction =>
        obtain ⟨parts, derives, tokens_eq⟩ := induction
        exact ⟨parts, .optSome derives, tokens_eq⟩
  · rintro ⟨parts, derives, rfl⟩
    induction derives with
    | empty => exact .empty
    | terminal accepted => exact .terminal accepted
    | call _ induction =>
        rw [tokensAll_singleton]
        exact .call induction
    | seq _ _ firstInduction secondInduction =>
        rw [tokensAll_append]
        exact .seq firstInduction secondInduction
    | altFirst _ induction => exact .altFirst induction
    | altSecond _ induction => exact .altSecond induction
    | starStop => exact .starStop
    | starStep _ _ firstInduction othersInduction =>
        rw [tokensAll_append]
        exact .starStep firstInduction othersInduction
    | optNone => exact .optNone
    | optSome _ induction => exact .optSome induction

/-! ## Productions without brackets -/

/-- Whether no terminal of a form is a bracket, and all that it calls is admitted. -/
def Form.isFlat (admits : Nonterminal → Bool) : Form → Bool
  | .empty => true
  | .terminal label => !label.isBracket
  | .call name => admits name
  | .seq first second | .alt first second => first.isFlat admits && second.isFlat admits
  | .star body | .opt body => body.isFlat admits

def Nonterminal.isBare : Nonterminal → Bool
  | .identifier | .type | .typeWord _ | .returnType => true
  | _ => false

theorem Nonterminal.isFlat_of_isBare {name : Nonterminal} (bare : name.isBare = true) :
    (form name).isFlat Nonterminal.isBare = true := by
  cases name with
  | identifier | type | typeWord _ | returnType => rfl
  | _ => cases bare

section

variable {body : Form} {parts : List Derivation} {admits : Nonterminal → Bool}

theorem Derives.flat_leaf (derives : Derives body parts) (flat : body.isFlat admits = true)
    {token : Token} (member : .leaf token ∈ parts) :
    ∀ depth, token.depthAfter depth = depth := by
  induction derives with
  | empty | starStop | optNone => cases member
  | terminal accepted =>
      rw [List.mem_singleton, Derivation.leaf.injEq] at member
      subst member
      exact Token.flat_of_reads accepted (by simpa [Form.isFlat] using flat)
  | call _ _ =>
      rw [List.mem_singleton] at member
      cases member
  | seq _ _ firstInduction secondInduction =>
      rw [Form.isFlat, Bool.and_eq_true] at flat
      rcases List.mem_append.mp member with first | second
      · exact firstInduction flat.1 first
      · exact secondInduction flat.2 second
  | altFirst _ induction =>
      rw [Form.isFlat, Bool.and_eq_true] at flat
      exact induction flat.1 member
  | altSecond _ induction =>
      rw [Form.isFlat, Bool.and_eq_true] at flat
      exact induction flat.2 member
  | starStep _ _ firstInduction othersInduction =>
      rcases List.mem_append.mp member with first | others
      · exact firstInduction flat first
      · exact othersInduction flat others
  | optSome _ induction => exact induction flat member

theorem any_isOpening_eq_false
    (flat : ∀ token, .leaf token ∈ parts → ∀ depth, token.depthAfter depth = depth) :
    parts.any isOpening = false := by
  rw [List.any_eq_false]
  intro part member opening
  unfold isOpening at opening
  split at opening
  · cases flat _ member 0
  · cases flat _ member 0
  · cases opening

theorem Derives.nestingAll_eq_zero (derives : Derives body parts)
    (bare : body.isFlat Nonterminal.isBare = true) : nestingAll parts = 0 := by
  induction derives with
  | empty | starStop | optNone => rfl
  | terminal _ => rfl
  | call inside induction =>
      have flat := Nonterminal.isFlat_of_isBare bare
      have noBracket := any_isOpening_eq_false fun _ => inside.flat_leaf flat
      rw [nestingAll, nesting, noBracket, if_neg Bool.false_ne_true, induction flat]
      rfl
  | seq _ _ firstInduction secondInduction =>
      rw [Form.isFlat, Bool.and_eq_true] at bare
      rw [nestingAll_append, firstInduction bare.1, secondInduction bare.2]
      rfl
  | altFirst _ induction =>
      rw [Form.isFlat, Bool.and_eq_true] at bare
      exact induction bare.1
  | altSecond _ induction =>
      rw [Form.isFlat, Bool.and_eq_true] at bare
      exact induction bare.2
  | starStep _ _ firstInduction othersInduction =>
      rw [nestingAll_append, firstInduction bare, othersInduction bare]
      rfl
  | optSome _ induction => exact induction bare

/-! ## Depth of derivations -/

/-- The tokens of every production among some parts nest as deeply as the production. -/
def AreDeep (parts : List Derivation) : Prop :=
  ∀ name inside, .node name inside ∈ parts →
    Deepens (tokensAll inside) (Derivation.node name inside).nesting

theorem deepens_of_flat (deep : AreDeep parts)
    (flat : ∀ token, .leaf token ∈ parts → ∀ depth, token.depthAfter depth = depth) :
    Deepens (tokensAll parts) (nestingAll parts) := by
  induction parts with
  | nil => exact .nil
  | cons part parts induction =>
      have later := induction (fun name inside member => deep name inside (.tail _ member))
        fun token member => flat token (.tail _ member)
      cases part with
      | leaf token =>
          rw [tokensAll, nestingAll, nesting, Nat.zero_max]
          exact later.cons (flat token (.head _))
      | node name inside =>
          rw [tokensAll, nestingAll, tokens]
          exact (deep name inside (.head _)).append later

theorem Derives.deepens_flat (derives : Derives body parts) (flat : body.isFlat admits = true)
    (deep : AreDeep parts) : Deepens (tokensAll parts) (nestingAll parts) :=
  deepens_of_flat deep fun _ => derives.flat_leaf flat

theorem deepens_bracketed {name : Nonterminal} {left middle right : Form}
    {before inside after : List Derivation} {opening closing : Token}
    (opens : opening = .sign .openParen ∨ opening = .sign .openBrace)
    (closes : closing = .sign .closeParen ∨ closing = .sign .closeBrace)
    (first : Derives left before) (leftBare : left.isFlat Nonterminal.isBare = true)
    (second : Derives middle inside) (middleFlat : middle.isFlat admits = true)
    (third : Derives right after) (rightBare : right.isFlat Nonterminal.isBare = true)
    (parts_eq : parts = before ++ .leaf opening :: (inside ++ .leaf closing :: after))
    (deep : AreDeep parts) :
    Deepens (tokensAll parts) (Derivation.node name parts).nesting := by
  subst parts_eq
  have beforeDeepens := first.deepens_flat leftBare fun name part member =>
    deep name part (List.mem_append_left _ member)
  have insideDeepens := second.deepens_flat middleFlat fun name part member =>
    deep name part (List.mem_append_right _ (.tail _ (List.mem_append_left _ member)))
  have afterDeepens := third.deepens_flat rightBare fun name part member =>
    deep name part (List.mem_append_right _ (.tail _ (List.mem_append_right _ (.tail _ member))))
  have opened : isOpening (.leaf opening) = true := by
    rcases opens with rfl | rfl <;> rfl
  have opensOne : ∀ depth, opening.depthAfter depth = depth + 1 := by
    rcases opens with rfl | rfl <;> exact fun _ => rfl
  have closesOne : ∀ depth, closing.depthAfter depth = depth - 1 := by
    rcases closes with rfl | rfl <;> exact fun _ => rfl
  rw [first.nestingAll_eq_zero leftBare] at beforeDeepens
  rw [third.nestingAll_eq_zero rightBare] at afterDeepens
  have whole := beforeDeepens.append ((insideDeepens.wrap opensOne closesOne).append afterDeepens)
  rw [Nat.max_zero, Nat.zero_max] at whole
  have nesting_eq : (Derivation.node name
      (before ++ .leaf opening :: (inside ++ .leaf closing :: after))).nesting =
        nestingAll inside + 1 := by
    have isBracketed : (before ++ .leaf opening :: (inside ++ .leaf closing :: after)).any
        isOpening = true := by
      rw [List.any_eq_true]
      exact ⟨_, List.mem_append_right _ (.head _), opened⟩
    rw [nesting, isBracketed, if_pos rfl, nestingAll_append, nestingAll, nestingAll_append,
      nestingAll, nesting, nesting, first.nestingAll_eq_zero leftBare,
      third.nestingAll_eq_zero rightBare]
    simp only [Nat.zero_max, Nat.max_zero]
  rw [nesting_eq]
  simpa only [tokensAll_append, tokensAll, tokens, List.singleton_append, List.cons_append,
    List.append_assoc, List.nil_append] using whole

theorem Derives.deepens_unbracketed {name : Nonterminal} (derives : Derives body parts)
    (flat : body.isFlat admits = true) (deep : AreDeep parts) :
    Deepens (tokensAll parts) (Derivation.node name parts).nesting := by
  rw [nesting, any_isOpening_eq_false fun _ => derives.flat_leaf flat, if_neg Bool.false_ne_true]
  exact derives.deepens_flat flat deep

theorem Derives.exists_sign {mark : Sign} (derives : Derives (.sign mark) parts)
    (lexical : ∀ token ∈ tokensAll parts, token.isLexical = true) (notPercent : mark ≠ .percent) :
    parts = [.leaf (.sign mark)] := by
  cases derives with
  | terminal accepted =>
      have fit := lexical _ (List.mem_singleton_self _)
      rw [Token.eq_sign_of_reads fit accepted notPercent]

theorem Derives.exists_seq {left right : Form} (derives : Derives (.seq left right) parts)
    (lexical : ∀ token ∈ tokensAll parts, token.isLexical = true) :
    ∃ first second, parts = first ++ second ∧ Derives left first ∧ Derives right second ∧
      (∀ token ∈ tokensAll first, token.isLexical = true) ∧
        ∀ token ∈ tokensAll second, token.isLexical = true := by
  cases derives with
  | seq first second =>
      rw [tokensAll_append, List.forall_mem_append] at lexical
      exact ⟨_, _, rfl, first, second, lexical⟩

abbrev Form.isUnbracketed : Form → Bool := Form.isFlat fun _ => true

theorem Derives.deepens_production {name : Nonterminal} (derives : Derives (form name) parts)
    (lexical : ∀ token ∈ tokensAll parts, token.isLexical = true) (deep : AreDeep parts) :
    Deepens (tokensAll parts) (Derivation.node name parts).nesting := by
  have unbracketed {other : Form} (derives : Derives other parts)
      (flat : other.isUnbracketed = true) :=
    @Derives.deepens_unbracketed _ _ _ name derives flat deep
  cases name with
  | expression =>
      cases derives with
      | altFirst grouped =>
          obtain ⟨_, _, rfl, first, others, firstFit, othersFit⟩ := grouped.exists_seq lexical
          obtain rfl := first.exists_sign firstFit (by decide)
          obtain ⟨inside, _, rfl, second, last, _, lastFit⟩ := others.exists_seq othersFit
          obtain rfl := last.exists_sign lastFit (by decide)
          exact deepens_bracketed (.inl rfl) (.inl rfl) .empty rfl second
            (show Form.isUnbracketed _ = true from rfl) .empty rfl rfl deep
      | altSecond others => exact unbracketed others rfl
  | call =>
      obtain ⟨_, _, rfl, callee, bracketed, _, bracketedFit⟩ := derives.exists_seq lexical
      obtain ⟨_, _, rfl, first, others, firstFit, othersFit⟩ := bracketed.exists_seq bracketedFit
      obtain rfl := first.exists_sign firstFit (by decide)
      obtain ⟨inside, _, rfl, second, last, _, lastFit⟩ := others.exists_seq othersFit
      obtain rfl := last.exists_sign lastFit (by decide)
      exact deepens_bracketed (.inl rfl) (.inl rfl) callee rfl second
        (show Form.isUnbracketed _ = true from rfl) .empty rfl rfl deep
  | block =>
      obtain ⟨_, _, rfl, first, others, firstFit, othersFit⟩ := derives.exists_seq lexical
      obtain rfl := first.exists_sign firstFit (by decide)
      obtain ⟨inside, _, rfl, second, last, _, lastFit⟩ := others.exists_seq othersFit
      obtain rfl := last.exists_sign lastFit (by decide)
      exact deepens_bracketed (.inr rfl) (.inr rfl) .empty rfl second
        (show Form.isUnbracketed _ = true from rfl) .empty rfl rfl deep
  | prototype =>
      obtain ⟨_, _, rfl, named, bracketed, _, bracketedFit⟩ := derives.exists_seq lexical
      obtain ⟨_, _, rfl, first, others, firstFit, othersFit⟩ := bracketed.exists_seq bracketedFit
      obtain rfl := first.exists_sign firstFit (by decide)
      obtain ⟨inside, _, rfl, second, ending, _, endingFit⟩ := others.exists_seq othersFit
      obtain ⟨_, _, rfl, last, result, lastFit, _⟩ := ending.exists_seq endingFit
      obtain rfl := last.exists_sign lastFit (by decide)
      exact deepens_bracketed (.inl rfl) (.inl rfl) named rfl second
        (show Form.isUnbracketed _ = true from rfl) result rfl rfl deep
  | _ => exact unbracketed derives rfl

theorem Derives.areDeep (derives : Derives body parts)
    (lexical : ∀ token ∈ tokensAll parts, token.isLexical = true) : AreDeep parts := by
  induction derives with
  | empty | starStop | optNone => exact fun _ _ => nofun
  | terminal _ =>
      intro name inside member
      rw [List.mem_singleton] at member
      cases member
  -- This is the only step that adds a production, and so perhaps a pair of brackets.
  | call derives induction =>
      rw [tokensAll_singleton] at lexical
      intro name inside member
      rw [List.mem_singleton] at member
      cases member
      exact derives.deepens_production lexical (induction lexical)
  | seq _ _ firstInduction secondInduction | starStep _ _ firstInduction secondInduction =>
      rw [tokensAll_append, List.forall_mem_append] at lexical
      intro name inside member
      rcases List.mem_append.mp member with first | second
      · exact firstInduction lexical.1 name inside first
      · exact secondInduction lexical.2 name inside second
  | altFirst _ induction | altSecond _ induction | optSome _ induction => exact induction lexical

/-- The tokens of a derivation open as many brackets at their deepest place as there are pairs
of brackets around the deepest place of the derivation. -/
theorem Derives.deepens {name : Nonterminal} {derivation : Derivation}
    (derives : Derives (.call name) [derivation])
    (lexical : ∀ token ∈ derivation.tokens, token.isLexical = true) :
    Deepens derivation.tokens derivation.nesting := by
  rw [← tokensAll_singleton] at lexical
  have deep := derives.areDeep lexical
  cases derives with
  | call _ => exact deep _ _ (List.mem_singleton_self _)

end

end QubitLang.Language
