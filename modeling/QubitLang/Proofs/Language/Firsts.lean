import QubitLang.Proofs.Language.Reading

/-! The labels with which a phrase can begin. A phrase that has to read something
fails where none of them stands, and every sentence of it begins with one. -/

namespace QubitLang.Language

def Nonterminal.firsts : Nonterminal → List Label
  | .trivia | .wordContinue | .reserved | .marker _ => []
  | .identifier | .call | .assignment | .prototype | .parameters | .parameter => [.identifier]
  | .number => [.number]
  | .qubit => [.sign .percent]
  | .trueLiteral => [.keyword .trueWord]
  | .falseLiteral => [.keyword .falseWord]
  | .literal => [.number, .sign .percent, .keyword .trueWord, .keyword .falseWord]
  | .expression | .expressionInput =>
    [.sign .openParen, .identifier, .number, .sign .percent, .keyword .trueWord,
      .keyword .falseWord]
  | .type => BaseType.all.map .typeWord
  | .typeWord base => [.typeWord base]
  | .variableDeclaration => [.keyword .var]
  | .returnStatement => [.keyword .returnWord]
  | .ifStatement | .ifBlock => [.keyword .ifWord]
  | .elseBlock => [.keyword .elseWord]
  | .whileStatement => [.keyword .whileWord]
  | .statement | .statementInput =>
    [.keyword .var, .identifier, .keyword .returnWord, .keyword .ifWord, .keyword .whileWord]
  | .block => [.sign .openBrace]
  | .returnType => [.sign .arrow]
  | .declaration => [.keyword .external]
  | .definition => [.keyword .define]
  | .item | .program => [.keyword .external, .keyword .define]

def Nonterminal.readsNothing : Nonterminal → Bool
  | .parameters | .program | .trivia | .wordContinue | .reserved | .marker _ => true
  | _ => false

namespace Form

def firsts : Form → List Label
  | .empty => []
  | .terminal label => [label]
  | .call name => name.firsts
  | .seq first _ => first.firsts
  | .alt first second => first.firsts ++ second.firsts
  | .star body | .opt body => body.firsts

/-- Whether a form has to read something at its very beginning. -/
def isSolid : Form → Bool
  | .empty | .star _ | .opt _ => false
  | .terminal _ => true
  | .call name => !name.readsNothing
  | .seq first _ => first.isSolid
  | .alt first second => first.isSolid && second.isSolid

def leftCalls : Form → List Nonterminal
  | .empty | .terminal _ => []
  | .call name => [name]
  | .seq first _ => first.leftCalls
  | .alt first second => first.leftCalls ++ second.leftCalls
  | .star body | .opt body => body.leftCalls

end Form

/-- How many phrases may begin inside one another. -/
def Nonterminal.level : Nonterminal → Nat
  | .literal | .type | .call | .assignment | .ifStatement | .prototype | .parameter | .item => 1
  | .expression | .statement | .parameters | .program => 2
  | .expressionInput | .statementInput => 3
  | _ => 0

theorem Nonterminal.level_lt {name other : Nonterminal}
    (called : other ∈ (form name).leftCalls) : other.level < name.level := by
  revert other
  cases name with
  | typeWord type => exact nofun
  | marker label => exact nofun
  | _ => decide

theorem firsts_form (name : Nonterminal) : (form name).firsts ⊆ name.firsts := by
  cases name with
  | typeWord type => exact List.Subset.refl _
  | marker label => exact List.Subset.refl _
  | _ => decide

theorem isSolid_form {name : Nonterminal} (consumes : name.readsNothing = false) :
    (form name).isSolid = true := by
  revert consumes
  cases name with
  | typeWord type => exact fun _ => rfl
  | marker label => exact nofun
  | _ => decide

/-! ## Failures -/

theorem startsWith_of_reads {first : Lexeme} {rest : List Lexeme} {label other : Label}
    (reads : first.token.reads other = true) (apart : other.overlaps label = false) :
    startsWith label (first :: rest) = false := by
  rw [startsWith_cons]
  cases also : first.token.reads label with
  | false => rfl
  | true =>
      rw [Token.overlaps_of_reads reads also] at apart
      cases apart

def Fails (finish : Nat) (form : Form) (stream : List Lexeme) : Prop :=
  ∃ probes, Reads finish form stream none probes

def Succeeds (finish : Nat) (form : Form) (stream : List Lexeme) (reading : Reading) : Prop :=
  ∃ probes, Reads finish form stream (some reading) probes

variable {finish : Nat} {stream : List Lexeme}

theorem Form.fails (form : Form) (solid : form.isSolid = true)
    (misses : ∀ label ∈ form.firsts, startsWith label stream = false)
    (called : ∀ name ∈ form.leftCalls, name.readsNothing = false →
      (∀ label ∈ name.firsts, startsWith label stream = false) →
        Fails finish (.call name) stream) :
    Fails finish form stream := by
  induction form with
  | empty | star _ _ | opt _ _ => cases solid
  | terminal label => exact ⟨_, .miss (misses label (List.mem_singleton_self _))⟩
  | call name =>
      exact called name (List.mem_singleton_self _) (by simpa [isSolid] using solid) misses
  | seq first second firstInduction _ =>
      obtain ⟨probes, fails⟩ := firstInduction solid misses called
      exact ⟨probes, .seqFirstFails fails⟩
  | alt first second firstInduction secondInduction =>
      rw [isSolid, Bool.and_eq_true] at solid
      obtain ⟨probes, fails⟩ := firstInduction solid.1
        (fun label member => misses label (List.mem_append_left _ member))
        (fun name member => called name (List.mem_append_left _ member))
      obtain ⟨more, otherFails⟩ := secondInduction solid.2
        (fun label member => misses label (List.mem_append_right _ member))
        (fun name member => called name (List.mem_append_right _ member))
      exact ⟨probes ++ more, .altSecond fails otherFails⟩

/-- A phrase fails where none of its first labels stands. -/
theorem fails_of_misses (name : Nonterminal) (consumes : name.readsNothing = false)
    (misses : ∀ label ∈ name.firsts, startsWith label stream = false) :
    Fails finish (.call name) stream := by
  obtain ⟨probes, fails⟩ := (form name).fails (isSolid_form consumes)
    (fun label member => misses label (firsts_form name member))
    (fun other member otherConsumes otherMisses =>
      have _lower := Nonterminal.level_lt member
      fails_of_misses other otherConsumes otherMisses)
  exact ⟨probes, .callFails fails⟩
termination_by name.level

theorem fails_of_reads {name : Nonterminal} {first : Lexeme} {rest : List Lexeme}
    {label : Label} (consumes : name.readsNothing = false)
    (reads : first.token.reads label = true)
    (apart : name.firsts.all fun other => !label.overlaps other) :
    Fails finish (.call name) (first :: rest) :=
  fails_of_misses name consumes fun other member =>
    startsWith_of_reads reads (by simpa using List.all_eq_true.mp apart other member)

/-! ## Sentences -/

theorem Generates.exists_first {form : Form} {tokens : List Token}
    (generates : Generates form tokens) (solid : form.isSolid = true) :
    ∃ first rest label, tokens = first :: rest ∧ label ∈ form.firsts ∧
      first.reads label = true := by
  induction generates with
  | empty | starStop | starStep | optNone | optSome => cases solid
  | terminal accepted => exact ⟨_, [], _, rfl, List.mem_singleton_self _, accepted⟩
  | @call name tokens _ induction =>
      obtain ⟨first, rest, label, tokens_eq, member, accepted⟩ :=
        induction (isSolid_form (by simpa [Form.isSolid] using solid))
      exact ⟨first, rest, label, tokens_eq, firsts_form name member, accepted⟩
  | seq _ _ induction _ =>
      obtain ⟨first, rest, label, rfl, member, accepted⟩ := induction solid
      exact ⟨first, _, label, rfl, member, accepted⟩
  | altFirst _ induction =>
      rw [Form.isSolid, Bool.and_eq_true] at solid
      obtain ⟨first, rest, label, tokens_eq, member, accepted⟩ := induction solid.1
      exact ⟨first, rest, label, tokens_eq, List.mem_append_left _ member, accepted⟩
  | altSecond _ induction =>
      rw [Form.isSolid, Bool.and_eq_true] at solid
      obtain ⟨first, rest, label, tokens_eq, member, accepted⟩ := induction solid.2
      exact ⟨first, rest, label, tokens_eq, List.mem_append_right _ member, accepted⟩

end QubitLang.Language
