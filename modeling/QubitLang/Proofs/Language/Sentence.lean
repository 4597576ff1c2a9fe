import QubitLang.Language.Grammar
import QubitLang.Proofs.Language.Token

/-! The grammar of the language over tokens, and the sentences that it generates.
Trivia and the boundaries of words have no place here: they are settled once a
text is split. -/

namespace QubitLang.Language

/-! ## Forms -/

inductive Form where
  | empty
  | terminal (label : Label)
  | call (name : Nonterminal)
  | seq (first second : Form)
  | alt (first second : Form)
  | star (body : Form)
  | opt (body : Form)
  deriving DecidableEq, Repr

namespace Form

def sequence : List Form → Form
  | [] => .empty
  | [part] => part
  | part :: rest => .seq part (sequence rest)

def choice (first : Form) : List Form → Form
  | [] => first
  | second :: rest => .alt first (choice second rest)

def keyword (word : Keyword) : Form := .terminal (.keyword word)

def sign (mark : Sign) : Form := .terminal (.sign mark)

def avoids (label : Label) : Form → Bool
  | .empty | .call _ => true
  | .terminal other => other != label
  | .seq first second | .alt first second => first.avoids label && second.avoids label
  | .star body | .opt body => body.avoids label

end Form

/-- The form of a nonterminal. Those that only look at characters have none. -/
def form : Nonterminal → Form
  | .trivia | .wordContinue | .reserved | .marker _ => .empty
  | .identifier => .terminal .identifier
  | .number => .terminal .number
  | .qubit => .sign .percent
  | .trueLiteral => .keyword .trueWord
  | .falseLiteral => .keyword .falseWord
  | .expression =>
    .choice (.sequence [.sign .openParen, .call .expression, .sign .closeParen])
      [.call .call, .call .literal, .call .identifier]
  | .call =>
    .sequence
      [.call .identifier, .sign .openParen,
        .star (.sequence [.call .expression, .opt (.sign .comma)]), .sign .closeParen]
  | .literal =>
    .choice (.call .number) [.call .qubit, .call .trueLiteral, .call .falseLiteral]
  | .type =>
    .choice (.call (.typeWord .number)) [.call (.typeWord .qubit), .call (.typeWord .bit)]
  | .typeWord type => .terminal (.typeWord type)
  | .statement =>
    .choice
      (.sequence
        [.choice (.call .variableDeclaration)
          [.call .assignment, .call .call, .call .returnStatement], .sign .semicolon])
      [.call .ifStatement, .call .whileStatement]
  | .variableDeclaration =>
    .sequence
      [.keyword .var, .call .identifier, .sign .colon, .call .type, .sign .equals,
        .call .expression]
  | .assignment => .sequence [.call .identifier, .sign .equals, .call .expression]
  | .returnStatement => .sequence [.keyword .returnWord, .call .expression]
  | .ifStatement => .sequence [.call .ifBlock, .opt (.call .elseBlock)]
  | .ifBlock => .sequence [.keyword .ifWord, .call .expression, .call .block]
  | .elseBlock => .sequence [.keyword .elseWord, .call .block]
  | .whileStatement => .sequence [.keyword .whileWord, .call .expression, .call .block]
  | .block => .sequence [.sign .openBrace, .star (.call .statement), .sign .closeBrace]
  | .prototype =>
    .sequence
      [.call .identifier, .sign .openParen, .call .parameters, .sign .closeParen,
        .opt (.call .returnType)]
  | .parameters => .opt (.sequence [.call .parameter, .star (.call .parameter)])
  | .parameter =>
    .sequence [.call .identifier, .sign .colon, .call .type, .opt (.sign .comma)]
  | .returnType => .sequence [.sign .arrow, .call .type]
  | .declaration => .sequence [.keyword .external, .call .prototype, .sign .semicolon]
  | .definition => .sequence [.keyword .define, .call .prototype, .call .block]
  | .item => .choice (.call .declaration) [.call .definition]
  | .program => .star (.call .item)
  | .expressionInput => .call .expression
  | .statementInput => .call .statement

/-! ## Sentences -/

inductive Generates : Form → List Token → Prop where
  | empty : Generates .empty []
  | terminal {label : Label} {token : Token} (accepted : token.reads label = true) :
      Generates (.terminal label) [token]
  | call {name : Nonterminal} {tokens : List Token} (body : Generates (form name) tokens) :
      Generates (.call name) tokens
  | seq {left right : Form} {tokens more : List Token} (first : Generates left tokens)
      (second : Generates right more) : Generates (.seq left right) (tokens ++ more)
  | altFirst {left right : Form} {tokens : List Token} (first : Generates left tokens) :
      Generates (.alt left right) tokens
  | altSecond {left right : Form} {tokens : List Token} (second : Generates right tokens) :
      Generates (.alt left right) tokens
  | starStop {body : Form} : Generates (.star body) []
  | starStep {body : Form} {tokens more : List Token} (first : Generates body tokens)
      (others : Generates (.star body) more) : Generates (.star body) (tokens ++ more)
  | optNone {body : Form} : Generates (.opt body) []
  | optSome {body : Form} {tokens : List Token} (present : Generates body tokens) :
      Generates (.opt body) tokens

/-- After some tokens, the terminal of a label begins the rest of a sentence. -/
def Viable (start : Form) (tokens : List Token) (label : Label) : Prop :=
  ∃ more, Generates start (tokens ++ .any label :: more)

/-! ## Sentences by form -/

variable {label : Label} {name : Nonterminal} {left right body : Form} {tokens : List Token}

theorem generates_terminal_iff :
    Generates (.terminal label) tokens ↔ ∃ token, tokens = [token] ∧ token.reads label = true := by
  constructor
  · rintro ⟨⟩
    exact ⟨_, rfl, ‹_›⟩
  · rintro ⟨token, rfl, accepted⟩
    exact .terminal accepted

theorem generates_call_iff : Generates (.call name) tokens ↔ Generates (form name) tokens := by
  constructor
  · rintro ⟨⟩
    assumption
  · exact .call

theorem generates_seq_iff : Generates (.seq left right) tokens ↔
    ∃ first second, tokens = first ++ second ∧ Generates left first ∧ Generates right second := by
  constructor
  · rintro ⟨⟩
    exact ⟨_, _, rfl, ‹_›, ‹_›⟩
  · rintro ⟨first, second, rfl, leftSentence, rightSentence⟩
    exact .seq leftSentence rightSentence

theorem generates_alt_iff : Generates (.alt left right) tokens ↔
    Generates left tokens ∨ Generates right tokens := by
  constructor
  · rintro ⟨⟩
    · exact .inl ‹_›
    · exact .inr ‹_›
  · rintro (leftSentence | rightSentence)
    · exact .altFirst leftSentence
    · exact .altSecond rightSentence

theorem generates_star_iff : Generates (.star body) tokens ↔
    tokens = [] ∨ ∃ first more, tokens = first ++ more ∧ Generates body first ∧
      Generates (.star body) more := by
  constructor
  · rintro ⟨⟩
    · exact .inl rfl
    · exact .inr ⟨_, _, rfl, ‹_›, ‹_›⟩
  · rintro (rfl | ⟨first, more, rfl, firstSentence, moreSentences⟩)
    · exact .starStop
    · exact .starStep firstSentence moreSentences

theorem generates_opt_iff : Generates (.opt body) tokens ↔
    tokens = [] ∨ Generates body tokens := by
  constructor
  · rintro ⟨⟩
    · exact .inl rfl
    · exact .inr ‹_›
  · rintro (rfl | sentence)
    · exact .optNone
    · exact .optSome sentence

/-! ## Tokens of sentences -/

theorem append_eq_append_cons {α : Type} {left right before after : List α} {element : α}
    (equal : left ++ right = before ++ element :: after) :
    (∃ middle, left = before ++ element :: middle ∧ after = middle ++ right) ∨
      ∃ middle, before = left ++ middle ∧ right = middle ++ element :: after := by
  rcases List.append_eq_append_iff.mp equal with ⟨middle, before_eq, right_eq⟩ |
    ⟨middle, left_eq, rest_eq⟩
  · exact .inr ⟨middle, before_eq, right_eq⟩
  · rcases List.cons_eq_append_iff.mp rest_eq with ⟨rfl, right_eq⟩ | ⟨middle, rfl, after_eq⟩
    · rw [List.append_nil] at left_eq
      exact .inr ⟨[], by rw [left_eq, List.append_nil], right_eq⟩
    · exact .inl ⟨middle, left_eq, after_eq⟩

theorem Generates.exists_viable {form : Form} {tokens before after : List Token} {token : Token}
    (generates : Generates form tokens) (tokens_eq : tokens = before ++ token :: after) :
    ∃ label, token.reads label = true ∧ Viable form before label := by
  induction generates generalizing before after with
  | empty | starStop | optNone => simp at tokens_eq
  | @terminal label found accepted =>
      obtain ⟨rfl, rfl, rfl⟩ : before = [] ∧ found = token ∧ after = [] := by
        cases before <;> simp_all
      exact ⟨label, accepted, [], .terminal (by simp [Token.reads])⟩
  | call _ induction =>
      obtain ⟨label, accepted, more, body⟩ := induction tokens_eq
      exact ⟨label, accepted, more, .call body⟩
  | @seq _ _ left right first second firstInduction secondInduction =>
      rcases append_eq_append_cons tokens_eq with ⟨middle, left_eq, _⟩ | ⟨middle, rfl, right_eq⟩
      · obtain ⟨label, accepted, more, body⟩ := firstInduction left_eq
        refine ⟨label, accepted, more ++ right, ?_⟩
        rw [← List.cons_append, ← List.append_assoc]
        exact .seq body second
      · obtain ⟨label, accepted, more, body⟩ := secondInduction right_eq
        refine ⟨label, accepted, more, ?_⟩
        rw [List.append_assoc]
        exact .seq first body
  | altFirst _ induction =>
      obtain ⟨label, accepted, more, body⟩ := induction tokens_eq
      exact ⟨label, accepted, more, .altFirst body⟩
  | altSecond _ induction =>
      obtain ⟨label, accepted, more, body⟩ := induction tokens_eq
      exact ⟨label, accepted, more, .altSecond body⟩
  | @starStep _ left right first others firstInduction othersInduction =>
      rcases append_eq_append_cons tokens_eq with ⟨middle, left_eq, _⟩ | ⟨middle, rfl, right_eq⟩
      · obtain ⟨label, accepted, more, body⟩ := firstInduction left_eq
        refine ⟨label, accepted, more ++ right, ?_⟩
        rw [← List.cons_append, ← List.append_assoc]
        exact .starStep body others
      · obtain ⟨label, accepted, more, body⟩ := othersInduction right_eq
        refine ⟨label, accepted, more, ?_⟩
        rw [List.append_assoc]
        exact .starStep first body
  | optSome _ induction =>
      obtain ⟨label, accepted, more, body⟩ := induction tokens_eq
      exact ⟨label, accepted, more, .optSome body⟩

/-! ## Every form has a sentence -/

/-- The nonterminals of a sentence that takes the last alternative everywhere and
nothing that may be left out. -/
def Form.needs : Form → List Nonterminal
  | .empty | .terminal _ | .star _ | .opt _ => []
  | .call name => [name]
  | .seq first second => first.needs ++ second.needs
  | .alt _ second => second.needs

def Nonterminal.height : Nonterminal → Nat
  | .expression | .call | .literal | .type | .block | .parameters => 1
  | .assignment | .returnStatement | .variableDeclaration | .whileStatement | .ifBlock
  | .elseBlock | .returnType | .parameter | .prototype | .expressionInput => 2
  | .statement | .ifStatement | .definition | .declaration => 3
  | .item | .statementInput => 4
  | _ => 0

theorem Nonterminal.height_lt {name other : Nonterminal} (needed : other ∈ (form name).needs) :
    other.height < name.height := by
  revert other
  cases name with
  | typeWord type => simp [form, Form.needs]
  | marker label => simp [form, Form.needs]
  | _ => decide

theorem Form.exists_generates (form : Form)
    (called : ∀ name ∈ form.needs, ∃ tokens, Generates (Language.form name) tokens) :
    ∃ tokens, Generates form tokens := by
  induction form with
  | empty => exact ⟨[], .empty⟩
  | terminal label => exact ⟨[.any label], .terminal (by simp [Token.reads])⟩
  | call name =>
      obtain ⟨tokens, sentence⟩ := called name (List.mem_singleton_self name)
      exact ⟨tokens, .call sentence⟩
  | seq first second firstInduction secondInduction =>
      obtain ⟨tokens, firstSentence⟩ := firstInduction fun name member =>
        called name (List.mem_append_left _ member)
      obtain ⟨more, secondSentence⟩ := secondInduction fun name member =>
        called name (List.mem_append_right _ member)
      exact ⟨tokens ++ more, .seq firstSentence secondSentence⟩
  | alt first second firstInduction secondInduction =>
      obtain ⟨tokens, sentence⟩ := secondInduction called
      exact ⟨tokens, .altSecond sentence⟩
  | star body induction => exact ⟨[], .starStop⟩
  | opt body induction => exact ⟨[], .optNone⟩

/-- Every nonterminal has a sentence, so that whatever began one can be finished. -/
theorem exists_generates_form (name : Nonterminal) : ∃ tokens, Generates (form name) tokens :=
  (form name).exists_generates fun other needed =>
    have _lower := Nonterminal.height_lt needed
    exists_generates_form other
termination_by name.height

theorem exists_generates (form : Form) : ∃ tokens, Generates form tokens :=
  form.exists_generates fun name _ => exists_generates_form name

end QubitLang.Language
