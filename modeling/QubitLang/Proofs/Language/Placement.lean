import QubitLang.Proofs.Language.Indices
import QubitLang.Proofs.Language.Locality
import QubitLang.Proofs.Language.Matching
import QubitLang.Proofs.Render.Canonical

/-! Where the nodes of a match tree stand in the source text. Each one begins with a token
and ends with one, inside the node that it is part of and behind those in front of it. Only
an empty list of parameters has no token of its own: it stands at the parenthesis that
closes it. -/

namespace QubitLang

open QubitLang.Language

/-! ## Lexemes in order -/

def Spaced (finish : Nat) : List Lexeme → Prop
  | [] => True
  | first :: rest => first.span.start < first.span.stop ∧
      first.span.stop ≤ Lexeme.startOf finish rest ∧ Spaced finish rest

theorem Splits.spaced {offset finish : Nat} {text remainder : Text} {lexemes : List Lexeme}
    (splits : Splits offset text lexemes finish remainder) : Spaced finish lexemes := by
  induction lexemes generalizing offset text with
  | nil => trivial
  | cons first rest induction =>
      have ⟨_, _, _, _, later⟩ := Splits.cons_iff.mp splits
      exact ⟨splits.spelling_pos, later.offset_le_startOf, induction later⟩

theorem Spaced.of_append {finish : Nat} {taken rest : List Lexeme}
    (spaced : Spaced finish (taken ++ rest)) : Spaced finish rest := by
  induction taken with
  | nil => exact spaced
  | cons first taken induction => exact induction spaced.2.2

theorem Spaced.bounds {finish : Nat} {taken rest : List Lexeme} {last : Span}
    (ends : EndsAt taken last) (spaced : Spaced finish (taken ++ rest)) :
    Lexeme.startOf finish (taken ++ rest) ≤ last.stop ∧
      last.stop ≤ Lexeme.startOf finish rest := by
  induction ends with
  | single lexeme => exact ⟨Nat.le_of_lt spaced.1, spaced.2.1⟩
  | cons first _ induction =>
      have ⟨startsBefore, endsBefore⟩ := induction spaced.2.2
      apply And.intro _ endsBefore
      exact Nat.le_trans (Nat.le_of_lt spaced.1) (Nat.le_trans spaced.2.1 startsBefore)

theorem Splits.text_eq_spelling {source remainder : Text} {lexemes : List Lexeme} {finish : Nat}
    (splits : Splits 0 source lexemes finish remainder) {lexeme : Lexeme}
    (member : lexeme ∈ lexemes) : lexeme.span.text source = lexeme.token.spelling := by
  have ⟨before, after, lexemes_eq⟩ := List.append_of_mem member
  subst lexemes_eq
  have ⟨middle, inFront, aligned, behind⟩ := Splits.exists_cut splits
  have ⟨consumed, source_eq, start_eq⟩ := inFront.exists_eq_append
  have ⟨_, stop_eq, rest, found, _⟩ := Splits.cons_iff.mp behind
  have middle_eq := (Scan.isLongestAt_of_token? found).text_eq
  have whole := Lexical.trivia_append false middle
  rw [aligned, List.nil_append, middle_eq] at whole
  rw [Nat.zero_add] at start_eq
  change lexeme.span.start = consumed.length at start_eq
  rw [Span.text, Text.slice_natCast, source_eq, ← whole, stop_eq, start_eq, ← List.append_assoc,
    ← List.length_append, List.take_left, List.drop_left]

/-! ## Placed nodes -/

/-- A span reaches over some of the lexemes, from the start of the first one to the end of
the last one. -/
def Span.ReachesOver (span : Span) (lexemes : List Lexeme) : Prop :=
  ∃ first others last, first :: others <:+: lexemes ∧ EndsAt (first :: others) last ∧
    span.start = first.span.start ∧ span.stop = last.stop

/-- Nodes of a match tree one behind the other, from one offset to another: each reaches
over some lexemes, and so do the nodes inside it, between its ends. A token has the text
inside its span. An empty list of parameters stands at a closing parenthesis. -/
inductive Node.Placed (source : Text) (lexemes : List Lexeme) : Nat → Nat → List Node → Prop where
  | nil {lower upper : Nat} (ordered : lower ≤ upper) : Placed source lexemes lower upper []
  | token {lower upper : Nat} {rule : String} {span : Span} {rest : List Node}
      (ordered : lower ≤ span.start) (reaches : span.ReachesOver lexemes)
      (later : Placed source lexemes span.stop upper rest) :
      Placed source lexemes lower upper
        (.token rule (.between span.start span.stop) (span.text source) :: rest)
  | tree {lower upper : Nat} {rule : String} {span : Span} {children rest : List Node}
      (ordered : lower ≤ span.start) (reaches : span.ReachesOver lexemes)
      (inside : Placed source lexemes span.start span.stop children)
      (later : Placed source lexemes span.stop upper rest) :
      Placed source lexemes lower upper
        (.tree rule (some (span.start, span.stop)) children :: rest)
  | noParameters {lower upper : Nat} {closing : Lexeme} {rest : List Node}
      (ordered : lower ≤ closing.span.start) (member : closing ∈ lexemes)
      (closes : closing.token = .sign .closeParen)
      (later : Placed source lexemes closing.span.start upper rest) :
      Placed source lexemes lower upper
        (.tree "arg_decls" (some (closing.span.start, closing.span.start)) [] :: rest)

namespace Node.Placed

variable {source : Text} {lexemes : List Lexeme} {lower middle upper : Nat} {nodes more : List Node}

theorem from_le (ordered : lower ≤ middle) (placed : Placed source lexemes middle upper nodes) :
    Placed source lexemes lower upper nodes := by
  cases placed with
  | nil within => exact .nil (Nat.le_trans ordered within)
  | token within reaches later => exact .token (Nat.le_trans ordered within) reaches later
  | tree within reaches inside later =>
      exact .tree (Nat.le_trans ordered within) reaches inside later
  | noParameters within member closes later =>
      exact .noParameters (Nat.le_trans ordered within) member closes later

theorem append (placed : Placed source lexemes lower middle nodes)
    (behind : Placed source lexemes middle upper more) :
    Placed source lexemes lower upper (nodes ++ more) := by
  induction placed with
  | nil within => exact behind.from_le within
  | token within reaches _ induction => exact .token within reaches (induction behind)
  | tree within reaches inside _ _ induction => exact .tree within reaches inside (induction behind)
  | noParameters within member closes _ induction =>
      exact .noParameters within member closes (induction behind)

end Node.Placed

/-! ## Forms that close their parameters -/

namespace Language

namespace Form

def startsClosing : Form → Bool
  | .seq (.terminal (.sign .closeParen)) _ => true
  | _ => false

def isParameters : Form → Bool
  | .call .parameters => true
  | _ => false

/-- Whether each list of parameters inside a form has its closing parenthesis behind it. -/
def closesParameters : Form → Bool
  | .empty | .terminal _ => true
  | .call name => name != .program
  | .seq first second => first.closesParameters && second.closesParameters &&
      !second.isParameters && (!first.isParameters || second.startsClosing)
  | .alt first second => first.closesParameters && second.closesParameters &&
      !first.isParameters && !second.isParameters
  | .star body | .opt body => body.closesParameters && !body.isParameters

theorem startsClosing_iff {form : Form} :
    form.startsClosing = true ↔ ∃ more, form = .seq (.sign .closeParen) more := by
  constructor
  · intro closing
    unfold startsClosing at closing
    split at closing
    · exact ⟨_, rfl⟩
    · cases closing
  · intro ⟨more, form_eq⟩
    rw [form_eq]
    rfl

theorem isParameters_iff {form : Form} : form.isParameters = true ↔ form = .call .parameters := by
  constructor
  · intro parameters
    unfold isParameters at parameters
    split at parameters
    · rfl
    · cases parameters
  · intro form_eq
    rw [form_eq]
    rfl

end Form

theorem closesParameters_form (name : Nonterminal) :
    (form name).closesParameters = true ∧ (form name).isParameters = false := by
  cases name with
  | typeWord type => exact ⟨rfl, rfl⟩
  | marker label => exact ⟨rfl, rfl⟩
  | _ => decide

/-! ## Nodes of readings -/

def Reading.noParameters (finish : Nat) (stream : List Lexeme) : Reading where
  rest := stream
  last := none
  nodes := [.tree "arg_decls"
    (some (Lexeme.startOf finish stream, Lexeme.startOf finish stream)) []]

/-- The nodes of what was read are placed where it was read. Where nothing was read there
are none. -/
inductive PlacesNodes (source : Text) (lexemes : List Lexeme) (finish : Nat)
    (stream : List Lexeme) : Reading → Prop where
  | nothing : PlacesNodes source lexemes finish stream (.nothing stream)
  | something {taken rest : List Lexeme} {last : Span} {nodes : List Node}
      (stream_eq : stream = taken ++ rest) (ends : EndsAt taken last)
      (placed : Node.Placed source lexemes (Lexeme.startOf finish stream) last.stop nodes) :
      PlacesNodes source lexemes finish stream ⟨rest, some last, nodes⟩

variable {source : Text} {lexemes stream : List Lexeme} {finish : Nat} {form : Form}
  {outcome : Option Reading} {probes : List Probe} {reading later : Reading}

namespace PlacesNodes

theorem spaced_rest (places : PlacesNodes source lexemes finish stream reading)
    (spaced : Spaced finish stream) : Spaced finish reading.rest := by
  cases places with
  | nothing => exact spaced
  | something stream_eq _ _ => exact (stream_eq ▸ spaced).of_append

theorem rest_suffix (places : PlacesNodes source lexemes finish stream reading)
    (inside : stream <:+ lexemes) : reading.rest <:+ lexemes := by
  cases places with
  | nothing => exact inside
  | something stream_eq _ _ => exact (stream_eq ▸ List.suffix_append _ _).trans inside

theorem followedBy (places : PlacesNodes source lexemes finish stream reading)
    (behind : PlacesNodes source lexemes finish reading.rest later)
    (spaced : Spaced finish stream) :
    PlacesNodes source lexemes finish stream (reading.followedBy later) := by
  cases places with
  | nothing =>
      cases behind with
      | nothing => exact .nothing
      | something stream_eq ends placed => exact .something stream_eq ends placed
  | @something taken rest last nodes stream_eq ends placed =>
      subst stream_eq
      have ⟨_, inOrder⟩ := spaced.bounds ends
      cases behind with
      | nothing =>
          have whole := PlacesNodes.something rfl ends placed
          rwa [← List.append_nil nodes] at whole
      | @something more _ _ _ rest_eq moreEnds morePlaced =>
          have allPlaced := placed.append (morePlaced.from_le inOrder)
          apply PlacesNodes.something _ (moreEnds.append taken) allPlaced
          rw [List.append_assoc, ← rest_eq]

end PlacesNodes

/-- Behind an empty list of parameters, the closing parenthesis is read. -/
theorem PlacesNodes.behind_noParameters {more : Form}
    (lexical : ∀ lexeme ∈ lexemes, lexeme.token.isLexical = true) (inside : stream <:+ lexemes)
    (reads : Reads finish (.seq (.sign .closeParen) more) stream (some later) probes)
    (places : PlacesNodes source lexemes finish stream later) :
    PlacesNodes source lexemes finish stream
      ((Reading.noParameters finish stream).followedBy later) := by
  have ⟨closing, rest, stream_eq, accepted⟩ : ∃ closing rest, stream = closing :: rest ∧
      closing.token.reads (.sign .closeParen) = true := by
    cases reads with
    | seq first _ =>
        cases first with
        | hit accepted => exact ⟨_, _, rfl, accepted⟩
  subst stream_eq
  have member : closing ∈ lexemes := inside.subset List.mem_cons_self
  have closes := Token.eq_sign_of_reads (lexical closing member) accepted (by decide)
  have read := reads.last_isSome rfl later rfl
  cases places with
  | nothing => cases read
  | something taken_eq ends placed =>
      exact .something taken_eq ends (.noParameters (Nat.le_refl _) member closes placed)

theorem PlacesNodes.asToken {name : Nonterminal} {rule : String}
    (spelled : ∀ lexeme ∈ lexemes, lexeme.span.text source = lexeme.token.spelling)
    (inside : stream <:+ lexemes) (kind : (definition name).1 = .token rule)
    (body : Reads finish (Language.form name) stream (some reading) probes) :
    PlacesNodes source lexemes finish stream (reading.asRule finish name stream) := by
  have ⟨label, form_eq, _⟩ := exists_label_of_token kind
  rw [form_eq] at body
  cases body with
  | @hit _ first rest _ =>
      have alone : [first] <:+: lexemes :=
        (List.prefix_append [first] rest).isInfix.trans inside.isInfix
      have placed : Node.Placed source lexemes first.span.start first.span.stop
          [.token rule (.between first.span.start first.span.stop) (first.span.text source)] :=
        .token (Nat.le_refl _) ⟨first, [], first.span, alone, .single first, rfl, rfl⟩
          (.nil (Nat.le_refl _))
      rw [spelled first (alone.subset (List.mem_singleton_self first))] at placed
      have span_eq : Span.upTo (Lexeme.startOf finish (first :: rest)) (some first.span) =
          first.span := Span.upTo_self first.span
      rw [Reading.asRule, kind, span_eq]
      exact @something _ _ _ _ [first] rest first.span _ rfl (.single first) placed

theorem PlacesNodes.asTree {name : Nonterminal} {rule : String} (spaced : Spaced finish stream)
    (inside : stream <:+ lexemes) (inner : name ≠ .program)
    (kind : (definition name).1 = .tree rule)
    (body : Reads finish (Language.form name) stream (some reading) probes)
    (places : PlacesNodes source lexemes finish stream reading) :
    PlacesNodes source lexemes finish stream (reading.asRule finish name stream) ∨
      name = .parameters ∧ reading.asRule finish name stream = .noParameters finish stream := by
  cases places with
  | nothing =>
      have nullable : (Language.form name).isNullable = true := by
        cases consumes : (Language.form name).isNullable with
        | true => rfl
        | false => cases body.last_isSome consumes _ rfl
      have empty := readsNothing_of_isNullable nullable
      cases name with
      | parameters =>
          have span_eq : Span.upTo (Lexeme.startOf finish stream) none =
              Span.point (Lexeme.startOf finish stream) := Span.eq_of_offsets rfl (Nat.max_self _)
          apply Or.inr
          rw [Reading.asRule, Reading.nothing, span_eq]
          exact ⟨rfl, rfl⟩
      | program => exact absurd rfl inner
      | trivia | wordContinue | reserved | marker => cases kind
      | _ => cases empty
  | @something taken rest last nodes stream_eq ends placed =>
      subst stream_eq
      obtain ⟨startsBefore, _⟩ := spaced.bounds ends
      obtain ⟨first, more, taken_eq⟩ := ends.exists_cons
      subst taken_eq
      let span := Span.upTo first.span.start (some last)
      have stop_eq : span.stop = last.stop := Nat.max_eq_right startsBefore
      have isInfix : first :: more <:+: lexemes :=
        (List.prefix_append (first :: more) rest).isInfix.trans inside.isInfix
      have reaches : span.ReachesOver lexemes := ⟨first, more, last, isInfix, ends, rfl, stop_eq⟩
      rw [← stop_eq] at placed
      rw [Reading.asRule, kind]
      exact .inl (.something rfl ends
        (.tree (Nat.le_refl _) reaches placed (.nil (Nat.le_of_eq stop_eq))))

theorem PlacesNodes.asRule {name : Nonterminal}
    (spelled : ∀ lexeme ∈ lexemes, lexeme.span.text source = lexeme.token.spelling)
    (spaced : Spaced finish stream) (inside : stream <:+ lexemes) (inner : name ≠ .program)
    (body : Reads finish (Language.form name) stream (some reading) probes)
    (places : PlacesNodes source lexemes finish stream reading) :
    PlacesNodes source lexemes finish stream (reading.asRule finish name stream) ∨
      name = .parameters ∧ reading.asRule finish name stream = .noParameters finish stream := by
  cases kind : (definition name).1 with
  | tree rule => exact places.asTree spaced inside inner kind body
  | token rule => exact .inl (.asToken spelled inside kind body)
  | silent | entry | marker =>
      rw [Reading.asRule, kind]
      exact .inl places

theorem PlacesNodes.of_or
    (either : PlacesNodes source lexemes finish stream reading ∨
      form = .call .parameters ∧ reading = .noParameters finish stream)
    (other : form.isParameters = false) : PlacesNodes source lexemes finish stream reading := by
  rcases either with places | ⟨form_eq, _⟩
  · exact places
  · rw [Form.isParameters_iff.mpr form_eq] at other
    cases other

/-- All that is read of a form that closes its parameters is placed where it was read. -/
theorem Reads.placesNodes (reads : Reads finish form stream outcome probes)
    (spelled : ∀ lexeme ∈ lexemes, lexeme.span.text source = lexeme.token.spelling)
    (lexical : ∀ lexeme ∈ lexemes, lexeme.token.isLexical = true)
    (closes : form.closesParameters = true) (spaced : Spaced finish stream)
    (inside : stream <:+ lexemes) : ∀ reading ∈ outcome,
      PlacesNodes source lexemes finish stream reading ∨
        form = .call .parameters ∧ reading = .noParameters finish stream := by
  induction reads with
  | miss | callFails | seqFirstFails | seqSecondFails => exact nofun
  | empty | starStop | optNone =>
      intro _ member
      cases member
      exact .inl .nothing
  | @hit _ first rest _ =>
      intro _ member
      cases member
      exact .inl (@PlacesNodes.something _ _ _ _ [first] rest first.span _ rfl (.single first)
        (.nil (Nat.le_of_lt spaced.1)))
  | @call name _ reading _ body induction =>
      intro _ member
      cases member
      have ⟨bodyCloses, otherBody⟩ := closesParameters_form name
      have places := PlacesNodes.of_or (induction bodyCloses spaced inside reading rfl) otherBody
      rcases places.asRule spelled spaced inside (bne_iff_ne.mp closes) body with placed | empty
      · exact .inl placed
      · exact .inr ⟨congrArg Form.call empty.1, empty.2⟩
  | @seq left right stream reading later _ _ first second firstInduction secondInduction =>
      intro _ member
      cases member
      simp only [Form.closesParameters, Bool.and_eq_true, Bool.not_eq_true', Bool.or_eq_true]
        at closes
      have ⟨⟨⟨firstCloses, secondCloses⟩, otherSecond⟩, closesFirst⟩ := closes
      rcases firstInduction firstCloses spaced inside reading rfl with
        places | ⟨form_eq, reading_eq⟩
      · have spacedRest := places.spaced_rest spaced
        have insideRest := places.rest_suffix inside
        have behind := secondInduction secondCloses spacedRest insideRest later rfl
        exact .inl (places.followedBy (.of_or behind otherSecond) spaced)
      · subst reading_eq
        have closing := closesFirst.resolve_left (by rw [form_eq]; exact nofun)
        have ⟨_, right_eq⟩ := Form.startsClosing_iff.mp closing
        have secondPlaces := secondInduction secondCloses spaced inside later rfl
        have behind := PlacesNodes.of_or secondPlaces otherSecond
        exact .inl (behind.behind_noParameters lexical inside (right_eq ▸ second))
  | altFirst _ induction =>
      intro reading member
      simp only [Form.closesParameters, Bool.and_eq_true, Bool.not_eq_true'] at closes
      have ⟨⟨⟨firstCloses, _⟩, otherFirst⟩, _⟩ := closes
      exact .inl (.of_or (induction firstCloses spaced inside reading member) otherFirst)
  | altSecond _ _ _ induction =>
      intro reading member
      simp only [Form.closesParameters, Bool.and_eq_true, Bool.not_eq_true'] at closes
      have ⟨⟨⟨_, secondCloses⟩, _⟩, otherSecond⟩ := closes
      exact .inl (.of_or (induction secondCloses spaced inside reading member) otherSecond)
  | @starStep body stream reading later _ _ _ _ firstInduction othersInduction =>
      intro _ member
      cases member
      have bodyCloses := closes
      simp only [Form.closesParameters, Bool.and_eq_true, Bool.not_eq_true'] at bodyCloses
      have firstPlaces := firstInduction bodyCloses.1 spaced inside reading rfl
      have places := PlacesNodes.of_or firstPlaces bodyCloses.2
      have spacedRest := places.spaced_rest spaced
      have insideRest := places.rest_suffix inside
      have behind := PlacesNodes.of_or (othersInduction closes spacedRest insideRest later rfl) rfl
      exact .inl (places.followedBy behind spaced)
  | optSome _ induction =>
      intro reading member
      simp only [Form.closesParameters, Bool.and_eq_true, Bool.not_eq_true'] at closes
      exact .inl (.of_or (induction closes.1 spaced inside reading member) closes.2)

/-! ## Match trees -/

theorem exists_placed_of_tree {options : Options} {node : Node}
    (found : (Parse.tree source options).outcome = .ok node) :
    ∃ lexemes children, SplitsInto source lexemes ∧
      node = .tree "program" (some (0, source.length)) children ∧
      Node.Placed source lexemes 0 source.length children := by
  obtain ⟨value, matched, assembled⟩ := Report.andThen_eq_ok_iff.mp found
  obtain ⟨lexemes, reading, values, lexed, ⟨_, reads⟩, whole, value_eq, nodes_eq⟩ :=
    exists_reading_of_matchSource rfl matched
  have splits := lexed.splits
  have places := PlacesNodes.of_or (reads.placesNodes (fun _ => splits.text_eq_spelling)
    splits.isLexical rfl splits.spaced (List.suffix_refl _) reading rfl) rfl
  refine ⟨lexemes, reading.nodes, splits, ?_, ?_⟩
  · subst value_eq
    simp only [entryValue, Option.bind_some, Node.ofValue?, nodes_eq, Option.map_some] at assembled
    cases assembled
    rfl
  · cases places with
    | nothing => exact .nil (Nat.zero_le _)
    | something stream_eq ends placed =>
        obtain ⟨_, within⟩ := (stream_eq ▸ splits.spaced).bounds ends
        cases whole
        have whole := (placed.from_le (Nat.zero_le _)).append (.nil within)
        rwa [List.append_nil] at whole

end Language

end QubitLang
