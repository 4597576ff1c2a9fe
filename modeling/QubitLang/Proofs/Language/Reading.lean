import QubitLang.Node
import QubitLang.Proofs.Language.Sentence
import QubitLang.Proofs.Language.Splitting

/-! Reading lexemes by committed choice: an alternative is left only if it fails,
and repetitions and options take what they can. This is how the grammar is
matched, with trivia and memory left out. -/

namespace QubitLang.Language

/-! ## Readings -/

structure Reading where
  rest : List Lexeme
  last : Option Span
  nodes : List Node

def nodesOf (kind : Peg.RuleKind) (span : Span) (text : Text) (nodes : List Node) :
    List Node :=
  match kind with
  | .tree name => [.tree name (some (span.start, span.stop)) nodes]
  | .token name => [.token name (.between span.start span.stop) text]
  | .silent | .entry | .marker _ => nodes

def firstSpelling : List Lexeme → Text
  | [] => []
  | first :: _ => first.token.spelling

namespace Reading

def nothing (stream : List Lexeme) : Reading := ⟨stream, none, []⟩

def followedBy (reading later : Reading) : Reading where
  rest := later.rest
  last := later.last.or reading.last
  nodes := reading.nodes ++ later.nodes

theorem followedBy_assoc (reading later last : Reading) :
    (reading.followedBy later).followedBy last = reading.followedBy (later.followedBy last) := by
  simp [followedBy, Option.or_assoc]

/-- What was read is the body of a rule, which was called at `stream`. -/
def asRule (finish : Nat) (name : Nonterminal) (stream : List Lexeme) (reading : Reading) :
    Reading :=
  { reading with
    nodes := nodesOf (definition name).1
      (Span.upTo (Lexeme.startOf finish stream) reading.last) (firstSpelling stream)
      reading.nodes }

end Reading

abbrev Probe := Label × List Lexeme

def Probe.hits : Probe → Bool
  | (label, stream) => startsWith label stream

/-- Reading a form at the head of some lexemes, whose text ends at `finish`: the
outcome, and all terminals that were tried. -/
inductive Reads (finish : Nat) : Form → List Lexeme → Option Reading → List Probe → Prop where
  | empty {stream : List Lexeme} : Reads finish .empty stream (some (.nothing stream)) []
  | hit {label : Label} {first : Lexeme} {rest : List Lexeme}
      (accepted : first.token.reads label = true) :
      Reads finish (.terminal label) (first :: rest) (some ⟨rest, some first.span, []⟩)
        [(label, first :: rest)]
  | miss {label : Label} {stream : List Lexeme}
      (refused : Probe.hits (label, stream) = false) :
      Reads finish (.terminal label) stream none [(label, stream)]
  | call {name : Nonterminal} {stream : List Lexeme} {reading : Reading}
      {probes : List Probe} (body : Reads finish (form name) stream (some reading) probes) :
      Reads finish (.call name) stream (some (reading.asRule finish name stream)) probes
  | callFails {name : Nonterminal} {stream : List Lexeme} {probes : List Probe}
      (body : Reads finish (form name) stream none probes) :
      Reads finish (.call name) stream none probes
  | seq {left right : Form} {stream : List Lexeme} {reading later : Reading}
      {probes more : List Probe} (first : Reads finish left stream (some reading) probes)
      (second : Reads finish right reading.rest (some later) more) :
      Reads finish (.seq left right) stream (some (reading.followedBy later)) (probes ++ more)
  | seqFirstFails {left right : Form} {stream : List Lexeme} {probes : List Probe}
      (first : Reads finish left stream none probes) :
      Reads finish (.seq left right) stream none probes
  | seqSecondFails {left right : Form} {stream : List Lexeme} {reading : Reading}
      {probes more : List Probe} (first : Reads finish left stream (some reading) probes)
      (second : Reads finish right reading.rest none more) :
      Reads finish (.seq left right) stream none (probes ++ more)
  | altFirst {left right : Form} {stream : List Lexeme} {reading : Reading}
      {probes : List Probe} (first : Reads finish left stream (some reading) probes) :
      Reads finish (.alt left right) stream (some reading) probes
  | altSecond {left right : Form} {stream : List Lexeme} {outcome : Option Reading}
      {probes more : List Probe} (first : Reads finish left stream none probes)
      (second : Reads finish right stream outcome more) :
      Reads finish (.alt left right) stream outcome (probes ++ more)
  | starStop {body : Form} {stream : List Lexeme} {probes : List Probe}
      (last : Reads finish body stream none probes) :
      Reads finish (.star body) stream (some (.nothing stream)) probes
  | starStep {body : Form} {stream : List Lexeme} {reading later : Reading}
      {probes more : List Probe} (first : Reads finish body stream (some reading) probes)
      (others : Reads finish (.star body) reading.rest (some later) more) :
      Reads finish (.star body) stream (some (reading.followedBy later)) (probes ++ more)
  | optSome {body : Form} {stream : List Lexeme} {reading : Reading} {probes : List Probe}
      (present : Reads finish body stream (some reading) probes) :
      Reads finish (.opt body) stream (some reading) probes
  | optNone {body : Form} {stream : List Lexeme} {probes : List Probe}
      (absent : Reads finish body stream none probes) :
      Reads finish (.opt body) stream (some (.nothing stream)) probes

namespace Reads

variable {finish : Nat} {form : Form} {stream : List Lexeme} {outcome outcome' : Option Reading}
  {probes probes' : List Probe} {reading : Reading}

theorem unique (left : Reads finish form stream outcome probes)
    (right : Reads finish form stream outcome' probes') :
    outcome = outcome' ∧ probes = probes' := by
  induction left generalizing outcome' probes' with
  | empty =>
      cases right
      exact ⟨rfl, rfl⟩
  | hit accepted =>
      cases right with
      | hit _ => exact ⟨rfl, rfl⟩
      | miss refused => rw [Probe.hits, startsWith_cons, accepted] at refused; cases refused
  | miss refused =>
      cases right with
      | hit accepted => rw [Probe.hits, startsWith_cons, accepted] at refused; cases refused
      | miss _ => exact ⟨rfl, rfl⟩
  | call _ induction =>
      cases right with
      | call body => obtain ⟨⟨⟩, rfl⟩ := induction body; exact ⟨rfl, rfl⟩
      | callFails body => cases (induction body).1
  | callFails _ induction =>
      cases right with
      | call body => cases (induction body).1
      | callFails body => exact induction body
  | seq _ _ firstInduction secondInduction =>
      cases right with
      | seq first second =>
          obtain ⟨⟨⟩, rfl⟩ := firstInduction first
          obtain ⟨⟨⟩, rfl⟩ := secondInduction second
          exact ⟨rfl, rfl⟩
      | seqFirstFails first => cases (firstInduction first).1
      | seqSecondFails first second =>
          obtain ⟨⟨⟩, rfl⟩ := firstInduction first
          cases (secondInduction second).1
  | seqFirstFails _ induction =>
      cases right with
      | seq first _ => cases (induction first).1
      | seqFirstFails first => exact induction first
      | seqSecondFails first _ => cases (induction first).1
  | seqSecondFails _ _ firstInduction secondInduction =>
      cases right with
      | seq first second =>
          obtain ⟨⟨⟩, rfl⟩ := firstInduction first
          cases (secondInduction second).1
      | seqFirstFails first => cases (firstInduction first).1
      | seqSecondFails first second =>
          obtain ⟨⟨⟩, rfl⟩ := firstInduction first
          obtain ⟨_, rfl⟩ := secondInduction second
          exact ⟨rfl, rfl⟩
  | altFirst _ induction =>
      cases right with
      | altFirst first => exact induction first
      | altSecond first _ => cases (induction first).1
  | altSecond _ _ firstInduction secondInduction =>
      cases right with
      | altFirst first => cases (firstInduction first).1
      | altSecond first second =>
          obtain ⟨_, rfl⟩ := firstInduction first
          obtain ⟨rfl, rfl⟩ := secondInduction second
          exact ⟨rfl, rfl⟩
  | starStop _ induction =>
      cases right with
      | starStop last => exact ⟨rfl, (induction last).2⟩
      | starStep first _ => cases (induction first).1
  | starStep _ _ firstInduction secondInduction =>
      cases right with
      | starStop last => cases (firstInduction last).1
      | starStep first others =>
          obtain ⟨⟨⟩, rfl⟩ := firstInduction first
          obtain ⟨⟨⟩, rfl⟩ := secondInduction others
          exact ⟨rfl, rfl⟩
  | optSome _ induction =>
      cases right with
      | optSome present => exact induction present
      | optNone absent => cases (induction absent).1
  | optNone _ induction =>
      cases right with
      | optSome present => cases (induction present).1
      | optNone absent => exact ⟨rfl, (induction absent).2⟩

/-! ## What was read is a sentence -/

theorem exists_generates (reads : Reads finish form stream outcome probes) :
    ∀ reading ∈ outcome, ∃ consumed, stream = consumed ++ reading.rest ∧
      Generates form (consumed.map Lexeme.token) := by
  induction reads with
  | empty =>
      rintro _ ⟨⟩
      exact ⟨[], rfl, .empty⟩
  | @hit label first rest accepted =>
      rintro _ ⟨⟩
      exact ⟨[first], rfl, .terminal accepted⟩
  | miss | callFails | seqFirstFails | seqSecondFails => rintro _ ⟨⟩
  | @call name stream reading probes body induction =>
      rintro _ ⟨⟩
      obtain ⟨consumed, stream_eq, sentence⟩ := induction reading rfl
      exact ⟨consumed, stream_eq, .call sentence⟩
  | @seq left right stream reading later _ _ _ _ firstInduction secondInduction =>
      rintro _ ⟨⟩
      obtain ⟨consumed, rfl, sentence⟩ := firstInduction reading rfl
      obtain ⟨more, rest_eq, second⟩ := secondInduction later rfl
      refine ⟨consumed ++ more, by rw [rest_eq, List.append_assoc]; rfl, ?_⟩
      rw [List.map_append]
      exact .seq sentence second
  | altFirst _ induction =>
      intro reading member
      obtain ⟨consumed, stream_eq, sentence⟩ := induction reading member
      exact ⟨consumed, stream_eq, .altFirst sentence⟩
  | altSecond _ _ _ induction =>
      intro reading member
      obtain ⟨consumed, stream_eq, sentence⟩ := induction reading member
      exact ⟨consumed, stream_eq, .altSecond sentence⟩
  | starStop =>
      rintro _ ⟨⟩
      exact ⟨[], rfl, .starStop⟩
  | @starStep body stream reading later _ _ _ _ firstInduction othersInduction =>
      rintro _ ⟨⟩
      obtain ⟨consumed, rfl, sentence⟩ := firstInduction reading rfl
      obtain ⟨more, rest_eq, others⟩ := othersInduction later rfl
      refine ⟨consumed ++ more, by rw [rest_eq, List.append_assoc]; rfl, ?_⟩
      rw [List.map_append]
      exact .starStep sentence others
  | optSome _ induction =>
      intro reading member
      obtain ⟨consumed, stream_eq, sentence⟩ := induction reading member
      exact ⟨consumed, stream_eq, .optSome sentence⟩
  | optNone =>
      rintro _ ⟨⟩
      exact ⟨[], rfl, .optNone⟩

theorem rest_length_le (reads : Reads finish form stream (some reading) probes) :
    reading.rest.length ≤ stream.length := by
  obtain ⟨consumed, rfl, _⟩ := reads.exists_generates reading rfl
  simp

/-- Every terminal that is tried could stand there: some sentence goes on with it. -/
theorem viable (reads : Reads finish form stream outcome probes) :
    ∀ label rest, (label, rest) ∈ probes →
      ∃ consumed, stream = consumed ++ rest ∧ Viable form (consumed.map Lexeme.token) label := by
  induction reads with
  | empty => intro _ _ member; cases member
  | hit | miss =>
      intro _ _ member
      cases List.mem_singleton.mp member
      exact ⟨[], rfl, [], .terminal (by simp [Token.reads])⟩
  | call _ induction | callFails _ induction =>
      intro label rest member
      obtain ⟨consumed, stream_eq, more, sentence⟩ := induction label rest member
      exact ⟨consumed, stream_eq, more, .call sentence⟩
  | @seq left right stream reading _ _ _ first _ firstInduction secondInduction
  | @seqSecondFails left right stream reading _ _ first _ firstInduction secondInduction =>
      intro label rest member
      rcases List.mem_append.mp member with early | late
      · obtain ⟨consumed, stream_eq, more, sentence⟩ := firstInduction label rest early
        obtain ⟨tokens, second⟩ := Language.exists_generates right
        exact ⟨consumed, stream_eq, more ++ tokens, by simpa using sentence.seq second⟩
      · obtain ⟨consumed, rfl, sentence⟩ := first.exists_generates reading rfl
        obtain ⟨further, rest_eq, more, second⟩ := secondInduction label rest late
        exact ⟨consumed ++ further, by rw [rest_eq, List.append_assoc], more,
          by simpa using sentence.seq second⟩
  | @seqFirstFails left right _ _ _ induction =>
      intro label rest member
      obtain ⟨consumed, stream_eq, more, sentence⟩ := induction label rest member
      obtain ⟨tokens, second⟩ := Language.exists_generates right
      exact ⟨consumed, stream_eq, more ++ tokens, by simpa using sentence.seq second⟩
  | altFirst _ induction =>
      intro label rest member
      obtain ⟨consumed, stream_eq, more, sentence⟩ := induction label rest member
      exact ⟨consumed, stream_eq, more, .altFirst sentence⟩
  | altSecond _ _ firstInduction secondInduction =>
      intro label rest member
      rcases List.mem_append.mp member with early | late
      · obtain ⟨consumed, stream_eq, more, sentence⟩ := firstInduction label rest early
        exact ⟨consumed, stream_eq, more, .altFirst sentence⟩
      · obtain ⟨consumed, stream_eq, more, sentence⟩ := secondInduction label rest late
        exact ⟨consumed, stream_eq, more, .altSecond sentence⟩
  | starStop _ induction =>
      intro label rest member
      obtain ⟨consumed, stream_eq, more, sentence⟩ := induction label rest member
      exact ⟨consumed, stream_eq, more, by simpa using sentence.starStep .starStop⟩
  | @starStep body stream reading _ _ _ first _ firstInduction othersInduction =>
      intro label rest member
      rcases List.mem_append.mp member with early | late
      · obtain ⟨consumed, stream_eq, more, sentence⟩ := firstInduction label rest early
        exact ⟨consumed, stream_eq, more, by simpa using sentence.starStep .starStop⟩
      · obtain ⟨consumed, rfl, sentence⟩ := first.exists_generates reading rfl
        obtain ⟨further, rest_eq, more, others⟩ := othersInduction label rest late
        exact ⟨consumed ++ further, by rw [rest_eq, List.append_assoc], more,
          by simpa using sentence.starStep others⟩
  | optSome _ induction | optNone _ induction =>
      intro label rest member
      obtain ⟨consumed, stream_eq, more, sentence⟩ := induction label rest member
      exact ⟨consumed, stream_eq, more, .optSome sentence⟩

/-! ## Misses

A hit is never the last that happens: what follows it is tried in turn, until
something is missing or all is read. -/

theorem exists_miss (reads : Reads finish form stream none probes) :
    ∃ probe ∈ probes, probe.hits = false ∧ probe.2.length ≤ stream.length := by
  generalize outcome_eq : (none : Option Reading) = outcome at reads
  induction reads with
  | empty | hit | call | seq | altFirst | starStop | starStep | optSome | optNone =>
      cases outcome_eq
  | miss refused => exact ⟨_, List.mem_singleton_self _, refused, Nat.le_refl _⟩
  | callFails _ induction => exact induction rfl
  | seqFirstFails _ induction => exact induction rfl
  | seqSecondFails first _ _ secondInduction =>
      obtain ⟨probe, member, missed, short⟩ := secondInduction rfl
      exact ⟨probe, List.mem_append_right _ member, missed,
        Nat.le_trans short first.rest_length_le⟩
  | altSecond _ _ firstInduction _ =>
      obtain ⟨probe, member, missed, short⟩ := firstInduction rfl
      exact ⟨probe, List.mem_append_left _ member, missed, short⟩

theorem exists_miss_of_star {body : Form}
    (reads : Reads finish (.star body) stream (some reading) probes) :
    ∃ probe ∈ probes, probe.hits = false ∧ probe.2.length ≤ reading.rest.length := by
  generalize form_eq : Form.star body = form at reads
  generalize outcome_eq : some reading = outcome at reads
  induction reads generalizing reading with
  | starStop last =>
      cases outcome_eq
      exact last.exists_miss
  | starStep _ _ _ induction =>
      cases form_eq
      cases outcome_eq
      obtain ⟨probe, member, missed, short⟩ := induction rfl rfl
      exact ⟨probe, List.mem_append_right _ member, missed, short⟩
  | _ => cases form_eq

/-- Behind a hit there is a miss, unless the hit is part of what was read. -/
theorem miss_or_rest_of_hit (reads : Reads finish form stream outcome probes) :
    ∀ probe ∈ probes, probe.hits = true →
      (∃ other ∈ probes, other.hits = false ∧ other.2.length < probe.2.length) ∨
        ∃ reading ∈ outcome, reading.rest.length < probe.2.length := by
  induction reads with
  | empty => intro _ member; cases member
  | hit =>
      intro _ member _
      cases List.mem_singleton.mp member
      exact .inr ⟨_, rfl, Nat.lt_succ_self _⟩
  | miss refused =>
      intro _ member accepted
      cases List.mem_singleton.mp member
      rw [refused] at accepted
      cases accepted
  | call _ induction =>
      intro probe member accepted
      rcases induction probe member accepted with missed | ⟨_, ⟨⟩, short⟩
      · exact .inl missed
      · exact .inr ⟨_, rfl, short⟩
  | callFails _ induction | seqFirstFails _ induction | altFirst _ induction
  | optSome _ induction => exact induction
  | seq _ second firstInduction secondInduction
  | starStep _ second firstInduction secondInduction =>
      intro probe member accepted
      rcases List.mem_append.mp member with early | late
      · rcases firstInduction probe early accepted with
          ⟨other, otherMember, missed, short⟩ | ⟨_, ⟨⟩, short⟩
        · exact .inl ⟨other, List.mem_append_left _ otherMember, missed, short⟩
        · exact .inr ⟨_, rfl, Nat.lt_of_le_of_lt second.rest_length_le short⟩
      · rcases secondInduction probe late accepted with
          ⟨other, otherMember, missed, short⟩ | ⟨_, ⟨⟩, short⟩
        · exact .inl ⟨other, List.mem_append_right _ otherMember, missed, short⟩
        · exact .inr ⟨_, rfl, short⟩
  | seqSecondFails _ second firstInduction secondInduction =>
      intro probe member accepted
      rcases List.mem_append.mp member with early | late
      · rcases firstInduction probe early accepted with
          ⟨other, otherMember, missed, short⟩ | ⟨_, ⟨⟩, short⟩
        · exact .inl ⟨other, List.mem_append_left _ otherMember, missed, short⟩
        · obtain ⟨other, otherMember, missed, shorter⟩ := second.exists_miss
          exact .inl ⟨other, List.mem_append_right _ otherMember, missed,
            Nat.lt_of_le_of_lt shorter short⟩
      · rcases secondInduction probe late accepted with
          ⟨other, otherMember, missed, short⟩ | ⟨_, ⟨⟩, _⟩
        exact .inl ⟨other, List.mem_append_right _ otherMember, missed, short⟩
  | altSecond _ _ firstInduction secondInduction =>
      intro probe member accepted
      rcases List.mem_append.mp member with early | late
      · rcases firstInduction probe early accepted with
          ⟨other, otherMember, missed, short⟩ | ⟨_, ⟨⟩, _⟩
        exact .inl ⟨other, List.mem_append_left _ otherMember, missed, short⟩
      · rcases secondInduction probe late accepted with
          ⟨other, otherMember, missed, short⟩ | read
        · exact .inl ⟨other, List.mem_append_right _ otherMember, missed, short⟩
        · exact .inr read
  | starStop _ induction | optNone _ induction =>
      intro probe member accepted
      rcases induction probe member accepted with missed | ⟨_, ⟨⟩, _⟩
      exact .inl missed

/-! ## Common heads -/

/-- Outcomes of reading two sequences of lexemes that differ only in how they go
on behind a common head. -/
def Agree (tail other : List Lexeme) : Option Reading → Option Reading → Prop
  | none, none => True
  | some reading, some otherReading =>
    ∃ shared, reading.rest = shared ++ tail ∧ otherReading.rest = shared ++ other
  | _, _ => False

theorem Agree.of_some {tail other : List Lexeme} {reading : Reading} {outcome : Option Reading}
    (agree : Agree tail other (some reading) outcome) : ∃ otherReading shared,
      outcome = some otherReading ∧ reading.rest = shared ++ tail ∧
        otherReading.rest = shared ++ other := by
  cases outcome with
  | none => cases agree
  | some otherReading =>
      obtain ⟨shared, rest_eq, otherRest_eq⟩ := agree
      exact ⟨otherReading, shared, rfl, rest_eq, otherRest_eq⟩

theorem Agree.of_none {tail other : List Lexeme} {outcome : Option Reading}
    (agree : Agree tail other none outcome) : outcome = none := by
  cases outcome with
  | none => rfl
  | some _ => cases agree

/-- Reading goes the same way on another tail if no terminal that was tried at the
tail accepts what stands there, before or after. -/
theorem exists_agree {tail other : List Lexeme}
    (reads : Reads finish form stream outcome probes)
    (missed : ∀ label, (label, tail) ∈ probes →
      Probe.hits (label, tail) = false ∧ Probe.hits (label, other) = false) :
    ∀ shared, stream = shared ++ tail →
      ∃ outcome' probes', Reads finish form (shared ++ other) outcome' probes' ∧
        Agree tail other outcome outcome' := by
  -- The shared lexemes get fewer from part to part, so the induction is for any of them.
  induction reads with
  | empty =>
      rintro shared rfl
      exact ⟨_, _, .empty, shared, rfl, rfl⟩
  | @hit label first rest accepted =>
      intro shared stream_eq
      cases shared with
      | nil =>
          cases stream_eq
          -- A hit at the tail itself would be a terminal that accepts what stands there.
          have refused := (missed label (List.mem_singleton_self _)).1
          rw [Probe.hits, startsWith_cons, accepted] at refused
          cases refused
      | cons head shared =>
          cases stream_eq
          exact ⟨_, _, .hit accepted, shared, rfl, rfl⟩
  | @miss label stream refused =>
      rintro shared rfl
      cases shared with
      | nil => exact ⟨_, _, .miss (missed label (List.mem_singleton_self _)).2, trivial⟩
      | cons head shared => exact ⟨_, _, .miss refused, trivial⟩
  | call _ induction =>
      intro shared stream_eq
      obtain ⟨_, _, body, agree⟩ := induction missed shared stream_eq
      obtain ⟨_, further, rfl, same⟩ := agree.of_some
      exact ⟨_, _, .call body, further, same⟩
  | callFails _ induction =>
      intro shared stream_eq
      obtain ⟨_, _, body, agree⟩ := induction missed shared stream_eq
      obtain rfl := agree.of_none
      exact ⟨_, _, .callFails body, trivial⟩
  | seq _ _ firstInduction secondInduction =>
      intro shared stream_eq
      obtain ⟨_, _, first, agree⟩ := firstInduction
        (fun label member => missed label (List.mem_append_left _ member)) shared stream_eq
      obtain ⟨_, further, rfl, rest_eq, otherRest_eq⟩ := agree.of_some
      obtain ⟨_, _, second, agree⟩ := secondInduction
        (fun label member => missed label (List.mem_append_right _ member)) further rest_eq
      obtain ⟨_, last, rfl, same⟩ := agree.of_some
      rw [← otherRest_eq] at second
      exact ⟨_, _, .seq first second, last, same⟩
  | seqFirstFails _ induction =>
      intro shared stream_eq
      obtain ⟨_, _, first, agree⟩ := induction missed shared stream_eq
      obtain rfl := agree.of_none
      exact ⟨_, _, .seqFirstFails first, trivial⟩
  | seqSecondFails _ _ firstInduction secondInduction =>
      intro shared stream_eq
      obtain ⟨_, _, first, agree⟩ := firstInduction
        (fun label member => missed label (List.mem_append_left _ member)) shared stream_eq
      obtain ⟨_, further, rfl, rest_eq, otherRest_eq⟩ := agree.of_some
      obtain ⟨_, _, second, agree⟩ := secondInduction
        (fun label member => missed label (List.mem_append_right _ member)) further rest_eq
      obtain rfl := agree.of_none
      rw [← otherRest_eq] at second
      exact ⟨_, _, .seqSecondFails first second, trivial⟩
  | altFirst _ induction =>
      intro shared stream_eq
      obtain ⟨_, _, first, agree⟩ := induction missed shared stream_eq
      obtain ⟨_, further, rfl, same⟩ := agree.of_some
      exact ⟨_, _, .altFirst first, further, same⟩
  | altSecond _ _ firstInduction secondInduction =>
      intro shared stream_eq
      obtain ⟨_, _, first, agree⟩ := firstInduction
        (fun label member => missed label (List.mem_append_left _ member)) shared stream_eq
      obtain rfl := agree.of_none
      obtain ⟨_, _, second, agree⟩ := secondInduction
        (fun label member => missed label (List.mem_append_right _ member)) shared stream_eq
      exact ⟨_, _, .altSecond first second, agree⟩
  | starStop _ induction =>
      intro shared stream_eq
      obtain ⟨_, _, last, agree⟩ := induction missed shared stream_eq
      obtain rfl := agree.of_none
      exact ⟨_, _, .starStop last, shared, stream_eq, rfl⟩
  | starStep _ _ firstInduction secondInduction =>
      intro shared stream_eq
      obtain ⟨_, _, first, agree⟩ := firstInduction
        (fun label member => missed label (List.mem_append_left _ member)) shared stream_eq
      obtain ⟨_, further, rfl, rest_eq, otherRest_eq⟩ := agree.of_some
      obtain ⟨_, _, others, agree⟩ := secondInduction
        (fun label member => missed label (List.mem_append_right _ member)) further rest_eq
      obtain ⟨_, last, rfl, same⟩ := agree.of_some
      rw [← otherRest_eq] at others
      exact ⟨_, _, .starStep first others, last, same⟩
  | optSome _ induction =>
      intro shared stream_eq
      obtain ⟨_, _, present, agree⟩ := induction missed shared stream_eq
      obtain ⟨_, further, rfl, same⟩ := agree.of_some
      exact ⟨_, _, .optSome present, further, same⟩
  | optNone _ induction =>
      intro shared stream_eq
      obtain ⟨_, _, absent, agree⟩ := induction missed shared stream_eq
      obtain rfl := agree.of_none
      exact ⟨_, _, .optNone absent, shared, stream_eq, rfl⟩

end Reads

end QubitLang.Language
