import QubitLang.Proofs.Language.Acceptance
import QubitLang.Proofs.Peg.Furthest

/-! What a syntax error tells about a source text: where the text stops to be the
beginning of a sentence, and all that could stand there instead. -/

namespace QubitLang

theorem Label.text_inj {label other : Label} (equal : label.text = other.text) :
    label = other := by
  have distinct : (Label.all.map Label.text).Nodup := by decide +kernel
  exact List.inj_on_of_nodup_map distinct (Label.mem_all label) (Label.mem_all other) equal

namespace Language

open Peg (Event Expectation)

/-! ## Labels without a place in sentences -/

theorem avoids_endOfInput (name : Nonterminal) : (form name).avoids .endOfInput = true := by
  cases name with
  | typeWord type => rfl
  | marker label => rfl
  | _ => decide

theorem Generates.any_endOfInput_notMem {form : Form} {tokens : List Token}
    (generates : Generates form tokens) (avoids : form.avoids .endOfInput = true) :
    Token.any .endOfInput ∉ tokens := by
  induction generates with
  | empty | starStop | optNone => exact List.not_mem_nil
  | @terminal label token accepted =>
      intro member
      rw [← List.mem_singleton.mp member] at accepted
      have equal : Label.endOfInput = label := beq_iff_eq.mp accepted
      rw [Form.avoids, ← equal] at avoids
      cases avoids
  | call _ induction => exact induction (avoids_endOfInput _)
  | seq _ _ firstInduction secondInduction =>
      rw [Form.avoids, Bool.and_eq_true] at avoids
      rw [List.mem_append, not_or]
      exact ⟨firstInduction avoids.1, secondInduction avoids.2⟩
  | altFirst _ induction =>
      rw [Form.avoids, Bool.and_eq_true] at avoids
      exact induction avoids.1
  | altSecond _ induction =>
      rw [Form.avoids, Bool.and_eq_true] at avoids
      exact induction avoids.2
  | starStep _ _ firstInduction othersInduction =>
      rw [List.mem_append, not_or]
      exact ⟨firstInduction avoids, othersInduction avoids⟩
  | optSome _ induction => exact induction avoids

theorem not_viable_endOfInput {start : Nonterminal} {tokens : List Token} :
    ¬ Viable (form start) tokens .endOfInput := by
  rintro ⟨more, generates⟩
  exact generates.any_endOfInput_notMem (avoids_endOfInput start) (by simp)

/-! ## What was missing -/

variable {finish : Nat} {remainder : Text} {start : Nonterminal} {lexemes tail : List Lexeme}
  {result : Option Reading} {probes : List Probe}

/-- The end of the input, where it is tried: behind a fragment. -/
def endProbe (start : Nonterminal) : Option Reading → List Probe
  | some reading => if start = .program then [] else [(.endOfInput, reading.rest)]
  | none => []

/-- What was missing where a text was not read as a whole: all terminals that were
tried in vain, and the end of the input. -/
def misses (start : Nonterminal) (result : Option Reading) (probes : List Probe) : List Probe :=
  probes.filter (fun probe => !probe.hits) ++ endProbe start result

def missed (finish : Nat) (remainder : Text) : Probe → Expectation
  | (label, first :: _) => (label.text, first.span.start)
  | (label, []) => missing label ⟨finish, remainder⟩

theorem noted_eq (probe : Probe) : noted finish remainder probe =
    if !probe.hits then some (missed finish remainder probe) else none := by
  obtain ⟨label, stream⟩ := probe
  cases stream with
  | nil => rfl
  | cons first rest => cases hits : Probe.hits (label, first :: rest) <;> simp [noted, missed, hits]

theorem expected_eq_map_missed :
    probes.filterMap (noted finish remainder) ++ endNoted finish start result =
      (misses start result probes).map (missed finish remainder) := by
  rw [misses, List.map_append]
  congr 1
  · induction probes with
    | nil => rfl
    | cons probe probes induction =>
        rw [List.filterMap_cons, noted_eq, List.filter_cons]
        cases hits : probe.hits <;> simp [induction]
  · cases result with
    | none => rfl
    | some reading =>
        obtain ⟨rest, last, nodes⟩ := reading
        rw [endNoted, endProbe]
        split
        · rfl
        · cases rest <;> rfl

theorem mem_misses {probe : Probe} (member : probe ∈ probes) (refused : probe.hits = false) :
    probe ∈ misses start result probes :=
  List.mem_append_left _ (List.mem_filter.mpr ⟨member, by simp [refused]⟩)

theorem mem_misses_iff {probe : Probe} : probe ∈ misses start result probes ↔
    probe ∈ probes ∧ probe.hits = false ∨
      start ≠ .program ∧ ∃ reading ∈ result, probe = (.endOfInput, reading.rest) := by
  rw [misses, List.mem_append, List.mem_filter, Bool.not_eq_true']
  refine or_congr_right ?_
  cases result with
  | none => simp [endProbe]
  | some reading =>
      rw [endProbe]
      split
      · rename_i isProgram
        simp [isProgram]
      · rename_i isFragment
        simp [isFragment]

theorem exists_eq_append_of_mem_misses (reads : Reads finish (form start) lexemes result probes)
    {probe : Probe} (member : probe ∈ misses start result probes) :
    ∃ before, lexemes = before ++ probe.2 := by
  rcases mem_misses_iff.mp member with ⟨tried, _⟩ | ⟨_, reading, result_eq, rfl⟩
  · obtain ⟨before, lexemes_eq, _⟩ := reads.viable probe.1 probe.2 tried
    exact ⟨before, lexemes_eq⟩
  · obtain ⟨before, lexemes_eq, _⟩ := reads.exists_generates reading result_eq
    exact ⟨before, lexemes_eq⟩

theorem exists_miss_behind {reading : Reading}
    (reads : Reads finish (form start) lexemes (some reading) probes) :
    ∃ probe ∈ misses start (some reading) probes, probe.2.length ≤ reading.rest.length := by
  by_cases isProgram : start = .program
  · subst isProgram
    obtain ⟨probe, member, refused, short⟩ := Reads.exists_miss_of_star reads
    exact ⟨probe, mem_misses member refused, short⟩
  · exact ⟨_, mem_misses_iff.mpr (.inr ⟨isProgram, reading, rfl, rfl⟩), Nat.le_refl _⟩

theorem exists_mem_misses (reads : Reads finish (form start) lexemes result probes) :
    ∃ probe, probe ∈ misses start result probes := by
  cases result with
  | none =>
      obtain ⟨probe, member, refused, _⟩ := reads.exists_miss
      exact ⟨probe, mem_misses member refused⟩
  | some reading =>
      obtain ⟨probe, member, _⟩ := exists_miss_behind reads
      exact ⟨probe, member⟩

theorem exists_shorter_miss (reads : Reads finish (form start) lexemes result probes)
    {probe : Probe} (member : probe ∈ probes) (accepted : probe.hits = true) :
    ∃ other ∈ misses start result probes, other.2.length < probe.2.length := by
  rcases reads.miss_or_rest_of_hit probe member accepted with
    ⟨other, otherMember, refused, shorter⟩ | ⟨reading, result_eq, shorter⟩
  · exact ⟨other, mem_misses otherMember refused, shorter⟩
  · cases result_eq
    obtain ⟨other, otherMember, short⟩ := exists_miss_behind reads
    exact ⟨other, otherMember, Nat.lt_of_le_of_lt short shorter⟩

/-- The rest of the lexemes at which the last thing is missing, and what comes before. -/
structure StopsAt (start : Nonterminal) (lexemes : List Lexeme) (result : Option Reading)
    (probes : List Probe) (before tail : List Lexeme) : Prop where
  lexemes_eq : lexemes = before ++ tail
  reached : ∃ label, (label, tail) ∈ misses start result probes
  last : ∀ probe ∈ misses start result probes, ∃ between, probe.2 = between ++ tail

theorem exists_stopsAt (reads : Reads finish (form start) lexemes result probes) :
    ∃ before tail, StopsAt start lexemes result probes before tail := by
  obtain ⟨⟨label, tail⟩, member, shortest⟩ :=
    (measure fun probe : Probe => probe.2.length).wf.has_min
      {probe | probe ∈ misses start result probes} (exists_mem_misses reads)
  obtain ⟨before, lexemes_eq⟩ := exists_eq_append_of_mem_misses reads member
  refine ⟨before, tail, lexemes_eq, ⟨label, member⟩, fun probe otherMember => ?_⟩
  obtain ⟨other, other_eq⟩ := exists_eq_append_of_mem_misses reads otherMember
  have long : tail.length ≤ probe.2.length := Nat.not_lt.mp (shortest probe otherMember)
  have tailSuffix : tail <:+ lexemes := ⟨before, lexemes_eq.symm⟩
  have otherSuffix : probe.2 <:+ lexemes := ⟨other, other_eq.symm⟩
  obtain ⟨between, probe_eq⟩ := List.suffix_of_suffix_length_le tailSuffix otherSuffix long
  exact ⟨between, probe_eq.symm⟩

namespace StopsAt

variable {before : List Lexeme}

theorem refused (stops : StopsAt start lexemes result probes before tail)
    (reads : Reads finish (form start) lexemes result probes) {label : Label}
    (member : (label, tail) ∈ probes) : Probe.hits (label, tail) = false := by
  cases hits : Probe.hits (label, tail) with
  | false => rfl
  | true =>
      obtain ⟨other, otherMember, shorter⟩ := exists_shorter_miss reads member hits
      obtain ⟨between, other_eq⟩ := stops.last other otherMember
      rw [other_eq, List.length_append] at shorter
      exact absurd shorter (Nat.not_lt.mpr (Nat.le_add_left _ _))

theorem viable (stops : StopsAt start lexemes result probes before tail)
    (reads : Reads finish (form start) lexemes result probes) {label : Label}
    (member : (label, tail) ∈ probes) : Viable (form start) (before.map Lexeme.token) label := by
  obtain ⟨consumed, lexemes_eq, viable⟩ := reads.viable label tail member
  rw [stops.lexemes_eq, List.append_cancel_right_eq] at lexemes_eq
  rwa [lexemes_eq]

/-- Reading another sentence with the same beginning would go the same way, unless
something that was tried at the last place stands there. -/
theorem exists_shared (stops : StopsAt start lexemes result probes before tail)
    (reads : Reads finish (form start) lexemes result probes) (entry : start.isEntry = true)
    {other : List Lexeme} (spells : Spells (form start) (before ++ other))
    (missed : ∀ label, (label, tail) ∈ probes → startsWith label other = false) :
    other = [] ∧ ∃ reading ∈ result, reading.rest = tail := by
  obtain ⟨reading', ⟨_, otherReads⟩, whole⟩ := spells.exists_succeeds entry finish
  obtain ⟨outcome', _, shared, agree⟩ := reads.exists_agree
    (fun label member => ⟨stops.refused reads member, missed label member⟩) before
    stops.lexemes_eq
  obtain ⟨rfl, _⟩ := shared.unique otherReads
  cases result with
  | none => cases agree
  | some reading =>
      obtain ⟨common, rest_eq, otherRest_eq⟩ := agree
      rw [whole] at otherRest_eq
      obtain ⟨rfl, rfl⟩ := List.append_eq_nil_iff.mp otherRest_eq.symm
      exact ⟨rfl, reading, rfl, rest_eq⟩

theorem mem_of_viable (stops : StopsAt start lexemes result probes before tail)
    (reads : Reads finish (form start) lexemes result probes) (entry : start.isEntry = true)
    {label : Label} (viable : Viable (form start) (before.map Lexeme.token) label) :
    (label, tail) ∈ probes := by
  obtain ⟨more, generates⟩ := viable
  refine Classical.byContradiction fun untried => ?_
  let other : List Lexeme := (Token.any label :: more).map fun token => ⟨token, Span.point 0⟩
  have spells : Spells (form start) (before ++ other) := by
    have tokens_eq : other.map Lexeme.token = Token.any label :: more := by
      simp [other, Function.comp_def]
    rwa [Spells, List.map_append, tokens_eq]
  have missed : ∀ tried, (tried, tail) ∈ probes → startsWith tried other = false := by
    intro tried member
    change (label == tried) = false
    refine beq_eq_false_iff_ne.mpr fun equal => untried ?_
    rwa [equal]
  exact List.cons_ne_nil _ _ (stops.exists_shared reads entry spells missed).1

/-- If the lexemes before the last place are a sentence, they were read as one. -/
theorem exists_rest_of_generates (stops : StopsAt start lexemes result probes before tail)
    (reads : Reads finish (form start) lexemes result probes) (entry : start.isEntry = true)
    (generates : Generates (form start) (before.map Lexeme.token)) :
    ∃ reading ∈ result, reading.rest = tail := by
  have spells : Spells (form start) (before ++ []) := by rwa [List.append_nil]
  exact (stops.exists_shared reads entry spells fun _ _ => rfl).2

theorem generates_of_rest (stops : StopsAt start lexemes result probes before tail)
    (reads : Reads finish (form start) lexemes result probes) {reading : Reading}
    (result_eq : reading ∈ result) (rest_eq : reading.rest = tail) :
    Generates (form start) (before.map Lexeme.token) := by
  obtain ⟨consumed, lexemes_eq, generates⟩ := reads.exists_generates reading result_eq
  rw [stops.lexemes_eq, rest_eq, List.append_cancel_right_eq] at lexemes_eq
  rwa [lexemes_eq]

end StopsAt

/-! ## Where it was missing -/

variable {source : Text} {before : List Lexeme}

theorem missed_eq {label : Label} {rest : List Lexeme}
    (noDigit : rest = [] → label = .sign .percent → ∀ behind, remainder ≠ '%' :: behind) :
    missed finish remainder (label, rest) = (label.text, Lexeme.startOf finish rest) := by
  cases rest with
  | cons first rest => rfl
  | nil =>
      change missing label ⟨finish, remainder⟩ = _
      unfold missing
      split
      · rename_i behind remainder_eq
        exact absurd remainder_eq (noDigit rfl rfl behind)
      · rfl

theorem StopsAt.startOf_le (stops : StopsAt start lexemes result probes before tail)
    (reads : Reads finish (form start) lexemes result probes)
    (splits : Splits 0 source lexemes finish remainder) {probe : Probe}
    (member : probe ∈ misses start result probes) :
    Lexeme.startOf finish probe.2 ≤ Lexeme.startOf finish tail ∧
      (Lexeme.startOf finish probe.2 = Lexeme.startOf finish tail → probe.2 = tail) := by
  obtain ⟨between, probe_eq⟩ := stops.last probe member
  obtain ⟨earlier, lexemes_eq⟩ := exists_eq_append_of_mem_misses reads member
  rw [lexemes_eq, probe_eq] at splits
  obtain ⟨le, same⟩ := splits.startOf_le_startOf
  rw [probe_eq]
  refine ⟨le, fun equal => ?_⟩
  rw [same equal, List.nil_append]

/-! ## Exact errors -/

/-- A digit is missing behind a percent sign, with which a token begins that could
stand there. -/
def MissesDigit (start : Nonterminal) (source : Text) (error : SyntaxError) : Prop :=
  ∃ lexemes finish behind, Splits 0 source lexemes finish ('%' :: behind) ∧
    (∀ character ∈ behind.head?, character.isDigit = false) ∧
    Viable (form start) (lexemes.map Lexeme.token) (.sign .percent) ∧
    error.offset = finish + 1 ∧ ∀ text, text ∈ error.expected ↔ text = Label.digit.text

/-- The text splits up to the offset, where no trivia comes first, and what is expected
is all that can go on from there: each terminal that begins the rest of a sentence, and
the end of a fragment if this is one already. -/
def MissesTerminal (start : Nonterminal) (source : Text) (error : SyntaxError) : Prop :=
  ∃ lexemes, Splits 0 source lexemes error.offset (source.drop error.offset) ∧
    SplitsInto (source.take error.offset) lexemes ∧
    (∀ text ∈ error.expected, ∃ label : Label, text = label.text) ∧
    (∀ label : Label, label ≠ .endOfInput → (label.text ∈ error.expected ↔
      Viable (form start) (lexemes.map Lexeme.token) label)) ∧
    (Label.endOfInput.text ∈ error.expected ↔
      start ≠ .program ∧ Generates (form start) (lexemes.map Lexeme.token))

/-- A syntax error that tells where a text stops to be the beginning of a sentence, and
all that could stand there. -/
structure IsExact (start : Nonterminal) (source : Text) (error : SyntaxError) : Prop where
  offset_le : error.offset ≤ source.length
  found_eq : error.found = source[error.offset]?
  expected_ne_nil : error.expected ≠ []
  missing : MissesDigit start source error ∨ MissesTerminal start source error

/-- All that can stand behind some tokens is expected there, and nothing else is. -/
structure Expects (start : Nonterminal) (tokens : List Token) (expected : List String) :
    Prop where
  exists_label : ∀ text ∈ expected, ∃ label : Label, text = label.text
  mem_iff_viable : ∀ label : Label, label ≠ .endOfInput →
    (label.text ∈ expected ↔ Viable (form start) tokens label)
  mem_iff_generates : Label.endOfInput.text ∈ expected ↔
    start ≠ .program ∧ Generates (form start) tokens

theorem head?_isDigit_of_ends {behind : Text} (ends : Scan.token? ('%' :: behind) = none) :
    ∀ character ∈ behind.head?, character.isDigit = false := by
  intro character head_eq
  cases digit : character.isDigit with
  | false => rfl
  | true =>
      obtain ⟨rest, rfl⟩ := List.head?_eq_some_iff.mp head_eq
      have digits : Lexical.digits? (character :: rest) = some
          ((character :: rest).takeWhile Char.isDigit, (character :: rest).dropWhile Char.isDigit) :=
        Lexical.digits?_eq_some_iff.mpr ⟨rfl, rfl, by simp [digit]⟩
      rw [Scan.token?_eq_qubit_iff.mpr ⟨_, rfl, digits⟩] at ends
      cases ends

section

variable {events : List Event}
  (same : ∀ expectation, expectation ∈ events.filterMap Event.expectation? ↔
    expectation ∈ (misses start result probes).map (missed finish remainder))
  (stops : StopsAt start lexemes result probes before tail)
  (reads : Reads finish (form start) lexemes result probes)
  (splits : Splits 0 source lexemes finish remainder)

include same stops reads splits

theorem error_of_digit (tail_eq : tail = []) {behind : Text}
    (remainder_eq : remainder = '%' :: behind) (percent : (Label.sign .percent, []) ∈ probes) :
    (Peg.syntaxErrorOf source events).offset = finish + 1 ∧
      (Peg.syntaxErrorOf source events).found = source[finish + 1]? ∧
      ∀ text, text ∈ (Peg.syntaxErrorOf source events).expected ↔ text = Label.digit.text := by
  subst tail_eq remainder_eq
  have percentMissed : missed finish ('%' :: behind) (.sign .percent, []) =
      (Label.digit.text, finish + 1) := rfl
  have percentMember : (Label.sign .percent, []) ∈ misses start result probes :=
    mem_misses percent rfl
  have offset_le : ∀ expectation ∈ (misses start result probes).map (missed finish ('%' :: behind)),
      expectation = (Label.digit.text, finish + 1) ∨ expectation.2 ≤ finish := by
    intro expectation member
    obtain ⟨⟨label, rest⟩, missedMember, rfl⟩ := List.mem_map.mp member
    by_cases digit : rest = [] ∧ label = .sign .percent
    · obtain ⟨rfl, rfl⟩ := digit
      exact .inl rfl
    · rw [missed_eq fun rest_eq label_eq => absurd ⟨rest_eq, label_eq⟩ digit]
      exact .inr (stops.startOf_le reads splits missedMember).1
  have expected_iff : ∀ label, (label, finish + 1) ∈
      (misses start result probes).map (missed finish ('%' :: behind)) ↔
        label = Label.digit.text := by
    intro label
    constructor
    · intro member
      rcases offset_le _ member with equal | early
      · exact congrArg Prod.fst equal
      · exact absurd early (Nat.not_succ_le_self finish)
    · rintro rfl
      exact List.mem_map.mpr ⟨_, percentMember, percentMissed⟩
  obtain ⟨offset_eq, found_eq, mem_iff⟩ := Peg.syntaxErrorOf_of_furthest source (finish + 1) same
    (fun expectation member => by
      rcases offset_le expectation member with rfl | early
      · exact Nat.le_refl _
      · exact Nat.le_succ_of_le early)
    ⟨_, (expected_iff _).mpr rfl, rfl⟩
  exact ⟨offset_eq, found_eq, fun text => (mem_iff text).trans (expected_iff text)⟩

theorem isExact_of_digit (ends : Scan.token? remainder = none) (tail_eq : tail = [])
    {behind : Text} (remainder_eq : remainder = '%' :: behind)
    (percent : (Label.sign .percent, []) ∈ probes) :
    IsExact start source (Peg.syntaxErrorOf source events) := by
  obtain ⟨offset_eq, found_eq, onlyDigit⟩ :=
    error_of_digit same stops reads splits tail_eq remainder_eq percent
  subst tail_eq remainder_eq
  have lexemes_eq : lexemes = before := by
    rw [stops.lexemes_eq, List.append_nil]
  refine ⟨?_, by rw [found_eq, offset_eq], ?_, .inl ⟨lexemes, finish, behind, splits,
    head?_isDigit_of_ends ends, ?_, offset_eq, onlyDigit⟩⟩
  · obtain ⟨consumed, source_eq, finish_eq⟩ := splits.exists_eq_append
    rw [offset_eq, source_eq, finish_eq]
    simp
  · exact List.ne_nil_of_mem ((onlyDigit _).mpr rfl)
  · rw [lexemes_eq]
    exact stops.viable reads percent

theorem error_of_terminal
    (noDigit : ∀ behind, tail = [] → remainder = '%' :: behind →
      (Label.sign .percent, []) ∉ probes) :
    (Peg.syntaxErrorOf source events).offset = Lexeme.startOf finish tail ∧
      (Peg.syntaxErrorOf source events).found = source[Lexeme.startOf finish tail]? ∧
      ∀ text, text ∈ (Peg.syntaxErrorOf source events).expected ↔
        ∃ label : Label, (label, tail) ∈ misses start result probes ∧ text = label.text := by
  have missed_place : ∀ probe ∈ misses start result probes,
      missed finish remainder probe = (probe.1.text, Lexeme.startOf finish probe.2) := by
    rintro ⟨label, rest⟩ member
    refine missed_eq fun rest_eq label_eq behind remainder_eq => ?_
    subst rest_eq label_eq
    obtain ⟨between, tail_eq⟩ := stops.last _ member
    have tail_nil := (List.append_eq_nil_iff.mp tail_eq.symm).2
    rcases mem_misses_iff.mp member with ⟨tried, _⟩ | ⟨_, _, _, ⟨⟩⟩
    exact noDigit behind tail_nil remainder_eq tried
  have expected_iff : ∀ text, (text, Lexeme.startOf finish tail) ∈
      (misses start result probes).map (missed finish remainder) ↔
        ∃ label : Label, (label, tail) ∈ misses start result probes ∧ text = label.text := by
    intro text
    constructor
    · intro member
      obtain ⟨⟨label, rest⟩, missedMember, missed_eq⟩ := List.mem_map.mp member
      rw [missed_place _ missedMember, Prod.mk.injEq] at missed_eq
      have rest_eq := (stops.startOf_le reads splits missedMember).2 missed_eq.2
      simp only at rest_eq
      subst rest_eq
      exact ⟨label, missedMember, missed_eq.1.symm⟩
    · rintro ⟨label, member, rfl⟩
      exact List.mem_map.mpr ⟨_, member, missed_place _ member⟩
  obtain ⟨label, reached⟩ := stops.reached
  obtain ⟨offset_eq, found_eq, mem_iff⟩ := Peg.syntaxErrorOf_of_furthest source
    (Lexeme.startOf finish tail) same
    (fun expectation member => by
      obtain ⟨probe, missedMember, rfl⟩ := List.mem_map.mp member
      rw [missed_place probe missedMember]
      exact (stops.startOf_le reads splits missedMember).1)
    ⟨_, (expected_iff _).mpr ⟨label, reached, rfl⟩, rfl⟩
  exact ⟨offset_eq, found_eq, fun text => (mem_iff text).trans (expected_iff text)⟩

theorem expects_of_terminal (entry : start.isEntry = true)
    (noDigit : ∀ behind, tail = [] → remainder = '%' :: behind →
      (Label.sign .percent, []) ∉ probes) :
    Expects start (before.map Lexeme.token) (Peg.syntaxErrorOf source events).expected := by
  obtain ⟨_, _, labels⟩ := error_of_terminal same stops reads splits noDigit
  refine ⟨?_, ?_, ?_⟩
  · intro text member
    obtain ⟨label, _, text_eq⟩ := (labels text).mp member
    exact ⟨label, text_eq⟩
  · intro label notEnd
    rw [labels]
    -- What was tried could stand there; what could stand there was tried, and is missing.
    constructor
    · rintro ⟨other, member, text_eq⟩
      obtain rfl := Label.text_inj text_eq
      rcases mem_misses_iff.mp member with ⟨tried, _⟩ | ⟨_, _, _, ended⟩
      · exact stops.viable reads tried
      · cases ended
        exact absurd rfl notEnd
    · intro viable
      have tried := stops.mem_of_viable reads entry viable
      exact ⟨label, mem_misses tried (stops.refused reads tried), rfl⟩
  · rw [labels]
    constructor
    · rintro ⟨other, member, text_eq⟩
      obtain rfl := Label.text_inj text_eq
      rcases mem_misses_iff.mp member with ⟨tried, _⟩ | ⟨fragment, reading, result_eq, ended⟩
      · exact absurd (stops.viable reads tried) not_viable_endOfInput
      · exact ⟨fragment, stops.generates_of_rest reads result_eq (Prod.mk.inj ended).2.symm⟩
    · rintro ⟨fragment, generates⟩
      obtain ⟨reading, result_eq, rfl⟩ := stops.exists_rest_of_generates reads entry generates
      exact ⟨_, mem_misses_iff.mpr (.inr ⟨fragment, reading, result_eq, rfl⟩), rfl⟩

theorem isExact_of_terminal (entry : start.isEntry = true)
    (noDigit : ∀ behind, tail = [] → remainder = '%' :: behind →
      (Label.sign .percent, []) ∉ probes) :
    IsExact start source (Peg.syntaxErrorOf source events) := by
  obtain ⟨offset_eq, found_eq, labels⟩ := error_of_terminal same stops reads splits noDigit
  have expects := expects_of_terminal same stops reads splits entry noDigit
  obtain ⟨label, reached⟩ := stops.reached
  have cut := splits
  rw [stops.lexemes_eq] at cut
  obtain ⟨upTo, alone⟩ := cut.take
  rw [← offset_eq] at upTo alone
  refine ⟨?_, by rw [found_eq, offset_eq],
    List.ne_nil_of_mem ((labels _).mpr ⟨label, reached, rfl⟩),
    .inr ⟨before, upTo, alone.splitsInto.2, expects.exists_label, expects.mem_iff_viable,
      expects.mem_iff_generates⟩⟩
  have length_eq := alone.splitsInto.1
  rw [List.length_take] at length_eq
  omega

end

theorem isExact_of_matchText {trace : Bool} {error : SyntaxError} (entry : start.isEntry = true)
    (found : (grammar.matchText start source trace).outcome = .error (.rejected error)) :
    IsExact start source error := by
  obtain ⟨outcome, events, lexemes, finish, remainder, result, probes, expected, result_eq, splits,
    ends, reads, entryOutcome, same⟩ := exists_reading entry source
  rw [Peg.Grammar.matchText, result_eq] at found
  cases entryOutcome with
  | whole => cases found
  | failed _ =>
      have error_eq : error = Peg.syntaxErrorOf source events := by
        simp only [Peg.failure] at found
        split at found <;> cases found
        rfl
      rw [expected_eq_map_missed] at same
      obtain ⟨before, tail, stops⟩ := exists_stopsAt reads
      rw [error_eq]
      by_cases digit : ∃ behind, tail = [] ∧ remainder = '%' :: behind ∧
          (Label.sign .percent, []) ∈ probes
      · obtain ⟨behind, tail_eq, remainder_eq, percent⟩ := digit
        exact isExact_of_digit same stops reads splits ends tail_eq remainder_eq percent
      · refine isExact_of_terminal same stops reads splits entry ?_
        exact fun behind tail_eq remainder_eq percent =>
          digit ⟨behind, tail_eq, remainder_eq, percent⟩

theorem isExact_of_matchSource {options : Options} {error : SyntaxError}
    (entry : start.isEntry = true)
    (found : (Parse.matchSource start source options).outcome =
      .error (.unmatched (.rejected error)))
    (shallow : error.tooDeep = false) : IsExact start source error := by
  cases excess : Nesting.firstExcess? options.maxDepth source with
  | some offset =>
      rw [matchSource_of_excess excess] at found
      cases found
      cases shallow
  | none =>
      by_cases room : options.HasRoom
      · rw [matchSource_of_shallow excess room] at found
        exact isExact_of_matchText entry (Report.mapError_unmatched_eq_error_iff.mp found)
      · rw [matchSource_of_full excess room] at found
        cases found

theorem matchSource_of_fragment {options : Options} {error : SyntaxError}
    {description rule : String}
    (found : (Parse.fragment start description rule source options).outcome =
      .error (.unmatched (.rejected error))) :
    (Parse.matchSource start source options).outcome = .error (.unmatched (.rejected error)) := by
  rcases Report.andThen_eq_error_iff.mp found with unmatched | ⟨value, _, single⟩
  · exact unmatched
  · split at single
    · split at single <;> cases single
    · cases single

theorem matchSource_of_tree {options : Options} {error : SyntaxError}
    (found : (Parse.tree source options).outcome = .error (.unmatched (.rejected error))) :
    (Parse.matchSource .program source options).outcome =
      .error (.unmatched (.rejected error)) := by
  rcases Report.andThen_eq_error_iff.mp found with unmatched | ⟨value, _, assembled⟩
  · exact unmatched
  · split at assembled <;> cases assembled

theorem ofOutcome_mapError_ne_unmatched {α : Type} {result : Except BuildError α}
    {cause : Peg.MatchError} :
    (Report.ofOutcome (result.mapError ParseError.unbuilt)).outcome ≠
      .error (.unmatched cause) := by
  cases result <;> simp [Report.ofOutcome]

/-- Every syntax error but that of too deep a nesting is exact, whatever is parsed. -/
theorem syntax_error_exact (source : Text) (options : Options) (error : SyntaxError) :
    ((Parse.program source options).outcome = .error (.unmatched (.rejected error)) →
        error.tooDeep = false → IsExact .program source error) ∧
      ((Parse.expression source options).outcome = .error (.unmatched (.rejected error)) →
        error.tooDeep = false → IsExact .expressionInput source error) ∧
      ((Parse.statement source options).outcome = .error (.unmatched (.rejected error)) →
        error.tooDeep = false → IsExact .statementInput source error) := by
  refine ⟨fun found => ?_, fun found => ?_, fun found => ?_⟩
  · rcases Report.andThen_eq_error_iff.mp found with untreed | ⟨node, _, unbuilt⟩
    · exact isExact_of_matchSource rfl (matchSource_of_tree untreed)
    · split at unbuilt <;> cases unbuilt
  · rcases Report.andThen_eq_error_iff.mp found with unmatched | ⟨node, _, unbuilt⟩
    · exact isExact_of_matchSource rfl (matchSource_of_fragment unmatched)
    · exact absurd unbuilt ofOutcome_mapError_ne_unmatched
  · rcases Report.andThen_eq_error_iff.mp found with unmatched | ⟨node, _, unbuilt⟩
    · exact isExact_of_matchSource rfl (matchSource_of_fragment unmatched)
    · exact absurd unbuilt ofOutcome_mapError_ne_unmatched

end Language

end QubitLang
