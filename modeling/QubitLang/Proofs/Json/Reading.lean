import QubitLang.Proofs.Json.Grammar

/-! Reading JSON. A text is read as a value exactly if the value can be written so; hence
no text stands for two values, and what is rendered is read back. -/

namespace QubitLang.Json

open Lexical (isBlank isDigits digits? afterPrefix? digits?_eq_some_iff isDigits_iff
  afterPrefix?_eq_some_iff)

variable {α : Type}

/-! ## Strings -/

def character? : Text → Option (Char × Text)
  | '\\' :: 'u' :: rest => do
    let (unit, rest) ← codeUnit? rest
    if IsHighSurrogate unit then
      match rest with
      | '\\' :: 'u' :: rest => do
        let (low, rest) ← codeUnit? rest
        if IsLowSurrogate low then some (ofSurrogates unit low, rest) else none
      | _ => none
    else if IsLowSurrogate unit then none
    else some (Char.ofNat unit, rest)
  | '\\' :: letter :: rest => (letterEscapes.lookup letter).map fun character => (character, rest)
  | first :: rest => if isPlain first then some (first, rest) else none
  | [] => none

/-- Splits off the characters of a string and the quotes behind it. There are at most as
many characters as the bound. -/
def characters? : (bound : Nat) → Text → Option (Text × Text)
  | 0, _ => none
  | bound + 1, source =>
    if source.head? = some '"' then some ([], source.tail)
    else do
      let (character, rest) ← character? source
      let (characters, rest) ← characters? bound rest
      some (character :: characters, rest)

def string? : Text → Option (Text × Text)
  | '"' :: rest => characters? rest.length rest
  | _ => none

theorem codeUnit?_append {digits rest : Text} {unit : Nat}
    (spelled : codeUnit? digits = some (unit, [])) :
    codeUnit? (digits ++ rest) = some (unit, rest) := by
  match digits, spelled with
  | [first, second, third, fourth], spelled =>
      simp only [codeUnit?, Option.bind_eq_bind, Option.bind_eq_some_iff, Option.pure_def,
        Option.some.injEq, Prod.mk.injEq, and_true, List.cons_append, List.nil_append] at spelled ⊢
      exact spelled
  | _ :: _ :: _ :: _ :: _ :: _, spelled =>
      simp [codeUnit?, Option.bind_eq_some_iff] at spelled

theorem exists_codeUnit {source rest : Text} {unit : Nat}
    (found : codeUnit? source = some (unit, rest)) :
    ∃ digits, source = digits ++ rest ∧ codeUnit? digits = some (unit, []) := by
  match source, found with
  | first :: second :: third :: fourth :: behind, found =>
      simp only [codeUnit?, Option.bind_eq_bind, Option.bind_eq_some_iff, Option.pure_def,
        Option.some.injEq, Prod.mk.injEq] at found
      obtain ⟨a, first_eq, b, second_eq, c, third_eq, d, fourth_eq, unit_eq, rfl⟩ := found
      refine ⟨[first, second, third, fourth], rfl, ?_⟩
      simp [codeUnit?, first_eq, second_eq, third_eq, fourth_eq, unit_eq]

theorem mem_letterEscapes_iff {letter character : Char} :
    (letter, character) ∈ letterEscapes ↔ letterEscapes.lookup letter = some character := by
  have own : ∀ escape ∈ letterEscapes, letterEscapes.lookup escape.1 = some escape.2 := by decide
  constructor
  · exact own (letter, character)
  · intro found
    obtain ⟨before, after, equal, _⟩ := List.lookup_eq_some_iff.mp found
    rw [equal]
    simp

theorem WritesCharacter.reads {character : Char} {spelling : Text}
    (written : WritesCharacter character spelling) (rest : Text) :
    character? (spelling ++ rest) = some (character, rest) := by
  cases written with
  | itself plain =>
      rw [List.singleton_append, character?, if_pos plain]
      · rintro _ rfl _
        cases plain
      · rintro _ _ rfl _
        cases plain
  | letter escape =>
      have found := mem_letterEscapes_iff.mp escape
      rw [List.cons_append, List.singleton_append, character?, found]
      · rfl
      · rintro rfl
        cases found
  | unit spelled notHigh notLow =>
      have found := @codeUnit?_append _ rest _ spelled
      simp [character?, found, notHigh, notLow]
  | @surrogates digits others high low spelled isHigh othersSpelled isLow =>
      have found := @codeUnit?_append _ ('\\' :: 'u' :: (others ++ rest)) _ spelled
      have othersFound := @codeUnit?_append _ rest _ othersSpelled
      simp [character?, found, isHigh, othersFound, isLow]

theorem exists_writesCharacter {character : Char} {source rest : Text}
    (found : character? source = some (character, rest)) :
    ∃ spelling, source = spelling ++ rest ∧ WritesCharacter character spelling := by
  unfold character? at found
  split at found
  · obtain ⟨⟨unit, behind⟩, unitFound, chosen⟩ := Option.bind_eq_some_iff.mp found
    obtain ⟨digits, rfl, spelled⟩ := exists_codeUnit unitFound
    dsimp only at chosen
    split at chosen
    · rename_i isHigh
      split at chosen
      · obtain ⟨⟨low, behind⟩, lowFound, paired⟩ := Option.bind_eq_some_iff.mp chosen
        obtain ⟨others, rfl, othersSpelled⟩ := exists_codeUnit lowFound
        obtain ⟨isLow, equal⟩ := Option.ite_none_right_eq_some.mp paired
        obtain ⟨rfl, rfl⟩ := Prod.mk.inj (Option.some.inj equal)
        exact ⟨'\\' :: 'u' :: (digits ++ '\\' :: 'u' :: others), by simp,
          .surrogates spelled isHigh othersSpelled isLow⟩
      · cases chosen
    · rename_i notHigh
      split at chosen
      · cases chosen
      · rename_i notLow
        obtain ⟨rfl, rfl⟩ := Prod.mk.inj (Option.some.inj chosen)
        exact ⟨'\\' :: 'u' :: digits, by simp, .unit spelled notHigh notLow⟩
  · obtain ⟨_, escape, equal⟩ := Option.map_eq_some_iff.mp found
    cases equal
    exact ⟨_, by simp, .letter (mem_letterEscapes_iff.mpr escape)⟩
  · rw [Option.ite_none_right_eq_some] at found
    obtain ⟨plain, equal⟩ := found
    cases equal
    exact ⟨_, by simp, .itself plain⟩
  · cases found

theorem WritesCharacter.exists_cons {character : Char} {spelling : Text}
    (written : WritesCharacter character spelling) :
    ∃ first more, spelling = first :: more ∧ first ≠ '"' := by
  cases written with
  | itself plain =>
      refine ⟨_, _, rfl, ?_⟩
      rintro rfl
      cases plain
  | letter _ | unit _ _ _ | surrogates _ _ _ _ => exact ⟨_, _, rfl, by decide⟩

theorem WritesCharacters.reads {characters spelling : Text}
    (written : WritesCharacters characters spelling) (rest : Text) :
    ∀ bound, spelling.length < bound →
      characters? bound (spelling ++ '"' :: rest) = some (characters, rest) := by
  induction written with
  | nil =>
      intro bound enough
      obtain ⟨smaller, rfl⟩ := Nat.exists_eq_add_one_of_ne_zero (Nat.ne_of_gt enough)
      rw [List.nil_append, characters?, List.head?_cons, if_pos rfl, List.tail_cons]
  | @cons character characters spelling others first later induction =>
      intro bound enough
      obtain ⟨smaller, rfl⟩ :=
        Nat.exists_eq_add_one_of_ne_zero (Nat.ne_of_gt (Nat.zero_lt_of_lt enough))
      obtain ⟨head, more, spelling_eq, noQuote⟩ := first.exists_cons
      have shorter : others.length < smaller := by
        rw [List.length_append, spelling_eq, List.length_cons] at enough
        omega
      have noEnd : (spelling ++ (others ++ '"' :: rest)).head? ≠ some '"' := by
        rw [spelling_eq]
        simpa using noQuote
      rw [List.append_assoc, characters?, if_neg noEnd, first.reads]
      simp [induction smaller shorter]

theorem exists_writesCharacters {bound : Nat} {characters source rest : Text}
    (found : characters? bound source = some (characters, rest)) :
    ∃ spelling, source = spelling ++ '"' :: rest ∧ WritesCharacters characters spelling := by
  induction bound generalizing characters source with
  | zero => cases found
  | succ bound induction =>
      rw [characters?] at found
      split at found
      · rename_i ends
        cases found
        obtain ⟨more, rfl⟩ := List.head?_eq_some_iff.mp ends
        exact ⟨[], rfl, .nil⟩
      · obtain ⟨⟨character, behind⟩, first, found⟩ := Option.bind_eq_some_iff.mp found
        obtain ⟨⟨others, last⟩, later, equal⟩ := Option.bind_eq_some_iff.mp found
        cases equal
        obtain ⟨spelling, rfl, written⟩ := exists_writesCharacter first
        obtain ⟨more, rfl, othersWritten⟩ := induction later
        exact ⟨spelling ++ more, by simp, .cons written othersWritten⟩

theorem WritesString.reads {characters spelling : Text}
    (written : WritesString characters spelling) (rest : Text) :
    string? (spelling ++ rest) = some (characters, rest) := by
  obtain ⟨inside, insideWritten, rfl⟩ := written
  have enough : inside.length < (inside ++ '"' :: rest).length := by
    rw [List.length_append, List.length_cons]
    omega
  have found := insideWritten.reads rest _ enough
  rwa [List.cons_append, List.append_assoc, List.singleton_append, string?]

theorem exists_writesString {characters source rest : Text}
    (found : string? source = some (characters, rest)) :
    ∃ spelling, source = spelling ++ rest ∧ WritesString characters spelling := by
  unfold string? at found
  split at found
  · obtain ⟨inside, rfl, written⟩ := exists_writesCharacters found
    exact ⟨'"' :: (inside ++ ['"']), by simp, inside, written, rfl⟩
  · cases found

/-! ## Numbers -/

def natural? (source : Text) : Option (Nat × Text) := do
  let (digits, rest) ← digits? source
  if isNatural digits then some (digitsValue digits, rest) else none

def integer? : Text → Option (Int × Text)
  | '-' :: rest => (natural? rest).map fun (magnitude, rest) => (-magnitude, rest)
  | source => (natural? source).map fun (magnitude, rest) => (magnitude, rest)

def endsNumber : Text → Bool
  | [] => true
  | first :: _ => !first.isDigit

theorem isDigits_of_isNatural {digits : Text} (natural : isNatural digits = true) :
    isDigits digits = true :=
  (Bool.and_eq_true_iff.mp natural).1

theorem natural?_append {digits rest : Text} (natural : isNatural digits = true)
    (ends : endsNumber rest = true) :
    natural? (digits ++ rest) = some (digitsValue digits, rest) := by
  obtain ⟨nonempty, all⟩ := isDigits_iff.mp (isDigits_of_isNatural natural)
  have each := List.all_eq_true.mp all
  have none : rest.takeWhile Char.isDigit = [] ∧ rest.dropWhile Char.isDigit = rest := by
    cases rest with
    | nil => exact ⟨rfl, rfl⟩
    | cons first rest =>
        have stops : first.isDigit = false := by simpa [endsNumber] using ends
        simp [stops]
  have found : digits? (digits ++ rest) = some (digits, rest) := by
    refine digits?_eq_some_iff.mpr ⟨?_, ?_, nonempty⟩
    · rw [List.takeWhile_append_of_pos each, none.1, List.append_nil]
    · rw [List.dropWhile_append_of_pos each, none.2]
  rw [natural?, found]
  exact if_pos natural

theorem exists_isNatural {source rest : Text} {number : Nat}
    (found : natural? source = some (number, rest)) :
    ∃ digits, source = digits ++ rest ∧ isNatural digits = true ∧ digitsValue digits = number := by
  obtain ⟨⟨digits, behind⟩, digitsFound, decided⟩ := Option.bind_eq_some_iff.mp found
  obtain ⟨natural, equal⟩ := Option.ite_none_right_eq_some.mp decided
  obtain ⟨rfl, rfl⟩ := Prod.mk.inj (Option.some.inj equal)
  exact ⟨digits, Lexical.eq_append_of_digits? digitsFound, natural, rfl⟩

theorem WritesInteger.reads {value : Int} {spelling rest : Text}
    (written : WritesInteger value spelling) (ends : endsNumber rest = true) :
    integer? (spelling ++ rest) = some (value, rest) := by
  cases written with
  | natural natural =>
      have found := natural?_append natural ends
      obtain ⟨nonempty, all⟩ := isDigits_iff.mp (isDigits_of_isNatural natural)
      rw [integer?, found]
      · rfl
      · intro behind equal
        obtain ⟨first, more, rfl⟩ := List.exists_cons_of_ne_nil nonempty
        cases equal
        cases all
  | negative natural =>
      have found := natural?_append natural ends
      rw [List.cons_append, integer?, found]
      rfl

theorem exists_writesInteger {value : Int} {source rest : Text}
    (found : integer? source = some (value, rest)) :
    ∃ spelling, source = spelling ++ rest ∧ WritesInteger value spelling := by
  unfold integer? at found
  split at found
  · obtain ⟨⟨number, behind⟩, numberFound, equal⟩ := Option.map_eq_some_iff.mp found
    obtain ⟨rfl, rfl⟩ := Prod.mk.inj equal
    obtain ⟨digits, rfl, natural, rfl⟩ := exists_isNatural numberFound
    exact ⟨'-' :: digits, rfl, .negative natural⟩
  · obtain ⟨⟨number, behind⟩, numberFound, equal⟩ := Option.map_eq_some_iff.mp found
    obtain ⟨rfl, rfl⟩ := Prod.mk.inj equal
    obtain ⟨digits, rfl, natural, rfl⟩ := exists_isNatural numberFound
    exact ⟨digits, rfl, .natural natural⟩

/-! ## Blanks -/

def skip (source : Text) : Text := source.dropWhile isBlank

def padded? (reader : Text → Option (α × Text)) (source : Text) : Option (α × Text) :=
  (reader (skip source)).map fun (value, rest) => (value, skip rest)

/-- Whether a text begins with what neither goes on with a number nor is blank. -/
def isSolid : Text → Bool
  | [] => true
  | first :: _ => !isBlank first && !first.isDigit

theorem skip_append {blanks : Text} (isBlanks : blanks.all isBlank = true) (rest : Text) :
    skip (blanks ++ rest) = skip rest := by
  rw [skip, List.dropWhile_append_of_pos (List.all_eq_true.mp isBlanks), skip]

theorem skip_of_isSolid {source : Text} (solid : isSolid source = true) : skip source = source := by
  cases source with
  | nil => rfl
  | cons first rest =>
      rw [isSolid, Bool.and_eq_true, Bool.not_eq_true'] at solid
      rw [skip, List.dropWhile_cons, solid.1, if_neg Bool.false_ne_true]

theorem exists_skip_eq (source : Text) :
    ∃ blanks, blanks.all isBlank = true ∧ source = blanks ++ skip source :=
  ⟨source.takeWhile isBlank, List.all_takeWhile, List.takeWhile_append_dropWhile.symm⟩

theorem endsNumber_append {blanks rest : Text} (isBlanks : blanks.all isBlank = true)
    (solid : isSolid rest = true) : endsNumber (blanks ++ rest) = true := by
  cases blanks with
  | nil =>
      cases rest with
      | nil => rfl
      | cons first rest =>
          rw [isSolid, Bool.and_eq_true] at solid
          exact solid.2
  | cons blank blanks =>
      rw [List.all_cons, Bool.and_eq_true] at isBlanks
      have first := isBlanks.1
      simp only [isBlank, Bool.or_eq_true, beq_iff_eq, or_assoc] at first
      rcases first with rfl | rfl | rfl | rfl <;> rfl

/-! ## Readers

What a reader takes from the head of a text, and what it takes must be a way to write
the value that it gives. -/

/-- A reader takes every way to write a value, up to a length, if what follows allows it. -/
def Takes (ends : Text → Bool) (limit : Nat) (reader : Text → Option (α × Text))
    (writes : Text → Prop) (value : α) : Prop :=
  ∀ spelling rest, writes spelling → spelling.length ≤ limit → ends rest = true →
    reader (spelling ++ rest) = some (value, rest)

/-- A reader takes nothing but ways to write the value that it gives. -/
def IsSound (reader : Text → Option (α × Text)) (writes : α → Text → Prop) : Prop :=
  ∀ source value rest, reader source = some (value, rest) →
    ∃ spelling, source = spelling ++ rest ∧ writes value spelling

def startsPart (character : Char) : Bool :=
  !isBlank character && character != ']' && character != '\x7d'

def StartsPart (spelling : Text) : Prop :=
  ∃ first more, spelling = first :: more ∧ startsPart first = true

theorem StartsPart.skip_eq {spelling : Text} (starts : StartsPart spelling) :
    skip spelling = spelling := by
  obtain ⟨first, more, rfl, startsFirst⟩ := starts
  simp only [startsPart, Bool.and_eq_true, Bool.not_eq_true'] at startsFirst
  simp [skip, startsFirst.1.1]

theorem StartsPart.append {spelling : Text} (starts : StartsPart spelling) (rest : Text) :
    StartsPart (spelling ++ rest) := by
  obtain ⟨first, more, rfl, startsFirst⟩ := starts
  exact ⟨first, more ++ rest, rfl, startsFirst⟩

theorem StartsPart.skip_append {spelling : Text} (starts : StartsPart (skip spelling))
    (rest : Text) : skip (spelling ++ rest) = skip spelling ++ rest := by
  obtain ⟨blanks, isBlanks, spelling_eq⟩ := exists_skip_eq spelling
  conv_lhs => rw [spelling_eq, List.append_assoc, Json.skip_append isBlanks]
  exact (starts.append rest).skip_eq

theorem startsPart_of_padded {writes : Text → Prop} {spelling : Text}
    (starts : ∀ inside, writes inside → StartsPart inside) (written : Padded writes spelling) :
    StartsPart (skip spelling) := by
  obtain ⟨before, inside, after, blanksBefore, _, insideWritten, rfl⟩ := written
  have startsInside := (starts inside insideWritten).append after
  rwa [skip_append blanksBefore, startsInside.skip_eq]

theorem startsPart_of_named {key : Text} {writes : Text → Prop} {spelling : Text}
    (written : Named key writes spelling) : StartsPart (skip spelling) := by
  obtain ⟨name, inside, nameWritten, _, rfl⟩ := written
  have starts : StartsPart (skip name) := by
    refine startsPart_of_padded ?_ nameWritten
    rintro _ ⟨characters, _, rfl⟩
    exact ⟨'"', _, rfl, rfl⟩
  rw [starts.skip_append]
  exact starts.append _

theorem takes_padded {reader : Text → Option (α × Text)} {writes : Text → Prop} {value : α}
    {limit : Nat} (takes : Takes endsNumber limit reader writes value)
    (starts : ∀ inside, writes inside → StartsPart inside) :
    Takes isSolid limit (padded? reader) (Padded writes) value := by
  rintro _ rest ⟨before, inside, after, blanksBefore, blanksAfter, written, rfl⟩ short solid
  have insideShort : inside.length ≤ limit := by
    simp only [List.length_append] at short
    omega
  have skipped : skip (before ++ (inside ++ after) ++ rest) = inside ++ (after ++ rest) := by
    rw [List.append_assoc, skip_append blanksBefore, List.append_assoc,
      ((starts inside written).append _).skip_eq]
  have found :=
    takes inside (after ++ rest) written insideShort (endsNumber_append blanksAfter solid)
  have skippedRest : skip (after ++ rest) = rest := by
    rw [skip_append blanksAfter, skip_of_isSolid solid]
  simp only [padded?, skipped, found, Option.map_some, skippedRest]

theorem IsSound.padded {reader : Text → Option (α × Text)} {writes : α → Text → Prop}
    (sound : IsSound reader writes) :
    IsSound (padded? reader) fun value => Padded (writes value) := by
  intro source value rest found
  obtain ⟨⟨_, behind⟩, inside, equal⟩ := Option.map_eq_some_iff.mp found
  obtain ⟨rfl, rfl⟩ := Prod.mk.inj equal
  obtain ⟨before, blanksBefore, source_eq⟩ := exists_skip_eq source
  obtain ⟨after, blanksAfter, behind_eq⟩ := exists_skip_eq behind
  obtain ⟨spelling, skipped, written⟩ := sound _ _ _ inside
  refine ⟨before ++ (spelling ++ after), ?_, before, spelling, after, blanksBefore, blanksAfter,
    written, rfl⟩
  rw [List.append_assoc, List.append_assoc, ← behind_eq, ← skipped, ← source_eq]

/-! ## Lists -/

/-- Splits off parts with commas between them, and the mark behind the last one. There are
at most as many parts as the bound. -/
def items? (closing : Char) (item? : Text → Option (α × Text)) :
    (bound : Nat) → Text → Option (List α × Text)
  | 0, _ => none
  | bound + 1, source =>
    match item? source with
    | some (first, mark :: rest) =>
      if mark = closing then some ([first], rest)
      else if mark = ',' then
        (items? closing item? bound rest).map fun (others, rest) => (first :: others, rest)
      else none
    | _ => none

def list? (closing : Char) (item? : Text → Option (α × Text)) (source : Text) :
    Option (List α × Text) :=
  match skip source with
  | [] => none
  | mark :: rest =>
    if mark = closing then some ([], rest) else items? closing item? source.length source

section

variable {closing : Char} {item? : Text → Option (α × Text)} {writes : α → Text → Prop}
  {values : List α} {inside rest : Text} {limit bound : Nat}

theorem items?_append (isClosing : closing = ']' ∨ closing = '\x7d')
    (takes : ∀ value ∈ values, Takes isSolid limit item? (writes value) value)
    (nonempty : values ≠ []) (separated : CommaSeparated (values.map writes) inside)
    (short : inside.length ≤ limit) (enough : inside.length < bound) :
    items? closing item? bound (inside ++ closing :: rest) = some (values, rest) := by
  have solid : isSolid (closing :: rest) = true := by
    rcases isClosing with rfl | rfl <;> rfl
  have noComma : ',' ≠ closing := by
    rcases isClosing with rfl | rfl <;> decide
  induction values generalizing inside bound with
  | nil => exact absurd rfl nonempty
  | cons value values induction =>
      obtain ⟨smaller, rfl⟩ := Nat.exists_eq_add_one_of_ne_zero
        (Nat.ne_of_gt (Nat.zero_lt_of_lt enough))
      rw [List.forall_mem_cons] at takes
      cases values with
      | nil =>
          have found := takes.1 inside (closing :: rest) separated short solid
          simp [items?, found]
      | cons next values =>
          obtain ⟨first, others, written, othersSeparated, rfl⟩ := separated
          rw [List.length_append, List.length_cons] at short enough
          have found := takes.1 first (',' :: (others ++ closing :: rest)) written (by omega) rfl
          have later := @induction others smaller takes.2 (List.cons_ne_nil _ _) othersSeparated
            (by omega) (by omega)
          simp [items?, found, noComma, later]

theorem list?_append (isClosing : closing = ']' ∨ closing = '\x7d')
    (takes : ∀ value ∈ values, Takes isSolid limit item? (writes value) value)
    (starts : ∀ value spelling, writes value spelling → StartsPart (skip spelling))
    (separated : CommaSeparated (values.map writes) inside) (short : inside.length ≤ limit) :
    list? closing item? (inside ++ closing :: rest) = some (values, rest) := by
  cases values with
  | nil =>
      have solid : isSolid (closing :: rest) = true := by
        rcases isClosing with rfl | rfl <;> rfl
      simp [list?, skip_append separated, skip_of_isSolid solid]
  | cons value values =>
      have startsInside : StartsPart (skip inside) := by
        cases values with
        | nil => exact starts value inside separated
        | cons next values =>
            obtain ⟨head, others, written, _, rfl⟩ := separated
            have startsHead := starts value head written
            rw [startsHead.skip_append]
            exact startsHead.append _
      have longer : inside.length < (inside ++ closing :: rest).length := by simp
      have found := @items?_append _ _ _ _ _ _ rest _ _ isClosing takes (List.cons_ne_nil _ _)
        separated short longer
      obtain ⟨first, more, skipped, startsFirst⟩ := startsInside.append (closing :: rest)
      have noEnd : first ≠ closing := by
        rintro rfl
        rcases isClosing with rfl | rfl <;> cases startsFirst
      rw [list?, startsInside.skip_append, skipped]
      simp only [if_neg noEnd]
      exact found

theorem exists_of_items? (sound : IsSound item? writes) {source : Text}
    (found : items? closing item? bound source = some (values, rest)) :
    values ≠ [] ∧ ∃ inside, source = inside ++ closing :: rest ∧
      CommaSeparated (values.map writes) inside := by
  induction bound generalizing source values with
  | zero => cases found
  | succ bound induction =>
      rw [items?] at found
      split at found
      · rename_i first mark behind firstFound
        obtain ⟨spelling, rfl, written⟩ := sound _ _ _ firstFound
        split at found
        · rename_i ends
          obtain ⟨rfl, rfl⟩ := Prod.mk.inj (Option.some.inj found)
          exact ⟨List.cons_ne_nil _ _, spelling, by rw [ends], written⟩
        · rw [Option.ite_none_right_eq_some] at found
          obtain ⟨rfl, mapped⟩ := found
          obtain ⟨⟨others, last⟩, othersFound, equal⟩ := Option.map_eq_some_iff.mp mapped
          obtain ⟨rfl, rfl⟩ := Prod.mk.inj equal
          obtain ⟨nonempty, inside, rfl, separated⟩ := induction othersFound
          obtain ⟨next, others, rfl⟩ := List.exists_cons_of_ne_nil nonempty
          exact ⟨List.cons_ne_nil _ _, spelling ++ ',' :: inside, by simp, spelling, inside,
            written, separated, rfl⟩
      · cases found

theorem exists_of_list? (sound : IsSound item? writes) {source : Text}
    (found : list? closing item? source = some (values, rest)) :
    ∃ inside, source = inside ++ closing :: rest ∧
      CommaSeparated (values.map writes) inside := by
  unfold list? at found
  split at found
  · cases found
  · rename_i mark behind skipped
    split at found
    · rename_i ends
      obtain ⟨rfl, rfl⟩ := Prod.mk.inj (Option.some.inj found)
      obtain ⟨blanks, isBlanks, source_eq⟩ := exists_skip_eq source
      rw [skipped, ends] at source_eq
      exact ⟨blanks, source_eq, isBlanks⟩
    · exact (exists_of_items? sound found).2

end

/-! ## Values -/

def named? (reader : Text → Option (α × Text)) (source : Text) : Option ((Text × α) × Text) :=
  match padded? string? source with
  | some (key, ':' :: rest) => (padded? reader rest).map fun (value, rest) => ((key, value), rest)
  | _ => none

def scalar? (source : Text) : Option (Json × Text) :=
  match string? source with
  | some (characters, rest) => some (.text characters, rest)
  | none =>
    match afterPrefix? ['n', 'u', 'l', 'l'] source with
    | some rest => some (.null, rest)
    | none => (integer? source).map fun (value, rest) => (.number value, rest)

/-- Splits off a value in which lists and objects nest no deeper than the bound. -/
def value? : (depth : Nat) → Text → Option (Json × Text)
  | 0, _ => none
  | depth + 1, source =>
    match source with
    | '[' :: rest =>
      (list? ']' (padded? (value? depth)) rest).map fun (items, rest) => (.array items, rest)
    | '\x7b' :: rest =>
      (list? '\x7d' (named? (value? depth)) rest).map fun (members, rest) => (.object members, rest)
    | _ => scalar? source

def read? (source : Text) : Option Json :=
  match padded? (value? source.length) source with
  | some (value, []) => some value
  | _ => none

theorem takes_named {reader : Text → Option (α × Text)} {writes : Text → Prop} {value : α}
    {limit : Nat} (key : Text) (takes : Takes endsNumber limit reader writes value)
    (starts : ∀ inside, writes inside → StartsPart inside) :
    Takes isSolid limit (named? reader) (Named key writes) (key, value) := by
  rintro _ rest ⟨name, inside, nameWritten, valueWritten, rfl⟩ short solid
  rw [List.length_append, List.length_cons] at short
  have strings : Takes endsNumber limit string? (WritesString key) key :=
    fun _ _ written _ _ => written.reads _
  have startsString : ∀ spelling, WritesString key spelling → StartsPart spelling := by
    rintro _ ⟨characters, _, rfl⟩
    exact ⟨'"', _, rfl, rfl⟩
  have nameFound := takes_padded strings startsString name (':' :: (inside ++ rest)) nameWritten
    (by omega) rfl
  have valueFound := takes_padded takes starts inside rest valueWritten (by omega) solid
  simp [named?, nameFound, valueFound]

theorem IsSound.named {reader : Text → Option (α × Text)} {writes : α → Text → Prop}
    (sound : IsSound reader writes) :
    IsSound (named? reader) fun member => Named member.1 (writes member.2) := by
  intro source member rest found
  unfold named? at found
  split at found
  · rename_i key behind keyFound
    obtain ⟨⟨value, last⟩, valueFound, equal⟩ := Option.map_eq_some_iff.mp found
    obtain ⟨rfl, rfl⟩ := Prod.mk.inj equal
    have strings : IsSound string? WritesString := fun _ _ _ found => exists_writesString found
    obtain ⟨name, rfl, nameWritten⟩ := strings.padded _ _ _ keyFound
    obtain ⟨inside, rfl, valueWritten⟩ := sound.padded _ _ _ valueFound
    exact ⟨name ++ ':' :: inside, by simp, name, inside, nameWritten, valueWritten, rfl⟩
  · cases found

theorem writesItems_eq_map (items : List Json) :
    writesItems items = items.map fun item => Padded (Writes item) := by
  induction items with
  | nil => rw [writesItems, List.map_nil]
  | cons item rest induction => rw [writesItems, induction, List.map_cons]

theorem writesMembers_eq_map (members : List (Text × Json)) :
    writesMembers members = members.map fun member => Named member.1 (Writes member.2) := by
  induction members with
  | nil => rw [writesMembers, List.map_nil]
  | cons member rest induction =>
      obtain ⟨key, value⟩ := member
      rw [writesMembers, induction, List.map_cons]

theorem WritesInteger.exists_cons {value : Int} {spelling : Text}
    (written : WritesInteger value spelling) :
    ∃ first more, spelling = first :: more ∧ (first = '-' ∨ first.isDigit = true) := by
  cases written with
  | natural natural =>
      obtain ⟨nonempty, all⟩ := isDigits_iff.mp (isDigits_of_isNatural natural)
      obtain ⟨first, more, rfl⟩ := List.exists_cons_of_ne_nil nonempty
      rw [List.all_cons, Bool.and_eq_true] at all
      exact ⟨first, more, rfl, .inr all.1⟩
  | negative _ => exact ⟨'-', _, rfl, .inl rfl⟩

theorem startsPart_of_writes : ∀ {value : Json} {spelling : Text}, Writes value spelling →
    StartsPart spelling
  | .null, _, written => by
      rw [Writes] at written
      exact ⟨'n', _, written, rfl⟩
  | .number value, _, written => by
      rw [Writes] at written
      obtain ⟨first, more, rfl, isFirst⟩ := written.exists_cons
      refine ⟨first, more, rfl, ?_⟩
      rcases isFirst with rfl | digit
      · rfl
      · rw [startsPart, Bool.and_eq_true, Bool.and_eq_true, bne_iff_ne, bne_iff_ne]
        refine ⟨⟨?_, ?_⟩, ?_⟩
        · simp only [isBlank, Bool.not_eq_true', Bool.or_eq_false_iff, beq_eq_false_iff_ne]
          refine ⟨⟨⟨?_, ?_⟩, ?_⟩, ?_⟩ <;> (rintro rfl; cases digit)
        · rintro rfl
          cases digit
        · rintro rfl
          cases digit
  | .text characters, _, written => by
      rw [Writes] at written
      obtain ⟨inside, _, rfl⟩ := written
      exact ⟨'"', _, rfl, rfl⟩
  | .array items, _, written => by
      rw [Writes] at written
      obtain ⟨inside, _, rfl⟩ := written
      exact ⟨'[', _, rfl, rfl⟩
  | .object members, _, written => by
      rw [Writes] at written
      obtain ⟨inside, _, rfl⟩ := written
      exact ⟨'\x7b', _, rfl, rfl⟩

/-- The bound on the nesting is enough if it is the length of the text. -/
theorem takes_value? : ∀ depth value, Takes endsNumber depth (value? depth) (Writes value) value
  | 0, value, spelling, rest, written, short, _ => by
      obtain ⟨first, more, rfl, _⟩ := startsPart_of_writes written
      cases short
  | depth + 1, .null, _, rest, written, _, _ => by
      rw [Writes] at written
      subst written
      rfl
  | depth + 1, .number value, _, rest, written, _, ends => by
      rw [Writes] at written
      have found := written.reads ends
      obtain ⟨first, more, rfl, isFirst⟩ := written.exists_cons
      have noOther : ∀ other, other ≠ '-' → other.isDigit = false → first ≠ other := by
        rintro _ noSign noDigit rfl
        simp [noSign, noDigit] at isFirst
      rw [List.cons_append] at found ⊢
      have noString : string? (first :: (more ++ rest)) = none := by
        rw [string?]
        rintro _ equal
        exact noOther '"' (by decide) rfl (List.cons.inj equal).1
      have noNull : afterPrefix? ['n', 'u', 'l', 'l'] (first :: (more ++ rest)) = none := by
        rw [Lexical.afterPrefix?, if_neg (noOther 'n' (by decide) rfl).symm]
      rw [value?, scalar?, noString]
      · simp only [noNull, found, Option.map_some]
      · rintro _ equal
        exact noOther '[' (by decide) rfl (List.cons.inj equal).1
      · rintro _ equal
        exact noOther '\x7b' (by decide) rfl (List.cons.inj equal).1
  | depth + 1, .text characters, _, rest, written, _, _ => by
      rw [Writes] at written
      have found := written.reads rest
      obtain ⟨inside, _, rfl⟩ := written
      rw [List.cons_append] at found ⊢
      rw [value?, scalar?, found]
      · simp
      · simp
  | depth + 1, .array items, _, rest, written, short, _ => by
      rw [Writes, writesItems_eq_map] at written
      obtain ⟨inside, separated, rfl⟩ := written
      have found := @list?_append _ ']' (padded? (value? depth)) (fun item => Padded (Writes item))
        items inside rest depth (.inl rfl)
        (fun item _ => takes_padded (takes_value? depth item) fun _ => startsPart_of_writes)
        (fun item _ => startsPart_of_padded fun _ => startsPart_of_writes) separated
        (by simp at short; omega)
      rw [List.cons_append, List.append_assoc, List.singleton_append]
      simp only [value?, found, Option.map_some]
  | depth + 1, .object members, _, rest, written, short, _ => by
      rw [Writes, writesMembers_eq_map] at written
      obtain ⟨inside, separated, rfl⟩ := written
      have found := @list?_append _ '\x7d' (named? (value? depth))
        (fun member => Named member.1 (Writes member.2)) members inside rest depth (.inr rfl)
        (fun member _ => takes_named member.1 (takes_value? depth member.2)
          fun _ => startsPart_of_writes)
        (fun member _ => startsPart_of_named) separated (by simp at short; omega)
      rw [List.cons_append, List.append_assoc, List.singleton_append]
      simp only [value?, found, Option.map_some]

theorem isSound_scalar? : IsSound scalar? Writes := by
  intro source value rest found
  unfold scalar? at found
  split at found
  · rename_i stringFound
    obtain ⟨rfl, rfl⟩ := Prod.mk.inj (Option.some.inj found)
    obtain ⟨spelling, source_eq, written⟩ := exists_writesString stringFound
    refine ⟨spelling, source_eq, ?_⟩
    rwa [Writes]
  · split at found
    · rename_i behind nullFound
      obtain ⟨rfl, rfl⟩ := Prod.mk.inj (Option.some.inj found)
      refine ⟨_, (afterPrefix?_eq_some_iff.mp nullFound), ?_⟩
      rw [Writes]
    · obtain ⟨⟨integer, behind⟩, integerFound, equal⟩ := Option.map_eq_some_iff.mp found
      obtain ⟨rfl, rfl⟩ := Prod.mk.inj equal
      obtain ⟨spelling, source_eq, written⟩ := exists_writesInteger integerFound
      refine ⟨spelling, source_eq, ?_⟩
      rwa [Writes]

theorem isSound_value? : ∀ depth, IsSound (value? depth) Writes
  | 0, _, _, _, found => by cases found
  | depth + 1, source, value, rest, found => by
      have smaller := isSound_value? depth
      unfold value? at found
      split at found
      · obtain ⟨⟨items, behind⟩, itemsFound, equal⟩ := Option.map_eq_some_iff.mp found
        obtain ⟨rfl, rfl⟩ := Prod.mk.inj equal
        obtain ⟨inside, rfl, separated⟩ := exists_of_list? smaller.padded itemsFound
        refine ⟨'[' :: (inside ++ [']']), by simp, ?_⟩
        rw [Writes, writesItems_eq_map]
        exact ⟨inside, separated, rfl⟩
      · obtain ⟨⟨members, behind⟩, membersFound, equal⟩ := Option.map_eq_some_iff.mp found
        obtain ⟨rfl, rfl⟩ := Prod.mk.inj equal
        obtain ⟨inside, rfl, separated⟩ := exists_of_list? smaller.named membersFound
        refine ⟨'\x7b' :: (inside ++ ['\x7d']), by simp, ?_⟩
        rw [Writes, writesMembers_eq_map]
        exact ⟨inside, separated, rfl⟩
      · exact isSound_scalar? _ _ _ found

/-! ## Texts -/

theorem read?_eq_some_iff {source : Text} {value : Json} :
    read? source = some value ↔ Padded (Writes value) source := by
  constructor
  · intro found
    unfold read? at found
    split at found
    · rename_i other valueFound
      obtain rfl := Option.some.inj found
      obtain ⟨spelling, rfl, written⟩ := (isSound_value? _).padded _ _ _ valueFound
      rwa [List.append_nil]
    · cases found
  · intro written
    have found := takes_padded (takes_value? source.length value)
      (fun _ => startsPart_of_writes) source [] written le_rfl rfl
    rw [List.append_nil] at found
    rw [read?, found]

theorem eq_of_padded_writes {source : Text} {value other : Json}
    (written : Padded (Writes value) source) (otherWritten : Padded (Writes other) source) :
    other = value := by
  have found := read?_eq_some_iff.mpr written
  rw [read?_eq_some_iff.mpr otherWritten] at found
  exact Option.some.inj found

theorem padded_writes_render (indent : Option Nat) (value : Json) :
    Padded (Writes value) (value.render indent) :=
  ⟨[], _, [], rfl, rfl, writes_renderAt ⟨indent⟩ 0 value, by simp [render]⟩

theorem read?_render (indent : Option Nat) (value : Json) :
    read? (value.render indent) = some value :=
  read?_eq_some_iff.mpr (padded_writes_render indent value)

end QubitLang.Json
