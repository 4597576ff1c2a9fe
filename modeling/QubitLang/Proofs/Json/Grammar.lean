import Mathlib.Data.List.Forall2
import QubitLang.Json
import QubitLang.Proofs.Ast.Tokens

/-! The grammar of JSON: which texts a value can be written as. Blanks may stand around
every value and every name, and any character of a string may be escaped. Rendering
writes values in this grammar, whatever the layout. -/

namespace QubitLang.Json

open Lexical (isBlank isDigits)

/-! ## Strings -/

/-- The letters that stand for a character behind a backslash. -/
def letterEscapes : List (Char × Char) :=
  [('"', '"'), ('\\', '\\'), ('/', '/'), ('b', '\x08'), ('f', '\x0c'), ('n', '\n'), ('r', '\r'),
    ('t', '\t')]

def hexDigit? (digit : Char) : Option Nat :=
  if digit.isDigit then some (digit.toNat - '0'.toNat)
  else if 'a' ≤ digit ∧ digit ≤ 'f' then some (digit.toNat - 'a'.toNat + 10)
  else if 'A' ≤ digit ∧ digit ≤ 'F' then some (digit.toNat - 'A'.toNat + 10)
  else none

def codeUnit? : Text → Option (Nat × Text)
  | first :: second :: third :: fourth :: rest => do
    let first ← hexDigit? first
    let second ← hexDigit? second
    let third ← hexDigit? third
    let fourth ← hexDigit? fourth
    return (((first * 16 + second) * 16 + third) * 16 + fourth, rest)
  | _ => none

/-- Whether a number is the first half of a character that is written as two. -/
def IsHighSurrogate (unit : Nat) : Prop := 0xD800 ≤ unit ∧ unit < 0xDC00

def IsLowSurrogate (unit : Nat) : Prop := 0xDC00 ≤ unit ∧ unit < 0xE000

instance (unit : Nat) : Decidable (IsHighSurrogate unit) :=
  inferInstanceAs (Decidable (_ ∧ _))

instance (unit : Nat) : Decidable (IsLowSurrogate unit) :=
  inferInstanceAs (Decidable (_ ∧ _))

def ofSurrogates (high low : Nat) : Char :=
  Char.ofNat (0x10000 + (high - 0xD800) * 0x400 + (low - 0xDC00))

def isPlain (character : Char) : Bool :=
  character != '"' && character != '\\' && decide (0x20 ≤ character.toNat)

inductive WritesCharacter : Char → Text → Prop where
  | itself {character : Char} (plain : isPlain character = true) :
      WritesCharacter character [character]
  | letter {letter character : Char} (escape : (letter, character) ∈ letterEscapes) :
      WritesCharacter character ['\\', letter]
  | unit {digits : Text} {unit : Nat} (spelled : codeUnit? digits = some (unit, []))
      (notHigh : ¬ IsHighSurrogate unit) (notLow : ¬ IsLowSurrogate unit) :
      WritesCharacter (Char.ofNat unit) ('\\' :: 'u' :: digits)
  | surrogates {digits others : Text} {high low : Nat}
      (spelled : codeUnit? digits = some (high, [])) (isHigh : IsHighSurrogate high)
      (othersSpelled : codeUnit? others = some (low, [])) (isLow : IsLowSurrogate low) :
      WritesCharacter (ofSurrogates high low)
        ('\\' :: 'u' :: (digits ++ '\\' :: 'u' :: others))

inductive WritesCharacters : Text → Text → Prop where
  | nil : WritesCharacters [] []
  | cons {character : Char} {characters spelling others : Text}
      (first : WritesCharacter character spelling)
      (later : WritesCharacters characters others) :
      WritesCharacters (character :: characters) (spelling ++ others)

def WritesString (characters spelling : Text) : Prop :=
  ∃ inside, WritesCharacters characters inside ∧ spelling = '"' :: (inside ++ ['"'])

/-! ## Numbers -/

/-- Whether digits write a natural number, which has no zeros in front. -/
def isNatural (digits : Text) : Bool :=
  isDigits digits && (digits.head? != some '0' || digits == ['0'])

/-- The ways to write an integer. Zero may have a sign. -/
inductive WritesInteger : Int → Text → Prop where
  | natural {digits : Text} (natural : isNatural digits = true) :
      WritesInteger (digitsValue digits) digits
  | negative {digits : Text} (natural : isNatural digits = true) :
      WritesInteger (-digitsValue digits) ('-' :: digits)

/-! ## Values -/

/-- Something with blanks around it. -/
def Padded (writes : Text → Prop) (spelling : Text) : Prop :=
  ∃ before inside after, before.all isBlank = true ∧ after.all isBlank = true ∧ writes inside ∧
    spelling = before ++ (inside ++ after)

def CommaSeparated : List (Text → Prop) → Text → Prop
  | [], spelling => spelling.all isBlank = true
  | [part], spelling => part spelling
  | part :: next :: parts, spelling =>
    ∃ first others, part first ∧ CommaSeparated (next :: parts) others ∧
      spelling = first ++ ',' :: others

def Bracketed (opening closing : Char) (parts : List (Text → Prop)) (spelling : Text) : Prop :=
  ∃ inside, CommaSeparated parts inside ∧ spelling = opening :: (inside ++ [closing])

def Named (key : Text) (value : Text → Prop) (spelling : Text) : Prop :=
  ∃ name inside, Padded (WritesString key) name ∧ Padded value inside ∧
    spelling = name ++ ':' :: inside

mutual

def Writes : Json → Text → Prop
  | .null => (· = ['n', 'u', 'l', 'l'])
  | .number value => WritesInteger value
  | .text characters => WritesString characters
  | .array items => Bracketed '[' ']' (writesItems items)
  | .object members => Bracketed '\x7b' '\x7d' (writesMembers members)

def writesItems : List Json → List (Text → Prop)
  | [] => []
  | item :: rest => Padded (Writes item) :: writesItems rest

def writesMembers : List (Text × Json) → List (Text → Prop)
  | [] => []
  | (key, value) :: rest => Named key (Writes value) :: writesMembers rest

end

/-! ## Rendering strings and numbers -/

theorem codeUnit?_hexadecimal : ∀ unit < 0x20,
    codeUnit? (Text.hexadecimal 4 unit) = some (unit, []) := by
  decide

theorem writesCharacter_escaped (character : Char) :
    WritesCharacter character (escaped character) := by
  unfold escaped
  split_ifs with quote backslash lineFeed carriageReturn tab formFeed backspace control
  · rw [beq_iff_eq.mp quote]
    exact .letter (by decide)
  · rw [beq_iff_eq.mp backslash]
    exact .letter (by decide)
  · rw [beq_iff_eq.mp lineFeed]
    exact .letter (by decide)
  · rw [beq_iff_eq.mp carriageReturn]
    exact .letter (by decide)
  · rw [beq_iff_eq.mp tab]
    exact .letter (by decide)
  · rw [beq_iff_eq.mp formFeed]
    exact .letter (by decide)
  · rw [beq_iff_eq.mp backspace]
    exact .letter (by decide)
  · have written := WritesCharacter.unit (codeUnit?_hexadecimal _ control)
      (fun high => absurd high.1 (by omega)) (fun low => absurd low.1 (by omega))
    rwa [Char.ofNat_toNat] at written
  · refine .itself ?_
    rw [beq_iff_eq] at quote backslash
    simp [isPlain, quote, backslash, Nat.not_lt.mp control]

theorem writesCharacters_flatMap : ∀ characters : Text,
    WritesCharacters characters (characters.flatMap escaped)
  | [] => .nil
  | character :: rest => .cons (writesCharacter_escaped character) (writesCharacters_flatMap rest)

theorem writesString_renderText (characters : Text) :
    WritesString characters (renderText characters) :=
  ⟨_, writesCharacters_flatMap characters, rfl⟩

theorem head?_toDigits_ne {number : Nat} (positive : 0 < number) :
    (Nat.toDigits 10 number).head? ≠ some '0' := by
  induction number using Nat.strongRecOn with
  | _ number induction =>
      by_cases small : number < 10
      · have shown : ∀ digit < 10, 0 < digit → [Nat.digitChar digit].head? ≠ some '0' := by decide
        rw [Nat.toDigits_of_lt_base small]
        exact shown number small positive
      · rw [Nat.toDigits_of_base_le (by decide) (Nat.not_lt.mp small),
          List.head?_append_of_ne_nil _ Nat.toDigits_ne_nil]
        exact induction (number / 10) (by omega) (by omega)

theorem isNatural_toDigits (number : Nat) : isNatural (Nat.toDigits 10 number) = true := by
  rw [isNatural, isDigits_toDigits, Bool.true_and]
  rcases Nat.eq_zero_or_pos number with rfl | positive
  · rfl
  · simp [head?_toDigits_ne positive]

theorem writesInteger_toString (value : Int) : WritesInteger value (toString value).toList := by
  cases value with
  | ofNat number =>
      have digits : (toString (Int.ofNat number)).toList = Nat.toDigits 10 number :=
        Nat.toList_repr
      have written := WritesInteger.natural (isNatural_toDigits number)
      rwa [digitsValue_toDigits, ← digits] at written
  | negSucc number =>
      have digits : (toString (Int.negSucc number)).toList =
          '-' :: Nat.toDigits 10 (number + 1) := by
        have shown : toString (Int.negSucc number) = "-" ++ Nat.repr (number + 1) := rfl
        rw [shown, String.toList_append, Nat.toList_repr]
        rfl
      have written := WritesInteger.negative (isNatural_toDigits (number + 1))
      rwa [digitsValue_toDigits, ← digits] at written

/-! ## Rendering values -/

theorem all_isBlank_lineBreak (layout : Layout) (depth : Nat) :
    (layout.lineBreak depth).all isBlank = true := by
  unfold Layout.lineBreak
  split
  · rfl
  · simp [isBlank]

theorem exists_separator_eq (layout : Layout) (depth : Nat) :
    ∃ blanks, blanks.all isBlank = true ∧ layout.separator depth = ',' :: blanks := by
  unfold Layout.separator
  split
  · exact ⟨[' '], rfl, rfl⟩
  · exact ⟨_, all_isBlank_lineBreak layout depth, rfl⟩

def IsPart (part : Text → Prop) (spelling : Text) : Prop :=
  ∀ before after, before.all isBlank = true → after.all isBlank = true →
    part (before ++ (spelling ++ after))

theorem isPart_padded {writes : Text → Prop} {spelling : Text} (written : writes spelling) :
    IsPart (Padded writes) spelling :=
  fun before after blanksBefore blanksAfter =>
    ⟨before, spelling, after, blanksBefore, blanksAfter, written, rfl⟩

theorem isPart_named {key : Text} {writes : Text → Prop} {spelling : Text}
    (written : writes spelling) :
    IsPart (Named key writes) (renderText key ++ [':', ' '] ++ spelling) := by
  intro before after blanksBefore blanksAfter
  refine ⟨before ++ (renderText key ++ []), ' ' :: (spelling ++ after), ?_, ?_, by simp⟩
  · exact ⟨before, _, [], blanksBefore, rfl, writesString_renderText key, rfl⟩
  · exact ⟨[' '], spelling, after, rfl, blanksAfter, written, rfl⟩

theorem commaSeparated_intercalate {parts : List (Text → Prop)} {spellings : List Text}
    (each : List.Forall₂ IsPart parts spellings) (nonempty : spellings ≠ []) {blanks : Text}
    (isBlanks : blanks.all isBlank = true) {before after : Text}
    (blanksBefore : before.all isBlank = true) (blanksAfter : after.all isBlank = true) :
    CommaSeparated parts (before ++ ((',' :: blanks).intercalate spellings ++ after)) := by
  induction each generalizing before with
  | nil => exact absurd rfl nonempty
  | @cons part spelling parts spellings first others induction =>
      cases others with
      | nil =>
          rw [List.intercalate_singleton, CommaSeparated]
          exact first before after blanksBefore blanksAfter
      | @cons next second parts spellings second others =>
          refine ⟨before ++ (spelling ++ []), _, first before [] blanksBefore rfl,
            induction (by simp) isBlanks, ?_⟩
          simp

theorem bracketed_bracketed {parts : List (Text → Prop)} {spellings : List Text}
    (each : List.Forall₂ IsPart parts spellings) (layout : Layout) (depth : Nat)
    (opening closing : Char) :
    Bracketed opening closing parts (layout.bracketed depth opening closing spellings) := by
  cases each with
  | nil => exact ⟨[], rfl, rfl⟩
  | cons first others =>
      obtain ⟨blanks, isBlanks, separator_eq⟩ := exists_separator_eq layout (depth + 1)
      refine ⟨_, commaSeparated_intercalate (.cons first others) (by simp) isBlanks
        (all_isBlank_lineBreak layout (depth + 1)) (all_isBlank_lineBreak layout depth), ?_⟩
      simp [Layout.bracketed, separator_eq]

mutual

theorem writes_renderAt (layout : Layout) (depth : Nat) : ∀ value : Json,
    Writes value (renderAt layout depth value)
  | .null => by
      rw [Writes, renderAt]
  | .number value => by
      rw [Writes, renderAt]
      exact writesInteger_toString value
  | .text characters => by
      rw [Writes, renderAt]
      exact writesString_renderText characters
  | .array items => by
      rw [Writes, renderAt]
      exact bracketed_bracketed (isPart_renderItems layout (depth + 1) items) layout depth _ _
  | .object members => by
      rw [Writes, renderAt]
      exact bracketed_bracketed (isPart_renderMembers layout (depth + 1) members) layout depth _ _

theorem isPart_renderItems (layout : Layout) (depth : Nat) : ∀ items : List Json,
    List.Forall₂ IsPart (writesItems items) (renderItems layout depth items)
  | [] => by
      rw [writesItems, renderItems]
      exact .nil
  | item :: rest => by
      rw [writesItems, renderItems]
      exact .cons (isPart_padded (writes_renderAt layout depth item))
        (isPart_renderItems layout depth rest)

theorem isPart_renderMembers (layout : Layout) (depth : Nat) : ∀ members : List (Text × Json),
    List.Forall₂ IsPart (writesMembers members) (renderMembers layout depth members)
  | [] => by
      rw [writesMembers, renderMembers]
      exact .nil
  | (key, value) :: rest => by
      rw [writesMembers, renderMembers]
      exact .cons (isPart_named (writes_renderAt layout depth value))
        (isPart_renderMembers layout depth rest)

end

end QubitLang.Json
