import QubitLang.Proofs.Language.Locality
import QubitLang.Proofs.Language.Parsing
import QubitLang.Proofs.Numbers.Rounding

/-! Numbers are converted exactly: a number is rounded once, from the rational number that its
digits denote by their places. -/

namespace QubitLang

open Lexical QubitLang.Language

/-! ## Denoted numbers -/

def placeValue : ℤ → Text → ℚ
  | _, [] => 0
  | place, '.' :: rest => placeValue place rest
  | place, digit :: rest =>
    (digit.toNat - '0'.toNat : Nat) * 10 ^ place + placeValue (place - 1) rest

/-- The rational number that a text denotes: the last digit in front of the point has the place
of the ones. -/
def denoted (text : Text) : ℚ := placeValue (text.idxOf '.' - 1) text

variable {text digits whole fraction : Text}

theorem placeValue_digit {digit : Char} (isDigit : digit ≠ '.') (place : ℤ) (rest : Text) :
    placeValue place (digit :: rest) =
      (digit.toNat - '0'.toNat : Nat) * 10 ^ place + placeValue (place - 1) rest := by
  rw [placeValue]
  exact fun isPoint => isDigit isPoint

theorem foldl_digits_eq (noPoint : '.' ∉ digits) (place : ℤ) (value : Nat) :
    ((digits.foldl (fun value digit => value * 10 + (digit.toNat - '0'.toNat)) value : Nat) : ℚ) *
        10 ^ (place + 1 - digits.length) =
      value * 10 ^ (place + 1) + placeValue place digits := by
  induction digits generalizing place value with
  | nil => simp [placeValue]
  | cons digit rest induction =>
      rw [List.mem_cons, not_or] at noPoint
      have later := induction noPoint.2 (place - 1) (value * 10 + (digit.toNat - '0'.toNat))
      have place_eq : place + 1 - ((digit :: rest).length : ℤ) = place - 1 + 1 - rest.length := by
        rw [List.length_cons]
        push_cast
        ring
      rw [List.foldl_cons, place_eq, later, placeValue_digit (Ne.symm noPoint.1), sub_add_cancel,
        zpow_add_one₀ (by norm_num)]
      push_cast
      ring

theorem placeValue_eq (noPoint : '.' ∉ digits) (place : ℤ) :
    placeValue place digits = digitsValue digits * 10 ^ (place + 1 - digits.length) := by
  have folded := foldl_digits_eq noPoint place 0
  rw [Nat.cast_zero, zero_mul, zero_add] at folded
  exact folded.symm

theorem placeValue_point (noPoint : '.' ∉ whole) (place : ℤ) (fraction : Text) :
    placeValue place (whole ++ '.' :: fraction) = placeValue place (whole ++ fraction) := by
  induction whole generalizing place with
  | nil => rfl
  | cons digit rest induction =>
      rw [List.mem_cons, not_or] at noPoint
      simp only [List.cons_append, placeValue_digit (Ne.symm noPoint.1), induction noPoint.2]

theorem denoted_eq (number : isNumber text = true) :
    denoted text = (decimalFraction text).1 / (decimalFraction text).2 := by
  rcases isNumber_iff.mp number with digits | ⟨whole, fraction, rfl, wholeDigits, fractionDigits, _⟩
  · have noPoint := point_notMem_of_digits (isDigits_iff.mp digits).2
    rw [denoted, List.idxOf_eq_length noPoint, placeValue_eq noPoint, decimalFraction,
      numberParts_of_noPoint noPoint]
    simp
  · have noPoint := point_notMem_of_digits wholeDigits
    have noSecond := point_notMem_of_digits fractionDigits
    have point : (whole ++ '.' :: fraction).idxOf '.' = whole.length := by
      rw [List.idxOf_append_of_notMem noPoint, List.idxOf_cons_self, Nat.add_zero]
    have noneAtAll : '.' ∉ whole ++ fraction := by
      rw [List.mem_append, not_or]
      exact ⟨noPoint, noSecond⟩
    have place_eq : (whole.length : ℤ) - 1 + 1 - (whole ++ fraction).length =
        -(fraction.length : ℤ) := by
      rw [List.length_append]
      push_cast
      ring
    rw [denoted, point, placeValue_point noPoint, placeValue_eq noneAtAll, decimalFraction,
      numberParts_append_point noPoint, place_eq, zpow_neg, zpow_natCast, ← div_eq_mul_inv]
    simp

theorem denoted_zero_cons (text : Text) : denoted ('0' :: text) = denoted text := by
  have notPoint : '0' ≠ '.' := by decide
  rw [denoted, denoted, List.idxOf_cons_ne _ notPoint, placeValue_digit notPoint]
  simp

theorem placeValue_append_zero (text : Text) (place : ℤ) :
    placeValue place (text ++ ['0']) = placeValue place text := by
  induction text generalizing place with
  | nil => simp [placeValue]
  | cons first rest induction =>
      by_cases isPoint : first = '.'
      · subst isPoint
        exact induction place
      · rw [List.cons_append, placeValue_digit isPoint, placeValue_digit isPoint, induction]

theorem denoted_append_zero (point : '.' ∈ text) : denoted (text ++ ['0']) = denoted text := by
  rw [denoted, denoted, placeValue_append_zero, List.idxOf_append_of_mem point]

theorem denoted_append_point (noPoint : '.' ∉ text) : denoted (text ++ ['.']) = denoted text := by
  rw [denoted, denoted, placeValue_point noPoint, List.append_nil,
    List.idxOf_append_of_notMem noPoint, List.idxOf_eq_length noPoint, List.idxOf_cons_self,
    Nat.add_zero]

/-! ## Conversion -/

structure Converts (text : Text) (pattern : Nat) : Prop where
  converted : numberValue text = .ok pattern
  nearest : denoted text < 2 ^ (1024 : ℤ) - 2 ^ (970 : ℤ) →
    Binary64.IsNearest (denoted text) pattern
  infinite : pattern = Binary64.infinity ↔ 2 ^ (1024 : ℤ) - 2 ^ (970 : ℤ) ≤ denoted text
  zero : pattern = 0 ↔ denoted text ≤ 2 ^ (-1075 : ℤ)
  monotone : ∀ other next, numberValue other = .ok next → denoted text ≤ denoted other →
    pattern ≤ next

theorem decimalFraction_positive (text : Text) : 0 < (decimalFraction text).2 :=
  Nat.pow_pos (by decide)

theorem numberValue_eq_ok_iff {pattern : Nat} : numberValue text = .ok pattern ↔
    isNumber text = true ∧
      Binary64.nearest (decimalFraction text).1 (decimalFraction text).2 = pattern := by
  cases number : isNumber text <;> simp [numberValue, number]

theorem exists_converts (number : isNumber text = true) : ∃ pattern, Converts text pattern := by
  have positive := decimalFraction_positive text
  refine ⟨_, numberValue_eq_ok_iff.mpr ⟨number, rfl⟩, ?_, ?_, ?_, ?_⟩
  · intro small
    rw [denoted_eq number] at small ⊢
    have different := mt (Binary64.nearest_eq_infinity_iff positive).mp (not_le.mpr small)
    exact Binary64.isNearest_of_lt_iff (lt_of_le_of_ne (Nat.min_le_right _ _) different)
      fun _ => Binary64.lt_nearest_iff positive
  · rw [denoted_eq number]
    exact Binary64.nearest_eq_infinity_iff positive
  · rw [denoted_eq number]
    exact Binary64.nearest_eq_zero_iff positive
  · intro other next converted le
    obtain ⟨otherNumber, rfl⟩ := numberValue_eq_ok_iff.mp converted
    rw [denoted_eq number, denoted_eq otherNumber] at le
    exact Binary64.nearest_mono positive (decimalFraction_positive other) le

theorem Converts.unique {other : Text} {pattern next : Nat} (left : Converts text pattern)
    (right : Converts other next) (same : denoted text = denoted other) : pattern = next :=
  Nat.le_antisymm (left.monotone other next right.converted same.le)
    (right.monotone text pattern left.converted same.ge)

/-! ## Spellings of one number -/

theorem isNumber_zero_cons (number : isNumber text = true) : isNumber ('0' :: text) = true := by
  have isDigit : Char.isDigit '0' = true := by decide
  rcases isNumber_iff.mp number with digits | ⟨whole, fraction, rfl, wholeDigits, fractionDigits, _⟩
  · refine isNumber_iff.mpr (.inl (isDigits_iff.mpr ⟨List.cons_ne_nil _ _, ?_⟩))
    rw [List.all_cons, isDigit, (isDigits_iff.mp digits).2, Bool.and_true]
  · refine isNumber_iff.mpr (.inr ⟨'0' :: whole, fraction, rfl, ?_, fractionDigits,
      .inl (List.cons_ne_nil _ _)⟩)
    rw [List.all_cons, isDigit, wholeDigits, Bool.and_true]

theorem isNumber_append_zero (number : isNumber text = true) (point : '.' ∈ text) :
    isNumber (text ++ ['0']) = true := by
  have isDigit : Char.isDigit '0' = true := by decide
  rcases isNumber_iff.mp number with digits | ⟨whole, fraction, rfl, wholeDigits, fractionDigits, _⟩
  · exact absurd point (point_notMem_of_digits (isDigits_iff.mp digits).2)
  · refine isNumber_iff.mpr (.inr ⟨whole, fraction ++ ['0'], by simp, wholeDigits, ?_,
      .inr (by simp)⟩)
    simp [fractionDigits, isDigit]

theorem isNumber_append_point (number : isNumber text = true) (noPoint : '.' ∉ text) :
    isNumber (text ++ ['.']) = true := by
  rcases isNumber_iff.mp number with digits | ⟨whole, fraction, rfl, _⟩
  · obtain ⟨nonempty, all⟩ := isDigits_iff.mp digits
    exact isNumber_iff.mpr (.inr ⟨text, [], rfl, all, rfl, .inl nonempty⟩)
  · simp at noPoint

theorem Converts.numberValue_eq {other : Text} {pattern : Nat} (converts : Converts text pattern)
    (number : isNumber other = true) (same : denoted other = denoted text) :
    numberValue other = .ok pattern := by
  obtain ⟨next, others⟩ := exists_converts number
  rw [others.converted, others.unique converts same]

/-! ## Numbers of a source text -/

theorem number?_eq_some_self_iff : number? text = some (text, []) ↔ isNumber text = true := by
  constructor
  · intro found
    exact (number?_isLongest found).isMember
  · intro number
    have text_eq : text = text ++ [] := (List.append_nil text).symm
    cases found : number? text with
    | none => exact absurd number (by simp [not_isNumber_of_number?_eq_none found text_eq])
    | some parts =>
        obtain ⟨lexeme, rest⟩ := parts
        have longest := number?_isLongest found
        have length_le := longest.longest text [] text_eq number
        have split := longest.text_eq
        have rest_eq : rest = [] := by
          have lengths := congrArg List.length split
          rw [List.length_append] at lengths
          exact List.length_eq_zero_iff.mp (by omega)
        rw [rest_eq, List.append_nil] at split
        rw [rest_eq, split]

theorem Token.isNumber_of_reads {token : Token} (reads : token.reads .number = true) :
    isNumber token.spelling = true := by
  cases token with
  | number spelling => exact reads
  | any label =>
      obtain rfl : label = .number := beq_iff_eq.mp reads
      decide
  | _ => cases reads

theorem isNumber_of_literal? {first : Lexeme} {note : Span}
    (found : literal? first = some (.number note text)) : isNumber text = true := by
  rcases literal?_cases found with ⟨reads, ⟨⟩⟩ | ⟨_, ⟨⟩⟩ | ⟨_, ⟨⟩⟩ | ⟨_, ⟨⟩⟩
  exact Token.isNumber_of_reads reads

theorem Language.DerivesExpression.isNumber : ∀ {stream rest : List Lexeme} {last note : Span}
    {text : Text}, DerivesExpression stream rest last (.number note text) → isNumber text = true
  | _, _, _, _, _, .literal found => isNumber_of_literal? found
  | _, _, _, _, _, .parenthesised _ body _ => body.isNumber

inductive IsParsedNumber (source : Text) (options : Options) (text : Text) : Prop where
  | program {program : Program Span} {note : Span}
      (parsed : (Parse.program source options).outcome = .ok program)
      (inside : .expression (.number note text) ∈ program.phrases)
  | expression {value : Expression Span} {note : Span}
      (parsed : (Parse.expression source options).outcome = .ok value)
      (inside : .expression (.number note text) ∈ value.phrases)
  | statement {statement : Statement Span} {note : Span}
      (parsed : (Parse.statement source options).outcome = .ok statement)
      (inside : .expression (.number note text) ∈ statement.phrases)

theorem Language.CoversAll.isNumber {lexemes : List Lexeme} {phrases : List (Phrase Span)}
    {note : Span} (covers : CoversAll lexemes phrases)
    (inside : .expression (.number note text) ∈ phrases) : isNumber text = true := by
  obtain ⟨_, _, covered⟩ := covers _ inside
  obtain ⟨_, derives⟩ := covered.derives
  exact derives.isNumber

theorem IsParsedNumber.isNumber {source : Text} {options : Options}
    (found : IsParsedNumber source options text) : isNumber text = true := by
  cases found with
  | program parsed inside =>
      obtain ⟨_, _, _, _, derives⟩ := parsed_program_iff.mp parsed
      exact derives.coversAll.isNumber inside
  | expression parsed inside =>
      obtain ⟨_, _, _, _, derives⟩ := parsed_expression_iff.mp parsed
      obtain ⟨_, _, takes⟩ := derives.exists_taken
      exact takes.covers.isNumber inside
  | statement parsed inside =>
      obtain ⟨_, _, _, derives⟩ := parsed_statement_iff.mp parsed
      obtain ⟨_, _, takes⟩ := derives.exists_taken
      exact takes.covers.isNumber inside

/-- A number, and so each one that is parsed, is converted to the double nearest to what it
denotes, whatever zeros and empty parts it is spelled with. -/
theorem number_converts (text : Text) :
    (number? text = some (text, []) ↔ isNumber text = true) ∧
      (∀ source options, IsParsedNumber source options text → isNumber text = true) ∧
      (isNumber text = true → ∃ pattern, Converts text pattern ∧
        (∀ other, isNumber other = true → denoted other = denoted text →
          numberValue other = .ok pattern) ∧
        numberValue ('0' :: text) = .ok pattern ∧
        ('.' ∈ text → numberValue (text ++ ['0']) = .ok pattern) ∧
        ('.' ∉ text → numberValue (text ++ ['.']) = .ok pattern)) := by
  refine ⟨number?_eq_some_self_iff, fun _ _ found => found.isNumber, fun number => ?_⟩
  obtain ⟨pattern, converts⟩ := exists_converts number
  refine ⟨pattern, converts, fun other otherNumber same => converts.numberValue_eq otherNumber same,
    ?_, fun point => ?_, fun noPoint => ?_⟩
  · exact converts.numberValue_eq (isNumber_zero_cons number) (denoted_zero_cons text)
  · exact converts.numberValue_eq (isNumber_append_zero number point) (denoted_append_zero point)
  · exact converts.numberValue_eq (isNumber_append_point number noPoint)
      (denoted_append_point noPoint)

/-- The number half-way between `2 ^ 53` and the next double goes to `2 ^ 53`, which is even. -/
theorem number_converts_tie :
    IsParsedNumber "9007199254740993".toList {} "9007199254740993".toList ∧
      isNumber "9007199254740993".toList = true ∧
      Converts "9007199254740993".toList 0x4340000000000000 ∧
      numberValue "09007199254740993".toList = .ok 0x4340000000000000 := by
  have splits : SplitsInto "9007199254740993".toList
      [⟨.number "9007199254740993".toList, { start := 0, stop := 16 }⟩] := by
    refine Splits.cons_iff.mpr ⟨rfl, rfl, _, rfl, ?_⟩
    exact Splits.nil_iff.mpr ⟨rfl, rfl⟩
  have lexed : IsLexed "9007199254740993".toList {} _ :=
    ⟨splits, nestsWithin_of_length_le (by decide), by decide⟩
  have parsed := parsed_expression_iff.mpr ⟨_, lexed, rfl, _, .literal rfl⟩
  have found : IsParsedNumber "9007199254740993".toList {} "9007199254740993".toList :=
    .expression parsed (by rw [Expression.phrases]; exact List.mem_singleton.mpr rfl)
  have number := (number_converts _).2.1 _ _ found
  obtain ⟨pattern, converts, _, padded, _⟩ := (number_converts _).2.2 number
  have converted : numberValue "9007199254740993".toList = .ok 0x4340000000000000 := by
    decide +kernel
  obtain rfl : pattern = 0x4340000000000000 :=
    Except.ok.inj (converts.converted.symm.trans converted)
  exact ⟨found, number, converts, padded⟩

end QubitLang
