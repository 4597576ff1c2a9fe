import QubitLang.Proofs.Language.Token
import QubitLang.Proofs.Text.CodePoints

/-! How a text is scanned for its next token. The first character of a token
tells its kind, so that tokens of different kinds never compete. -/

namespace QubitLang

open Lexical

/-! ## Kinds of tokens -/

inductive TokenKind where
  | word
  | number
  | qubit
  | mark
  deriving DecidableEq, Repr

def TokenKind.ofFirst (first : Char) : TokenKind :=
  if isIdentifierStart first then .word
  else if first.isDigit || first == '.' then .number
  else if first == '%' then .qubit
  else .mark

theorem isIdentifierStart_of_isDigit {character : Char} (digit : character.isDigit = true) :
    isIdentifierStart character = false := by
  have low : character.toNat < 0x41 := by
    simp only [Char.isDigit, Bool.and_eq_true, decide_eq_true_eq] at digit
    exact Nat.lt_of_le_of_lt digit.2 (by decide)
  exact CodePoints.includes_of_lt CodePoints.areRuns_identifierStart low

namespace Token

def kind? : Token → Option TokenKind
  | .word _ => some .word
  | .number _ => some .number
  | .qubit _ => some .qubit
  | .sign _ => some .mark
  | .any _ => none

theorem exists_cons_of_isNumber {spelling : Text} (number : isNumber spelling = true) :
    ∃ first rest, spelling = first :: rest ∧ (first.isDigit || first == '.') = true := by
  rcases isNumber_iff.mp number with digits | ⟨whole, fraction, rfl, wholeDigits, _⟩
  · obtain ⟨nonempty, all⟩ := isDigits_iff.mp digits
    obtain ⟨first, rest, rfl⟩ := List.exists_cons_of_ne_nil nonempty
    simp only [List.all_cons, Bool.and_eq_true] at all
    exact ⟨first, rest, rfl, by simp [all.1]⟩
  · cases whole with
    | nil => exact ⟨'.', fraction, rfl, rfl⟩
    | cons first rest =>
        simp only [List.all_cons, Bool.and_eq_true] at wholeDigits
        exact ⟨first, rest ++ '.' :: fraction, rfl, by simp [wholeDigits.1]⟩

theorem kind?_of_isLexical {token : Token} (lexical : token.isLexical = true) :
    ∃ first rest, token.spelling = first :: rest ∧
      token.kind? = some (TokenKind.ofFirst first) := by
  cases token with
  | word spelling =>
      cases spelling with
      | nil => cases lexical
      | cons first rest =>
          simp only [isLexical, isWord, Bool.and_eq_true] at lexical
          exact ⟨first, rest, rfl, by simp [kind?, TokenKind.ofFirst, lexical.1]⟩
  | number spelling =>
      obtain ⟨first, rest, rfl, starts⟩ := exists_cons_of_isNumber lexical
      have notWord : isIdentifierStart first = false := by
        rcases Bool.or_eq_true_iff.mp starts with digit | point
        · exact isIdentifierStart_of_isDigit digit
        · rw [beq_iff_eq.mp point]
          decide
      refine ⟨first, rest, rfl, ?_⟩
      rw [kind?, TokenKind.ofFirst, notWord, if_neg Bool.false_ne_true, if_pos starts]
  | qubit digits => exact ⟨'%', digits, rfl, rfl⟩
  | sign mark =>
      cases mark with
      | percent => cases lexical
      | arrow => exact ⟨'-', ['>'], rfl, by decide⟩
      | _ => exact ⟨_, [], rfl, by decide⟩
  | any label => cases lexical

theorem kind?_eq_of_text_eq {token other : Token} {text rest after : Text}
    (lexical : token.isLexical = true) (otherLexical : other.isLexical = true)
    (text_eq : text = token.spelling ++ rest) (other_eq : text = other.spelling ++ after) :
    token.kind? = other.kind? := by
  obtain ⟨first, _, spelling_eq, kind_eq⟩ := kind?_of_isLexical lexical
  obtain ⟨otherFirst, _, otherSpelling_eq, otherKind_eq⟩ := kind?_of_isLexical otherLexical
  rw [spelling_eq, List.cons_append] at text_eq
  rw [otherSpelling_eq, List.cons_append] at other_eq
  have same : first = otherFirst := by
    have equal := text_eq.symm.trans other_eq
    exact (List.cons.inj equal).1
  rw [kind_eq, otherKind_eq, same]

/-- Only tokens of its own kind can be longer than a token. -/
theorem isLongestAt_of_kind? {token : Token} {text rest : Text}
    (lexical : token.isLexical = true) (text_eq : text = token.spelling ++ rest)
    (longest : ∀ (other : Token) (after : Text), other.kind? = token.kind? →
      other.isLexical = true → text = other.spelling ++ after →
        other.spelling.length ≤ token.spelling.length) :
    token.IsLongestAt text rest where
  isLexical := lexical
  text_eq := text_eq
  longest other after otherLexical other_eq :=
    longest other after (kind?_eq_of_text_eq otherLexical lexical other_eq text_eq)
      otherLexical other_eq

theorem eq_of_kind?_of_spelling {token other : Token} (lexical : token.isLexical = true)
    (otherLexical : other.isLexical = true) (kind_eq : token.kind? = other.kind?)
    (spelling_eq : token.spelling = other.spelling) : token = other := by
  cases token with
  | any label => cases lexical
  | word _ => cases other <;> simp_all [kind?, Token.spelling]
  | number _ => cases other <;> simp_all [kind?, Token.spelling]
  | qubit _ => cases other <;> simp_all [kind?, Token.spelling]
  | sign mark =>
      cases other with
      | sign otherMark =>
          have same : mark.spelling = otherMark.spelling := String.toList_inj.mp spelling_eq
          have injective : ∀ left right : Sign, left.spelling = right.spelling → left = right := by
            intro left right
            cases left <;> cases right <;> decide
          rw [injective _ _ same]
      | any label => cases otherLexical
      | _ => cases kind_eq

theorem IsLongestAt.unique {token other : Token} {text rest after : Text}
    (left : token.IsLongestAt text rest) (right : other.IsLongestAt text after) :
    token = other ∧ rest = after := by
  have sameLength : token.spelling.length = other.spelling.length :=
    Nat.le_antisymm (right.longest _ _ left.isLexical left.text_eq)
      (left.longest _ _ right.isLexical right.text_eq)
  obtain ⟨spelling_eq, rest_eq⟩ :=
    List.append_inj (left.text_eq.symm.trans right.text_eq) sameLength
  have kind_eq := kind?_eq_of_text_eq left.isLexical right.isLexical left.text_eq right.text_eq
  exact ⟨eq_of_kind?_of_spelling left.isLexical right.isLexical kind_eq spelling_eq, rest_eq⟩

end Token

/-! ## The next token -/

namespace Scan

def sign? (text : Text) : Option (Token × Text) :=
  Sign.all.findSome? fun mark =>
    if mark = .percent then none
    else (afterPrefix? mark.spelling.toList text).map fun rest => (.sign mark, rest)

def qubit? : Text → Option (Token × Text)
  | '%' :: rest => (digits? rest).map fun (digits, rest) => (.qubit digits, rest)
  | _ => none

def token? (text : Text) : Option (Token × Text) :=
  match word? text with
  | some (spelling, rest) => some (.word spelling, rest)
  | none =>
    match number? text with
    | some (spelling, rest) => some (.number spelling, rest)
    | none =>
      match qubit? text with
      | some found => some found
      | none => sign? text

variable {text rest : Text} {token : Token}

theorem isLongestAt_of_word? {spelling : Text} (found : word? text = some (spelling, rest)) :
    (Token.word spelling).IsLongestAt text rest := by
  have longest := word?_isLongest found
  refine Token.isLongestAt_of_kind? longest.isMember longest.text_eq ?_
  intro other after kind_eq lexical other_eq
  cases other with
  | word _ => exact longest.longest _ _ other_eq lexical
  | _ => cases kind_eq

theorem isLongestAt_of_number? {spelling : Text}
    (found : number? text = some (spelling, rest)) :
    (Token.number spelling).IsLongestAt text rest := by
  have longest := number?_isLongest found
  refine Token.isLongestAt_of_kind? longest.isMember longest.text_eq ?_
  intro other after kind_eq lexical other_eq
  cases other with
  | number _ => exact longest.longest _ _ other_eq lexical
  | _ => cases kind_eq

theorem isLongestAt_of_qubit? (found : qubit? text = some (token, rest)) :
    token.IsLongestAt text rest := by
  unfold qubit? at found
  split at found
  · obtain ⟨⟨digits, after⟩, digitsFound, equal⟩ := Option.map_eq_some_iff.mp found
    cases equal
    have longest := digits?_isLongest digitsFound
    refine Token.isLongestAt_of_kind? longest.isMember (congrArg _ longest.text_eq) ?_
    intro other after kind_eq lexical other_eq
    cases other with
    | qubit _ =>
        have fits := longest.longest _ _ (List.cons.inj other_eq).2 lexical
        exact Nat.succ_le_succ fits
    | _ => cases kind_eq
  · cases found

theorem sign_eq_of_text_eq {mark other : Sign} {after : Text}
    (text_eq : text = mark.spelling.toList ++ rest)
    (other_eq : text = other.spelling.toList ++ after) : mark = other := by
  have heads : ∀ left right : Sign,
      left.spelling.toList.head? = right.spelling.toList.head? → left = right := by
    intro left right
    cases left <;> cases right <;> decide
  have nonempty : ∀ mark : Sign, mark.spelling.toList ≠ [] := by
    intro mark
    cases mark <;> decide
  have headOfText : ∀ (mark : Sign) (rest : Text),
      (mark.spelling.toList ++ rest).head? = mark.spelling.toList.head? := by
    intro mark rest
    obtain ⟨first, more, spelling_eq⟩ := List.exists_cons_of_ne_nil (nonempty mark)
    rw [spelling_eq]
    rfl
  apply heads
  rw [← headOfText mark rest, ← headOfText other after, ← text_eq, ← other_eq]

theorem isLongestAt_of_sign? (found : sign? text = some (token, rest)) :
    token.IsLongestAt text rest := by
  obtain ⟨mark, _, matched⟩ := List.exists_of_findSome?_eq_some found
  split at matched
  · cases matched
  · rename_i notPercent
    obtain ⟨after, afterFound, equal⟩ := Option.map_eq_some_iff.mp matched
    cases equal
    have text_eq := afterPrefix?_eq_some_iff.mp afterFound
    refine Token.isLongestAt_of_kind? (by simpa [Token.isLexical] using notPercent)
      text_eq ?_
    intro other after kind_eq lexical other_eq
    cases other with
    | sign otherMark => rw [sign_eq_of_text_eq other_eq text_eq]
    | _ => cases kind_eq

theorem isLongestAt_of_token? (found : token? text = some (token, rest)) :
    token.IsLongestAt text rest := by
  unfold token? at found
  split at found
  · rename_i wordFound
    cases found
    exact isLongestAt_of_word? wordFound
  · split at found
    · rename_i numberFound
      cases found
      exact isLongestAt_of_number? numberFound
    · split at found
      · rename_i qubitFound
        cases found
        exact isLongestAt_of_qubit? qubitFound
      · exact isLongestAt_of_sign? found

theorem ne_append_of_token?_eq_none (missing : token? text = none)
    (lexical : token.isLexical = true) : text ≠ token.spelling ++ rest := by
  intro text_eq
  unfold token? at missing
  split at missing
  · cases missing
  · rename_i noWord
    split at missing
    · cases missing
    · rename_i noNumber
      split at missing
      · cases missing
      · rename_i noQubit
        cases token with
        | word spelling =>
            have fails : isWord spelling = false := not_isWord_of_word?_eq_none noWord text_eq
            rw [Token.isLexical, fails] at lexical
            cases lexical
        | number spelling =>
            have fails : isNumber spelling = false :=
              not_isNumber_of_number?_eq_none noNumber text_eq
            rw [Token.isLexical, fails] at lexical
            cases lexical
        | qubit digits =>
            rw [Token.spelling, List.cons_append] at text_eq
            subst text_eq
            have noDigits := Option.map_eq_none_iff.mp noQubit
            rw [Token.isLexical, not_isDigits_of_digits?_eq_none noDigits rfl] at lexical
            cases lexical
        | sign mark =>
            have fails := List.findSome?_eq_none_iff.mp missing mark (Sign.mem_all mark)
            rw [if_neg (by simpa [Token.isLexical] using lexical),
              Option.map_eq_none_iff] at fails
            have follows : afterPrefix? mark.spelling.toList text = some rest :=
              afterPrefix?_eq_some_iff.mpr text_eq
            rw [fails] at follows
            cases follows
        | any label => cases lexical

theorem token?_eq_some_iff : token? text = some (token, rest) ↔ token.IsLongestAt text rest := by
  constructor
  · exact isLongestAt_of_token?
  · intro longest
    cases found : token? text with
    | none => exact absurd longest.text_eq (ne_append_of_token?_eq_none found longest.isLexical)
    | some result =>
        obtain ⟨token_eq, rest_eq⟩ := (isLongestAt_of_token? found).unique longest
        exact congrArg some (Prod.ext token_eq rest_eq)

/-! ## Tokens of each kind -/

theorem token?_eq_word_iff {spelling : Text} :
    token? text = some (.word spelling, rest) ↔ word? text = some (spelling, rest) := by
  constructor
  · intro found
    have longest := isLongestAt_of_token? found
    cases wordFound : word? text with
    | none =>
        have fails : isWord spelling = false :=
          not_isWord_of_word?_eq_none wordFound longest.text_eq
        have lexical : isWord spelling = true := longest.isLexical
        rw [fails] at lexical
        cases lexical
    | some result =>
        obtain ⟨token_eq, rest_eq⟩ := (isLongestAt_of_word? wordFound).unique longest
        cases token_eq
        exact congrArg some (Prod.ext rfl rest_eq)
  · intro found
    exact token?_eq_some_iff.mpr (isLongestAt_of_word? found)

theorem token?_eq_number_iff {spelling : Text} :
    token? text = some (.number spelling, rest) ↔ number? text = some (spelling, rest) := by
  constructor
  · intro found
    have longest := isLongestAt_of_token? found
    cases numberFound : number? text with
    | none =>
        have fails : isNumber spelling = false :=
          not_isNumber_of_number?_eq_none numberFound longest.text_eq
        have lexical : isNumber spelling = true := longest.isLexical
        rw [fails] at lexical
        cases lexical
    | some result =>
        obtain ⟨token_eq, rest_eq⟩ := (isLongestAt_of_number? numberFound).unique longest
        cases token_eq
        exact congrArg some (Prod.ext rfl rest_eq)
  · intro found
    exact token?_eq_some_iff.mpr (isLongestAt_of_number? found)

theorem token?_eq_qubit_iff {digits : Text} :
    token? text = some (.qubit digits, rest) ↔
      ∃ behind, text = '%' :: behind ∧ digits? behind = some (digits, rest) := by
  constructor
  · intro found
    have longest := isLongestAt_of_token? found
    have text_eq : text = '%' :: (digits ++ rest) := longest.text_eq
    refine ⟨digits ++ rest, text_eq, ?_⟩
    cases digitsFound : digits? (digits ++ rest) with
    | none =>
        have fails : isDigits digits = false :=
          not_isDigits_of_digits?_eq_none digitsFound rfl
        have lexical : isDigits digits = true := longest.isLexical
        rw [fails] at lexical
        cases lexical
    | some result =>
        have qubitFound : qubit? text = some (.qubit result.1, result.2) := by
          rw [text_eq, qubit?, digitsFound]
          rfl
        obtain ⟨token_eq, rest_eq⟩ := (isLongestAt_of_qubit? qubitFound).unique longest
        cases token_eq
        exact congrArg some (Prod.ext rfl rest_eq)
  · rintro ⟨behind, rfl, found⟩
    have qubitFound : qubit? ('%' :: behind) = some (.qubit digits, rest) := by
      rw [qubit?, found]
      rfl
    exact token?_eq_some_iff.mpr (isLongestAt_of_qubit? qubitFound)

theorem token?_eq_sign_iff {mark : Sign} :
    token? text = some (.sign mark, rest) ↔
      mark ≠ .percent ∧ text = mark.spelling.toList ++ rest := by
  constructor
  · intro found
    have longest := isLongestAt_of_token? found
    exact ⟨by simpa [Token.isLexical] using longest.isLexical, longest.text_eq⟩
  · rintro ⟨notPercent, text_eq⟩
    refine token?_eq_some_iff.mpr (Token.isLongestAt_of_kind?
      (by simpa [Token.isLexical] using notPercent) text_eq ?_)
    intro other after kind_eq lexical other_eq
    cases other with
    | sign otherMark => rw [sign_eq_of_text_eq other_eq text_eq]
    | _ => cases kind_eq

theorem reads_percent_of_token? {behind : Text}
    (found : token? ('%' :: behind) = some (token, rest)) :
    token.reads (.sign .percent) = true := by
  have longest := isLongestAt_of_token? found
  obtain ⟨first, more, spelling_eq, kind_eq⟩ := Token.kind?_of_isLexical longest.isLexical
  have first_eq : first = '%' := by
    have text_eq := longest.text_eq
    rw [spelling_eq, List.cons_append] at text_eq
    exact (List.cons.inj text_eq).1.symm
  have qubit : token.kind? = some .qubit := by
    rw [kind_eq, first_eq]
    rfl
  cases token with
  | qubit digits => exact longest.isLexical
  | _ => cases qubit

/-! ## What a terminal takes -/

def accepted? (label : Label) (text : Text) : Option (Text × Text) :=
  (token? text).bind fun (token, rest) =>
    if token.reads label then some (token.spelling, rest) else none

theorem accepted?_eq_some_iff {label : Label} {lexeme : Text} :
    accepted? label text = some (lexeme, rest) ↔
      ∃ token, token? text = some (token, rest) ∧ token.reads label = true ∧
        token.spelling = lexeme := by
  simp only [accepted?, Option.bind_eq_some_iff]
  constructor
  · rintro ⟨⟨token, after⟩, found, taken⟩
    split at taken
    · cases taken
      exact ⟨token, found, ‹_›, rfl⟩
    · cases taken
  · rintro ⟨token, found, reads, rfl⟩
    exact ⟨(token, rest), found, if_pos reads⟩

theorem word?_eq_some_iff {spelling : Text} (isWord : isWord spelling = true) :
    word? text = some (spelling, rest) ↔
      text = spelling ++ rest ∧ wordContinue? rest = none := by
  obtain ⟨first, more, rfl⟩ : ∃ first more, spelling = first :: more := by
    cases spelling with
    | nil => cases isWord
    | cons first more => exact ⟨first, more, rfl⟩
  simp only [Lexical.isWord, Bool.and_eq_true] at isWord
  obtain ⟨starts, goesOn⟩ := isWord
  have keeps := List.all_eq_true.mp goesOn
  have ends_iff : wordContinue? rest = none ↔ rest.takeWhile isIdentifierContinue = [] := by
    cases rest with
    | nil => simp [wordContinue?]
    | cons head tail => simp [wordContinue?]
  constructor
  · intro found
    have text_eq := eq_append_of_word? found
    refine ⟨text_eq, ?_⟩
    rw [text_eq, List.cons_append, word?, if_pos starts] at found
    simp only [Option.some.injEq, Prod.mk.injEq, List.cons.injEq, true_and] at found
    rw [List.takeWhile_append_of_pos keeps] at found
    rw [ends_iff]
    exact List.append_right_eq_self.mp found.1
  · rintro ⟨rfl, ends⟩
    rw [ends_iff] at ends
    have rest_eq : rest.dropWhile isIdentifierContinue = rest := by
      have whole := List.takeWhile_append_dropWhile (p := isIdentifierContinue) (l := rest)
      rwa [ends, List.nil_append] at whole
    rw [List.cons_append, word?, if_pos starts, List.takeWhile_append_of_pos keeps,
      List.dropWhile_append_of_pos keeps, ends, rest_eq, List.append_nil]

theorem isWord_keyword (keyword : Keyword) : isWord keyword.spelling.toList = true := by
  cases keyword <;> decide

theorem isWord_type (type : BaseType) : isWord type.spelling.toList = true := by
  cases type <;> decide

theorem keyword?_eq_some_iff {keyword : Keyword} {lexeme : Text} :
    keyword? keyword text = some (lexeme, rest) ↔
      lexeme = keyword.spelling.toList ∧ word? text = some (lexeme, rest) := by
  constructor
  · intro found
    unfold keyword? at found
    split at found
    · cases found
    · rename_i after afterFound
      split at found
      · cases found
      · rename_i ends
        cases found
        refine ⟨rfl, (word?_eq_some_iff (isWord_keyword keyword)).mpr
          ⟨afterPrefix?_eq_some_iff.mp afterFound, by simpa using ends⟩⟩
  · rintro ⟨rfl, found⟩
    obtain ⟨text_eq, ends⟩ := (word?_eq_some_iff (isWord_keyword keyword)).mp found
    rw [keyword?, afterPrefix?_eq_some_iff.mpr text_eq]
    simp [ends]

/-- A reserved word stands at the head of a text exactly if the whole word that
stands there is reserved. -/
theorem reserved?_eq_none_iff {spelling : Text} (found : word? text = some (spelling, rest)) :
    reserved? text = none ↔ isReserved spelling = false := by
  simp only [reserved?, List.findSome?_eq_none_iff, isReserved, List.any_eq_false, beq_iff_eq]
  constructor
  · intro missing keyword member spelling_eq
    have present := keyword?_eq_some_iff.mpr ⟨spelling_eq.symm, found⟩
    rw [missing keyword member] at present
    cases present
  · intro others keyword member
    cases present : keyword? keyword text with
    | none => rfl
    | some result =>
        obtain ⟨spelling_eq, wordFound⟩ := keyword?_eq_some_iff.mp present
        rw [found] at wordFound
        cases wordFound
        exact absurd spelling_eq.symm (others keyword member)

end Scan

end QubitLang
