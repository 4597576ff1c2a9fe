import QubitLang.Nesting
import QubitLang.Proofs.Language.Splitting

/-! The nesting of brackets, over the tokens of a text. No token but a bracket holds
one, so that the limit on the characters of a text is one on its tokens. -/

namespace QubitLang

open Lexical

/-! ## Depth -/

/-- How many brackets are open behind a token. One that closes nothing is ignored. -/
def Token.depthAfter (depth : Nat) : Token → Nat
  | .sign .openParen | .sign .openBrace => depth + 1
  | .sign .closeParen | .sign .closeBrace => depth - 1
  | _ => depth

def bracketDepth (tokens : List Token) : Nat := tokens.foldl Token.depthAfter 0

/-- At no token are more brackets open than the limit allows. -/
def NestsWithin (limit : Nat) (tokens : List Token) : Prop :=
  ∀ before, before <+: tokens → bracketDepth before ≤ limit

theorem Token.foldl_depthAfter_le (tokens : List Token) (depth : Nat) :
    tokens.foldl Token.depthAfter depth ≤ depth + tokens.length := by
  induction tokens generalizing depth with
  | nil => exact Nat.le_refl _
  | cons token tokens induction =>
      have step : token.depthAfter depth ≤ depth + 1 := by
        unfold depthAfter
        split <;> omega
      have later := induction (token.depthAfter depth)
      rw [List.foldl_cons, List.length_cons]
      omega

theorem nestsWithin_of_length_le {limit : Nat} {tokens : List Token}
    (short : tokens.length ≤ limit) : NestsWithin limit tokens := by
  intro before isHead
  have depth_le := Token.foldl_depthAfter_le before 0
  have length_le := isHead.length_le
  unfold bracketDepth
  omega

/-! ## Characters -/

namespace Nesting

variable {limit offset depth : Nat}

/-- Whether a character has no meaning to the nesting of a text. -/
def isPlain (character : Char) : Bool :=
  character != '#' && !opens character && !closes character

theorem eq_of_not_isPlain {character : Char} (special : isPlain character = false) :
    character = '#' ∨ character = '(' ∨ character = '{' ∨ character = ')' ∨ character = '}' := by
  simp only [isPlain, opens, closes, Bool.and_eq_false_iff, Bool.not_eq_false', Bool.or_eq_true,
    bne_eq_false_iff_eq, beq_iff_eq, or_assoc] at special
  exact special

theorem isPlain_of_isIdentifierContinue {character : Char}
    (continues : isIdentifierContinue character = true) : isPlain character = true := by
  cases plain : isPlain character with
  | true => rfl
  | false =>
      rcases eq_of_not_isPlain plain with rfl | rfl | rfl | rfl | rfl <;>
        exact absurd continues (by decide)

theorem isPlain_of_isIdentifierStart {character : Char}
    (starts : isIdentifierStart character = true) : isPlain character = true := by
  cases plain : isPlain character with
  | true => rfl
  | false =>
      rcases eq_of_not_isPlain plain with rfl | rfl | rfl | rfl | rfl <;>
        exact absurd starts (by decide)

theorem isPlain_of_isDigit {character : Char} (digit : character.isDigit = true) :
    isPlain character = true := by
  cases plain : isPlain character with
  | true => rfl
  | false =>
      rcases eq_of_not_isPlain plain with rfl | rfl | rfl | rfl | rfl <;>
        exact absurd digit (by decide)

theorem isPlain_of_isBlank {character : Char} (blank : isBlank character = true) :
    isPlain character = true := by
  cases plain : isPlain character with
  | true => rfl
  | false =>
      rcases eq_of_not_isPlain plain with rfl | rfl | rfl | rfl | rfl <;>
        exact absurd blank (by decide)

theorem excessFrom_plain (limit : Int) (depth : Nat) (rest : Text) :
    ∀ (spelling : Text) (offset : Nat), spelling.all isPlain = true →
      excessFrom limit offset depth false (spelling ++ rest) =
        excessFrom limit (offset + spelling.length) depth false rest
  | [], _, _ => rfl
  | character :: spelling, offset, plain => by
      rw [List.all_cons, Bool.and_eq_true] at plain
      have later := excessFrom_plain limit depth rest spelling (offset + 1) plain.2
      have head := plain.1
      simp only [isPlain, Bool.and_eq_true, Bool.not_eq_true', bne_iff_ne, ne_eq] at head
      obtain ⟨⟨noComment, noOpen⟩, noClose⟩ := head
      rw [List.cons_append, excessFrom, if_neg Bool.false_ne_true,
        if_neg (by simpa using noComment),
        noOpen, noClose, if_neg Bool.false_ne_true, if_neg Bool.false_ne_true, later,
        List.length_cons, Nat.add_assoc, Nat.add_comm 1]

theorem excessFrom_trivia (limit : Int) (depth : Nat) :
    ∀ (insideComment : Bool) (text : Text) (offset : Nat),
      excessFrom limit offset depth insideComment text =
        excessFrom limit (offset + (trivia insideComment text).1.length) depth false
          (trivia insideComment text).2
  | _, [], _ => rfl
  | true, character :: rest, offset => by
      have later := excessFrom_trivia limit depth (character != '\n') rest (offset + 1)
      rw [excessFrom, if_pos rfl, later, trivia, if_pos rfl, List.length_cons, Nat.add_assoc,
        Nat.add_comm 1]
  | false, character :: rest, offset => by
      have later := excessFrom_trivia limit depth (character == '#') rest (offset + 1)
      by_cases skips : (isBlank character || character == '#') = true
      · rw [trivia, if_neg Bool.false_ne_true, if_pos skips, List.length_cons,
          ← Nat.add_comm 1, ← Nat.add_assoc, ← later]
        cases comment : character == '#' with
        | true => rw [excessFrom, if_neg Bool.false_ne_true, if_pos comment]
        | false =>
            rw [comment, Bool.or_false] at skips
            have plain := isPlain_of_isBlank skips
            exact excessFrom_plain limit depth rest [character] offset (by simp [plain])
      · rw [trivia, if_neg Bool.false_ne_true, if_neg skips]
        rfl

/-! ## Tokens -/

theorem isPlain_spelling {token : Token} (lexical : token.isLexical = true)
    (noBracket : ∀ depth, token.depthAfter depth = depth) : token.spelling.all isPlain = true := by
  cases token with
  | word spelling =>
      cases spelling with
      | nil => cases lexical
      | cons first rest =>
          rw [Token.isLexical, isWord, Bool.and_eq_true] at lexical
          refine List.all_eq_true.mpr fun character member => ?_
          rcases List.mem_cons.mp member with rfl | later
          · exact isPlain_of_isIdentifierStart lexical.1
          · exact isPlain_of_isIdentifierContinue (List.all_eq_true.mp lexical.2 character later)
  | number spelling =>
      refine List.all_eq_true.mpr fun character member => ?_
      rcases isNumber_iff.mp lexical with digits | ⟨whole, fraction, rfl, wholeAll, fractionAll, _⟩
      · exact isPlain_of_isDigit (List.all_eq_true.mp (isDigits_iff.mp digits).2 character member)
      · rcases List.mem_append.mp member with left | right
        · exact isPlain_of_isDigit (List.all_eq_true.mp wholeAll character left)
        · rcases List.mem_cons.mp right with rfl | right
          · rfl
          · exact isPlain_of_isDigit (List.all_eq_true.mp fractionAll character right)
  | qubit digits =>
      refine List.all_eq_true.mpr fun character member => ?_
      rcases List.mem_cons.mp member with rfl | later
      · rfl
      · exact isPlain_of_isDigit (List.all_eq_true.mp (isDigits_iff.mp lexical).2 character later)
  | sign mark =>
      cases mark with
      | openParen | openBrace => cases noBracket 0
      | closeParen | closeBrace => cases noBracket 1
      | _ => decide
  | any label => cases lexical

theorem excessFrom_opening {character : Char} (opening : character = '(' ∨ character = '{')
    (rest : Text) : excessFrom limit offset depth false (character :: rest) =
      if limit < depth + 1 then some offset
      else excessFrom limit (offset + 1) (depth + 1) false rest := by
  have opened : (character == '#') = false ∧ opens character = true := by
    rcases opening with rfl | rfl <;> decide
  simp only [excessFrom, if_neg Bool.false_ne_true, opened.1, if_pos opened.2, Int.ofNat_lt]

theorem excessFrom_closing {character : Char} (closing : character = ')' ∨ character = '}')
    (rest : Text) (shallow : depth ≤ limit) :
    excessFrom limit offset depth false (character :: rest) =
      if limit < depth - 1 then some offset
      else excessFrom limit (offset + 1) (depth - 1) false rest := by
  have closed : (character == '#') = false ∧ opens character = false ∧
      closes character = true := by
    rcases closing with rfl | rfl <;> decide
  rw [excessFrom, if_neg Bool.false_ne_true, closed.1, if_neg Bool.false_ne_true, closed.2.1,
    if_neg Bool.false_ne_true, if_pos closed.2.2, if_neg (by omega)]

theorem excessFrom_token {token : Token} (lexical : token.isLexical = true) (rest : Text)
    (shallow : depth ≤ limit) :
    excessFrom limit offset depth false (token.spelling ++ rest) =
      if limit < token.depthAfter depth then some offset
      else excessFrom limit (offset + token.spelling.length) (token.depthAfter depth) false
        rest := by
  have unchanged (noBracket : ∀ depth, token.depthAfter depth = depth) :
      excessFrom limit offset depth false (token.spelling ++ rest) =
        if limit < token.depthAfter depth then some offset
        else excessFrom limit (offset + token.spelling.length) (token.depthAfter depth) false
          rest := by
    rw [noBracket, excessFrom_plain _ _ _ _ _ (isPlain_spelling lexical noBracket),
      if_neg (Nat.not_lt.mpr shallow)]
  cases token with
  | word _ | number _ | qubit _ | any _ => exact unchanged fun _ => rfl
  | sign mark =>
      cases mark with
      | openParen => exact excessFrom_opening (.inl rfl) rest
      | openBrace => exact excessFrom_opening (.inr rfl) rest
      | closeParen => exact excessFrom_closing (.inl rfl) rest shallow
      | closeBrace => exact excessFrom_closing (.inr rfl) rest shallow
      | _ => exact unchanged fun _ => rfl

/-! ## The first token that nests too deeply -/

/-- The index of the first token behind which more brackets are open than the limit
allows. -/
def excessIndex? (limit depth : Nat) : List Token → Option Nat
  | [] => none
  | token :: tokens =>
    if limit < token.depthAfter depth then some 0
    else (excessIndex? limit (token.depthAfter depth) tokens).map (· + 1)

theorem excessIndex?_eq_none_iff {tokens : List Token} (shallow : depth ≤ limit) :
    excessIndex? limit depth tokens = none ↔
      ∀ before, before <+: tokens → before.foldl Token.depthAfter depth ≤ limit := by
  induction tokens generalizing depth with
  | nil =>
      refine iff_of_true rfl fun before isHead => ?_
      rwa [List.prefix_nil.mp isHead]
  | cons token tokens induction =>
      rw [excessIndex?]
      by_cases deep : limit < token.depthAfter depth
      · rw [if_pos deep]
        refine iff_of_false (Option.some_ne_none 0) fun bound => ?_
        exact absurd (bound [token] (List.prefix_append [token] tokens)) (Nat.not_le.mpr deep)
      · rw [if_neg deep, Option.map_eq_none_iff, induction (Nat.not_lt.mp deep)]
        constructor
        · intro later before isHead
          rcases List.prefix_cons_iff.mp isHead with rfl | ⟨more, rfl, moreIsHead⟩
          · exact shallow
          · exact later more moreIsHead
        · intro bound more isHead
          exact bound (token :: more) (List.prefix_cons_iff.mpr (.inr ⟨more, rfl, isHead⟩))

theorem lt_length_of_excessIndex? {tokens : List Token} {index : Nat}
    (found : excessIndex? limit depth tokens = some index) : index < tokens.length := by
  induction tokens generalizing depth index with
  | nil => cases found
  | cons token tokens induction =>
      rw [excessIndex?] at found
      split at found
      · cases found
        exact Nat.succ_pos _
      · obtain ⟨later, laterFound, rfl⟩ := Option.map_eq_some_iff.mp found
        exact Nat.succ_lt_succ (induction laterFound)

/-- In a text that is split, a bracket nests too deeply where its token does, or else
where it does behind the tokens. -/
theorem excessFrom_splits {text remainder : Text} {lexemes : List Lexeme} {finish : Nat}
    (splits : Splits offset text lexemes finish remainder) (shallow : depth ≤ limit) :
    excessFrom limit offset depth false text =
      ((excessIndex? limit depth (lexemes.map Lexeme.token)).map fun index =>
        Lexeme.startOf finish (lexemes.drop index)).or
          (excessFrom limit finish ((lexemes.map Lexeme.token).foldl Token.depthAfter depth) false
            remainder) := by
  induction splits generalizing depth with
  | @gap offset text skipped remainder trivia =>
      rw [excessFrom_trivia, isLongest_trivia_iff.mp trivia]
      rfl
  | lexeme trivia longest start_eq stop_eq later induction =>
      rw [excessFrom_trivia, isLongest_trivia_iff.mp trivia, longest.text_eq,
        excessFrom_token longest.isLexical _ shallow, ← start_eq, ← stop_eq, List.map_cons,
        excessIndex?]
      split
      · rfl
      · rename_i within
        rw [induction (Nat.not_lt.mp within), Option.map_map]
        rfl

theorem firstExcess?_eq {source : Text} {lexemes : List Lexeme}
    (splits : SplitsInto source lexemes) (limit : Nat) :
    firstExcess? limit source =
      (excessIndex? limit 0 (lexemes.map Lexeme.token)).map fun index =>
        Lexeme.startOf source.length (lexemes.drop index) :=
  (excessFrom_splits splits (Nat.zero_le limit)).trans (Option.or_none)

theorem firstExcess?_eq_none_iff {source : Text} {lexemes : List Lexeme}
    (splits : SplitsInto source lexemes) (limit : Nat) :
    firstExcess? limit source = none ↔ NestsWithin limit (lexemes.map Lexeme.token) := by
  rw [firstExcess?_eq splits, Option.map_eq_none_iff]
  exact excessIndex?_eq_none_iff (Nat.zero_le limit)

end Nesting

end QubitLang
