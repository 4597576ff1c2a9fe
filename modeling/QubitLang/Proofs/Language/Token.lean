import QubitLang.Language.Label
import QubitLang.Proofs.Lexical.Longest
import QubitLang.Span

/-! Source texts as sequences of tokens. A text is split by longest match: all
trivia that can be skipped is skipped, and then the longest token is taken. -/

namespace QubitLang

open Lexical

/-! ## Tokens -/

inductive Token where
  | word (spelling : Text)
  | number (spelling : Text)
  | qubit (digits : Text)
  | sign (mark : Sign)
  /-- The terminal of a label itself, which stands for all tokens that it
  accepts. No source text holds it. -/
  | any (label : Label)
  deriving DecidableEq, Repr

def Label.sample : Label → Text
  | .keyword reserved => reserved.spelling.toList
  | .typeWord type => type.spelling.toList
  | .sign .percent => ['%', '0']
  | .sign mark => mark.spelling.toList
  | .identifier => ['x']
  | .number | .digit => ['0']
  | .endOfInput => []

namespace Token

def spelling : Token → Text
  | .word spelling | .number spelling => spelling
  | .qubit digits => '%' :: digits
  | .sign mark => mark.spelling.toList
  | .any label => label.sample

/-- Whether the terminal of a label accepts the token. The percent sign stands
for a whole qubit literal. The name of a type is an identifier too. -/
def reads : Token → Label → Bool
  | .word spelling, .identifier => isIdentifier spelling
  | .word spelling, .keyword reserved => spelling == reserved.spelling.toList
  | .word spelling, .typeWord type => spelling == type.spelling.toList
  | .number spelling, .number => isNumber spelling
  | .qubit digits, .sign .percent => isDigits digits
  | .sign mark, .sign other => mark == other && mark != .percent
  | .any label, other => label == other
  | _, _ => false

def isLexical : Token → Bool
  | .word spelling => isWord spelling
  | .number spelling => isNumber spelling
  | .qubit digits => isDigits digits
  | .sign mark => mark != .percent
  | .any _ => false

/-- Whether the token is the longest one at the head of a text. -/
structure IsLongestAt (token : Token) (text rest : Text) : Prop where
  isLexical : token.isLexical = true
  text_eq : text = token.spelling ++ rest
  longest : ∀ (other : Token) (after : Text), other.isLexical = true →
    text = other.spelling ++ after → other.spelling.length ≤ token.spelling.length

end Token

structure Lexeme where
  token : Token
  span : Span
  deriving DecidableEq, Repr

def Token.lexemeAt (token : Token) (offset : Nat) : Lexeme where
  token := token
  span := { start := offset, stop := offset + token.spelling.length }

def startsWith (label : Label) : List Lexeme → Bool
  | [] => false
  | first :: _ => first.token.reads label

theorem startsWith_cons (label : Label) (first : Lexeme) (rest : List Lexeme) :
    startsWith label (first :: rest) = first.token.reads label := rfl

/-- The span of what begins at an offset and ends with some other span, if there is
one, and is empty otherwise. -/
def Span.upTo (start : Nat) (last : Option Span) : Span where
  start := start
  stop := max start ((last.map Span.stop).getD start)
  start_le_stop := Nat.le_max_left _ _

@[simp] theorem Span.upTo_self (span : Span) : Span.upTo span.start (some span) = span := by
  cases span
  simp_all [Span.upTo]

/-- The head of a text, at an offset, splits by longest match into trivia and
some lexemes, up to the offset `finish`. The text goes on there with `remainder`,
which does not begin with trivia. -/
inductive Splits : (offset : Nat) → (text : Text) → List Lexeme → (finish : Nat) →
    (remainder : Text) → Prop where
  | gap {offset : Nat} {text skipped remainder : Text}
      (trivia : IsLongest isTrivia text skipped remainder) :
      Splits offset text [] (offset + skipped.length) remainder
  | lexeme {offset finish : Nat} {text skipped behind rest remainder : Text}
      {token : Token} {span : Span} {lexemes : List Lexeme}
      (trivia : IsLongest isTrivia text skipped behind)
      (longest : token.IsLongestAt behind rest)
      (start_eq : span.start = offset + skipped.length)
      (stop_eq : span.stop = span.start + token.spelling.length)
      (later : Splits span.stop rest lexemes finish remainder) :
      Splits offset text (⟨token, span⟩ :: lexemes) finish remainder

def SplitsInto (source : Text) (lexemes : List Lexeme) : Prop :=
  Splits 0 source lexemes source.length []

/-! ## Labels that accept one token -/

/-- Whether one token may be accepted under both labels. The names of types are
identifiers too. -/
def Label.overlaps : Label → Label → Bool
  | .identifier, .typeWord _ | .typeWord _, .identifier => true
  | left, right => left == right

theorem Label.overlaps_self (label : Label) : label.overlaps label = true := by
  cases label <;> simp [overlaps]

theorem Lexical.not_isIdentifier_keyword (word : Keyword) :
    isIdentifier word.spelling.toList = false := by
  cases word <;> decide

theorem Keyword.spelling_inj {word other : Keyword}
    (equal : word.spelling.toList = other.spelling.toList) : word = other := by
  revert equal
  cases word <;> cases other <;> decide

theorem BaseType.spelling_inj {type other : BaseType}
    (equal : type.spelling.toList = other.spelling.toList) : type = other := by
  revert equal
  cases type <;> cases other <;> decide

theorem Keyword.spelling_ne_type (word : Keyword) (type : BaseType) :
    word.spelling.toList ≠ type.spelling.toList := by
  cases word <;> cases type <;> decide

theorem Token.overlaps_of_reads {token : Token} {left right : Label}
    (reads : token.reads left = true) (other : token.reads right = true) :
    left.overlaps right = true := by
  cases token with
  | any label =>
      cases beq_iff_eq.mp reads
      cases beq_iff_eq.mp other
      exact Label.overlaps_self _
  | number spelling =>
      cases left with
      | number =>
          cases right with
          | number => rfl
          | _ => cases other
      | _ => cases reads
  | qubit digits =>
      have percent : ∀ {label : Label}, (Token.qubit digits).reads label = true →
          label = .sign .percent := by
        intro label accepted
        unfold Token.reads at accepted
        split at accepted <;> simp_all
      rw [percent reads, percent other]
      rfl
  | sign mark =>
      cases left with
      | sign leftMark =>
          cases right with
          | sign rightMark =>
              simp only [Token.reads, Bool.and_eq_true, beq_iff_eq] at reads other
              rw [← reads.1, ← other.1]
              exact Label.overlaps_self _
          | _ => cases other
      | _ => cases reads
  | word spelling =>
      cases left with
      | identifier =>
          cases right with
          | identifier | typeWord _ => rfl
          | keyword word =>
              rw [Token.reads, beq_iff_eq] at other
              rw [Token.reads, other, Lexical.not_isIdentifier_keyword] at reads
              cases reads
          | _ => cases other
      | keyword word =>
          rw [Token.reads, beq_iff_eq] at reads
          cases right with
          | identifier =>
              rw [Token.reads, reads, Lexical.not_isIdentifier_keyword] at other
              cases other
          | keyword otherWord =>
              rw [Token.reads, beq_iff_eq] at other
              rw [Keyword.spelling_inj (reads.symm.trans other)]
              exact Label.overlaps_self _
          | typeWord type =>
              rw [Token.reads, beq_iff_eq] at other
              exact absurd (reads.symm.trans other) (Keyword.spelling_ne_type word type)
          | _ => cases other
      | typeWord type =>
          rw [Token.reads, beq_iff_eq] at reads
          cases right with
          | identifier => rfl
          | keyword word =>
              rw [Token.reads, beq_iff_eq] at other
              exact absurd (other.symm.trans reads) (Keyword.spelling_ne_type word type)
          | typeWord otherType =>
              rw [Token.reads, beq_iff_eq] at other
              rw [BaseType.spelling_inj (reads.symm.trans other)]
              exact Label.overlaps_self _
          | _ => cases other
      | _ => cases reads

end QubitLang
