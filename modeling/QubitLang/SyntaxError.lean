import QubitLang.Expectations
import QubitLang.Span
import QubitLang.Text.Excerpt
import QubitLang.Text.Quoted

namespace QubitLang

/-- A source text that does not conform to its grammar, or that nests its
brackets too deeply. -/
structure SyntaxError where
  tooDeep : Bool
  summary : String
  offset : Nat
  line : Int
  column : Int
  expected : List String
  found : Option Char
  excerpt : String
  deriving DecidableEq, Repr

namespace SyntaxError

def excerptWidth : Int := 40

def describeFound : Option Char → String
  | none => "end of input"
  | some character => Text.quoted [character]

def describe (expected : List String) (found : Option Char) : String :=
  match expected with
  | [] => s!"unexpected {describeFound found}"
  | [label] => s!"expected {label}, found {describeFound found}"
  | labels =>
    "expected one of " ++ ", ".intercalate labels ++ "; found " ++ describeFound found

/-- The error at a place of a text. An empty summary is replaced by a
description of what was expected and found. -/
def ofPlace (tooDeep : Bool) (text : Text) (offset : Nat) (line column : Int)
    (expected : List String) (summary : String) : SyntaxError :=
  let labels := sortedLabels expected
  let found := text[offset]?
  { tooDeep, offset, line, column, found
    summary := if summary.isEmpty then describe labels found else summary
    expected := labels
    excerpt := String.ofList (text.excerpt offset excerptWidth) }

/-- The error at a place whose offset may be negative, which is no place. -/
def ofSignedPlace (tooDeep : Bool) (text : Text) (offset line column : Int)
    (expected : List String) (summary : String) : Except InvalidSpan SyntaxError :=
  (Span.ofOffsets offset offset).map fun span =>
    ofPlace tooDeep text span.start line column expected summary

def atOffset (text : Text) (offset : Nat) (expected : List String) : SyntaxError :=
  let place := (LineIndex.ofText text).place offset
  ofPlace false text offset place.line place.column expected ""

def span (error : SyntaxError) : Span := Span.point error.offset

def message (error : SyntaxError) : String :=
  s!"syntax error at line {error.line}, column {error.column}: {error.summary}" ++
    "\n\n" ++ error.excerpt

end SyntaxError

def SyntaxError.atSignedOffset (text : Text) (offset : Int) (expected : List String)
    (tooDeep : Bool := false) (summary : String := "") : Except InvalidSpan SyntaxError :=
  let place := (LineIndex.ofText text).place offset
  ofSignedPlace tooDeep text offset place.line place.column expected summary

def Expectations.error (expectations : Expectations) (text : Text) : SyntaxError :=
  SyntaxError.atOffset text expectations.errorOffset expectations.labels

end QubitLang
