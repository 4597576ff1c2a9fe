import QubitLang.Parse

namespace QubitLang

structure Diagnostic where
  message : String
  code : Option String := none
  phase : Option String := none
  severity : String := "error"
  file : Option String := none
  span : Option Span := none
  line : Option Int := none
  column : Option Int := none
  notes : List String := []
  deriving DecidableEq, Repr

namespace Diagnostic

def location (diagnostic : Diagnostic) : String :=
  let file := fileName diagnostic.file
  match diagnostic.line, diagnostic.column with
  | none, _ => file
  | some line, none => s!"{file}:{line}"
  | some line, some column => s!"{file}:{line}:{column}"

def toString (diagnostic : Diagnostic) : String :=
  let code :=
    match diagnostic.code with
    | none | some "" => ""
    | some code => s!"[{code}]"
  s!"{diagnostic.location}: {diagnostic.severity}{code}: {diagnostic.message}"

def ofSyntaxError (file : Option String) (error : SyntaxError) : Diagnostic where
  message := error.summary
  code := some (if error.tooDeep then "E-PARSE-DEPTH" else "E-PARSE")
  phase := some "parser"
  file := file
  span := some error.span
  line := some error.line
  column := some error.column
  notes :=
    if error.expected.isEmpty then []
    else ["expected: " ++ ", ".intercalate error.expected]

end Diagnostic

/-- The program of a source text, or the diagnostic of its syntax error. Only a
syntax error becomes a diagnostic; any other error stays one. -/
def Parse.diagnose (source : Text) (file : Option String) (options : Options) :
    Report ParseError (Except Diagnostic (Program Span)) :=
  let report := Parse.program source options
  match report.outcome with
  | .ok program => ⟨report.log, .ok (.ok program)⟩
  | .error (.unmatched (.rejected error)) =>
    ⟨report.log ++ [.rejected file error.offset],
      .ok (.error (Diagnostic.ofSyntaxError file error))⟩
  | .error error => ⟨report.log, .error error⟩

end QubitLang
