import QubitLang.Peg.Value

namespace QubitLang

/-! Results that come with the lines that were logged on the way to them. -/

/-! ## Log lines -/

inductive LogSource where
  | matcher
  | frontEnd
  deriving DecidableEq, Repr

inductive LogLine where
  | matched (rule : String) (start stop : Nat)
  | expected (label : String) (offset : Nat)
  | assembled (items characters : Nat)
  | built (items : Nat)
  | rejected (file : Option String) (offset : Nat)
  deriving DecidableEq, Repr

def fileName (file : Option String) : String :=
  match file with
  | none | some "" => "<input>"
  | some name => name

namespace LogLine

def source : LogLine → LogSource
  | .matched _ _ _ | .expected _ _ | .assembled _ _ => .matcher
  | .built _ | .rejected _ _ => .frontEnd

def message : LogLine → String
  | .matched rule start stop => s!"{rule} matched [{start}, {stop})"
  | .expected label offset => s!"expected {label} at {offset}"
  | .assembled items characters =>
    s!"assembled {items} top-level item(s) from {characters} characters"
  | .built items => s!"built program with {items} item(s)"
  | .rejected file offset => s!"syntax error in {fileName file} at offset {offset}"

def ofEvent? : Peg.Event → Option LogLine
  | .matched rule start stop => some (.matched rule start stop)
  | .expected label offset => some (.expected label offset)
  | .failed _ _ | .passed _ => none

end LogLine

/-! ## Reports -/

structure Report (ε α : Type) where
  log : List LogLine
  outcome : Except ε α

namespace Report

variable {ε ε' α β : Type}

def andThen (report : Report ε α) (next : α → Report ε β) : Report ε β :=
  match report.outcome with
  | .ok value =>
    let later := next value
    ⟨report.log ++ later.log, later.outcome⟩
  | .error cause => ⟨report.log, .error cause⟩

def ofOutcome (outcome : Except ε α) : Report ε α := ⟨[], outcome⟩

def mapError (change : ε → ε') (report : Report ε α) : Report ε' α :=
  ⟨report.log, report.outcome.mapError change⟩

end Report

end QubitLang
