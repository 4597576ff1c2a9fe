import QubitLang.Peg.Linkage
import QubitLang.Peg.Match

namespace QubitLang.Peg

/-- An expression as it is registered: labels stand for themselves, and sites
are not numbered. -/
inductive Pattern where
  | terminal (accepted : Terminal)
  | call (rule : String)
  | sequence (parts : List Pattern)
  | choice (alternatives : List Pattern)
  | star (body : Pattern)
  | plus (body : Pattern)
  | opt (body : Pattern)
  | ahead (body : Pattern)
  | notAhead (body : Pattern)
  | expect (label : String) (body : Pattern)
  deriving Repr

def Pattern.quotedLiteral (text : String) : Pattern :=
  .expect ("\"" ++ text ++ "\"") (.terminal (.literal text.toList))

/-- Rules that are registered one by one. A grammar is compiled when it is
first asked for, and kept under its start rule: rules that are registered later
are not part of it. -/
structure RuleTable where
  definitions : List (String × Rule String)
  markers : List (String × String)
  compiled : List (String × Grammar String)

inductive DefinitionError where
  | duplicateRule (name : String)
  | nestedRepeat
  deriving DecidableEq, Repr

def DefinitionError.message : DefinitionError → String
  | .duplicateRule name => "duplicate rule " ++ Text.quoted name.toList
  | .nestedRepeat => "multiple repeat operators"

namespace RuleTable

def empty : RuleTable := ⟨[], [], []⟩

def contains (table : RuleTable) (name : String) : Bool :=
  (table.definitions.lookup name).isSome

/-! ## Registration -/

/-- A change of a table that can be refused. What was changed before the
refusal stays. -/
abbrev Registration := ExceptT DefinitionError (StateM RuleTable)

def define (name : String) (rule : Rule String) : Registration Unit := do
  if (← get).contains name then throw (.duplicateRule name)
  modify fun table =>
    { table with definitions := table.definitions ++ [(name, rule)] }

def marker (label : String) : Registration String := do
  let table ← get
  match table.markers.lookup label with
  | some name => return name
  | none =>
    let name := s!"_expect_{table.markers.length}"
    define name (.ofBody (.marker label) .empty)
    modify fun table =>
      { table with markers := table.markers ++ [(label, name)] }
    return name

def single (body : Expr String) : Registration (Expr String) :=
  if body.isRepeat then throw .nestedRepeat else return body

mutual

/-- The expression that a pattern stands for. Its markers are registered from
left to right, that of a label after those inside its body. -/
def resolve : Pattern → Registration (Expr String)
  | .terminal accepted => return .terminal accepted
  | .call rule => return .call rule
  | .sequence parts => return .sequence (← resolveAll parts)
  | .choice alternatives => return .choice (← resolveAll alternatives)
  | .star body => return .star (← single (← resolve body))
  | .plus body => return .plus (← single (← resolve body))
  | .opt body => return .opt (← single (← resolve body))
  | .ahead body => return .ahead (← resolve body)
  | .notAhead body => return .notAhead (← resolve body)
  | .expect label body => do
    let body ← resolve body
    return .expecting (← marker label) body

def resolveAll : List Pattern → Registration (List (Expr String))
  | [] => return []
  | pattern :: rest => do
    let expr ← resolve pattern
    return expr :: (← resolveAll rest)

end

def register (name : String) (kind : RuleKind) (body : Pattern) :
    Registration Unit := do
  let expr ← resolve body
  define name (.ofBody kind expr)

/-! ## Compilation -/

def firstUndefined? (table : RuleTable) : Option String :=
  (table.definitions.flatMap fun (_, rule) => rule.body.calls).find? fun name =>
    !table.contains name

def hasProperClasses (table : RuleTable) : Bool :=
  table.definitions.all fun (_, rule) => rule.body.terminals.all Terminal.isProper

def compileError? (table : RuleTable) (start : String) : Option CompileError :=
  if !table.contains start then some (.unknownStart start)
  else
    match table.firstUndefined? with
    | some name => some (.undefinedRule name)
    | none =>
      if !table.hasProperClasses then some .improperClass
      else (Linkage.ofRules table.definitions).firstUnfilled?.map .unfilledAlias

def grammar (table : RuleTable) : Grammar String where
  names := table.definitions.map Prod.fst
  rule name := table.definitions.lookup name

/-- The grammar kept for a start rule, which is compiled at the first use. -/
def compile (start : String) : ExceptT CompileError (StateM RuleTable) (Grammar String) := do
  let table ← get
  match table.compiled.lookup start with
  | some grammar => return grammar
  | none =>
    match table.compileError? start with
    | some error => throw error
    | none =>
      modify fun table =>
        { table with compiled := (start, table.grammar) :: table.compiled }
      return table.grammar

/-! ## Matching -/

/-- Matches a start rule at the head of a text, which is admitted before the
rule is looked up. -/
def matchText (start : String) (text : Text) (options : Options) :
    StateM RuleTable (Report MatchError (Option Value)) := do
  match admission text options with
  | .error error => return ⟨[], .error error⟩
  | .ok () =>
    match ← (compile start).run with
    | .error error => return ⟨[], .error (.notCompiled error)⟩
    | .ok grammar => return grammar.matchText start text options.trace

def assemble (start : String) (text : Text) (options : Options) :
    StateM RuleTable (Report MatchError Value) := do
  let report ← matchText start text options
  return report.andThen fun value =>
    match value with
    | some (.tree rule first last children) =>
      ⟨[.assembled children.length text.length], .ok (.tree rule first last children)⟩
    | _ => ⟨[], .error .notATree⟩

def matchDetached (start : String) (text : Text) :
    StateM RuleTable (Except MatchError (Option Value)) := do
  match ← (compile start).run with
  | .error error => return .error (.notCompiled error)
  | .ok grammar => return grammar.matchDetached start text

end RuleTable

end QubitLang.Peg
