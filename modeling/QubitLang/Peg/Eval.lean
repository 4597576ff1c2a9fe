import QubitLang.Peg.Value
import Std.Data.HashMap

namespace QubitLang.Peg

/-! Evaluation of parsing expressions. The result of a remembered expression is
looked up before it is tried, so that each is tried at most once per offset. -/

variable {ν : Type} [BEq ν] [Hashable ν]

/-- A remembered expression at an offset: the rule that holds it, its site in
that rule, and the offset. -/
abbrev MemoryKey (ν : Type) := ν × Nat × Nat

structure Progress (ν : Type) [BEq ν] [Hashable ν] where
  memory : Std.HashMap (MemoryKey ν) Outcome
  events : List Event

namespace Progress

def start : Progress ν := ⟨∅, []⟩

def note (progress : Progress ν) (event : Event) : Progress ν :=
  { progress with events := event :: progress.events }

def noteIf (progress : Progress ν) (event : Option Event) : Progress ν :=
  (event.map progress.note).getD progress

def outcomeOf? (progress : Progress ν) (key : MemoryKey ν) : Option Outcome :=
  progress.memory[key]?

def remember (progress : Progress ν) (key : MemoryKey ν) (outcome : Outcome) :
    Progress ν :=
  { progress with memory := progress.memory.insert key outcome }.noteIf
    (outcome.event? key.2.2)

end Progress

abbrev Attempt (ν : Type) [BEq ν] [Hashable ν] :=
  Cursor → Progress ν → Option (Outcome × Progress ν)

/-! ## Repetitions -/

/-- The matches of a repeated expression: their number, where they end, their
values, and the outcome of the attempt behind them, which is not one of them. -/
structure Repetition where
  count : Nat
  cursor : Cursor
  values : List Value
  last : Outcome
  deriving Repr

namespace Repetition

def ended (cursor : Cursor) (last : Outcome) : Repetition := ⟨0, cursor, [], last⟩

def precededBy (values : List Value) (repetition : Repetition) : Repetition :=
  { repetition with
    count := repetition.count + 1
    values := values ++ repetition.values }

def outcome (repetition : Repetition) : Outcome :=
  match repetition.last with
  | .stuck => .stuck
  | _ => .matched repetition.cursor repetition.values

def outcomeOfSome (repetition : Repetition) : Outcome :=
  match repetition.last, repetition.count with
  | .stuck, _ => .stuck
  | last, 0 => .failed last.explains
  | _, _ + 1 => .matched repetition.cursor repetition.values

end Repetition

/-- Attempts `body` again and again, each time behind the last match, until it
does not match or has matched `bound` times; in that case it is attempted once
more, and what this last attempt matches is dropped. -/
def repeated (body : Attempt ν) :
    (bound : Nat) → Cursor → Progress ν → Option (Repetition × Progress ν)
  | bound, cursor, progress =>
    match body cursor progress with
    | none => none
    | some (.matched next values, progress) =>
      match bound with
      | 0 => some (.ended cursor (.matched next values), progress)
      | bound + 1 =>
        match repeated body bound next progress with
        | none => none
        | some (repetition, progress) => some (repetition.precededBy values, progress)
    | some (last, progress) => some (.ended cursor last, progress)

/-! ## Expressions -/

/-- Attempts an expression of the rule `owner`. Repetitions match at most as
many times as there are characters left. -/
def Expr.attempt (invoke : ν → Attempt ν) (owner : ν) : Expr ν → Attempt ν
  | .empty, cursor, progress => some (.matched cursor [], progress)
  | .never, cursor, progress =>
    some (.failed true, progress.note (.failed cursor.offset true))
  | .noAlternative, _, progress => some (.stuck, progress)
  | .terminal accepted, cursor, progress =>
    match accepted.advance? cursor with
    | some next => some (.matched next [], progress)
    | none => some (.failed true, progress.note (.failed cursor.offset true))
  | .call rule, cursor, progress => invoke rule cursor progress
  | .seq first second, cursor, progress =>
    match first.attempt invoke owner cursor progress with
    | some (.matched middle values, progress) =>
      match second.attempt invoke owner middle progress with
      | some (.matched last more, progress) =>
        some (.matched last (values ++ more), progress)
      | result => result
    | result => result
  | .alt first second, cursor, progress =>
    match first.attempt invoke owner cursor progress with
    | some (.failed _, progress) => second.attempt invoke owner cursor progress
    | result => result
  | .remember site body, cursor, progress =>
    let key := (owner, site, cursor.offset)
    match progress.outcomeOf? key with
    | some outcome => some (outcome, progress)
    | none =>
      match body.attempt invoke owner cursor progress with
      | some (outcome, progress) => some (outcome, progress.remember key outcome)
      | none => none
  | .star body, cursor, progress =>
    match repeated (body.attempt invoke owner) cursor.rest.length cursor progress with
    | some (repetition, progress) => some (repetition.outcome, progress)
    | none => none
  | .plus body, cursor, progress =>
    match repeated (body.attempt invoke owner) cursor.rest.length cursor progress with
    | some (repetition, progress) => some (repetition.outcomeOfSome, progress)
    | none => none
  | .opt body, cursor, progress =>
    match body.attempt invoke owner cursor progress with
    | some (.failed _, progress) => some (.matched cursor [], progress)
    | result => result
  | .ahead body, cursor, progress =>
    match body.attempt invoke owner cursor progress with
    | some (.matched _ _, progress) => some (.matched cursor [], progress)
    | some (.failed _, progress) => some (.failed true, progress)
    | result => result
  | .notAhead body, cursor, progress =>
    match body.attempt invoke owner cursor progress with
    | some (.matched _ _, progress) => some (.failed true, progress)
    | some (.failed _, progress) => some (.matched cursor [], progress)
    | result => result

namespace Grammar

def invoke (grammar : Grammar ν) : (depth : Nat) → ν → Attempt ν
  | 0, _, _, _ => none
  | depth + 1, name, cursor, progress =>
    match grammar.rule name with
    | none => some (.failed true, progress)
    | some rule =>
      match rule.body.attempt (grammar.invoke depth) name cursor progress with
      | some (.matched last values, progress) =>
        let (values, event) := rule.kind.finish cursor last values
        some (.matched last values, progress.noteIf event)
      | result => result

/-- No rule is invoked inside itself at one offset unless the grammar is left
recursive, so this many invocations inside one another suffice. -/
def depthBound (grammar : Grammar ν) (text : Text) : Nat :=
  grammar.names.length * (text.length + 1) + 1

/-- The outcome and the events of matching a rule at the head of a text. There
is no result for a left-recursive grammar that runs into its recursion. -/
def run (grammar : Grammar ν) (start : ν) (text : Text) :
    Option (Outcome × List Event) :=
  (grammar.invoke (grammar.depthBound text) start (Cursor.start text)
    Progress.start).map fun (outcome, progress) => (outcome, progress.events.reverse)

end Grammar

end QubitLang.Peg
