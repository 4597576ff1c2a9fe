import Mathlib.Tactic.Tauto
import QubitLang.Proofs.Ast.Tokens
import QubitLang.Render.Program

/-! The names of a tree, in the order in which its canonical text is put together. A tree
has a canonical text exactly if all of them are names. -/

namespace QubitLang

open Lexical

variable {α β γ : Type}

/-! ## Names -/

mutual

def Expression.names : Expression α → List Text
  | .number _ _ | .qubit _ _ | .boolean _ _ => []
  | .identifier _ name => [name]
  | .call _ callee arguments => Expression.namesAll arguments ++ [callee]

def Expression.namesAll : List (Expression α) → List Text
  | [] => []
  | expression :: rest => expression.names ++ Expression.namesAll rest

end

mutual

def Statement.names : Statement α → List Text
  | .declare _ name _ value | .assign _ name value => name :: value.names
  | .call _ callee arguments => Expression.namesAll arguments ++ [callee]
  | .giveBack _ value => value.names
  | .ifThen _ condition body | .loop _ condition body =>
    condition.names ++ Statement.namesAll body
  | .ifThenElse _ condition body otherwise =>
    condition.names ++ (Statement.namesAll body ++ Statement.namesAll otherwise)

def Statement.namesAll : List (Statement α) → List Text
  | [] => []
  | statement :: rest => statement.names ++ Statement.namesAll rest

end

def Prototype.names (prototype : Prototype α) : List Text :=
  prototype.parameters.map Parameter.name ++ [prototype.name]

def Item.names : Item α → List Text
  | .declaration _ prototype => prototype.names
  | .definition _ prototype body => prototype.names ++ Statement.namesAll body

def Program.names (program : Program α) : List Text := program.items.flatMap Item.names

/-! ## Literals -/

mutual

def Expression.hasFitLiterals : Expression α → Bool
  | .number _ text => isNumber text
  | .qubit _ index => decide ((Nat.toDigits 10 index).length ≤ maxIndexDigits)
  | .boolean _ _ | .identifier _ _ => true
  | .call _ _ arguments => Expression.haveFitLiterals arguments

def Expression.haveFitLiterals : List (Expression α) → Bool
  | [] => true
  | expression :: rest => expression.hasFitLiterals && Expression.haveFitLiterals rest

end

mutual

def Statement.hasFitLiterals : Statement α → Bool
  | .declare _ _ _ value | .assign _ _ value | .giveBack _ value => value.hasFitLiterals
  | .call _ _ arguments => Expression.haveFitLiterals arguments
  | .ifThen _ condition body | .loop _ condition body =>
    condition.hasFitLiterals && Statement.haveFitLiterals body
  | .ifThenElse _ condition body otherwise =>
    condition.hasFitLiterals && Statement.haveFitLiterals body &&
      Statement.haveFitLiterals otherwise

def Statement.haveFitLiterals : List (Statement α) → Bool
  | [] => true
  | statement :: rest => statement.hasFitLiterals && Statement.haveFitLiterals rest

end

def Item.hasFitLiterals : Item α → Bool
  | .declaration _ _ => true
  | .definition _ _ body => Statement.haveFitLiterals body

def Program.hasFitLiterals (program : Program α) : Bool :=
  program.items.all Item.hasFitLiterals

/-! A tree is printable if its literals are fit and its names are names. -/

mutual

theorem Expression.isPrintable_iff : ∀ expression : Expression α,
    expression.isPrintable = true ↔
      expression.hasFitLiterals = true ∧ ∀ name ∈ expression.names, isIdentifier name = true
  | .number _ _ | .qubit _ _ | .boolean _ _ | .identifier _ _ => by
      simp [isPrintable, hasFitLiterals, names]
  | .call _ _ arguments => by
      have inside := Expression.allPrintable_iff arguments
      simp only [isPrintable, hasFitLiterals, names, Bool.and_eq_true, List.forall_mem_append,
        List.forall_mem_singleton, inside]
      tauto

theorem Expression.allPrintable_iff : ∀ expressions : List (Expression α),
    Expression.allPrintable expressions = true ↔ Expression.haveFitLiterals expressions = true ∧
      ∀ name ∈ Expression.namesAll expressions, isIdentifier name = true
  | [] => by simp [allPrintable, haveFitLiterals, namesAll]
  | expression :: rest => by
      have first := expression.isPrintable_iff
      have others := Expression.allPrintable_iff rest
      simp only [allPrintable, haveFitLiterals, namesAll, Bool.and_eq_true,
        List.forall_mem_append, first, others]
      tauto

end

mutual

theorem Statement.isPrintable_iff : ∀ statement : Statement α,
    statement.isPrintable = true ↔
      statement.hasFitLiterals = true ∧ ∀ name ∈ statement.names, isIdentifier name = true
  | .giveBack _ value => value.isPrintable_iff
  | .declare _ _ _ value | .assign _ _ value => by
      simp only [isPrintable, hasFitLiterals, names, Bool.and_eq_true, List.forall_mem_cons,
        value.isPrintable_iff]
      tauto
  | .call note callee arguments => (Expression.call note callee arguments).isPrintable_iff
  | .ifThen _ condition body | .loop _ condition body => by
      have statements := Statement.allPrintable_iff body
      simp only [isPrintable, hasFitLiterals, names, Bool.and_eq_true, List.forall_mem_append,
        condition.isPrintable_iff, statements]
      tauto
  | .ifThenElse _ condition body otherwise => by
      have statements := Statement.allPrintable_iff body
      have others := Statement.allPrintable_iff otherwise
      simp only [isPrintable, hasFitLiterals, names, Bool.and_eq_true, List.forall_mem_append,
        condition.isPrintable_iff, statements, others]
      tauto

theorem Statement.allPrintable_iff : ∀ statements : List (Statement α),
    Statement.allPrintable statements = true ↔ Statement.haveFitLiterals statements = true ∧
      ∀ name ∈ Statement.namesAll statements, isIdentifier name = true
  | [] => by simp [allPrintable, haveFitLiterals, namesAll]
  | statement :: rest => by
      have first := statement.isPrintable_iff
      have others := Statement.allPrintable_iff rest
      simp only [allPrintable, haveFitLiterals, namesAll, Bool.and_eq_true,
        List.forall_mem_append, first, others]
      tauto

end

theorem Prototype.isPrintable_iff {prototype : Prototype α} :
    prototype.isPrintable = true ↔ ∀ name ∈ prototype.names, isIdentifier name = true := by
  simp only [isPrintable, names, Bool.and_eq_true, List.all_eq_true, List.forall_mem_append,
    List.forall_mem_map, List.forall_mem_singleton]
  exact and_comm

theorem Item.isPrintable_iff {item : Item α} : item.isPrintable = true ↔
    item.hasFitLiterals = true ∧ ∀ name ∈ item.names, isIdentifier name = true := by
  cases item with
  | declaration _ prototype =>
      simp [isPrintable, hasFitLiterals, names, Prototype.isPrintable_iff]
  | definition _ prototype body =>
      simp only [isPrintable, hasFitLiterals, names, Bool.and_eq_true, List.forall_mem_append,
        Prototype.isPrintable_iff, Statement.allPrintable_iff]
      tauto

theorem Program.isPrintable_iff {program : Program α} : program.isPrintable = true ↔
    program.hasFitLiterals = true ∧ ∀ name ∈ program.names, isIdentifier name = true := by
  simp only [isPrintable, hasFitLiterals, names, List.all_eq_true, Item.isPrintable_iff,
    List.forall_mem_flatMap]
  exact forall₂_and

/-! ## Refused names -/

/-- What is made of some names: nothing if one of them is not a name, and then the first
such name is the reason. -/
def RefusesFirst (names : List Text) (result : Except RenderError β) : Prop :=
  match names.find? fun name => !isIdentifier name with
  | none => ∃ value, result = .ok value
  | some name => result = .error (.notAnIdentifier name)

namespace RefusesFirst

variable {names more : List Text} {result : Except RenderError β}

theorem pure (value : β) : RefusesFirst [] (.ok value) := ⟨value, rfl⟩

theorem name (name : Text) : RefusesFirst [name] (Layout.name name) := by
  unfold RefusesFirst Layout.name
  cases isName : isIdentifier name with
  | true => simp [isName]
  | false => simp [isName]

theorem bind {next : β → Except RenderError γ} (first : RefusesFirst names result)
    (later : ∀ value, RefusesFirst more (next value)) :
    RefusesFirst (names ++ more) (result >>= next) := by
  unfold RefusesFirst at first ⊢
  rw [List.find?_append]
  cases found : names.find? fun name => !isIdentifier name with
  | some name =>
      rw [found] at first
      rw [Option.some_or, first]
      rfl
  | none =>
      rw [found] at first
      obtain ⟨value, rfl⟩ := first
      exact later value

theorem map {change : β → γ} (first : RefusesFirst names result) :
    RefusesFirst names (result >>= fun value => .ok (change value)) := by
  have whole := first.bind fun value => .pure (change value)
  rwa [List.append_nil] at whole

theorem mapM {render : β → Except RenderError γ} {names : β → List Text}
    (each : ∀ part, RefusesFirst (names part) (render part)) :
    ∀ parts : List β, RefusesFirst (parts.flatMap names) (parts.mapM render)
  | [] => .pure []
  | part :: parts => by
      rw [List.mapM_cons, List.flatMap_cons]
      exact (each part).bind fun _ => (mapM each parts).map

theorem exists_ok_iff (refuses : RefusesFirst names result) :
    (∃ value, result = .ok value) ↔ ∀ name ∈ names, isIdentifier name = true := by
  unfold RefusesFirst at refuses
  cases found : names.find? fun name => !isIdentifier name with
  | some name =>
      rw [found] at refuses
      have bad := List.find?_some found
      rw [refuses]
      simp only [reduceCtorEq, exists_false, false_iff, not_forall]
      exact ⟨name, List.mem_of_find?_eq_some found, by simpa using bad⟩
  | none =>
      rw [found] at refuses
      exact iff_of_true refuses (by simpa using List.find?_eq_none.mp found)

theorem exists_name_of_error {error : RenderError} (refuses : RefusesFirst names result)
    (failed : result = .error error) :
    ∃ name ∈ names, isIdentifier name = false ∧ error = .notAnIdentifier name := by
  unfold RefusesFirst at refuses
  cases found : names.find? fun name => !isIdentifier name with
  | some name =>
      rw [found, failed] at refuses
      have bad := List.find?_some found
      exact ⟨name, List.mem_of_find?_eq_some found, by simpa using bad, by cases refuses; rfl⟩
  | none =>
      rw [found, failed] at refuses
      obtain ⟨_, impossible⟩ := refuses
      cases impossible

theorem exists_error_iff (refuses : RefusesFirst names result) :
    (∃ name, result = .error (.notAnIdentifier name)) ↔
      ∃ name ∈ names, isIdentifier name = false := by
  constructor
  · rintro ⟨_, failed⟩
    obtain ⟨name, member, bad, _⟩ := refuses.exists_name_of_error failed
    exact ⟨name, member, bad⟩
  · rintro ⟨name, member, bad⟩
    cases result_eq : result with
    | ok value =>
        have good := refuses.exists_ok_iff.mp ⟨value, result_eq⟩ name member
        rw [bad] at good
        cases good
    | error error =>
        obtain ⟨reason, _, _, rfl⟩ := refuses.exists_name_of_error result_eq
        exact ⟨reason, rfl⟩

end RefusesFirst

/-! ## Canonical texts -/

mutual

theorem Expression.render_refuses : ∀ expression : Expression α,
    RefusesFirst expression.names expression.render
  | .number _ _ | .qubit _ _ | .boolean _ _ => .pure _
  | .identifier _ name => .name name
  | .call _ callee arguments => (Expression.renderAll_refuses arguments).bind fun _ =>
      (RefusesFirst.name callee).map

theorem Expression.renderAll_refuses : ∀ expressions : List (Expression α),
    RefusesFirst (Expression.namesAll expressions) (Expression.renderAll expressions)
  | [] => .pure _
  | expression :: rest => expression.render_refuses.bind fun _ =>
      (Expression.renderAll_refuses rest).map

end

mutual

theorem Statement.render_refuses (depth : Nat) : ∀ statement : Statement α,
    RefusesFirst statement.names (statement.render depth)
  | .declare _ name _ value | .assign _ name value =>
      (RefusesFirst.name name).bind fun _ => value.render_refuses.map
  | .call note callee arguments => (Expression.call note callee arguments).render_refuses.map
  | .giveBack _ value => value.render_refuses.map
  | .ifThen _ condition body | .loop _ condition body => condition.render_refuses.bind fun _ =>
      (Statement.renderAll_refuses (depth + 1) body).map
  | .ifThenElse _ condition body otherwise => condition.render_refuses.bind fun _ =>
      (Statement.renderAll_refuses (depth + 1) body).bind fun _ =>
        (Statement.renderAll_refuses (depth + 1) otherwise).map

theorem Statement.renderAll_refuses (depth : Nat) : ∀ statements : List (Statement α),
    RefusesFirst (Statement.namesAll statements) (Statement.renderAll depth statements)
  | [] => .pure _
  | statement :: rest => (Statement.render_refuses depth statement).bind fun _ =>
      (Statement.renderAll_refuses depth rest).map

end

theorem Prototype.render_refuses (prototype : Prototype α) :
    RefusesFirst prototype.names prototype.render := by
  have parameters := RefusesFirst.mapM
    (fun parameter : Parameter α =>
      ((RefusesFirst.name parameter.name).map : RefusesFirst [parameter.name] parameter.render))
    prototype.parameters
  rw [← List.map_eq_flatMap] at parameters
  exact parameters.bind fun _ => (RefusesFirst.name prototype.name).map

theorem Item.render_refuses : ∀ item : Item α, RefusesFirst item.names item.render
  | .declaration _ prototype => prototype.render_refuses.map
  | .definition _ prototype body => prototype.render_refuses.bind fun _ =>
      (Statement.renderAll_refuses 1 body).map

theorem Program.render_refuses (program : Program α) :
    RefusesFirst program.names program.render :=
  (RefusesFirst.mapM Item.render_refuses program.items).map

end QubitLang
