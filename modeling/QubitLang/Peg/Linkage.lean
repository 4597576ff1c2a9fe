import QubitLang.Peg.Grammar

namespace QubitLang.Peg

/-! Rules are linked one by one, in the order in which they were registered. A
call of a rule whose turn has not come yet leaves a placeholder, which the rule
fills with its body in its turn. A silent rule that only calls another rule is
an alias, and stands for what the other rule stands for by then: an alias that
was called before has nothing to fill its placeholder with if the other rule is
still a placeholder itself. Such a table cannot be compiled. -/

inductive LinkTarget where
  | body
  | placeholder (rule : String)
  deriving DecidableEq, Repr

structure Linkage where
  targets : List (String × LinkTarget)
  filled : List String
  deriving DecidableEq, Repr

namespace Linkage

def empty : Linkage := ⟨[], []⟩

def isKnown (linkage : Linkage) (name : String) : Bool :=
  (linkage.targets.lookup name).isSome

def hasBody (linkage : Linkage) : LinkTarget → Bool
  | .body => true
  | .placeholder rule => linkage.filled.contains rule

/-- Leaves a placeholder for a called rule that is not known yet. -/
def mention (linkage : Linkage) (name : String) : Linkage :=
  if linkage.isKnown name then linkage
  else { linkage with targets := linkage.targets ++ [(name, .placeholder name)] }

def targetOf (linkage : Linkage) (rule : Rule String) : LinkTarget :=
  match rule.kind, rule.body with
  | .silent, .call other => (linkage.targets.lookup other).getD .body
  | _, _ => .body

/-- Links a rule, whose name may already have a placeholder. -/
def link (linkage : Linkage) (name : String) (rule : Rule String) : Linkage :=
  let mentioned := rule.body.calls.foldl mention linkage
  let target := mentioned.targetOf rule
  if mentioned.isKnown name then
    if mentioned.hasBody target then
      { mentioned with filled := name :: mentioned.filled }
    else mentioned
  else { mentioned with targets := mentioned.targets ++ [(name, target)] }

def ofRules (rules : List (String × Rule String)) : Linkage :=
  rules.foldl (fun linkage (name, rule) => linkage.link name rule) empty

def firstUnfilled? (linkage : Linkage) : Option String :=
  (linkage.targets.find? fun (_, target) => !linkage.hasBody target).map Prod.fst

end Linkage

end QubitLang.Peg
