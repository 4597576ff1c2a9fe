import QubitLang.Peg.Expr

namespace QubitLang.Peg

/-- What a match of a rule contributes to the values of its caller. -/
inductive RuleKind where
  | tree (name : String)
  | token (name : String)
  | silent
  | entry
  /-- Nothing: the label is noted as expected. -/
  | marker (label : String)
  deriving DecidableEq, Repr

structure Rule (ν : Type) where
  kind : RuleKind
  body : Expr ν
  deriving DecidableEq, Repr

def Rule.ofBody {ν : Type} (kind : RuleKind) (body : Expr ν) : Rule ν :=
  ⟨kind, body.numbered⟩

/-- Rules by name. The list holds every name that has a rule. -/
structure Grammar (ν : Type) where
  names : List ν
  rule : ν → Option (Rule ν)

end QubitLang.Peg
