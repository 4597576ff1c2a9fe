import QubitLang.Peg.Grammar
import Mathlib.Data.List.Nodup

/-! The remembered expressions of a rule have sites of their own, so that a site
of a rule stands for one expression. -/

namespace QubitLang.Peg

variable {ν : Type}

namespace Expr

def remembered : Expr ν → List (Nat × Expr ν)
  | .empty | .never | .noAlternative | .terminal _ | .call _ => []
  | .seq first second | .alt first second => first.remembered ++ second.remembered
  | .remember site body => (site, body) :: body.remembered
  | .star body | .plus body | .opt body | .ahead body | .notAhead body =>
    body.remembered

theorem numberFrom_sites : ∀ (expr : Expr ν) (site : Nat),
    ∃ count, (expr.numberFrom site).2 = site + count ∧
      (expr.numberFrom site).1.remembered.map Prod.fst = List.range' site count
  | .empty, site | .never, site | .noAlternative, site | .terminal _, site
  | .call _, site => ⟨0, rfl, rfl⟩
  | .seq first second, site | .alt first second, site => by
      obtain ⟨firstCount, firstNext, firstSites⟩ := numberFrom_sites first site
      obtain ⟨secondCount, secondNext, secondSites⟩ :=
        numberFrom_sites second (site + firstCount)
      refine ⟨firstCount + secondCount, ?_, ?_⟩
      · simp only [numberFrom, firstNext, secondNext]
        omega
      · simp only [numberFrom, remembered, List.map_append, firstSites, firstNext,
          secondSites]
        exact List.range'_append_1
  | .remember _ body, site => by
      obtain ⟨count, next, sites⟩ := numberFrom_sites body (site + 1)
      refine ⟨count + 1, ?_, ?_⟩
      · simp only [numberFrom, next]
        omega
      · simp only [numberFrom, remembered, List.map_cons, sites]
        rfl
  | .star body, site | .plus body, site | .opt body, site | .ahead body, site
  | .notAhead body, site => numberFrom_sites body site

end Expr

/-- Whether a site of a rule stands for one expression. -/
def Rule.HasOwnSites (rule : Rule ν) : Prop :=
  (rule.body.remembered.map Prod.fst).Nodup

theorem Rule.ofBody_hasOwnSites (kind : RuleKind) (body : Expr ν) :
    (Rule.ofBody kind body).HasOwnSites := by
  obtain ⟨count, _, sites⟩ := Expr.numberFrom_sites body 0
  rw [HasOwnSites, ofBody, Expr.numbered, sites]
  exact List.nodup_range'

theorem Rule.HasOwnSites.eq_of_mem {rule : Rule ν} (own : rule.HasOwnSites)
    {site : Nat} {left right : Expr ν}
    (leftMem : (site, left) ∈ rule.body.remembered)
    (rightMem : (site, right) ∈ rule.body.remembered) : left = right := by
  have equal := List.inj_on_of_nodup_map own leftMem rightMem rfl
  exact congrArg Prod.snd equal

end QubitLang.Peg
