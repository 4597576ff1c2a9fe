import QubitLang.Proofs.Ast.Building
import QubitLang.Proofs.Ast.Tokens
import QubitLang.Proofs.Language.Derivation
import QubitLang.Proofs.Language.Reading

/-! The qubit literals of match trees are those of the lexemes that were read. -/

namespace QubitLang

namespace Language

/-- The node of a token is overlong if the token is: only the rule of qubit literals
takes these. -/
theorem isOverlong_of_reads {token : Token} {label : Label} {rule : String}
    (reads : token.reads label = true) (rule_iff : rule = "QUBIT" ↔ label = .sign .percent) :
    isOverlong (rule, token.spelling) = token.isOverlong := by
  by_cases percent : label = .sign .percent
  · rw [isOverlong, beq_iff_eq.mpr (rule_iff.mpr percent), Bool.true_and]
    rw [percent] at reads
    cases token with
    | qubit digits =>
        simp only [Token.spelling, List.length_cons, Nat.add_sub_cancel, Token.isOverlong]
    | any other =>
        obtain rfl : other = .sign .percent := beq_iff_eq.mp reads
        decide
    | sign mark =>
        cases mark <;> cases reads
    | _ => cases reads
  · have otherRule : (rule == "QUBIT") = false := by simpa using mt rule_iff.mp percent
    rw [isOverlong, otherRule, Bool.false_and]
    cases token with
    | qubit digits =>
        cases label with
        | sign mark =>
            cases mark with
            | percent => exact absurd rfl percent
            | _ => cases reads
        | _ => cases reads
    | _ => rfl

theorem exists_label_of_token {name : Nonterminal} {rule : String}
    (kind : (definition name).1 = .token rule) :
    ∃ label, form name = .terminal label ∧ (rule = "QUBIT" ↔ label = .sign .percent) := by
  cases name with
  | identifier | number | qubit | trueLiteral | falseLiteral =>
      cases kind
      exact ⟨_, rfl, by decide⟩
  | _ => cases kind

theorem avoids_percent {name : Nonterminal} (other : ∀ rule, (definition name).1 ≠ .token rule) :
    (form name).avoids (.sign .percent) = true := by
  cases name with
  | qubit => exact absurd rfl (other "QUBIT")
  | typeWord type => rfl
  | marker label => rfl
  | _ => decide

theorem Reads.any_isOverlong {finish : Nat} {form : Form} {stream : List Lexeme}
    {outcome : Option Reading} {probes : List Probe}
    (reads : Reads finish form stream outcome probes)
    (avoids : form.avoids (.sign .percent) = true) :
    ∀ reading ∈ outcome, ∃ consumed, stream = consumed ++ reading.rest ∧
      (Node.tokensAll reading.nodes).any isOverlong =
        consumed.any fun lexeme => lexeme.token.isOverlong := by
  induction reads with
  | empty | starStop | optNone =>
      rintro _ ⟨⟩
      exact ⟨[], rfl, rfl⟩
  | miss | callFails | seqFirstFails | seqSecondFails => rintro _ ⟨⟩
  | @hit label first rest accepted =>
      rintro _ ⟨⟩
      have other : label ≠ .sign .percent := by simpa [Form.avoids] using avoids
      have short := @isOverlong_of_reads _ _ "" accepted (iff_of_false (by decide) other)
      refine ⟨[first], rfl, ?_⟩
      rw [List.any_cons, ← short]
      rfl
  | @call name stream reading probes body induction =>
      rintro _ ⟨⟩
      cases kind : (definition name).1 with
      | token rule =>
          obtain ⟨label, form_eq, rule_iff⟩ := exists_label_of_token kind
          rw [form_eq] at body
          cases body with
          | @hit _ first rest accepted =>
              refine ⟨[first], rfl, ?_⟩
              have same := isOverlong_of_reads accepted rule_iff
              simp [Reading.asRule, nodesOf, kind, firstSpelling, same]
      | tree rule =>
          obtain ⟨consumed, stream_eq, same⟩ :=
            induction (avoids_percent (by simp [kind])) reading rfl
          refine ⟨consumed, stream_eq, ?_⟩
          simpa [Reading.asRule, nodesOf, kind] using same
      | silent | entry | marker _ =>
          obtain ⟨consumed, stream_eq, same⟩ :=
            induction (avoids_percent (by simp [kind])) reading rfl
          refine ⟨consumed, stream_eq, ?_⟩
          simpa [Reading.asRule, nodesOf, kind] using same
  | @seq left right stream reading later _ _ _ _ firstInduction secondInduction =>
      rintro _ ⟨⟩
      rw [Form.avoids, Bool.and_eq_true] at avoids
      obtain ⟨consumed, rfl, same⟩ := firstInduction avoids.1 reading rfl
      obtain ⟨more, rest_eq, otherSame⟩ := secondInduction avoids.2 later rfl
      refine ⟨consumed ++ more, by rw [rest_eq, List.append_assoc]; rfl, ?_⟩
      simp [Reading.followedBy, same, otherSame]
  | altFirst _ induction =>
      rw [Form.avoids, Bool.and_eq_true] at avoids
      exact induction avoids.1
  | altSecond _ _ _ induction =>
      rw [Form.avoids, Bool.and_eq_true] at avoids
      exact induction avoids.2
  | @starStep body stream reading later _ _ _ _ firstInduction othersInduction =>
      rintro _ ⟨⟩
      obtain ⟨consumed, rfl, same⟩ := firstInduction avoids reading rfl
      obtain ⟨more, rest_eq, otherSame⟩ := othersInduction avoids later rfl
      refine ⟨consumed ++ more, by rw [rest_eq, List.append_assoc]; rfl, ?_⟩
      simp [Reading.followedBy, same, otherSame]
  | optSome _ induction => exact induction avoids

end Language

end QubitLang
