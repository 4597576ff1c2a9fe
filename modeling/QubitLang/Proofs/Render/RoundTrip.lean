import QubitLang.Proofs.Language.Parsing
import QubitLang.Proofs.Render.Annotations
import QubitLang.Proofs.Render.Canonical
import QubitLang.Proofs.Render.Printing
import QubitLang.Proofs.Render.Rereading

/-! The canonical text of a program that was parsed is parsed to the same program. -/

namespace QubitLang

open QubitLang.Language

variable {α : Type} {source : Text} {options : Options} {lexemes : List Lexeme}

theorem Lexes.exists_lexemes {text : Text} {tokens : List Token} (lexes : Lexes text tokens)
    (nests : NestsWithin options.maxDepth tokens) :
    ∃ lexemes, lexemes.map Lexeme.token = tokens ∧
      Nesting.firstExcess? options.maxDepth text = none ∧
      (options.HasRoom → IsLexed text options lexemes) := by
  obtain ⟨lexemes, splits, tokens_eq⟩ := lexes.exists_splits 0
  rw [Nat.zero_add] at splits
  rw [← tokens_eq] at nests
  exact ⟨lexemes, tokens_eq, (Nesting.firstExcess?_eq_none_iff splits _).mpr nests,
    fun room => ⟨splits, nests, room⟩⟩

theorem anyOverlong_of_tokens {tokens : List Token} (tokens_eq : lexemes.map Lexeme.token = tokens)
    (short : tokens.any Token.isOverlong = false) : anyOverlong lexemes = false := by
  rwa [← tokens_eq, List.any_map] at short

theorem Program.exists_again {program : Program α} (printable : program.isPrintable = true) :
    ∃ text, program.render = .ok text ∧
      ∀ options : Options, NestsWithin options.maxDepth program.tokens →
        Nesting.firstExcess? options.maxDepth text = none ∧
        (options.HasRoom → ∃ again, (Parse.program text options).outcome = .ok again ∧
          program.same again = true ∧ again.render = .ok text) := by
  obtain ⟨text, rendered, lexes⟩ := Program.exists_render printable
  refine ⟨text, rendered, fun options nests => ?_⟩
  obtain ⟨lexemes, tokens_eq, shallow, lexed⟩ := lexes.exists_lexemes nests
  refine ⟨shallow, fun room => ?_⟩
  obtain ⟨items, derives, sameItems⟩ := exists_derivesItems printable tokens_eq
  have short := anyOverlong_of_tokens tokens_eq (Program.not_any_isOverlong printable)
  have same : program.same ⟨Span.whole text, items⟩ = true := sameItems
  refine ⟨_, ((lexed room).yields_program derives).eq_ok short, same, ?_⟩
  rw [← Program.render_eq_of_same same, rendered]

/-- Every program that is parsed has a canonical text, which is parsed, within the same
limits, to a program that differs at most in its spans and has the same canonical text. -/
theorem parse_render_parse {program : Program Span}
    (parsed : (Parse.program source options).outcome = .ok program) :
    ∃ text again, program.render = .ok text ∧ (Parse.program text options).outcome = .ok again ∧
      program.same again = true ∧ again.render = .ok text := by
  obtain ⟨lexemes, lexed, short, _, derives⟩ := parsed_program_iff.mp parsed
  have fit : lexemes.all Lexeme.isFit = true := by
    refine List.all_eq_true.mpr fun lexeme member => ?_
    rw [anyOverlong, List.any_eq_false] at short
    simp [Lexeme.isFit, lexed.splits.isLexical lexeme member, short lexeme member]
  obtain ⟨printable, shallow⟩ := derives.canonical fit
  obtain ⟨text, rendered, reads⟩ := Program.exists_again printable
  obtain ⟨again, found⟩ := (reads options (shallow.within lexed.nests)).2 lexed.room
  exact ⟨text, again, rendered, found⟩

def smallProgram : Program Unit where
  note := ()
  items :=
    [.definition ()
      { note := ()
        name := ['f']
        parameters := [⟨(), ['q'], .qubit⟩]
        returnType := some .bit }
      [.giveBack () (.call () ['g'] [.qubit () 3, .number () ['1', '.', '5']])]]

theorem parse_render_parse_definition : ∃ program : Program Span,
    (Parse.program "def f(q: qubit) -> bit \x7b\n    return g(%3, 1.5);\n\x7d\n".toList).outcome =
        .ok program ∧
      ∃ text again, program.render = .ok text ∧ (Parse.program text).outcome = .ok again ∧
        program.same again = true ∧ again.render = .ok text := by
  have nests : NestsWithin ({} : Options).maxDepth smallProgram.tokens :=
    nestsWithin_of_length_le (by decide)
  obtain ⟨text, rendered, reads⟩ := @Program.exists_again Unit smallProgram (by decide)
  obtain ⟨program, parsed, _⟩ := (reads {} nests).2 (by decide)
  have text_eq : smallProgram.render =
      .ok "def f(q: qubit) -> bit \x7b\n    return g(%3, 1.5);\n\x7d\n".toList := by rfl
  obtain rfl := Except.ok.inj (text_eq.symm.trans rendered)
  exact ⟨program, parsed, parse_render_parse parsed⟩

end QubitLang
