import QubitLang.Ast.Same
import QubitLang.Ast.Walk
import QubitLang.Diagnostic
import QubitLang.Proofs.Language.Excerpts
import QubitLang.Proofs.Language.Spacing
import QubitLang.Proofs.Lexical.Split
import QubitLang.Proofs.Peg.Refinement
import QubitLang.Proofs.Render.Handmade
import QubitLang.Proofs.Language.Joining
import QubitLang.Proofs.Language.Brackets
import QubitLang.Proofs.Language.Concatenation
import QubitLang.Proofs.Diagnosis
import QubitLang.Proofs.Language.Embedding
import QubitLang.Proofs.Language.Ascent
import QubitLang.Proofs.Ending
import QubitLang.Proofs.Language.Recursion
import QubitLang.Proofs.Peg.Histories
import QubitLang.Proofs.Peg.Unlabelled
import QubitLang.Proofs.Json.Grammar
import QubitLang.Proofs.Json.View
import QubitLang.Proofs.Language.Excess
import QubitLang.Proofs.Language.Naming
import QubitLang.Proofs.Language.Productions
import QubitLang.Proofs.Ast.Schema
import QubitLang.Proofs.Language.Gating
import QubitLang.Proofs.Ast.Answers
import QubitLang.Proofs.Ast.Conforming
import QubitLang.Proofs.Lines
import QubitLang.Proofs.Lexical.FirstMatch
import QubitLang.Proofs.Numbers.Conversion
import QubitLang.Proofs.Peg.Occurrences
import QubitLang.Proofs.Peg.Repeats
import QubitLang.Proofs.Tracker
