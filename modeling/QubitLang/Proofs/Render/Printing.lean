import QubitLang.Proofs.Render.Lexing
import QubitLang.Render.Program

/-! The canonical text of a printable tree splits into the canonical tokens of the
tree. -/

namespace QubitLang

open Lexical

variable {α : Type}

theorem Layout.name_eq_ok {name : Text} (isName : isIdentifier name = true) :
    Layout.name name = .ok name := if_pos isName

theorem Layout.qubit_natCast (index : Nat) :
    Layout.qubit index = (Token.ofIndex index).spelling := by
  have digits : (toString (index : Int)).toList = Nat.toDigits 10 index := Nat.toList_repr
  rw [Layout.qubit, digits]
  rfl

/-! ## Expressions -/

theorem prints_solid {token : Token} (lexical : token.isLexical = true)
    (noSign : token.kind? ≠ some .mark) : Prints token.spelling [token] :=
  fun _ _ ends later => .solid lexical noSign ends later

theorem prints_call {callee : Text} {texts : List Text} {parts : List (List Token)}
    (isName : isIdentifier callee = true) (each : List.Forall₂ Prints texts parts) :
    PrintsAnywhere (Layout.call callee texts)
      (.word callee :: .sign .openParen ::
        (Token.commaSeparated parts ++ [.sign .closeParen])) := by
  intro rest behind later
  simp only [Layout.call, List.append_assoc, List.cons_append, List.nil_append]
  exact .name isName rfl (.mark .openParen (by decide)
    (.commaSeparated each rfl (.mark .closeParen (by decide) later)))

mutual

theorem Expression.exists_render : ∀ {expression : Expression α}, expression.isPrintable = true →
    ∃ text, expression.render = .ok text ∧ Prints text expression.tokens
  | .number _ text, printable =>
      ⟨text, rfl, @prints_solid (.number text) printable (by simp [Token.kind?])⟩
  | .qubit _ index, _ =>
      ⟨_, congrArg Except.ok (Layout.qubit_natCast index), @prints_solid (.ofIndex index)
        (isDigits_toDigits index) (by simp [Token.ofIndex, Token.kind?])⟩
  | .boolean _ value, _ =>
      ⟨_, rfl, fun _ _ ends later => .keyword (if value then .trueWord else .falseWord) ends later⟩
  | .identifier _ name, printable =>
      ⟨name, Layout.name_eq_ok printable, fun _ _ ends later => .name printable ends later⟩
  | .call _ callee arguments, printable => by
      rw [isPrintable, Bool.and_eq_true] at printable
      obtain ⟨texts, rendered, each⟩ := exists_renderAll printable.2
      refine ⟨Layout.call callee texts, ?_, fun _ _ _ later => prints_call printable.1 each later⟩
      rw [Expression.render, rendered, Layout.name_eq_ok printable.1]
      rfl

theorem Expression.exists_renderAll : ∀ {expressions : List (Expression α)},
    Expression.allPrintable expressions = true →
      ∃ texts, Expression.renderAll expressions = .ok texts ∧
        List.Forall₂ Prints texts (Expression.tokensEach expressions)
  | [], _ => ⟨[], rfl, .nil⟩
  | expression :: rest, printable => by
      rw [allPrintable, Bool.and_eq_true] at printable
      obtain ⟨text, rendered, prints⟩ := exists_render printable.1
      obtain ⟨texts, othersRendered, each⟩ := exists_renderAll printable.2
      refine ⟨text :: texts, ?_, .cons prints each⟩
      rw [Expression.renderAll, rendered, othersRendered]
      rfl

end

/-! ## Statements -/

/-- Lines, each with the line end in front of it. -/
def asLines (lines : List Text) : Text := lines.flatMap ('\n' :: ·)

theorem asLines_append (lines others : List Text) :
    asLines (lines ++ others) = asLines lines ++ asLines others := List.flatMap_append

theorem intercalate_eq_asLines (first : Text) (others : List Text) :
    ['\n'].intercalate (first :: others) = first ++ asLines others :=
  intercalate_cons _ _ _

theorem printsAnywhere_line {text : Text} {tokens : List Token} (depth : Nat)
    (prints : PrintsAnywhere text tokens) :
    PrintsAnywhere (asLines [Layout.padding depth ++ text]) tokens := by
  intro rest behind later
  rw [asLines, List.flatMap_singleton, List.cons_append, List.append_assoc]
  exact .blank rfl (.blanks _ (prints later))

theorem Layout.declare_eq (name : Text) (type : BaseType) (value : Text) :
    Layout.declare name type value = Keyword.var.spelling.toList ++ ' ' ::
      (name ++ ':' :: ' ' :: (type.spelling.toList ++ ' ' :: '=' :: ' ' :: (value ++ [';']))) := by
  have keyword_eq : "var ".toList = Keyword.var.spelling.toList ++ [' '] := by decide
  have text_eq : Layout.declare name type value = "var ".toList ++ name ++ [':', ' '] ++
      type.spelling.toList ++ [' ', '=', ' '] ++ value ++ [';'] := rfl
  rw [text_eq, keyword_eq]
  simp only [List.append_assoc, List.cons_append, List.nil_append]

theorem Layout.giveBack_eq (value : Text) : Layout.giveBack value =
    Keyword.returnWord.spelling.toList ++ ' ' :: (value ++ [';']) := by
  have keyword_eq : "return ".toList = Keyword.returnWord.spelling.toList ++ [' '] := by decide
  have text_eq : Layout.giveBack value = "return ".toList ++ value ++ [';'] := rfl
  rw [text_eq, keyword_eq]
  simp only [List.append_assoc, List.cons_append, List.nil_append]

theorem printsAnywhere_declare {name value : Text} {tokens : List Token} (type : BaseType)
    (isName : isIdentifier name = true) (prints : Prints value tokens) :
    PrintsAnywhere (Layout.declare name type value)
      (.keyword .var :: .word name :: .sign .colon :: .typeName type :: .sign .equals ::
        (tokens ++ [.sign .semicolon])) := by
  intro rest behind later
  rw [Layout.declare_eq]
  simp only [List.append_assoc, List.cons_append, List.nil_append]
  exact .keyword .var rfl (.blank rfl (.name isName rfl (.mark .colon (by decide) (.blank rfl
    (.typeName type rfl (.blank rfl (.mark .equals (by decide) (.blank rfl
      (prints rfl (.mark .semicolon (by decide) later))))))))))

theorem printsAnywhere_assign {target value : Text} {tokens : List Token}
    (isName : isIdentifier target = true) (prints : Prints value tokens) :
    PrintsAnywhere (Layout.assign target value)
      (.word target :: .sign .equals :: (tokens ++ [.sign .semicolon])) := by
  intro rest behind later
  simp only [Layout.assign, List.append_assoc, List.cons_append, List.nil_append]
  exact .name isName rfl (.blank rfl (.mark .equals (by decide) (.blank rfl
    (prints rfl (.mark .semicolon (by decide) later)))))

theorem printsAnywhere_giveBack {value : Text} {tokens : List Token}
    (prints : Prints value tokens) :
    PrintsAnywhere (Layout.giveBack value)
      (.keyword .returnWord :: (tokens ++ [.sign .semicolon])) := by
  intro rest behind later
  rw [Layout.giveBack_eq]
  simp only [List.append_assoc, List.cons_append, List.nil_append]
  exact .keyword .returnWord rfl (.blank rfl (prints rfl (.mark .semicolon (by decide) later)))

theorem printsAnywhere_opening {condition : Text} {tokens : List Token} (reserved : Keyword)
    (prints : Prints condition tokens) :
    PrintsAnywhere (Layout.opening reserved condition)
      (.keyword reserved :: (tokens ++ [.sign .openBrace])) := by
  intro rest behind later
  simp only [Layout.opening, List.append_assoc, List.cons_append, List.nil_append]
  exact .keyword reserved rfl (.blank rfl (prints rfl (.blank rfl
    (.mark .openBrace (by decide) later))))

theorem printsAnywhere_alternative : PrintsAnywhere Layout.alternative
    [.sign .closeBrace, .keyword .elseWord, .sign .openBrace] := by
  intro rest behind later
  have text_eq : Layout.alternative =
      '\x7d' :: ' ' :: (Keyword.elseWord.spelling.toList ++ [' ', '\x7b']) := by decide
  rw [text_eq]
  simp only [List.append_assoc, List.cons_append, List.nil_append]
  exact .mark .closeBrace (by decide) (.blank rfl (.keyword .elseWord rfl (.blank rfl
    (.mark .openBrace (by decide) later))))

theorem printsAnywhere_closing : PrintsAnywhere Layout.closing [.sign .closeBrace] :=
  fun _ _ later => .mark .closeBrace (by decide) later

theorem PrintsAnywhere.append {text other : Text} {tokens more : List Token}
    (first : PrintsAnywhere text tokens) (second : PrintsAnywhere other more) :
    PrintsAnywhere (text ++ other) (tokens ++ more) := by
  intro rest behind later
  rw [List.append_assoc, List.append_assoc]
  exact first (second later)

theorem printsAnywhere_guarded {condition : Text} {body : List Text}
    {tokens bodyTokens : List Token} (reserved : Keyword) (depth : Nat)
    (prints : Prints condition tokens) (lines : PrintsAnywhere (asLines body) bodyTokens) :
    PrintsAnywhere
      (asLines ((Layout.padding depth ++ Layout.opening reserved condition) :: body ++
        [Layout.padding depth ++ Layout.closing]))
      (.keyword reserved :: (tokens ++ Token.block bodyTokens)) := by
  have opening := printsAnywhere_line depth (printsAnywhere_opening reserved prints)
  have closing := printsAnywhere_line depth printsAnywhere_closing
  have whole := opening.append (lines.append closing)
  simp only [← asLines_append] at whole
  simpa [Token.block] using whole

theorem printsAnywhere_ifThenElse {condition : Text} {body otherwise : List Text}
    {tokens bodyTokens otherTokens : List Token} (depth : Nat) (prints : Prints condition tokens)
    (lines : PrintsAnywhere (asLines body) bodyTokens)
    (others : PrintsAnywhere (asLines otherwise) otherTokens) :
    PrintsAnywhere
      (asLines ((Layout.padding depth ++ Layout.opening .ifWord condition) :: body ++
        (Layout.padding depth ++ Layout.alternative) :: otherwise ++
        [Layout.padding depth ++ Layout.closing]))
      (.keyword .ifWord :: (tokens ++ (Token.block bodyTokens ++
        .keyword .elseWord :: Token.block otherTokens))) := by
  have opening := printsAnywhere_line depth (printsAnywhere_opening .ifWord prints)
  have alternative := printsAnywhere_line depth printsAnywhere_alternative
  have closing := printsAnywhere_line depth printsAnywhere_closing
  have whole := opening.append (lines.append (alternative.append (others.append closing)))
  simp only [← asLines_append] at whole
  simpa [Token.block] using whole

mutual

theorem Statement.exists_render : ∀ {statement : Statement α} (depth : Nat),
    statement.isPrintable = true → ∃ lines, statement.render depth = .ok lines ∧
      PrintsAnywhere (asLines lines) statement.tokens
  | .declare _ name type initial, depth, printable => by
      rw [isPrintable, Bool.and_eq_true] at printable
      obtain ⟨text, rendered, prints⟩ := Expression.exists_render printable.2
      refine ⟨_, ?_, printsAnywhere_line depth (printsAnywhere_declare type printable.1 prints)⟩
      rw [Statement.render, Layout.name_eq_ok printable.1, rendered]
      rfl
  | .assign _ target value, depth, printable => by
      rw [isPrintable, Bool.and_eq_true] at printable
      obtain ⟨text, rendered, prints⟩ := Expression.exists_render printable.2
      refine ⟨_, ?_, printsAnywhere_line depth (printsAnywhere_assign printable.1 prints)⟩
      rw [Statement.render, Layout.name_eq_ok printable.1, rendered]
      rfl
  | .call note callee arguments, depth, printable => by
      obtain ⟨text, rendered, prints⟩ :=
        @Expression.exists_render _ (.call note callee arguments) printable
      have call : PrintsAnywhere (text ++ [';'])
          ((Expression.call note callee arguments).tokens ++ [.sign .semicolon]) := by
        intro rest behind later
        rw [List.append_assoc, List.append_assoc]
        exact prints rfl (.mark .semicolon (by decide) later)
      refine ⟨_, ?_, printsAnywhere_line depth call⟩
      rw [Statement.render, rendered, ← List.append_assoc]
      rfl
  | .giveBack _ value, depth, printable => by
      obtain ⟨text, rendered, prints⟩ := Expression.exists_render printable
      refine ⟨_, ?_, printsAnywhere_line depth (printsAnywhere_giveBack prints)⟩
      rw [Statement.render, rendered]
      rfl
  | .ifThen _ condition body, depth, printable => by
      rw [isPrintable, Bool.and_eq_true] at printable
      obtain ⟨text, rendered, prints⟩ := Expression.exists_render printable.1
      obtain ⟨lines, bodyRendered, bodyPrints⟩ := exists_renderAll (depth + 1) printable.2
      refine ⟨_, ?_, printsAnywhere_guarded .ifWord depth prints bodyPrints⟩
      rw [Statement.render, rendered, bodyRendered]
      rfl
  | .ifThenElse _ condition body otherwise, depth, printable => by
      rw [isPrintable, Bool.and_eq_true, Bool.and_eq_true] at printable
      obtain ⟨text, rendered, prints⟩ := Expression.exists_render printable.1.1
      obtain ⟨lines, bodyRendered, bodyPrints⟩ := exists_renderAll (depth + 1) printable.1.2
      obtain ⟨others, otherRendered, otherPrints⟩ := exists_renderAll (depth + 1) printable.2
      refine ⟨_, ?_, printsAnywhere_ifThenElse depth prints bodyPrints otherPrints⟩
      rw [Statement.render, rendered, bodyRendered, otherRendered]
      rfl
  | .loop _ condition body, depth, printable => by
      rw [isPrintable, Bool.and_eq_true] at printable
      obtain ⟨text, rendered, prints⟩ := Expression.exists_render printable.1
      obtain ⟨lines, bodyRendered, bodyPrints⟩ := exists_renderAll (depth + 1) printable.2
      refine ⟨_, ?_, printsAnywhere_guarded .whileWord depth prints bodyPrints⟩
      rw [Statement.render, rendered, bodyRendered]
      rfl

theorem Statement.exists_renderAll : ∀ {statements : List (Statement α)} (depth : Nat),
    Statement.allPrintable statements = true →
      ∃ lines, Statement.renderAll depth statements = .ok lines ∧
        PrintsAnywhere (asLines lines) (Statement.tokensAll statements)
  | [], _, _ => ⟨[], rfl, fun _ _ later => later⟩
  | statement :: rest, depth, printable => by
      rw [allPrintable, Bool.and_eq_true] at printable
      obtain ⟨lines, rendered, prints⟩ := exists_render depth printable.1
      obtain ⟨others, othersRendered, othersPrint⟩ := exists_renderAll depth printable.2
      refine ⟨lines ++ others, ?_, ?_⟩
      · rw [Statement.renderAll, rendered, othersRendered]
        rfl
      · rw [asLines_append, Statement.tokensAll]
        exact prints.append othersPrint

end

/-! ## Programs -/

theorem exists_mapM_eq_ok {ε β γ δ : Type} {render : β → Except ε γ} {tokens : β → δ}
    {Renders : γ → δ → Prop} {parts : List β}
    (each : ∀ part ∈ parts, ∃ text, render part = .ok text ∧ Renders text (tokens part)) :
    ∃ texts, parts.mapM render = .ok texts ∧ List.Forall₂ Renders texts (parts.map tokens) := by
  induction parts with
  | nil => exact ⟨[], rfl, .nil⟩
  | cons part others induction =>
      obtain ⟨text, rendered, renders⟩ := each part List.mem_cons_self
      obtain ⟨texts, othersRendered, more⟩ :=
        induction fun part member => each part (List.mem_cons_of_mem _ member)
      refine ⟨text :: texts, ?_, .cons renders more⟩
      rw [List.mapM_cons, rendered, othersRendered]
      rfl

theorem Parameter.exists_render {parameter : Parameter α}
    (isName : isIdentifier parameter.name = true) :
    ∃ text, parameter.render = .ok text ∧ Prints text parameter.tokens := by
  refine ⟨Layout.parameter parameter.name parameter.type, ?_, ?_⟩
  · rw [render, Layout.name_eq_ok isName]
    rfl
  · intro rest behind ends later
    simp only [Layout.parameter, Layout.typeName, List.append_assoc, List.cons_append,
      List.nil_append]
    exact .name isName rfl (.mark .colon (by decide) (.blank rfl (.typeName _ ends later)))

theorem prints_prototype {name : Text} {texts : List Text} {parts : List (List Token)}
    (isName : isIdentifier name = true) (each : List.Forall₂ Prints texts parts)
    (result : Option BaseType) :
    Prints (Layout.prototype name texts result)
      (.word name :: .sign .openParen ::
        (Token.commaSeparated parts ++ .sign .closeParen :: Token.result result)) := by
  intro rest behind ends later
  cases result with
  | none =>
      have whole := prints_call isName each later
      simpa [Layout.prototype, Token.result] using whole
  | some type =>
      have result : Lexes (' ' :: (Sign.arrow.spelling.toList ++
          ' ' :: (type.spelling.toList ++ rest))) (.sign .arrow :: .typeName type :: behind) :=
        .blank rfl (.sign .arrow (by decide) (.blank rfl (.typeName type ends later)))
      have whole := prints_call isName each result
      simpa [Layout.prototype, Token.result, Sign.spelling, Layout.typeName] using whole

theorem Prototype.exists_render {prototype : Prototype α}
    (printable : prototype.isPrintable = true) :
    ∃ text, prototype.render = .ok text ∧ Prints text prototype.tokens := by
  rw [isPrintable, Bool.and_eq_true, List.all_eq_true] at printable
  obtain ⟨texts, rendered, each⟩ := exists_mapM_eq_ok fun parameter member =>
    Parameter.exists_render (printable.2 parameter member)
  refine ⟨Layout.prototype prototype.name texts prototype.returnType, ?_, ?_⟩
  · rw [render, rendered, Layout.name_eq_ok printable.1]
    rfl
  · exact prints_prototype printable.1 each prototype.returnType

theorem Layout.declaration_eq (prototype : Text) : Layout.declaration prototype =
    Keyword.external.spelling.toList ++ ' ' :: (prototype ++ [';']) := by
  have keyword_eq : "extern ".toList = Keyword.external.spelling.toList ++ [' '] := by decide
  have text_eq : Layout.declaration prototype = "extern ".toList ++ prototype ++ [';'] := rfl
  rw [text_eq, keyword_eq]
  simp only [List.append_assoc, List.cons_append, List.nil_append]

theorem Layout.definition_eq (prototype : Text) (body : List Text) :
    Layout.definition prototype body = Keyword.define.spelling.toList ++ ' ' ::
      (prototype ++ ' ' :: '\x7b' :: asLines (body ++ [Layout.closing])) := by
  have keyword_eq : "def ".toList = Keyword.define.spelling.toList ++ [' '] := by decide
  have text_eq : Layout.definition prototype body = ['\n'].intercalate
      (("def ".toList ++ prototype ++ [' ', '\x7b']) :: body ++ [Layout.closing]) := rfl
  rw [text_eq, keyword_eq, List.cons_append, intercalate_eq_asLines]
  simp only [List.append_assoc, List.cons_append, List.nil_append]

theorem Item.exists_render {item : Item α} (printable : item.isPrintable = true) :
    ∃ text, item.render = .ok text ∧ PrintsAnywhere text item.tokens := by
  cases item with
  | declaration note prototype =>
      obtain ⟨text, rendered, prints⟩ := Prototype.exists_render printable
      refine ⟨Layout.declaration text, ?_, ?_⟩
      · rw [render, rendered]
        rfl
      · intro rest behind later
        rw [Layout.declaration_eq, tokens]
        simp only [List.append_assoc, List.cons_append, List.nil_append]
        exact .keyword .external rfl (.blank rfl (prints rfl (.mark .semicolon (by decide) later)))
  | definition note prototype body =>
      rw [isPrintable, Bool.and_eq_true] at printable
      obtain ⟨text, rendered, prints⟩ := Prototype.exists_render printable.1
      obtain ⟨lines, bodyRendered, bodyPrints⟩ := Statement.exists_renderAll 1 printable.2
      refine ⟨Layout.definition text lines, ?_, ?_⟩
      · rw [render, rendered, bodyRendered]
        rfl
      · intro rest behind later
        have closing : Lexes (asLines [Layout.closing] ++ rest) (.sign .closeBrace :: behind) :=
          .blank rfl (.mark .closeBrace (by decide) later)
        rw [Layout.definition_eq, tokens, Token.block, asLines_append]
        simp only [List.append_assoc, List.cons_append, List.nil_append]
        exact .keyword .define rfl (.blank rfl (prints rfl (.blank rfl
          (.mark .openBrace (by decide) (bodyPrints closing)))))

theorem lexes_items {texts : List Text} {parts : List (List Token)} {rest : Text}
    {behind : List Token} (each : List.Forall₂ PrintsAnywhere texts parts)
    (later : Lexes rest behind) :
    Lexes (texts.flatMap (['\n', '\n'] ++ ·) ++ rest) (parts.flatten ++ behind) := by
  induction each with
  | nil => exact later
  | cons first _ induction =>
      rw [List.flatMap_cons, List.flatten_cons, List.append_assoc, List.append_assoc,
        List.append_assoc]
      exact .blank rfl (.blank rfl (first induction))

theorem lexes_program {texts : List Text} {parts : List (List Token)}
    (each : List.Forall₂ PrintsAnywhere texts parts) :
    Lexes (Layout.program texts) parts.flatten := by
  cases each with
  | nil => exact .stop
  | @cons text part others _ first each =>
      have last : Lexes ['\n'] [] := .blank rfl .stop
      have text_eq : Layout.program (text :: others) =
          text ++ (others.flatMap (['\n', '\n'] ++ ·) ++ ['\n']) := by
        rw [← List.append_assoc, ← intercalate_cons]
        rfl
      have whole := first (lexes_items each last)
      rwa [List.append_nil, ← List.flatten_cons, ← text_eq] at whole

theorem Program.exists_render {program : Program α} (printable : program.isPrintable = true) :
    ∃ text, program.render = .ok text ∧ Lexes text program.tokens := by
  obtain ⟨texts, rendered, each⟩ := exists_mapM_eq_ok fun item member =>
    Item.exists_render (List.all_eq_true.mp printable item member)
  refine ⟨Layout.program texts, ?_, ?_⟩
  · rw [render, rendered]
    rfl
  · rw [tokens, List.flatMap_def]
    exact lexes_program each

end QubitLang
