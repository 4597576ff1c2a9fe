import QubitLang.Proofs.Ast.Phrases
import QubitLang.Proofs.Language.Derivation
import QubitLang.Proofs.Language.Firsts

/-! Derivations are local. What a tree takes of the lexemes derives it in front of
anything else too, unless the tree could go on there, and each phrase of the tree has lexemes
of its own, which derive it and over which its span reaches. -/

namespace QubitLang.Language

/-! ## Lexemes of phrases -/

inductive EndsAt : List Lexeme → Span → Prop where
  | single (lexeme : Lexeme) : EndsAt [lexeme] lexeme.span
  | cons (first : Lexeme) {rest : List Lexeme} {last : Span} (later : EndsAt rest last) :
      EndsAt (first :: rest) last

namespace EndsAt

variable {lexemes : List Lexeme} {last : Span}

theorem append (before : List Lexeme) (ends : EndsAt lexemes last) :
    EndsAt (before ++ lexemes) last := by
  induction before with
  | nil => exact ends
  | cons first before induction => exact induction.cons first

theorem exists_cons (ends : EndsAt lexemes last) : ∃ first rest, lexemes = first :: rest := by
  cases ends with
  | single lexeme => exact ⟨lexeme, [], rfl⟩
  | cons first later => exact ⟨first, _, rfl⟩

end EndsAt

/-- Some lexemes derive a phrase and nothing else. The semicolon behind a statement or a
prototype is none of them. -/
def DerivesPhrase (segment : List Lexeme) : Phrase Span → Prop
  | .expression value => ∃ last, DerivesExpression segment [] last value
  | .statement step => ∀ semicolon : Lexeme, semicolon.token.reads (.sign .semicolon) = true →
      DerivesStatement (segment ++ if step.takesSemicolon then [semicolon] else []) [] step
  | .prototype signature => ∀ semicolon : Lexeme,
      semicolon.token.reads (.sign .semicolon) = true →
        ∃ last, DerivesPrototype (segment ++ [semicolon]) [semicolon] last signature
  | .item part => DerivesItem segment [] part

/-- The lexemes of a phrase, over which its span reaches. -/
structure Covers (segment : List Lexeme) (phrase : Phrase Span) : Prop where
  derives : DerivesPhrase segment phrase
  spans : ∃ first rest last, segment = first :: rest ∧ EndsAt segment last ∧
    phrase.note = Span.upTo first.span.start (some last)

def CoversAll (lexemes : List Lexeme) (phrases : List (Phrase Span)) : Prop :=
  ∀ phrase ∈ phrases, ∃ segment, segment <:+: lexemes ∧ Covers segment phrase

namespace CoversAll

variable {lexemes others : List Lexeme} {phrase : Phrase Span} {phrases more : List (Phrase Span)}

theorem nil : CoversAll lexemes [] := nofun

theorem mono (covers : CoversAll lexemes phrases) (inside : lexemes <:+: others) :
    CoversAll others phrases := by
  intro phrase member
  obtain ⟨segment, isInfix, covered⟩ := covers phrase member
  exact ⟨segment, isInfix.trans inside, covered⟩

theorem append (left : CoversAll lexemes phrases) (right : CoversAll lexemes more) :
    CoversAll lexemes (phrases ++ more) := by
  intro phrase member
  rcases List.mem_append.mp member with first | second
  · exact left phrase first
  · exact right phrase second

theorem cons (covered : Covers lexemes phrase) (isHead : lexemes <+: others)
    (later : CoversAll others phrases) : CoversAll others (phrase :: phrases) := by
  intro other member
  rcases List.mem_cons.mp member with rfl | inside
  · exact ⟨lexemes, isHead.isInfix, covered⟩
  · exact later other inside

end CoversAll

/-! ## Commas -/

theorem exists_taken_comma {stream taken rest : List Lexeme} {last : Span}
    (stream_eq : dropComma stream = taken ++ rest) (ends : EndsAt taken last) :
    ∃ first part, stream = first :: part ++ rest ∧ taken <:+ first :: part ∧
      ∀ other, dropComma (first :: part ++ other) = taken ++ other := by
  obtain ⟨head, tail, rfl⟩ := ends.exists_cons
  cases stream with
  | nil => cases stream_eq
  | cons first stream =>
      cases comma : first.token.reads (.sign .comma) with
      | true =>
          simp only [dropComma, comma, if_true] at stream_eq
          refine ⟨first, head :: tail, by rw [stream_eq]; rfl, List.suffix_cons _ _, ?_⟩
          intro other
          simp [dropComma, comma]
      | false =>
          simp only [dropComma, comma, Bool.false_eq_true, if_false] at stream_eq
          cases stream_eq
          refine ⟨head, tail, rfl, List.suffix_refl _, ?_⟩
          intro other
          simp [dropComma, comma]

/-! ## Expressions -/

structure TakesExpression (taken rest : List Lexeme) (last : Span) (value : Expression Span) :
    Prop where
  ends : EndsAt taken last
  frame : ∀ other, (startsWith (.sign .openParen) rest = false →
      startsWith (.sign .openParen) other = false) →
    DerivesExpression (taken ++ other) other last value
  covers : CoversAll taken value.phrases

structure TakesArguments (taken : List Lexeme) (last : Span) (values : List (Expression Span)) :
    Prop where
  ends : EndsAt taken last
  frame : ∀ other, DerivesArguments (taken ++ other) other last values
  covers : CoversAll taken (Expression.phrasesAll values)

theorem TakesExpression.single {first : Lexeme} {rest : List Lexeme} {value : Expression Span}
    (frame : ∀ other, (startsWith (.sign .openParen) rest = false →
      startsWith (.sign .openParen) other = false) →
        DerivesExpression (first :: other) other first.span value)
    (note_eq : value.note = first.span) (phrases_eq : value.phrases = [.expression value])
    (alone : DerivesExpression [first] [] first.span value) :
    TakesExpression [first] rest first.span value where
  ends := .single first
  frame := frame
  covers := by
    have derives : DerivesPhrase [first] (.expression value) := ⟨_, alone⟩
    have note_eq : value.note = Span.upTo first.span.start (some first.span) := by
      rw [Span.upTo_self, note_eq]
    rw [phrases_eq]
    exact .cons ⟨derives, first, [], first.span, rfl, .single first, note_eq⟩ (List.prefix_refl _)
      .nil

theorem note_literal? {first : Lexeme} {value : Expression Span}
    (found : literal? first = some value) :
    value.note = first.span ∧ value.phrases = [.expression value] := by
  rcases literal?_cases found with ⟨_, rfl⟩ | ⟨_, rfl⟩ | ⟨_, rfl⟩ | ⟨_, rfl⟩ <;>
    exact ⟨rfl, by simp [Expression.phrases]⟩

mutual

theorem DerivesExpression.exists_taken : ∀ {stream rest : List Lexeme} {last : Span}
    {value : Expression Span}, DerivesExpression stream rest last value →
      ∃ taken, stream = taken ++ rest ∧ TakesExpression taken rest last value
  | _, _, _, _, @DerivesExpression.literal _ first _ found => by
      obtain ⟨note_eq, phrases_eq⟩ := note_literal? found
      exact ⟨[first], rfl, .single (fun _ _ => .literal found) note_eq phrases_eq (.literal found)⟩
  | _, _, _, _, @DerivesExpression.name _ first isName alone =>
      ⟨[first], rfl, .single (fun _ same => .name isName (same alone)) rfl
        (by simp [Expression.phrases]) (.name isName rfl)⟩
  | _, _, _, _, @DerivesExpression.parenthesised _ _ _ opening closing _ opens body closes => by
      obtain ⟨inner, rfl, takes⟩ := body.exists_taken
      refine ⟨opening :: (inner ++ [closing]), by simp, ?_, ?_, ?_⟩
      · exact ((EndsAt.single closing).append inner).cons opening
      · intro other _
        have inside := takes.frame (closing :: other) fun notOpen => notOpen
        rw [List.cons_append, List.append_assoc]
        exact .parenthesised opens inside closes
      · exact takes.covers.mono ⟨[opening], [closing], by simp⟩
  | _, _, _, _, @DerivesExpression.call _ _ last callee opening _ isName opens values => by
      obtain ⟨inner, rfl, takes⟩ := values.exists_taken
      have ends := (takes.ends.cons opening).cons callee
      refine ⟨callee :: opening :: inner, rfl, ends, ?_, ?_⟩
      · exact fun other _ => .call isName opens (takes.frame other)
      · have whole := DerivesExpression.call isName opens (takes.frame [])
        rw [List.append_nil] at whole
        have covered : Covers (callee :: opening :: inner) (.expression _) :=
          ⟨⟨_, whole⟩, callee, _, last, rfl, ends, rfl⟩
        rw [Expression.phrases]
        exact .cons covered (List.prefix_refl _)
          (takes.covers.mono ⟨[callee, opening], [], List.append_nil _⟩)

theorem DerivesArguments.exists_taken : ∀ {stream rest : List Lexeme} {last : Span}
    {values : List (Expression Span)}, DerivesArguments stream rest last values →
      ∃ taken, stream = taken ++ rest ∧ TakesArguments taken last values
  | _, _, _, _, @DerivesArguments.close _ closing closes =>
      ⟨[closing], rfl, .single closing, fun _ => .close closes, .nil⟩
  | _, _, _, _, .cons first others => by
      obtain ⟨head, rfl, takes⟩ := first.exists_taken
      obtain ⟨tail, stream_eq, takesOthers⟩ := others.exists_taken
      obtain ⟨next, part, rfl, isSuffix, drops⟩ := exists_taken_comma stream_eq takesOthers.ends
      refine ⟨head ++ (next :: part), by simp, ?_, ?_, ?_⟩
      · obtain ⟨comma, part_eq⟩ := isSuffix
        rw [← part_eq]
        exact (takesOthers.ends.append comma).append head
      · intro other
        have inside := takes.frame (next :: part ++ other) fun notOpen => notOpen
        rw [List.append_assoc]
        refine .cons inside ?_
        rw [drops]
        exact takesOthers.frame other
      · rw [Expression.phrasesAll]
        refine (takes.covers.mono (List.prefix_append _ _).isInfix).append ?_
        exact takesOthers.covers.mono (isSuffix.trans (List.suffix_append _ _)).isInfix

end

/-! ## Statements -/

structure TakesStatement (taken rest : List Lexeme) (statement : Statement Span) : Prop where
  frame : ∀ other, (startsWith (.keyword .elseWord) rest = false →
      startsWith (.keyword .elseWord) other = false) →
    DerivesStatement (taken ++ other) other statement
  covers : CoversAll taken statement.phrases

structure TakesStatements (taken : List Lexeme) (last : Span)
    (statements : List (Statement Span)) : Prop where
  ends : EndsAt taken last
  frame : ∀ other, DerivesStatements (taken ++ other) other last statements
  covers : CoversAll taken (Statement.phrasesAll statements)

section

variable {first : Lexeme} {segment rest : List Lexeme} {last : Span} {statement : Statement Span}
  {inside : List (Phrase Span)} (ends : EndsAt (first :: segment) last)
  (note_eq : statement.note = Span.upTo first.span.start (some last))
  (phrases_eq : statement.phrases = .statement statement :: inside)
  (covers : CoversAll (first :: segment) inside)

include ends note_eq phrases_eq covers

theorem TakesStatement.open {semicolon : Lexeme}
    (isSemicolon : semicolon.token.reads (.sign .semicolon) = true)
    (takesSemicolon : statement.takesSemicolon = true)
    (derives : ∀ (semicolon : Lexeme) (other : List Lexeme),
      semicolon.token.reads (.sign .semicolon) = true →
        DerivesStatement (first :: segment ++ semicolon :: other) other statement) :
    TakesStatement (first :: segment ++ [semicolon]) rest statement where
  frame other _ := by
    rw [List.append_assoc]
    exact derives semicolon other isSemicolon
  covers := by
    have alone : DerivesPhrase (first :: segment) (.statement statement) := by
      intro ending isEnding
      rw [if_pos takesSemicolon]
      exact derives ending [] isEnding
    rw [phrases_eq]
    exact .cons ⟨alone, first, segment, last, rfl, ends, note_eq⟩ (List.prefix_append _ _)
      (covers.mono (List.prefix_append _ _).isInfix)

theorem TakesStatement.closed (takesNone : statement.takesSemicolon = false)
    (frame : ∀ other, (startsWith (.keyword .elseWord) rest = false →
      startsWith (.keyword .elseWord) other = false) →
        DerivesStatement (first :: segment ++ other) other statement) :
    TakesStatement (first :: segment) rest statement where
  frame := frame
  covers := by
    have alone : DerivesPhrase (first :: segment) (.statement statement) := by
      intro ending _
      rw [takesNone]
      exact frame [] fun _ => rfl
    rw [phrases_eq]
    exact .cons ⟨alone, first, segment, last, rfl, ends, note_eq⟩ (List.prefix_refl _) covers

end

mutual

theorem DerivesStatement.exists_taken : ∀ {stream rest : List Lexeme} {statement : Statement Span},
    DerivesStatement stream rest statement →
      ∃ taken, stream = taken ++ rest ∧ TakesStatement taken rest statement
  | _, _, _, @DerivesStatement.declare _ _ _ keyword name colon word equals semicolon _ _ declares
      isName separates isType assigns value isSemicolon => by
      obtain ⟨inner, rfl, takes⟩ := value.exists_taken
      refine ⟨keyword :: name :: colon :: word :: equals :: inner ++ [semicolon], by simp, ?_⟩
      refine .open ((takes.ends.append [name, colon, word, equals]).cons keyword) rfl
        (by rw [Statement.phrases])
        (takes.covers.mono ⟨[keyword, name, colon, word, equals], [], List.append_nil _⟩)
        isSemicolon rfl ?_
      intro ending other isEnding
      have body := takes.frame (ending :: other) fun _ => startsWith_of_reads isEnding rfl
      exact .declare declares isName separates isType assigns body isEnding
  | _, _, _, @DerivesStatement.assign _ _ _ target equals semicolon _ isName assigns body
      isSemicolon => by
      obtain ⟨inner, rfl, takes⟩ := body.exists_taken
      refine ⟨target :: equals :: inner ++ [semicolon], by simp, ?_⟩
      refine .open ((takes.ends.append [equals]).cons target) rfl (by rw [Statement.phrases])
        (takes.covers.mono ⟨[target, equals], [], List.append_nil _⟩) isSemicolon rfl ?_
      intro ending other isEnding
      have value := takes.frame (ending :: other) fun _ => startsWith_of_reads isEnding rfl
      exact .assign isName assigns value isEnding
  | _, _, _, @DerivesStatement.call _ _ last callee opening semicolon _ isName opens values
      isSemicolon => by
      obtain ⟨inner, rfl, takes⟩ := values.exists_taken
      have ends := (takes.ends.append [opening]).cons callee
      have whole := DerivesExpression.call isName opens (takes.frame [])
      rw [List.append_nil] at whole
      have covered : Covers (callee :: opening :: inner) (.expression _) :=
        ⟨⟨_, whole⟩, callee, _, last, rfl, ends, rfl⟩
      have inside := takes.covers.mono ⟨[callee, opening], [], List.append_nil _⟩
      refine ⟨callee :: opening :: inner ++ [semicolon], by simp, ?_⟩
      refine .open ends rfl (by rw [Statement.phrases, Expression.phrases])
        (.cons covered (List.prefix_refl _) inside) isSemicolon rfl ?_
      intro ending other isEnding
      exact .call isName opens (takes.frame (ending :: other)) isEnding
  | _, _, _, @DerivesStatement.giveBack _ _ _ keyword semicolon _ returns body isSemicolon => by
      obtain ⟨inner, rfl, takes⟩ := body.exists_taken
      refine ⟨keyword :: inner ++ [semicolon], by simp, ?_⟩
      refine .open (takes.ends.cons keyword) rfl (by rw [Statement.phrases])
        (takes.covers.mono (List.suffix_cons _ _).isInfix) isSemicolon rfl ?_
      intro ending other isEnding
      have value := takes.frame (ending :: other) fun _ => startsWith_of_reads isEnding rfl
      exact .giveBack returns value isEnding
  | _, _, _, @DerivesStatement.ifThen _ _ _ _ _ keyword opening _ _ tests value opens statements
      alone => by
      obtain ⟨inner, rfl, takes⟩ := value.exists_taken
      obtain ⟨block, rfl, takesBlock⟩ := statements.exists_taken
      refine ⟨keyword :: (inner ++ opening :: block), by simp, ?_⟩
      refine .closed (((takesBlock.ends.cons opening).append inner).cons keyword) rfl
        (by rw [Statement.phrases]) (.append (takes.covers.mono ?_) (takesBlock.covers.mono ?_))
        rfl ?_
      · exact ⟨[keyword], opening :: block, by simp⟩
      · exact ⟨keyword :: inner ++ [opening], [], by simp⟩
      · intro other same
        have condition := takes.frame (opening :: (block ++ other)) fun notOpen => notOpen
        rw [List.cons_append, List.append_assoc]
        exact .ifThen tests condition opens (takesBlock.frame other) (same alone)
  | _, _, _, @DerivesStatement.ifThenElse _ _ _ _ _ _ keyword opening separator otherOpening _ _ _
      tests value opens _ statements separates otherOpens otherStatements => by
      obtain ⟨inner, rfl, takes⟩ := value.exists_taken
      obtain ⟨block, rfl, takesBlock⟩ := statements.exists_taken
      obtain ⟨otherBlock, rfl, takesOther⟩ := otherStatements.exists_taken
      refine ⟨keyword :: (inner ++ opening :: (block ++ separator :: otherOpening :: otherBlock)),
        by simp, ?_⟩
      have elseEnds := (takesOther.ends.append [separator, otherOpening]).append block
      refine .closed (((elseEnds.cons opening).append inner).cons keyword) rfl
        (by rw [Statement.phrases])
        (.append (.append (takes.covers.mono ?_) (takesBlock.covers.mono ?_))
          (takesOther.covers.mono ?_)) rfl ?_
      · exact ⟨[keyword], opening :: (block ++ separator :: otherOpening :: otherBlock), by simp⟩
      · exact ⟨keyword :: inner ++ [opening], separator :: otherOpening :: otherBlock, by simp⟩
      · exact ⟨keyword :: inner ++ opening :: block ++ [separator, otherOpening], [], by simp⟩
      · intro other _
        have body := takesBlock.frame (separator :: otherOpening :: (otherBlock ++ other))
        have condition := takes.frame (opening :: (block ++ separator :: otherOpening ::
          (otherBlock ++ other))) fun notOpen => notOpen
        have whole := DerivesStatement.ifThenElse tests condition opens body separates otherOpens
          (takesOther.frame other)
        simpa using whole
  | _, _, _, @DerivesStatement.loop _ _ _ _ _ keyword opening _ _ tests value opens
      statements => by
      obtain ⟨inner, rfl, takes⟩ := value.exists_taken
      obtain ⟨block, rfl, takesBlock⟩ := statements.exists_taken
      refine ⟨keyword :: (inner ++ opening :: block), by simp, ?_⟩
      refine .closed (((takesBlock.ends.cons opening).append inner).cons keyword) rfl
        (by rw [Statement.phrases]) (.append (takes.covers.mono ?_) (takesBlock.covers.mono ?_))
        rfl ?_
      · exact ⟨[keyword], opening :: block, by simp⟩
      · exact ⟨keyword :: inner ++ [opening], [], by simp⟩
      · intro other _
        have condition := takes.frame (opening :: (block ++ other)) fun notOpen => notOpen
        rw [List.cons_append, List.append_assoc]
        exact .loop tests condition opens (takesBlock.frame other)

theorem DerivesStatements.exists_taken : ∀ {stream rest : List Lexeme} {last : Span}
    {statements : List (Statement Span)}, DerivesStatements stream rest last statements →
      ∃ taken, stream = taken ++ rest ∧ TakesStatements taken last statements
  | _, _, _, _, @DerivesStatements.close _ closing closes =>
      ⟨[closing], rfl, .single closing, fun _ => .close closes, .nil⟩
  | _, _, _, _, .cons first others => by
      obtain ⟨head, rfl, takes⟩ := first.exists_taken
      obtain ⟨tail, rfl, takesOthers⟩ := others.exists_taken
      refine ⟨head ++ tail, by simp, takesOthers.ends.append head, ?_, ?_⟩
      · intro other
        obtain ⟨next, part, rfl⟩ := takesOthers.ends.exists_cons
        have inside := takes.frame (next :: part ++ other) fun alone => alone
        rw [List.append_assoc]
        exact .cons inside (takesOthers.frame other)
      · rw [Statement.phrasesAll]
        exact (takes.covers.mono (List.prefix_append _ _).isInfix).append
          (takesOthers.covers.mono (List.suffix_append _ _).isInfix)

end

/-! ## Items -/

theorem DerivesParameters.exists_taken {stream rest : List Lexeme} {last : Span}
    {parameters : List (Parameter Span)} (derives : DerivesParameters stream rest last parameters) :
    ∃ taken, stream = taken ++ rest ∧ EndsAt taken last ∧
      ∀ other, DerivesParameters (taken ++ other) other last parameters := by
  induction derives with
  | @close _ closing closes =>
      exact ⟨[closing], rfl, .single closing, fun _ => .close closes⟩
  | @cons stream rest last name colon word _ _ isName separates isType _ induction =>
      obtain ⟨tail, stream_eq, ends, frame⟩ := induction
      obtain ⟨next, part, rfl, isSuffix, drops⟩ := exists_taken_comma stream_eq ends
      refine ⟨name :: colon :: word :: next :: part, by simp, ?_, ?_⟩
      · obtain ⟨comma, part_eq⟩ := isSuffix
        rw [← part_eq]
        exact ends.append ([name, colon, word] ++ comma)
      · intro other
        have others := frame other
        rw [← drops] at others
        exact .cons isName separates isType others

structure TakesPrototype (taken rest : List Lexeme) (last : Span) (signature : Prototype Span) :
    Prop where
  frame : ∀ other, (startsWith (.sign .arrow) rest = false →
      startsWith (.sign .arrow) other = false) →
    DerivesPrototype (taken ++ other) other last signature
  covers : CoversAll taken [.prototype signature]

theorem TakesPrototype.of_frame {first : Lexeme} {taken rest : List Lexeme} {last : Span}
    {signature : Prototype Span} (ends : EndsAt (first :: taken) last)
    (note_eq : signature.note = Span.upTo first.span.start (some last))
    (frame : ∀ other, (startsWith (.sign .arrow) rest = false →
      startsWith (.sign .arrow) other = false) →
        DerivesPrototype (first :: taken ++ other) other last signature) :
    TakesPrototype (first :: taken) rest last signature where
  frame := frame
  covers := by
    have alone : DerivesPhrase (first :: taken) (.prototype signature) := by
      intro semicolon isSemicolon
      exact ⟨last, frame [semicolon] fun _ => startsWith_of_reads isSemicolon rfl⟩
    exact .cons ⟨alone, first, taken, last, rfl, ends, note_eq⟩ (List.prefix_refl _) .nil

theorem DerivesPrototype.exists_taken {stream rest : List Lexeme} {last : Span}
    {signature : Prototype Span} (derives : DerivesPrototype stream rest last signature) :
    ∃ taken, stream = taken ++ rest ∧ TakesPrototype taken rest last signature := by
  cases derives with
  | @withoutResult _ _ _ name opening _ isName opens parameters alone =>
      obtain ⟨inner, rfl, ends, frame⟩ := parameters.exists_taken
      refine ⟨name :: opening :: inner, rfl, .of_frame ((ends.cons opening).cons name) rfl ?_⟩
      exact fun other same => .withoutResult isName opens (frame other) (same alone)
  | @withResult _ _ _ name opening arrow word _ _ isName opens parameters separates isType =>
      obtain ⟨inner, rfl, ends, frame⟩ := parameters.exists_taken
      have wordEnds := (EndsAt.single word).append (opening :: inner ++ [arrow])
      refine ⟨name :: opening :: (inner ++ [arrow, word]), by simp, .of_frame ?_ rfl ?_⟩
      · simpa using wordEnds.cons name
      · intro other _
        have whole := DerivesPrototype.withResult isName opens (frame (arrow :: word :: other))
          separates isType
        simpa using whole

theorem DerivesItem.exists_taken {stream rest : List Lexeme} {item : Item Span}
    (derives : DerivesItem stream rest item) :
    ∃ taken, stream = taken ++ rest ∧ CoversAll taken item.phrases := by
  cases derives with
  | @declaration _ _ _ keyword semicolon _ declares head ends =>
      obtain ⟨inner, rfl, takes⟩ := head.exists_taken
      refine ⟨keyword :: (inner ++ [semicolon]), by simp, ?_⟩
      have signature := takes.frame [semicolon] fun alone => alone
      have alone : DerivesPhrase (keyword :: (inner ++ [semicolon])) (.item _) :=
        DerivesItem.declaration declares signature ends
      refine .cons ⟨alone, keyword, _, semicolon.span, rfl, ?_, rfl⟩ (List.prefix_refl _) ?_
      · exact ((EndsAt.single semicolon).append inner).cons keyword
      · exact takes.covers.mono ⟨[keyword], [semicolon], by simp⟩
  | @definition _ _ _ last _ keyword opening _ _ defines head opens statements =>
      obtain ⟨inner, rfl, takes⟩ := head.exists_taken
      obtain ⟨block, rfl, takesBlock⟩ := statements.exists_taken
      refine ⟨keyword :: (inner ++ opening :: block), by simp, ?_⟩
      have signature := takes.frame (opening :: block) fun alone => alone
      have body := takesBlock.frame []
      rw [List.append_nil] at body
      have alone : DerivesPhrase (keyword :: (inner ++ opening :: block)) (.item _) :=
        DerivesItem.definition defines signature opens body
      refine .cons ⟨alone, keyword, _, last, rfl, ?_, rfl⟩ (List.prefix_refl _) ?_
      · exact ((takesBlock.ends.cons opening).append inner).cons keyword
      · have inFront : inner <:+: keyword :: (inner ++ opening :: block) :=
          ⟨[keyword], opening :: block, by simp⟩
        have behind : block <:+: keyword :: (inner ++ opening :: block) :=
          ⟨keyword :: inner ++ [opening], [], by simp⟩
        exact (takes.covers.mono inFront).append (takesBlock.covers.mono behind)

/-- Each phrase of a program has its lexemes among those of the program. -/
theorem DerivesItems.coversAll {stream : List Lexeme} {items : List (Item Span)}
    (derives : DerivesItems stream items) : CoversAll stream (items.flatMap Item.phrases) := by
  induction derives with
  | stop => exact .nil
  | cons first _ induction =>
      obtain ⟨head, rfl, covers⟩ := first.exists_taken
      rw [List.flatMap_cons]
      exact (covers.mono (List.prefix_append _ _).isInfix).append
        (induction.mono (List.suffix_append _ _).isInfix)

end QubitLang.Language
