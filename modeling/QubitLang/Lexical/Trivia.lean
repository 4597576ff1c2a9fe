import QubitLang.Text.Basic

namespace QubitLang.Lexical

/-! Trivia: blanks, line ends and comments. A comment runs from `#` to the end
of its line. -/

def isBlank (character : Char) : Bool :=
  character == ' ' || character == '\t' || character == '\r' || character == '\n'

/-- Splits off all trivia at the head of a text that may begin inside a
comment. The line end that closes a comment is itself trivia. -/
def trivia (insideComment : Bool) : Text → Text × Text
  | [] => ([], [])
  | character :: rest =>
    if insideComment then
      let (skipped, remaining) := trivia (character != '\n') rest
      (character :: skipped, remaining)
    else if isBlank character || character == '#' then
      let (skipped, remaining) := trivia (character == '#') rest
      (character :: skipped, remaining)
    else ([], character :: rest)

/-- Whether a text as a whole is trivia: each of its lines is blank up to its
end or up to a comment. -/
def isTrivia (text : Text) : Bool :=
  (text.splitOn '\n').all fun line =>
    let content := line.dropWhile isBlank
    content.isEmpty || content.head? == some '#'

end QubitLang.Lexical
