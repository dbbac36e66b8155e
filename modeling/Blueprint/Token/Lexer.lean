import Blueprint.Fault
import Blueprint.Text.Letter
import Blueprint.Text.Lines

/-!
# Reading tokens

A text is read line by line. `Lexeme.read` cuts one token off the rest of a line, `scan` a whole
line. The indentation of a line is compared with the enclosing blocks, kept in `Layout`: a deeper
line opens a block, a shallower one closes those it leaves. Lines that are blank or hold only a
comment are passed over, and inside brackets neither line ends nor indentation count.
-/

namespace Blueprint

/-- One token at the front of the rest of a line: its class, its text and its width in the line. -/
structure Lexeme where
  kind : TokenKind
  text : String
  width : Nat

namespace Lexeme

/-- The content of a quoted string, read behind its opening quote, and the number of characters up
to and including the closing quote. -/
def quoted : List Char → Except Fault (List Char × Nat)
  | [] => .error .unterminatedString
  | '"' :: _ => .ok ([], 1)
  | ['\\'] => .error .unterminatedEscape
  | '\\' :: c :: cs => do
    let (content, width) ← quoted cs
    let resolved := match c with
      | '"' => ['"']
      | '\\' => ['\\']
      | 'n' => ['\n']
      | 't' => ['\t']
      | c => ['\\', c]
    return (resolved ++ content, width + 2)
  | c :: cs => do
    let (content, width) ← quoted cs
    return (c :: content, width + 1)

/-- The units that may directly follow a whole number. -/
def durationUnits : List String := ["ms", "s", "m", "min", "h", "d", "w", "y"]

private def isUnitChar (c : Char) : Bool := c.isAlphanum || c == '_'

/-- A number at the front of `cs`, which starts with a digit: a decimal if a point and a digit
follow, a duration if a letter does. -/
def numeral (cs : List Char) : Except Fault Lexeme :=
  let whole := cs.takeWhile Char.isDigit
  match cs.dropWhile Char.isDigit with
  | '.' :: d :: rest =>
    if d.isDigit then
      let text := whole ++ '.' :: (d :: rest).takeWhile Char.isDigit
      .ok ⟨.number, String.ofList text, text.length⟩
    else .ok ⟨.number, String.ofList whole, whole.length⟩
  | c :: rest =>
    if c.isAlpha then
      let unit := (c :: rest).takeWhile isUnitChar
      let text := whole ++ unit
      if durationUnits.contains (String.ofList unit) then
        .ok ⟨.duration, String.ofList text, text.length⟩
      else .error (.malformedNumber (String.ofList text))
    else .ok ⟨.number, String.ofList whole, whole.length⟩
  | [] => .ok ⟨.number, String.ofList whole, whole.length⟩

/-- A word at the front of `cs`, which starts with a character of a word. -/
def word (cs : List Char) : Lexeme :=
  let text := String.ofList (cs.takeWhile Text.continuesWord)
  let kind := match Keyword.ofSpelling? text with
    | some k => .keyword k
    | none => .identifier
  ⟨kind, text, (cs.takeWhile Text.continuesWord).length⟩

/-- A sign at the front of a line; of two that fit, the longer. -/
def sign? : List Char → Option Lexeme
  | '-' :: '>' :: _ => some ⟨.arrow, "->", 2⟩
  | '<' :: '-' :: '>' :: _ => some ⟨.bothArrow, "<->", 3⟩
  | '<' :: '-' :: _ => some ⟨.backArrow, "<-", 2⟩
  | '<' :: '=' :: _ => some ⟨.lessEqual, "<=", 2⟩
  | '>' :: '=' :: _ => some ⟨.greaterEqual, ">=", 2⟩
  | '=' :: '=' :: _ => some ⟨.doubleEqual, "==", 2⟩
  | '!' :: '=' :: _ => some ⟨.notEqual, "!=", 2⟩
  | ':' :: _ => some ⟨.colon, ":", 1⟩
  | ',' :: _ => some ⟨.comma, ",", 1⟩
  | '(' :: _ => some ⟨.openParen, "(", 1⟩
  | ')' :: _ => some ⟨.closeParen, ")", 1⟩
  | '[' :: _ => some ⟨.openBracket, "[", 1⟩
  | ']' :: _ => some ⟨.closeBracket, "]", 1⟩
  | '=' :: _ => some ⟨.equal, "=", 1⟩
  | '<' :: _ => some ⟨.less, "<", 1⟩
  | '>' :: _ => some ⟨.greater, ">", 1⟩
  | '.' :: _ => some ⟨.dot, ".", 1⟩
  | '?' :: _ => some ⟨.question, "?", 1⟩
  | '+' :: _ => some ⟨.plus, "+", 1⟩
  | '-' :: _ => some ⟨.minus, "-", 1⟩
  | '*' :: _ => some ⟨.star, "*", 1⟩
  | '/' :: _ => some ⟨.slash, "/", 1⟩
  | _ => none

/-- The token at the front of `c :: cs`, where `c` is neither a blank nor a comment sign. -/
def read (c : Char) (cs : List Char) : Except Fault Lexeme :=
  if c = '"' then do
    let (content, width) ← quoted cs
    return ⟨.string, String.ofList content, width + 1⟩
  else if c.isDigit then numeral (c :: cs)
  else if Text.startsWord c then .ok (word (c :: cs))
  else match sign? (c :: cs) with
    | some l => .ok l
    | none => .error (.strayCharacter c)

end Lexeme

/-- A space or a tab. -/
def isBlank (c : Char) : Bool := c == ' ' || c == '\t'

namespace Lexer

/-- The tokens of the rest of a line, whose first character stands at the given column. -/
def scan (file : String) (line column : Nat) : List Char → Except SyntaxError (List Token)
  | [] => .ok []
  | c :: cs =>
    if isBlank c then scan file line (column + 1) cs
    else if c = '#' then .ok []
    else match Lexeme.read c cs with
      | .error fault => .error { location := ⟨file, line, column, none⟩, fault }
      | .ok l => do
        let rest ← scan file line (column + l.width) (cs.drop (l.width - 1))
        return ⟨l.kind, l.text, line, column⟩ :: rest
termination_by cs => cs.length
decreasing_by all_goals simp +arith [List.length_drop]

/-- The number of open brackets after a token, of which `depth` were open before it. A closing
bracket too many is passed over. -/
def bracketDepth (depth : Nat) (t : Token) : Nat :=
  match t.kind with
  | .openParen | .openBracket => depth + 1
  | .closeParen | .closeBracket => depth - 1
  | _ => depth

/-- What one line leaves for the next. -/
structure Layout where
  /-- The widths of the enclosing blocks, innermost first; the file's own width of zero is left
  out. -/
  indents : List Nat := []
  /-- The number of open brackets. -/
  depth : Nat := 0
  deriving DecidableEq

namespace Layout

/-- The indentation of the innermost block. -/
def width (l : Layout) : Nat := l.indents.head?.getD 0

end Layout

-- Sums are those of the core library in every context.
attribute [local instance (high)] Zero.ofOfNat0

/-- The width of the blanks at the front of a line. -/
def indentWidth (l : List Char) : Nat :=
  ((l.takeWhile isBlank).map cellWidth).sum

/-- Whether a line holds nothing but blanks and a comment. -/
def isSilent (l : List Char) : Bool :=
  match l.dropWhile isBlank with
  | [] => true
  | c :: _ => c == '#'

/-- The widths of the blocks that remain at a line of the given width, and how many it leaves. -/
def leave (width : Nat) : List Nat → List Nat × Nat
  | [] => ([], 0)
  | w :: ws =>
    if width < w then
      let (rest, left) := leave width ws
      (rest, left + 1)
    else (w :: ws, 0)

/-- The blocks that a line leaves are the innermost ones. -/
theorem leave_fst (width : Nat) (indents : List Nat) :
    (leave width indents).1 = indents.drop (leave width indents).2 := by
  induction indents with
  | nil => rfl
  | cons w ws ih =>
    unfold leave
    split
    · simpa using ih
    · rfl

/-- The marks for the indentation of a line, and the blocks that enclose it. There are none if the
line returns to a width at which no block stands. -/
def indentation (indents : List Nat) (width line column : Nat) :
    Option (List Token × List Nat) :=
  let top := indents.head?.getD 0
  if top < width then some ([⟨.indent, "", line, column⟩], width :: indents)
  else
    let (rest, left) := leave width indents
    if rest.head?.getD 0 = width then some (List.replicate left ⟨.dedent, "", line, column⟩, rest)
    else none

/-- The tokens of one line, and what it leaves for the next. -/
def readLine (file : String) (line : Nat) (layout : Layout) (text : List Char) :
    Except SyntaxError (List Token × Layout) := do
  let chars := Text.trimReturns text
  if isSilent chars then return ([], layout)
  let column := (chars.takeWhile isBlank).length + 1
  let (marks, indents) ←
    if layout.depth = 0 then
      match indentation layout.indents (indentWidth chars) line column with
      | some r => pure r
      | none => throw { location := ⟨file, line, column, none⟩, fault := .unmatchedDedent }
    else pure ([], layout.indents)
  let tokens ← scan file line column (chars.dropWhile isBlank)
  let depth := tokens.foldl bracketDepth layout.depth
  let ending := if depth = 0 then [⟨.newline, "", line, chars.length + 1⟩] else []
  return (marks ++ tokens ++ ending, { indents, depth })

/-- The tokens of consecutive lines, the first of which has the given number. -/
def readLines (file : String) (line : Nat) (layout : Layout) :
    List (List Char) → Except SyntaxError (List Token × Layout)
  | [] => .ok ([], layout)
  | l :: ls => do
    let (tokens, next) ← readLine file line layout l
    let (more, last) ← readLines file (line + 1) next ls
    return (tokens ++ more, last)

end Lexer

/-- The tokens of a text. The blocks still open at its end are closed one line below it, and the
mark of the end follows them. -/
def tokenize (file text : String) : Except SyntaxError (List Token) := do
  let lines := Text.splitLines text.toList
  let (tokens, layout) ← Lexer.readLines file 1 {} lines
  if layout.depth ≠ 0 then
    throw { location := ⟨file, lines.length, 1, none⟩, fault := .unclosedBracket }
  let closing := List.replicate layout.indents.length ⟨.dedent, "", lines.length + 1, 1⟩
  return tokens ++ closing ++ [⟨.endOfFile, "", lines.length + 1, 1⟩]

end Blueprint
