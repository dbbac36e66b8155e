import Blueprint.Fault

/-!
# The parser

A parser reads tokens from the front of a list and either fails, at a place and for a reason, or
returns a value and leaves the rest. What it knows of the file (`Scope`) never changes while it
reads. The end of the file is not in the list: it is the token that stands wherever the list is at
its end, so that looking ahead never leaves the list.

Every loop is an `iterate` and every recursion a `nested`. Both end because each round has fewer
tokens before it than the last: the loop stops at a step that reads nothing, and the recursion
refuses to start again at the place where it started.
-/

namespace Blueprint

/-- What a parser knows of the file it reads. -/
structure Scope where
  file : String
  /-- The declared name of the module, once its header has been read. -/
  inModule : Option String := none
  /-- The token that stands at the end of the file. -/
  final : Token

abbrev Parser := ReaderT Scope (StateT (List Token) (Except SyntaxError))

namespace Parser

/-! ## Looking and moving -/

/-- The token `n` places ahead. -/
def peek (n : Nat) : Parser Token := do
  return (← get)[n]?.getD (← read).final

/-- The next token. -/
def current : Parser Token := peek 0

/-- The number of tokens left. -/
def remaining : Parser Nat := do
  return (← get).length

/-- Reads the next token. At the end of the file it stays there. -/
def advance : Parser Token := do
  let t ← current
  modify List.tail
  return t

/-- Whether the next token is of the class. -/
def isAt (kind : TokenKind) : Parser Bool := do
  return (← current).kind == kind

def isAtKeyword (k : Keyword) : Parser Bool := isAt (.keyword k)

/-- Whether the token `n` places ahead is of the class. -/
def peekIs (n : Nat) (kind : TokenKind) : Parser Bool := do
  return (← peek n).kind == kind

/-- Whether the keyword and a colon come next. -/
def isAtKeyed (k : Keyword) : Parser Bool := do
  if ← isAtKeyword k then peekIs 1 .colon else return false

/-- Whether the keyword comes next, and no colon behind it. -/
def isAtUnkeyed (k : Keyword) : Parser Bool := do
  if ← isAtKeyword k then return !(← peekIs 1 .colon) else return false

/-- Whether the next token is a word, keyword or not. -/
def isAtWord : Parser Bool := do
  return (← current).isWord

/-- Whether the next token is the given word, keyword or not. -/
def isAtText (text : String) : Parser Bool := do
  let t ← current
  return t.isWord && t.text == text

/-- The next token as a keyword. -/
def keyword? : Parser (Option Keyword) := do
  return (← current).keyword?

/-- Reads the next token if it is of the class, and says whether it did. -/
def accept (kind : TokenKind) : Parser Bool := do
  if ← isAt kind then
    let _ ← advance
    return true
  else return false

def acceptKeyword (k : Keyword) : Parser Bool := accept (.keyword k)

/-- Reads the next token if it is the given word, and says whether it did. -/
def acceptText (text : String) : Parser Bool := do
  if ← isAtText text then
    let _ ← advance
    return true
  else return false

/-! ## Failing -/

/-- The place of a token. -/
def locate (t : Token) : Parser Location := do
  let scope ← read
  return { file := scope.file, line := t.line, column := t.column, inModule := scope.inModule }

/-- The place of the next token. -/
def here : Parser Location := do
  locate (← current)

/-- Fails at the given place. -/
def failIn {α : Type} (location : Location) (fault : Fault) : Parser α :=
  throw { location, fault }

/-- Fails at the given token. -/
def failAt {α : Type} (t : Token) (fault : Fault) : Parser α := do
  failIn (← locate t) fault

/-- Fails at the next token. -/
def fail {α : Type} (fault : Fault) : Parser α := do
  failIn (← here) fault

/-- Fails because something else was expected in place of the next token. -/
def unexpected {α : Type} (expected : String) : Parser α := do
  fail (.unexpected expected (← current))

/-- Reads a token of the class. -/
def expect (kind : TokenKind) : Parser Token := do
  if ← isAt kind then advance else unexpected kind.description

def expectKeyword (k : Keyword) : Parser Token := expect (.keyword k)

/-! ## Repetition -/

/-- The loop of `iterate`, on the tokens themselves. -/
def iterateOn {σ : Type} (step : σ → Parser (Option σ)) (scope : Scope) (s : σ)
    (tokens : List Token) : Except SyntaxError (σ × List Token) :=
  match step s scope tokens with
  | .error e => .error e
  | .ok (none, rest) => .ok (s, rest)
  | .ok (some next, rest) =>
    if rest.length < tokens.length then iterateOn step scope next rest else .ok (next, rest)
termination_by tokens.length

/-- Takes steps, from one state to the next, until a step ends the loop or reads nothing. -/
def iterate {σ : Type} (step : σ → Parser (Option σ)) (s : σ) : Parser σ :=
  fun scope tokens => iterateOn step scope s tokens

/-- The recursion of `nested`, on the tokens themselves. -/
def nestedOn {α : Type} (body : Parser α → Parser α) (scope : Scope) (tokens : List Token) :
    Except SyntaxError (α × List Token) :=
  body (fun inner rest =>
    if rest.length < tokens.length then nestedOn body inner rest
    else (unexpected "nested expression" : Parser α) inner rest) scope tokens
termination_by tokens.length

/-- A grammar that contains itself. It may call itself only behind a token that it has read. -/
def nested {α : Type} (body : Parser α → Parser α) : Parser α :=
  fun scope tokens => nestedOn body scope tokens

/-- `item (separator item)*`, where each item turns one state into the next. -/
def separatedFold {σ : Type} (separator : TokenKind) (item : σ → Parser σ) (s : σ) : Parser σ := do
  iterate (fun s => do
    if ← accept separator then return some (← item s) else return none) (← item s)

/-- `item (separator item)*`. -/
def separated {α : Type} (separator : TokenKind) (item : Parser α) : Parser (List α) :=
  separatedFold separator (fun l => do return l ++ [← item]) []

/-- `operand (operator operand)*`, grouped to the left. -/
def leftChain {α : Type} (operand : Parser α) (operator? : Parser (Option (α → α → α))) :
    Parser α := do
  iterate (fun left => do
    match ← operator? with
    | some combine => return some (combine left (← operand))
    | none => return none) (← operand)

/-! ## Running -/

/-- Runs a parser on the tokens of a file. If their last is not the end of the file, that stands one
line below it. -/
def runOn {α : Type} (parser : Parser α) (file : String) (tokens : List Token) :
    Except SyntaxError α := do
  let (final, rest) := match tokens.getLast? with
    | some t =>
      if t.kind = .endOfFile then (t, tokens.dropLast)
      else (⟨.endOfFile, "", t.line + 1, 1⟩, tokens)
    | none => (⟨.endOfFile, "", 1, 1⟩, [])
  let (value, _) ← (parser.run { file, final }).run rest
  return value

end Parser

end Blueprint
