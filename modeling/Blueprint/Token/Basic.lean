import Blueprint.Keyword

/-!
# Tokens

What the lexer hands to the grammar. Besides the words, literals and signs of a line there are four
marks for its layout: the end of a line, one level of indentation more or less, and the end of the
file.
-/

namespace Blueprint

/-- The class of a token. -/
inductive TokenKind where
  /-- A word that is no keyword. -/
  | identifier
  | keyword (k : Keyword)
  /-- A quoted string; the token's text is its content. -/
  | string
  /-- A whole or decimal number, kept as it was spelled. -/
  | number
  /-- A whole number directly followed by a unit of time. -/
  | duration
  | colon | arrow | backArrow | bothArrow | comma | openParen | closeParen | openBracket
  | closeBracket | equal | doubleEqual | notEqual | less | greater | lessEqual | greaterEqual | dot
  | question | plus | minus | star | slash
  | newline | indent | dedent | endOfFile
  deriving DecidableEq

/-- What a token of this class is called in an error message. -/
def TokenKind.description : TokenKind → String
  | .identifier => "identifier"
  | .keyword k => s!"keyword '{k.spelling}'"
  | .string => "string"
  | .number => "number"
  | .duration => "duration"
  | .colon => "':'"
  | .arrow => "'->'"
  | .backArrow => "'<-'"
  | .bothArrow => "'<->'"
  | .comma => "','"
  | .openParen => "'('"
  | .closeParen => "')'"
  | .openBracket => "'['"
  | .closeBracket => "']'"
  | .equal => "'='"
  | .doubleEqual => "'=='"
  | .notEqual => "'!='"
  | .less => "'<'"
  | .greater => "'>'"
  | .lessEqual => "'<='"
  | .greaterEqual => "'>='"
  | .dot => "'.'"
  | .question => "'?'"
  | .plus => "'+'"
  | .minus => "'-'"
  | .star => "'*'"
  | .slash => "'/'"
  | .newline => "end of line"
  | .indent => "indent"
  | .dedent => "dedent"
  | .endOfFile => "end of file"

/-- A token and the place where it starts. -/
structure Token where
  kind : TokenKind
  text : String
  line : Nat
  column : Nat
  deriving DecidableEq

namespace Token

/-- Whether the token is a word, keyword or not. -/
def isWord (t : Token) : Bool :=
  match t.kind with
  | .identifier | .keyword _ => true
  | _ => false

def keyword? (t : Token) : Option Keyword :=
  match t.kind with
  | .keyword k => some k
  | _ => none

/-- How an error message names the token that was found. -/
def description (t : Token) : String :=
  match t.kind with
  | .identifier => s!"identifier '{t.text}'"
  | .string => s!"string \"{t.text}\""
  | .number | .duration => s!"'{t.text}'"
  | k => k.description

end Token

end Blueprint
