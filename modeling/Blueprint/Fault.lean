import Blueprint.Location
import Blueprint.Token.Basic

/-!
# Faults of a source text

A `Fault` is the reason why a text is rejected; `Fault.message` is its wording. A `SyntaxError` adds
the place and, once the text is at hand, a quotation of the line. The first error ends the reading
of a file.
-/

namespace Blueprint

/-- Why a source text is rejected. -/
inductive Fault where
  /-- A line returns to a depth at which no block stands. -/
  | unmatchedDedent
  /-- The text ends inside a bracket. -/
  | unclosedBracket
  | unterminatedString
  | unterminatedEscape
  | malformedNumber (text : String)
  | strayCharacter (c : Char)
  | unexpected (expected : String) (found : Token)
  | reservedName (k : Keyword)
  | unknownChoice (what : String) (found : Token) (allowed : List String)
  | notWhole (text : String)
  | durationOutOfRange (text : String)
  | unknownDurationUnit (text : String)
  /-- An integer literal does not fit 64 bits. -/
  | numberOutOfRange (text : String)
  /-- A declaration lacks a directive that it needs. -/
  | missing (construct name directive : String)
  /-- A `part` lacks a directive that it needs. -/
  | missingIn (part directive : String)
  /-- A name was given twice among things of one sort. -/
  | duplicate (sort name : String)
  | duplicateAction (name surface : String)
  | repeatedStep (construct owner step : String)
  /-- A declaration that a file can hold once was made before. -/
  | alreadyDeclared (what : String) (first : Location)
  | lateModule
  | lateUse
  | indentedDeclaration
  | missingValue (key : String)
  | unknownFieldType (found : Token)
  | scaleExceedsPrecision (scale precision : Nat)
  | secondDefault (field : String)
  | requiredAndOptional (field : String)
  | misplacedVia (kind : String)
  | unknownFunction (name : String)
  | operatorInInvariant (op : String)
  | emptyEnum (name : String)
  | messageWithoutGuard
  | mixedService (name : String)
  | noAttempts
  | noQuorum
  | sameLedger (transfer ledger : String)
  | tooFewBranches (block : String)
  deriving DecidableEq

namespace Fault

def message : Fault → String
  | .unmatchedDedent =>
    "inconsistent indentation: dedent does not match any outer indentation level"
  | .unclosedBracket => "unexpected end of file: unclosed '(' or '['"
  | .unterminatedString => "unterminated string literal"
  | .unterminatedEscape => "unterminated escape in string literal"
  | .malformedNumber text => s!"invalid number literal '{text}'"
  | .strayCharacter c => s!"unexpected character '{c}'"
  | .unexpected expected found => s!"expected {expected}, got {found.description}"
  | .reservedName k => s!"'{k.spelling}' is a reserved keyword and cannot be used as a name"
  | .unknownChoice what found allowed =>
    s!"invalid {what} {found.description}, expected one of: " ++ ", ".intercalate allowed
  | .notWhole text => s!"expected a whole number, got '{text}'"
  | .durationOutOfRange text => s!"invalid duration '{text}'"
  | .unknownDurationUnit text => s!"unknown duration unit '{text}'"
  | .numberOutOfRange text => s!"number '{text}' is out of range"
  | .missing construct name directive =>
    s!"{construct} '{name}' is missing required '{directive}'"
  | .missingIn part directive => s!"{part} is missing required '{directive}'"
  | .duplicate sort name => s!"duplicate {sort} '{name}'"
  | .duplicateAction name surface => s!"duplicate action '{name}' in surface '{surface}'"
  | .repeatedStep construct owner step =>
    s!"{construct} '{owner}' declares step '{step}' more than once"
  | .alreadyDeclared what first => s!"{what} already declared at {first.render}"
  | .lateModule => "'module' must be the first statement of a file"
  | .lateUse => "'use' must appear before any declaration"
  | .indentedDeclaration => "unexpected indentation at top level"
  | .missingValue key => s!"missing value for '{key}'"
  | .unknownFieldType found =>
    "unknown field type " ++
      if found.isWord then s!"'{found.text}'" else found.kind.description
  | .scaleExceedsPrecision scale precision =>
    s!"decimal scale {scale} exceeds precision {precision}"
  | .secondDefault field => s!"field '{field}' declares more than one default"
  | .requiredAndOptional field => s!"field '{field}' cannot be both required and optional"
  | .misplacedVia kind => s!"'via' is only valid on has_many and has_one, not {kind}"
  | .unknownFunction name =>
    s!"unknown function '{name}': only count, sum, avg, min, max, days_until and days_since " ++
      "may be called"
  | .operatorInInvariant op => s!"operator '{op}' is not allowed in an invariant"
  | .emptyEnum name => s!"enum '{name}' declares no values"
  | .messageWithoutGuard => "'message' must follow a 'guard'"
  | .mixedService name => s!"service '{name}' mixes external API and domain service directives"
  | .noAttempts => "retry max_attempts must be at least 1"
  | .noQuorum => "approval quorum must be at least 1"
  | .sameLedger transfer ledger =>
    s!"transfer '{transfer}' debits and credits the same ledger '{ledger}'"
  | .tooFewBranches block => s!"parallel block '{block}' needs at least two steps"

/-- Names to use instead, where a reserved word was used as one. -/
def alternatives : Fault → List String
  | .reservedName k => k.alternatives
  | _ => []

end Fault

/-- A fault and its place. -/
structure SyntaxError where
  location : Location
  fault : Fault
  /-- The line of the text at the place of the fault. -/
  snippet : Option String := none
  deriving DecidableEq

namespace SyntaxError

/-- The error with its line quoted from the text. -/
def quoting (source : String) (e : SyntaxError) : SyntaxError :=
  { e with snippet := snippet? source e.location.line e.location.column 3 }

def render (e : SyntaxError) : String :=
  s!"{e.location.render}: {e.fault.message}" ++
    (if e.fault.alternatives.isEmpty then ""
      else " (try: " ++ ", ".intercalate e.fault.alternatives ++ ")") ++
    match e.snippet with
    | some s => "\n" ++ s
    | none => ""

end SyntaxError

end Blueprint
