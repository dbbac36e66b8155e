import Blueprint.Expr.Basic
import Blueprint.Parser.Words

/-!
# Grammar of expressions

```text
condition  = all ("or" all)*                   all    = test ("and" test)*
test       = "(" condition ")" | "role" "(" name ")" | path op value

computed   = term (("+" | "-") term)*          term   = factor (("*" | "/") factor)*
factor     = "(" computed ")" | aggregate "(" path ")" | number | path

invariant  = all ("or" all)*                   all    = rule ("and" rule)*
rule       = "not" rule | "(" invariant ")" | side op side
```

Every operator groups to the left.
-/

namespace Blueprint

/-- The constant that a number stands for: a decimal if it has a point, and otherwise an integer, of
which there is one only within 64 bits. -/
def Literal.ofNumber? (text : String) : Option Literal :=
  if text.toList.contains '.' then some (.decimal text)
  else match text.toList with
    | '-' :: digits => (Text.natural? (Text.integerBound + 1) digits).map fun n => .integer (-n)
    | digits => (Text.natural? Text.integerBound digits).map fun n => .integer n

/-- The operator in front of the given two classes of tokens, and how many of them it takes. -/
def ComparisonOp.ofKinds? : TokenKind → TokenKind → Option (ComparisonOp × Nat)
  | .equal, _ | .doubleEqual, _ => some (eq, 1)
  | .notEqual, _ => some (notEq, 1)
  | .greater, _ => some (gt, 1)
  | .less, _ => some (lt, 1)
  | .greaterEqual, _ => some (ge, 1)
  | .lessEqual, _ => some (le, 1)
  | .keyword .in, _ => some (within, 1)
  | .keyword .notOp, .keyword .in => some (notWithin, 2)
  | .keyword .is, .keyword .notOp => some (isNot, 2)
  | .keyword .is, _ => some (is, 1)
  | _, _ => none

/-- Whether the operator may be used in an invariant, which only compares values. -/
def ComparisonOp.comparesValues : ComparisonOp → Bool
  | within | notWithin | is | isNot => false
  | _ => true

namespace Parser

/-! ## Shared parts -/

/-- `name ("." name)*`. -/
def fieldPath : Parser FieldPath := do
  return ⟨← separated .dot name⟩

/-- Whether a number comes next, with or without a minus sign. -/
def isAtNumber : Parser Bool := do
  match (← current).kind with
  | .number => return true
  | .minus => peekIs 1 .number
  | _ => return false

def isAtLiteral : Parser Bool := do
  match (← current).kind with
  | .string | .keyword .trueLit | .keyword .falseLit | .keyword .nullLit => return true
  | _ => isAtNumber

def literal : Parser Literal := do
  let t ← current
  match t.kind with
  | .string => return .string (← advance).text
  | .number | .minus =>
    let text ← numberText
    match Literal.ofNumber? text with
    | some l => return l
    | none => failAt t (.numberOutOfRange text)
  | .keyword .trueLit =>
    let _ ← advance
    return .boolean true
  | .keyword .falseLit =>
    let _ ← advance
    return .boolean false
  | .keyword .nullLit =>
    let _ ← advance
    return .null
  | _ => unexpected "literal value"

def dateAnchor? : Parser (Option DateAnchor) := do
  if ← acceptKeyword .today then return some .today
  else if ← acceptKeyword .now then return some .now
  else return none

def isAtDate : Parser Bool := do
  if ← isAtKeyword .today then return true else isAtKeyword .now

/-- Whether a duration stands behind the next token. -/
def durationFollows : Parser Bool := do
  if ← peekIs 1 .duration then return true
  else if ← peekIs 1 .number then return (← peek 2).isWord
  else return false

/-- A sign and a duration. A sign with no duration behind it is left alone. -/
def offset? : Parser (Option (OffsetSign × Duration)) := do
  let sign? : Option OffsetSign := match (← current).kind with
    | .plus => some .plus
    | .minus => some .minus
    | _ => none
  match sign? with
  | none => return none
  | some sign =>
    if ← durationFollows then
      let _ ← advance
      return some (sign, ← duration)
    else return none

/-- `("today" | "now") [sign duration]`. -/
def date : Parser DateExpr := do
  match ← dateAnchor? with
  | some anchor => return { anchor, offset := ← offset? }
  | none => unexpected "'today' or 'now'"

def comparisonOp : Parser ComparisonOp := do
  match ComparisonOp.ofKinds? (← current).kind (← peek 1).kind with
  | some (op, size) =>
    let _ ← advance
    if size = 2 then
      let _ ← advance
    return op
  | none => unexpected "comparison operator"

/-- The right side of a connective, if the keyword of the connective comes next. -/
def joined? {α : Type} (k : Keyword) (combine : α → α → α) : Parser (Option (α → α → α)) := do
  if ← acceptKeyword k then return some combine else return none

/-- Operands joined by `and`, and those by `or`. -/
def connected {α : Type} (combine : Connective → α → α → α) (operand : Parser α) : Parser α :=
  leftChain (leftChain operand (joined? .andOp (combine .and))) (joined? .orOp (combine .or))

/-! ## Conditions -/

def conditionValue : Parser ConditionValue :=
  nested fun value => do
    if ← isAtLiteral then return .literal (← literal)
    else if ← isAtDate then return .date (← date)
    else if ← accept .openBracket then
      if ← accept .closeBracket then return .list []
      else
        let items ← separated .comma value
        let _ ← expect .closeBracket
        return .list items
    else if ← isAtWord then
      let path ← fieldPath
      return if path.isSimple then .identifier path.root else .path path
    else unexpected "comparison value"

/-- Whether `role (` comes next. -/
def isAtRoleCheck : Parser Bool := do
  if ← isAtKeyword .role then peekIs 1 .openParen else return false

def condition : Parser Condition :=
  nested fun inner => connected .logical do
    if ← accept .openParen then
      let c ← inner
      let _ ← expect .closeParen
      return c
    else if ← isAtRoleCheck then return .role (← roleCheck)
    else
      let path ← fieldPath
      let op ← comparisonOp
      return .comparison path op (← conditionValue)

/-! ## Computed expressions -/

/-- The operator out of a list that comes next. -/
def arithmetic? (ops : List (TokenKind × ArithmeticOp)) :
    Parser (Option (Computed → Computed → Computed)) := do
  let kind := (← current).kind
  match ops.find? (·.1 == kind) with
  | some (_, op) =>
    let _ ← advance
    return some (.binary op)
  | none => return none

/-- Whether a word and an opening parenthesis come next. -/
def isAtCall : Parser Bool := do
  if ← isAtWord then peekIs 1 .openParen else return false

/-- `aggregate "(" path ")"`. -/
def aggregate : Parser Computed := do
  let t ← current
  match t.keyword?.bind Aggregate.ofKeyword? with
  | none => failAt t (.unknownFunction t.text)
  | some function =>
    let _ ← advance
    let _ ← expect .openParen
    let argument ← fieldPath
    let _ ← expect .closeParen
    return .aggregate function argument

def computed : Parser Computed :=
  nested fun inner =>
    let factor : Parser Computed := do
      if ← accept .openParen then
        let e ← inner
        let _ ← expect .closeParen
        return e
      else if ← isAtNumber then return .number (← numberText)
      else if ← isAtCall then aggregate
      else if ← isAtWord then return .field (← fieldPath)
      else unexpected "expression"
    let term := leftChain factor (arithmetic? [(.star, .mul), (.slash, .div)])
    leftChain term (arithmetic? [(.plus, .add), (.minus, .sub)])

/-! ## Invariants -/

def invariantTerm : Parser InvariantTerm := do
  if ← isAt .duration then return .duration (← duration)
  else if ← isAtLiteral then return .literal (← literal)
  else if ← isAtDate then return .date (← date)
  else
    let path ← fieldPath
    match ← offset? with
    | some (sign, d) => return .offset path sign d
    | none => return .field path

/-- `side op side`. -/
def comparison : Parser Invariant := do
  let left ← invariantTerm
  let op ← comparisonOp
  if op.comparesValues then return .comparison left op (← invariantTerm)
  else fail (.operatorInInvariant op.symbol)

def invariant : Parser Invariant :=
  nested fun inner => connected .logical <| nested fun rule => do
    if ← acceptKeyword .notOp then return .not (← rule)
    else if ← accept .openParen then
      let i ← inner
      let _ ← expect .closeParen
      return i
    else comparison

end Parser

end Blueprint
