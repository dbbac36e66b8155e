import Blueprint.Parser.Basic
import Blueprint.Duration

/-!
# Names, options and amounts

The smallest parts of a statement: names, words out of a closed set, strings, counts, truth values
and durations.
-/

namespace Blueprint.Parser

/-- A word that can be a name. A reserved word is refused with names to use instead. -/
def name : Parser String := do
  let t ← current
  match t.kind with
  | .identifier => return (← advance).text
  | .keyword k => if k.canName then return (← advance).text else fail (.reservedName k)
  | _ => unexpected "identifier"

/-- Any word, reserved or not. -/
def word : Parser String := do
  if ← isAtWord then return (← advance).text else unexpected "word"

/-- One of a closed set of words, with its meaning. -/
def choice {α : Type} (what : String) (choices : List (String × α)) : Parser α := do
  let t ← current
  match if t.isWord then choices.find? (·.1 == t.text) else none with
  | some c =>
    let _ ← advance
    return c.2
  | none => failAt t (.unknownChoice what t (choices.map (·.1)))

/-- One value of a closed set, by its spelling. -/
def choiceOf {α : Type} (what : String) (values : List α) (spelling : α → String) : Parser α :=
  choice what (values.map fun v => (spelling v, v))

/-- A quoted string. -/
def string : Parser String := do
  return (← expect .string).text

/-- A quoted string, if one comes next. -/
def string? : Parser (Option String) := do
  if ← isAt .string then return some (← advance).text else return none

/-- A string, or a name. -/
def stringOrName : Parser String := do
  match ← string? with
  | some s => return s
  | none => name

/-- A whole number below `2 ^ 32`. -/
def count : Parser Nat := do
  let t ← expect .number
  match Text.natural? Text.countBound t.text.toList with
  | some n => return n
  | none => failAt t (.notWhole t.text)

/-- A number with or without a minus sign, as it is spelled. -/
def numberText : Parser String := do
  let negative ← accept .minus
  let t ← expect .number
  return if negative then "-" ++ t.text else t.text

/-- `true` or `false`. -/
def truth : Parser Bool := do
  if ← acceptKeyword .trueLit then return true
  else if ← acceptKeyword .falseLit then return false
  else unexpected "'true' or 'false'"

/-- A duration, compact as in `7d` or spelled out as in `7 days`. -/
def duration : Parser Duration := do
  let t ← current
  if t.kind == .duration then
    let _ ← advance
    match Duration.parse? t.text with
    | some d => return d
    | none => failAt t (.durationOutOfRange t.text)
  else if t.kind == .number && (← peek 1).isWord then
    let amount ← count
    let unit ← advance
    match DurationUnit.ofWord? unit.text with
    | some u => return { amount, unit := u }
    | none => failAt unit (.unknownDurationUnit unit.text)
  else unexpected "duration"

/-- The name of a module, words joined by dots. Reserved words are allowed in it. -/
def modulePath : Parser String := do
  return ".".intercalate (← separated .dot word)

/-- Names separated by commas, in brackets or not. Only in brackets can there be none. -/
def names : Parser (List String) := do
  if ← accept .openBracket then
    if ← accept .closeBracket then return []
    else
      let items ← separated .comma name
      let _ ← expect .closeBracket
      return items
  else separated .comma name

/-- Items separated by commas, at least one, in brackets or not. -/
def listedFold {σ : Type} (item : σ → Parser σ) (s : σ) : Parser σ := do
  if ← accept .openBracket then
    let last ← separatedFold .comma item s
    let _ ← expect .closeBracket
    return last
  else separatedFold .comma item s

/-- `name ["Title"]`. -/
def header : Parser (String × Option String) := do
  let n ← name
  return (n, ← string?)

/-- `role "(" name ")"`. -/
def roleCheck : Parser String := do
  let _ ← expectKeyword .role
  let _ ← expect .openParen
  let role ← name
  let _ ← expect .closeParen
  return role

end Blueprint.Parser
