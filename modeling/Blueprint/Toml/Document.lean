import Blueprint.Toml.Basic
import Blueprint.Toml.Text

/-!
# TOML documents

A document is read line by line: an entry, a header or nothing, each with a comment behind it if
need be. What the lines say is then assembled to one table.
-/

namespace Blueprint.Toml

open Reader

/-- How deep brackets and braces may nest, and how many parts a key may have. -/
def nestingBound : Nat := 79

/-! ## Layout -/

def skipBlanks : Reader Unit := skipWhile isBlank

/-- Takes a comment, if there is one, and says whether there was. -/
def acceptComment : Reader Bool := do
  if ← acceptChar '#' then
    skipWhile isPrintable
    return true
  else return false

/-- Takes what may stand behind a statement, and the end of its line. -/
def endLine : Reader Unit := do
  skipBlanks
  let _ ← acceptComment
  if !(← acceptNewline) then
    if (← peek).isSome then reject

/-- Takes blanks, line breaks and comments. -/
def skipLayout : Reader Unit := do
  let _ ← repeated do
    skipSpace
    if ← acceptComment then return some () else return none

/-! ## Keys -/

def isKeyChar (c : Char) : Bool := c.isAlphanum || c == '-' || c == '_'

/-- A key without dots, and the blanks around it. -/
def keyPart : Reader String := do
  skipBlanks
  let part ←
    if ← acceptChar '"' then shortString '"'
    else if ← acceptChar '\'' then shortString '\''
    else do
      let first ← one isKeyChar
      pure (String.ofList (first :: (← takeWhile isKeyChar)))
  skipBlanks
  return part

/-- A key: the path to its table, and the last part. -/
def key : Reader (List String × String) := do
  let parts ← separated '.' keyPart
  match parts.getLast? with
  | some last => if parts.length ≤ nestingBound then return (parts.dropLast, last) else reject
  | none => reject

/-! ## Values -/

/-- The items of an array, without the opening bracket. A comma may follow the last one. -/
def arrayItems (item : Reader Value) : Reader (List Value) := do
  let items ← repeated do
    skipLayout
    if (← peek) == some ']' then return none
    else
      let v ← item
      skipLayout
      if !(← acceptChar ',') then
        if (← peek) != some ']' then reject
      return some v
  expect ']'
  return items

/-- An entry of a table in braces. -/
def inlineEntry (value : Reader Value) : Reader (List String × String × Value) := do
  let (path, last) ← key
  expect '='
  skipBlanks
  let v ← value
  skipBlanks
  return (path, last, v)

/-- The entries of a table in braces, without the opening brace. -/
def inlineTable (value : Reader Value) : Reader Value := do
  skipBlanks
  if ← acceptChar '\x7d' then return .table .inline []
  else
    let entries ← separated ',' (inlineEntry value)
    expect '\x7d'
    match entries.foldlM (fun t e => Table.addAt e.2.1 e.2.2 e.1 t) [] with
    | some t => return .table .inline t
    | none => reject

/-- A value without brackets or braces. -/
def scalar : Reader Value := do
  if ← acceptChar '"' then return .string (← stringAfter '"')
  else if ← acceptChar '\'' then return .string (← stringAfter '\'')
  else if ← accept "true".toList then return .boolean true
  else if ← accept "false".toList then return .boolean false
  else return .plain (← plainValue)

/-- A value with brackets and braces of at most the given depth. -/
def value : Nat → Reader Value
  | 0 => scalar
  | depth + 1 => do
    if ← acceptChar '[' then return .array (← arrayItems (value depth))
    else if ← acceptChar '\x7b' then inlineTable (value depth)
    else scalar

/-! ## Statements -/

/-- A header, without its opening brackets. -/
def headerAfter (closing : List Char) : Reader (List String × String) := do
  let k ← key
  if !(← accept closing) then reject
  endLine
  return k

def entry : Reader Statement := do
  let (path, last) ← key
  expect '='
  skipBlanks
  let v ← value nestingBound
  endLine
  return .entry path last v

/-- The statement on a line, if there is one. -/
def line : Reader (Option Statement) := do
  match ← peek with
  | some '[' =>
    if ← accept ['[', '['] then
      let (path, last) ← headerAfter [']', ']']
      return some (.element path last)
    else
      expect '['
      let (path, last) ← headerAfter [']']
      return some (.table path last)
  | some '#' | some '\n' | some '\r' => do
    endLine
    return none
  | _ => return some (← entry)

/-- The statements of a document. -/
def statements : Reader (List (Option Statement)) :=
  repeated do
    skipBlanks
    if (← peek).isNone then return none else return some (← line)

/-- The table that a text stands for. A byte order mark may precede it. -/
def parse? (text : String) : Option Table := do
  let cs := match text.toList with
    | '\ufeff' :: rest => rest
    | cs => cs
  let (lines, _) ← statements cs
  assemble (lines.filterMap id)

end Blueprint.Toml
