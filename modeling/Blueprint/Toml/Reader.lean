/-!
# Reading characters

A reader takes characters from the front of a text, or rejects the text. No reason is given.
-/

namespace Blueprint.Toml

abbrev Reader := StateT (List Char) Option

namespace Reader

def reject {α : Type} : Reader α := fun _ => none

/-- The next character. -/
def peek : Reader (Option Char) := do
  return (← get).head?

/-- Takes all characters up to the first that is not of the class. -/
def takeWhile (isIn : Char → Bool) : Reader (List Char) := do
  let cs ← get
  set (cs.dropWhile isIn)
  return cs.takeWhile isIn

def skipWhile (isIn : Char → Bool) : Reader Unit := do
  let _ ← takeWhile isIn

/-- Takes the given characters if they come next, and says whether it did. -/
def accept (expected : List Char) : Reader Bool := do
  match expected.isPrefixOf? (← get) with
  | some rest =>
    set rest
    return true
  | none => return false

def acceptChar (c : Char) : Reader Bool := accept [c]

def expect (c : Char) : Reader Unit := do
  if !(← acceptChar c) then reject

/-- Takes a character of the class. -/
def one (isIn : Char → Bool) : Reader Char := fun
  | [] => none
  | c :: rest => if isIn c then some (c, rest) else none

/-- Takes the given number of characters, all of the class. -/
def exactly (count : Nat) (isIn : Char → Bool) : Reader (List Char) := fun cs =>
  let taken := cs.take count
  if taken.length == count && taken.all isIn then some (taken, cs.drop count) else none

/-- What the reader takes, as it is written. -/
def spelled (reader : Reader Unit) : Reader String := fun cs =>
  (reader cs).map fun r => (String.ofList (cs.take (cs.length - r.2.length)), r.2)

/-- Reads what comes next if it is acceptable, and nothing otherwise. -/
def attempt (reader : Reader Unit) : Reader Unit := fun cs => (reader cs).or (some ((), cs))

/-- Reads items up to the first place where there is none. -/
def repeated {α : Type} (item? : Reader (Option α)) (cs : List Char) :
    Option (List α × List Char) :=
  match item? cs with
  | none => none
  | some (none, rest) => some ([], rest)
  | some (some item, rest) =>
    if rest.length < cs.length then
      (repeated item? rest).map fun (items, rest) => (item :: items, rest)
    else none
termination_by cs.length

/-- Reads one or more items between separators. -/
def separated {α : Type} (separator : Char) (item : Reader α) : Reader (List α) := do
  let first ← item
  let others ← repeated do
    if ← acceptChar separator then return some (← item) else return none
  return first :: others

end Reader

end Blueprint.Toml
