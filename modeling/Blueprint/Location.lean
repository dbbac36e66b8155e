import Blueprint.Text.Lines
import Blueprint.Text.Numeral

/-!
# Places in a source text

A `Location` names a file, a line and a column, both counted from one and the column in characters.
`snippet?` quotes a line and marks a column of it.
-/

namespace Blueprint

/-- A place in a source file, with the module the file was declared to be. -/
structure Location where
  file : String
  line : Nat
  column : Nat
  /-- The declared name of the module, once its header has been read. -/
  inModule : Option String := none
  deriving DecidableEq

namespace Location

def render (l : Location) : String :=
  s!"{l.file}:{l.line}:{l.column}" ++
    match l.inModule with
    | some m => s!" in module {m}"
    | none => ""

end Location

/-- The number of columns a tab stands for. -/
def tabWidth : Nat := 4

/-- The columns that a character takes when a line is quoted. -/
def cellWidth (c : Char) : Nat := if c = '\t' then tabWidth else 1

/-- The cells in which a line is quoted: each tab as blanks. -/
def cells (l : List Char) : List Char :=
  l.flatMap fun c => if c = '\t' then List.replicate tabWidth ' ' else [c]

-- Sums are those of the core library in every context.
attribute [local instance (high)] Zero.ofOfNat0

/-- The given line of a text and, below it, `width` carets (at least one) from the given column on.
There is none if the text has no such line. -/
def snippet? (source : String) (line column width : Nat) : Option String := do
  if line = 0 then none
  let l ← (Text.visibleLines source)[line - 1]?
  let gutter := Text.padLeft 4 (toString line)
  let offset := ((l.take (column - 1)).map cellWidth).sum
  let blank (n : Nat) := String.ofList (List.replicate n ' ')
  let marks := String.ofList (List.replicate (max width 1) '^')
  some (gutter ++ " | " ++ String.ofList (cells l) ++ "\n" ++
    blank gutter.length ++ " | " ++ blank offset ++ marks)

end Blueprint
