/-!
# TOML values

A document is a table, built statement by statement. Of each table within it, it is remembered how
it came about, because that decides which later statements may add to it.
-/

namespace Blueprint.Toml

/-- How a table came about. -/
inductive Origin where
  /-- It was written between braces, and nothing may add to it. -/
  | inline
  /-- A header opened it. -/
  | header
  /-- A header opened a table within it. -/
  | implied
  /-- A dotted key leads through it. -/
  | dotted
  deriving DecidableEq

inductive Value where
  | string (text : String)
  | boolean (b : Bool)
  /-- A number or a moment in time, as it is written. -/
  | plain (text : String)
  | array (items : List Value)
  | table (origin : Origin) (entries : List (String × Value))
  /-- The tables opened by repeated headers in double brackets. -/
  | tables (items : List (List (String × Value)))

/-- Keys and their values, without repetition. -/
abbrev Table := List (String × Value)

namespace Table

/-- The table with the entry of a key replaced or added, if the change is allowed. -/
def change (key : String) (new : Option Value → Option Value) : Table → Option Table
  | [] => (new none).map fun v => [(key, v)]
  | (k, v) :: rest =>
    if k == key then (new (some v)).map fun v => (k, v) :: rest
    else (change key new rest).map ((k, v) :: ·)

/-- The table with a value for a key that has none. -/
def add (key : String) (value : Value) : Table → Option Table :=
  change key fun
    | none => some value
    | some _ => none

/-- The table with a value for a dotted key. The tables on the way are those of other dotted
keys. -/
def addAt (key : String) (value : Value) : List String → Table → Option Table
  | [], t => t.add key value
  | k :: path, t =>
    t.change k fun
      | none => (addAt key value path []).map (.table .dotted)
      | some (.table .dotted entries) => (addAt key value path entries).map (.table .dotted)
      | some _ => none

/-- The table with a change to the table that a path of headers leads to. Repeated headers stand for
their last table. -/
def changeAt (new : Table → Option Table) : List String → Table → Option Table
  | [], t => new t
  | k :: path, t =>
    t.change k fun
      | none => (changeAt new path []).map (.table .implied)
      | some (.table .inline _) => none
      | some (.table origin entries) => (changeAt new path entries).map (.table origin)
      | some (.tables items) =>
        (changeAt new path (items.getLast?.getD [])).map fun t => .tables (items.dropLast ++ [t])
      | some _ => none

/-- The table with a new table under the key, opened by a header. -/
def openTable (key : String) : Table → Option Table :=
  change key fun
    | none => some (.table .header [])
    | some (.table .implied entries) => some (.table .header entries)
    | some _ => none

/-- The table with one more table under the key, opened by a header in double brackets. -/
def openElement (key : String) : Table → Option Table :=
  change key fun
    | none => some (.tables [[]])
    | some (.tables items) => some (.tables (items ++ [[]]))
    | some _ => none

end Table

/-- What a line of a document says. -/
inductive Statement where
  /-- A value for a key of the open table. -/
  | entry (path : List String) (key : String) (value : Value)
  /-- A header, which opens a table. -/
  | table (path : List String) (key : String)
  /-- A header in double brackets. -/
  | element (path : List String) (key : String)

/-- A document of which some statements have been read. -/
structure Draft where
  root : Table := []
  /-- The path to the open table. -/
  position : List String := []

/-- The document with one statement more. -/
def Draft.apply (d : Draft) : Statement → Option Draft
  | .entry path key value => do
    return { d with root := ← d.root.changeAt (Table.addAt key value path) d.position }
  | .table path key => do
    return { root := ← d.root.changeAt (Table.openTable key) path, position := path ++ [key] }
  | .element path key => do
    return { root := ← d.root.changeAt (Table.openElement key) path, position := path ++ [key] }

/-- The table that a list of statements makes up. -/
def assemble (statements : List Statement) : Option Table :=
  (statements.foldlM Draft.apply {}).map (·.root)

end Blueprint.Toml
