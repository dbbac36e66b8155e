import Blueprint.Path

/-!
# Source trees

A `SourceTree` holds texts at places. It lists its files in the order of their places, whatever the
order in which they were inserted.
-/

namespace Blueprint

structure SourceTree where
  /-- The files in ascending order of their places, which are all different. -/
  files : List (Place × String) := []

/-- Why nothing was read. -/
inductive Absence where
  /-- No file is at the place. -/
  | source (place : Place)
  /-- No file is at the place or below it. -/
  | directory (place : Place)
  deriving DecidableEq

def Absence.message : Absence → String
  | source place => s!"no in-memory source at {place.render}"
  | directory place => s!"no in-memory sources under {place.render}"

namespace SourceTree

/-- The files with one more, which takes the place of one at the same place. -/
def insertFile (place : Place) (text : String) : List (Place × String) → List (Place × String)
  | [] => [(place, text)]
  | f :: rest =>
    match compare place.steps f.1.steps with
    | .lt => (place, text) :: f :: rest
    | .eq => (place, text) :: rest
    | .gt => f :: insertFile place text rest

def insert (t : SourceTree) (p : Path) (text : String) : SourceTree :=
  ⟨insertFile p.resolve text t.files⟩

def size (t : SourceTree) : Nat := t.files.length

def read (t : SourceTree) (p : Path) : Except Absence String :=
  match t.files.lookup p.resolve with
  | some text => .ok text
  | none => .error (.source p.resolve)

/-- The places of the source files at a path or below it, in order. -/
def discover (t : SourceTree) (root : Path) : Except Absence (List Place) :=
  match (t.files.map (·.1)).filter (·.isWithin root.resolve) with
  | [] => .error (.directory root.resolve)
  | found => .ok (found.filter (·.isSource))

end SourceTree

end Blueprint
