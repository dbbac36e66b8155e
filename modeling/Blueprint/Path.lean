/-!
# Paths

A path is a text whose parts stand between slashes. Different texts may name one file, so sources
are kept by `Place`: a path without doubled slashes, `.` and `..`. Places are ordered part by part,
so that a directory stands next to what is in it.
-/

namespace Blueprint

structure Path where
  text : String
  deriving DecidableEq

namespace Path

def isAbsolute (p : Path) : Bool := p.text.toList.head? == some '/'

/-- The second path, as seen from the first. -/
def join (base p : Path) : Path :=
  if p.isAbsolute then p
  else match base.text.toList.getLast? with
    | none | some '/' => ⟨base.text ++ p.text⟩
    | some _ => ⟨base.text ++ "/" ++ p.text⟩

/-- What stands between the slashes. -/
def parts (p : Path) : List String := (p.text.toList.splitOn '/').map String.ofList

end Path

/-- A part of a place. -/
inductive Step where
  | root
  | name (text : String)
  deriving DecidableEq, Ord

/-- Where a source is kept. -/
structure Place where
  steps : List Step
  deriving DecidableEq

namespace Place

/-- The place at the given part of a path. A part `..` takes the last step back, the root not
excepted; where there is no step to take back, it does nothing. -/
def enter (p : Place) (part : String) : Place :=
  if part.isEmpty || part == "." then p
  else if part == ".." then ⟨p.steps.dropLast⟩
  else ⟨p.steps ++ [.name part]⟩

/-- Whether the place is the other one or lies below it. -/
def isWithin (p other : Place) : Bool := other.steps.isPrefixOf p.steps

/-- Whether the place is that of a source file. -/
def isSource (p : Place) : Bool :=
  match p.steps.getLast? with
  | some (.name n) => ".dsl".toList.isSuffixOf n.toList && n != ".dsl"
  | _ => false

def render (p : Place) : String :=
  let names := p.steps.filterMap fun
    | .root => none
    | .name n => some n
  (if p.steps.head? == some .root then "/" else "") ++ "/".intercalate names

end Place

/-- The place that a path leads to. -/
def Path.resolve (p : Path) : Place :=
  p.parts.foldl Place.enter ⟨if p.isAbsolute then [.root] else []⟩

end Blueprint
