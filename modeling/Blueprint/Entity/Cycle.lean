import Blueprint.Entity.Basic
import Blueprint.Finding

/-!
# Cycles of references

Entities whose references lead in a circle are legal, but worth a warning. The search starts at each
entity in turn and follows every reference once for each start. A circle is reported once, from its
smallest entity on. References of an entity to itself are left out.
-/

namespace Blueprint

namespace EntityCycle

/-- The entities that the entity of the given name refers to, itself left out. -/
def targets (entities : List Entity) (name : String) : List String :=
  match entities.reverse.find? (·.name == name) with
  | some e => (e.references.map (·.2)).filter (· != e.name)
  | none => []

/-- The smallest name of a list. -/
def smallest (first : String) : List String → String
  | [] => first
  | n :: rest => smallest (if n < first then n else first) rest

/-- The circle, read from its smallest entity on. -/
def rotate (cycle : List String) : List String :=
  match cycle with
  | [] => []
  | n :: rest =>
    let least := smallest n rest
    cycle.dropWhile (· != least) ++ cycle.takeWhile (· != least)

/-- What a search has come across. -/
structure Search where
  /-- The entities whose references have been followed. -/
  followed : List String := []
  cycles : List (List String) := []

/-- The search with one circle more, unless it is known. -/
def Search.found (s : Search) (cycle : List String) : Search :=
  if s.cycles.contains cycle then s else { s with cycles := s.cycles ++ [cycle] }

/-- Follows references from a name on. The path leads from the start of the search to it, and its
length is bounded. -/
def walk (entities : List Entity) : Nat → List String → Search → String → Search
  | 0, _, s, _ => s
  | bound + 1, path, s, name =>
    if path.contains name then s.found (rotate (path.dropWhile (· != name)))
    else if s.followed.contains name then s
    else
      (targets entities name).foldl (walk entities bound (path ++ [name]))
        { s with followed := s.followed ++ [name] }

end EntityCycle

open EntityCycle in
/-- The circles of references between entities, each once. -/
def entityCycles (entities : List Entity) : List (List String) :=
  entities.foldl (fun cycles e =>
    (walk entities (entities.length + 1) [] { cycles } e.name).cycles) []

/-- The warning about a circle of references. -/
def cycleWarning (entities : List Entity) (cycle : List String) : Warning :=
  { kind := .entityCycle
    message := "entity reference cycle: " ++ " -> ".intercalate (cycle ++ cycle.take 1)
    location := (entities.find? fun e => cycle.head? == some e.name).map (·.location) }

def cycleWarnings (entities : List Entity) : List Warning :=
  (entityCycles entities).map (cycleWarning entities)

end Blueprint
