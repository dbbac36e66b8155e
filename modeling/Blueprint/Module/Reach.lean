import Blueprint.Module.Basic

/-!
# Reach of a module

What a module uses, directly or through others. A used module that is not there leads no further.
-/

namespace Blueprint

/-- The names that the module of the given name uses. Of several modules of one name, the last
counts. -/
def usedNames (modules : List Module) (name : String) : List String :=
  match modules.reverse.find? (·.name == name) with
  | some m => m.uses
  | none => []

/-- The names that a name leads to in at most the given number of steps, each once. -/
def reachWithin (modules : List Module) (name : String) : Nat → List String
  | 0 => [name]
  | n + 1 =>
    let near := reachWithin modules name n
    (near ++ near.flatMap (usedNames modules)).eraseDups

/-- The modules that the module of the given name uses, directly or through others, and itself.
There are none if no module has the name. -/
def reachable? (modules : List Module) (root : String) : Option (List Module) :=
  if modules.any (·.name == root) then
    let names := reachWithin modules root modules.length
    some (modules.filter fun m => names.contains m.name)
  else none

end Blueprint
