import Blueprint.Finding
import Blueprint.Module.Basic

/-!
# The order of modules

Modules are ordered so that each stands behind all the modules it uses. For each module it is
counted how many used ones it still waits for. Those that wait for none come first; whenever one is
taken, the modules that use it wait for one less, and those that now wait for none line up behind
the others, in the order in which they were given.

There is an order exactly if no two modules share a name, every used module is there, and no modules
use each other in a circle. A module that uses itself does no harm.
-/

namespace Blueprint

/-- The place that findings about a module as a whole are reported at. -/
def Module.start (m : Module) : Location :=
  { file := m.file, line := 1, column := 1, inModule := some m.name }

namespace ModuleOrder

/-- The modules whose name an earlier one has, each with the first of that name. -/
def repeatedFrom (seen : List Module) : List Module → List (Module × Module)
  | [] => []
  | m :: rest =>
    match seen.find? (·.name == m.name) with
    | some first => (first, m) :: repeatedFrom seen rest
    | none => repeatedFrom (seen ++ [m]) rest

def repeatedFindings (modules : List Module) : List (Finding LinkFault) :=
  (repeatedFrom [] modules).map fun (first, m) =>
    ⟨some m.start, .moduleTwice m.name first.file m.file⟩

def undefinedFindings (modules : List Module) : List (Finding LinkFault) :=
  modules.flatMap fun m =>
    (m.uses.filter fun used => !modules.any (·.name == used)).map fun used =>
      ⟨some m.start, .undefinedModule m.name used⟩

/-! ## Counting down -/

/-- The place of the first module with a name. -/
def place? (modules : List Module) (n : String) : Option (Fin modules.length) :=
  modules.findFinIdx? (·.name == n)

/-- The places in `seen` and those of the used modules behind them, each once and without the one of
the module itself. -/
def dependenciesFrom (modules : List Module) (i : Fin modules.length)
    (seen : List (Fin modules.length)) : List String → List (Fin modules.length)
  | [] => seen
  | used :: rest =>
    match place? modules used with
    | none => dependenciesFrom modules i seen rest
    | some d =>
      if d = i ∨ d ∈ seen then dependenciesFrom modules i seen rest
      else dependenciesFrom modules i (seen ++ [d]) rest

/-- The modules that a module depends on. -/
def dependencies (modules : List Module) (i : Fin modules.length) : List (Fin modules.length) :=
  dependenciesFrom modules i [] (modules.get i).uses

/-- The modules that depend on a module. -/
def dependents (modules : List Module) (d : Fin modules.length) : List (Fin modules.length) :=
  (List.finRange modules.length).filter fun i => d ∈ dependencies modules i

/-- How far modules have been ordered. -/
structure Countdown (n : Nat) where
  taken : List (Fin n)
  /-- The modules that can be taken next. -/
  queue : List (Fin n)
  /-- How many others a module waits for. -/
  waits : Fin n → Nat

namespace Countdown

/-- Nothing is taken, and the modules that depend on no other are waiting to be. -/
def start (modules : List Module) : Countdown modules.length where
  taken := []
  queue := (List.finRange modules.length).filter fun i => (dependencies modules i).length = 0
  waits i := (dependencies modules i).length

variable {n : Nat}

/-- One module waits for one less. If it waits for none now, it lines up. -/
def release (c : Countdown n) (i : Fin n) : Countdown n :=
  let left := c.waits i - 1
  { taken := c.taken
    queue := if left = 0 then c.queue ++ [i] else c.queue
    waits := fun j => if j = i then left else c.waits j }

/-- Takes a module, with `queue` behind it. -/
def next (modules : List Module) (c : Countdown modules.length) (i : Fin modules.length)
    (queue : List (Fin modules.length)) : Countdown modules.length :=
  (dependents modules i).foldl release { c with taken := c.taken ++ [i], queue }

/-- Takes up to `bound` modules off the queue. -/
def run (modules : List Module) : Nat → Countdown modules.length → Countdown modules.length
  | 0, c => c
  | bound + 1, c =>
    match c.queue with
    | [] => c
    | i :: queue => run modules bound (c.next modules i queue)

/-- The modules that still wait for others. -/
def stuck (c : Countdown n) : List (Fin n) := (List.finRange n).filter fun i => 0 < c.waits i

end Countdown

/-- The modules in the order in which they are taken, unless some are left that wait for others. -/
def takeAll (modules : List Module) : Except LinkError (List Module) :=
  let c := Countdown.run modules modules.length (.start modules)
  if c.taken.length < modules.length then
    let left := c.stuck.map fun i => (modules.get i).name
    let place := (modules.find? fun m => left.contains m.name).map Module.start
    .error ⟨.circularDependency, [⟨place, .circularModules left⟩]⟩
  else .ok (c.taken.map modules.get)

end ModuleOrder

open ModuleOrder in
/-- The modules in order, or why there is none. -/
def orderModules (modules : List Module) : Except LinkError (List Module) :=
  let twice := repeatedFindings modules
  let missing := undefinedFindings modules
  if !twice.isEmpty then .error ⟨.duplicateSymbol, twice⟩
  else if !missing.isEmpty then .error ⟨.missingDependency, missing⟩
  else takeAll modules

end Blueprint
