import Blueprint.Fault
import Blueprint.Finding
import Blueprint.Module.Basic

/-!
# Applications

An `Application` is what is made of all sources together. `CompileError` is why none could be made.
-/

namespace Blueprint

structure Application where
  project : Option String := none
  app : Option App
  /-- The names of the modules, each behind those it uses. -/
  modules : List String
  declarations : Declarations
  warnings : List Warning

/-- A source text and the path it is known by. -/
structure Source where
  path : String
  text : String
  deriving DecidableEq

structure CompileOptions where
  /-- Whether sources may be read at the same time. The result is the same. -/
  parallel : Bool := true
  /-- Whether a warning is an error. -/
  denyWarnings : Bool := false
  /-- Whether surfaces are generated for entities with an archetype kind. -/
  archetypeSurfaces : Bool := true
  deriving DecidableEq

/-- Why no application could be made of sources. -/
inductive CompileError where
  | source (error : SyntaxError)
  | link (error : LinkError)
  | reference (error : ReferenceError)
  | denied (warnings : List Warning)

def CompileError.render : CompileError → String
  | source e => e.render
  | link e => e.render
  | reference e => e.render
  | denied warnings =>
    itemized s!"{warnings.length} warning(s) denied:" (warnings.map (·.render))

end Blueprint
