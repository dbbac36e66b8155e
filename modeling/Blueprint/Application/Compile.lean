import Blueprint.Application.Link
import Blueprint.Entity.Expansion
import Blueprint.Module.Grammar
import Blueprint.Surface.Generated

/-!
# Compilation

Sources become an application: each is read as a module, the modules are linked, and the entities
are expanded. The first source that cannot be read is the one that is reported.
-/

namespace Blueprint

namespace Linked

/-- The entities with all that they do not spell out. -/
def expandedEntities (l : Linked) : List Entity := expandEntities l.symbols l.declarations.entities

/-- The application that linked modules make up. -/
def application (l : Linked) (options : CompileOptions) : Application :=
  let entities := l.expandedEntities
  let declared := l.declarations.surfaces
  let generated := if options.archetypeSurfaces then generateSurfaces entities declared else []
  { app := l.app
    modules := l.order
    declarations := l.declarations.withScreens entities (declared ++ generated)
    warnings := l.warnings }

end Linked

/-- The application that modules make up. -/
def compileModules (modules : List Module) (options : CompileOptions) :
    Except CompileError Application := do
  let linked ← linkModules modules
  if options.denyWarnings && !linked.warnings.isEmpty then throw (.denied linked.warnings)
  return linked.application options

/-- The modules that sources declare. -/
def parseSources (sources : List Source) : Except SyntaxError (List Module) :=
  sources.mapM fun s => parseModule s.path s.text

/-- The application that sources make up. -/
def compileSources (sources : List Source) (options : CompileOptions) :
    Except CompileError Application := do
  let modules ← (parseSources sources).mapError .source
  compileModules modules options

end Blueprint
