import Blueprint.Application.Basic
import Blueprint.Entity.Cycle
import Blueprint.Module.Order
import Blueprint.Reference.Validation
import Blueprint.Reference.Visibility

/-!
# Linking

The modules of an application are put in order, their declarations brought together, and their
references checked. Whatever is wrong between modules is reported before references that lead
nowhere.
-/

namespace Blueprint

/-- Modules whose references all lead somewhere. -/
structure Linked where
  /-- The names of the modules, each behind those it uses. -/
  order : List String
  symbols : SymbolTable
  app : Option App
  warnings : List Warning

/-- The declarations of all modules. -/
def Linked.declarations (l : Linked) : Declarations := l.symbols.declarations

/-- The modules, linked. -/
def linkModules (modules : List Module) : Except CompileError Linked := do
  let ordered ← (orderModules modules).mapError .link
  let symbols ← (SymbolTable.of? ordered).mapError .link
  let app ← (declaredApp? ordered).mapError .link
  (checkVisibility ordered symbols).mapError .link
  (validateReferences symbols symbols.declarations).mapError .reference
  let warnings := unusedImports ordered symbols ++ cycleWarnings symbols.declarations.entities
  return { order := ordered.map (·.name), symbols, app, warnings }

end Blueprint
