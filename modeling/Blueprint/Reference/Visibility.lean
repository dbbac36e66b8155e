import Blueprint.Reference.Basic

/-!
# Visibility

A module may refer to its own declarations and to those of the modules it uses. References that lead
nowhere are no matter of visibility.
-/

namespace Blueprint

/-- The finding about a reference of a module to a declaration it may not refer to. -/
def Module.violation? (m : Module) (symbols : SymbolTable) (r : Reference) :
    Option (Finding LinkFault) := do
  let kind ← r.resolve? symbols
  let owner ← symbols.owner? kind r.name
  if m.sees owner then none
  else some ⟨some r.location, .notImported r.context kind r.name owner m.name⟩

/-- Accepts modules that refer only to what they may refer to. -/
def checkVisibility (modules : List Module) (symbols : SymbolTable) : Except LinkError Unit :=
  let violations := modules.flatMap fun m =>
    m.declarations.references.filterMap (m.violation? symbols)
  if violations.isEmpty then .ok () else .error ⟨.visibility, violations⟩

/-- Whether a declaration of the other module is referred to. -/
def Module.refersTo (m : Module) (symbols : SymbolTable) (other : String) : Bool :=
  m.declarations.references.any fun r => r.owner? symbols == some other

def unusedImportWarning (m : Module) (used : String) : Warning :=
  { kind := .unusedImport
    message := s!"module '{m.name}' imports '{used}' but never references it" }

/-- Warnings about used modules that are not referred to. -/
def unusedImports (modules : List Module) (symbols : SymbolTable) : List Warning :=
  modules.flatMap fun m =>
    (m.uses.filter fun used => used != m.name && !m.refersTo symbols used).map
      (unusedImportWarning m)

end Blueprint
