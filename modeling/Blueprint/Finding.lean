import Blueprint.Declaration.Basic

/-!
# Findings

Linking looks at all modules of an application at once and reports everything it finds of one sort
together. A `Finding` is a fault and, where it has one, its place. `LinkError` holds what is wrong
between modules, `ReferenceError` the references that lead nowhere.
-/

namespace Blueprint

/-- A fault and its place. -/
structure Finding (α : Type) where
  location : Option Location := none
  fault : α

/-! ## Faults between modules -/

/-- What a file can declare once, and an application too. -/
inductive Singleton where
  | llmConfig | policies | tenancy
  deriving DecidableEq

def Singleton.label : Singleton → String
  | llmConfig => "llm_config"
  | policies => "policies"
  | tenancy => "tenancy"

inductive LinkCategory where
  | missingDependency | circularDependency | duplicateSymbol | visibility
  deriving DecidableEq

def LinkCategory.label : LinkCategory → String
  | missingDependency => "missing module dependency"
  | circularDependency => "circular module dependency"
  | duplicateSymbol => "duplicate definition"
  | visibility => "module visibility violation"

/-- What is wrong between modules. -/
inductive LinkFault where
  | moduleTwice (name firstFile file : String)
  | undefinedModule (name used : String)
  | circularModules (names : List String)
  | appTwice (name module firstName firstModule : String)
  | declaredTwice (kind : DeclKind) (name owner module : String)
  | singletonTwice (what : Singleton) (owner module : String)
  | notImported (context : String) (kind : DeclKind) (name owner module : String)

namespace LinkFault

def message : LinkFault → String
  | moduleTwice name firstFile file =>
    s!"module '{name}' is defined in both '{firstFile}' and '{file}'"
  | undefinedModule name used =>
    s!"module '{name}' depends on '{used}', but '{used}' is not defined"
  | circularModules names =>
    "circular dependency between modules: " ++ ", ".intercalate names
  | appTwice name module firstName firstModule =>
    s!"app '{name}' in module '{module}' conflicts with app '{firstName}' declared in module " ++
      s!"'{firstModule}'"
  | declaredTwice kind name owner module =>
    if owner == module then s!"duplicate {kind.label} '{name}' in module '{module}'"
    else
      s!"duplicate {kind.label} '{name}': defined in module '{owner}' and module '{module}'"
  | singletonTwice what owner module =>
    s!"{what.label} is declared in module '{owner}' and again in module '{module}'"
  | notImported context kind name owner module =>
    s!"{context} references {kind.label} '{name}' from module '{owner}', which module " ++
      s!"'{module}' does not import"

/-- What to do about it. -/
def hint? : LinkFault → Option String
  | circularModules _ => some "remove one of the 'use' lines to break the cycle"
  | appTwice .. => some "only one module may declare the app"
  | singletonTwice what _ _ => some s!"only one {what.label} may exist per application"
  | notImported _ _ _ owner _ => some s!"add: use {owner}"
  | _ => none

end LinkFault

/-- Everything of one category that is wrong between modules. -/
structure LinkError where
  category : LinkCategory
  findings : List (Finding LinkFault)

/-! ## Faults of references -/

/-- Why a reference leads nowhere. -/
inductive ReferenceFault where
  | unknownName (context : String) (kind : DeclKind) (name : String)
  | unknownField (context field entity : String)
  | unknownAction (context action integration : String)
  | unknownStart (experience step : String)
  | unknownNext (experience step event next : String)
  | noModel (intent : String)

def ReferenceFault.message : ReferenceFault → String
  | unknownName context kind name => s!"{context} references unknown {kind.label} '{name}'"
  | unknownField context field entity =>
    s!"{context} references unknown field '{field}' of entity '{entity}'"
  | unknownAction context action integration =>
    s!"{context} references unknown action '{action}' of integration '{integration}'"
  | unknownStart experience step =>
    s!"experience '{experience}' starts at unknown step '{step}'"
  | unknownNext experience step event next =>
    s!"experience '{experience}' step '{step}' transitions on '{event}' to unknown step '{next}'"
  | noModel intent =>
    s!"llm_intent '{intent}' has no model, no default_model is configured and no llm_model is " ++
      "declared"

/-- Every reference that leads nowhere. -/
structure ReferenceError where
  findings : List (Finding ReferenceFault)

/-! ## Wording -/

/-- A message with the place before it, if there is one. -/
def placed (location : Option Location) (message : String) : String :=
  match location with
  | some l => l.render ++ ": " ++ message
  | none => message

/-- Lines under a heading. -/
def itemized (heading : String) (items : List String) : String :=
  "\n".intercalate (heading :: items.map ("  - " ++ ·))

/-- A message with a hint behind it, if there is one. -/
def hinted (message : String) (hint : Option String) : String :=
  match hint with
  | some h => message ++ " (" ++ h ++ ")"
  | none => message

def LinkError.render (e : LinkError) : String :=
  itemized s!"link error ({e.category.label}):" <|
    e.findings.map fun f => hinted (placed f.location f.fault.message) f.fault.hint?

def ReferenceError.render (e : ReferenceError) : String :=
  itemized "validation failed:" (e.findings.map fun f => placed f.location f.fault.message)

/-! ## Warnings -/

inductive WarningKind where
  | unusedImport | entityCycle
  deriving DecidableEq

/-- A finding that does not stop anything. -/
structure Warning where
  kind : WarningKind
  message : String
  location : Option Location := none
  deriving DecidableEq

def Warning.render (w : Warning) : String := placed w.location ("warning: " ++ w.message)

end Blueprint
