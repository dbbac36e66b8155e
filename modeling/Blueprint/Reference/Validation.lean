import Blueprint.Reference.Basic

/-!
# Validation

Every reference has to lead to a declaration, and every field, action and step that is named has to
exist. Fields are looked for on the entity as it will be, with the members of the archetypes that it
extends.
-/

namespace Blueprint

/-- Whether the entity has the field, by itself or by an archetype. -/
def SymbolTable.hasField (t : SymbolTable) (e : Entity) (field : String) : Bool :=
  e.declares field || (t.archetypesOf e).any (·.declares field)

/-- Findings about the fields that the entity does not have. There are none if it is not
declared. -/
def unknownFields (symbols : SymbolTable) (location : Location) (context entity : String)
    (fields : List String) : List (Finding ReferenceFault) :=
  match symbols.find? .entity entity with
  | none => []
  | some (e : Entity) =>
    (fields.filter fun f => !symbols.hasField e f).map fun f =>
      ⟨some location, .unknownField context f entity⟩

/-- Findings about references that lead nowhere. -/
def unknownNames (symbols : SymbolTable) (d : Declarations) : List (Finding ReferenceFault) :=
  (d.references.filter fun r => (r.resolve? symbols).isNone).map fun r =>
    ⟨some r.location, .unknownName r.context r.kind r.name⟩

def Entity.findings (symbols : SymbolTable) (e : Entity) : List (Finding ReferenceFault) :=
  let owner := titled .entity e.name
  (e.constraints.flatMap fun c =>
    unknownFields symbols e.location s!"{owner} constraint" e.name c.fields) ++
    unknownFields symbols e.location s!"{owner} display_field" e.name e.displayField.toList

/-- The fields by which records are sorted, filtered and searched. -/
def Presentation.fieldNames (p : Presentation) : List String :=
  p.sort.map (·.field) ++ p.filter ++ p.search

/-- The finding about an action that leads to an unknown action of an integration. -/
def SurfaceAction.finding? (symbols : SymbolTable) (s : Surface) (a : SurfaceAction) :
    Option (Finding ReferenceFault) := do
  let o ← a.outcome
  if o.kind ≠ .integration then none
  let wanted ← o.action
  let i : Integration ← symbols.find? .integration o.target
  if i.actions.any (·.name == wanted) then none
  else some ⟨some s.location,
    .unknownAction (titled .surface s.name ++ s!" action '{a.name}'") wanted o.target⟩

def Surface.findings (symbols : SymbolTable) (s : Surface) : List (Finding ReferenceFault) :=
  let owner := titled .surface s.name
  (s.entity.toList.flatMap fun e =>
    unknownFields symbols s.location owner e s.fieldNames ++
      s.presentation.toList.flatMap fun p =>
        unknownFields symbols s.location s!"{owner} ux" e p.fieldNames) ++
    s.actions.filterMap (SurfaceAction.finding? symbols s)

/-- Whether the experience has the step. -/
def Experience.hasStep (e : Experience) (name : String) : Bool := e.steps.any (·.name == name)

def Experience.findings (e : Experience) : List (Finding ReferenceFault) :=
  (if e.hasStep e.startStep then []
    else [⟨some e.location, .unknownStart e.name e.startStep⟩]) ++
    e.steps.flatMap fun s =>
      (s.transitions.filter fun t => !e.hasStep t.nextStep).map fun t =>
        ⟨some e.location, .unknownNext e.name s.name t.event t.nextStep⟩

def Policies.findings (symbols : SymbolTable) (p : Policies) : List (Finding ReferenceFault) :=
  p.classifications.flatMap fun c =>
    unknownFields symbols p.location "policies classify" c.entity [c.field]

def Ledger.findings (symbols : SymbolTable) (l : Ledger) : List (Finding ReferenceFault) :=
  l.syncTo.toList.flatMap fun t =>
    unknownFields symbols l.location (titled .ledger l.name ++ " sync_to") t.entity [t.field]

/-- Findings about intents that have no model to run on: neither their own, nor a default one, nor
any that is declared. -/
def intentFindings (d : Declarations) : List (Finding ReferenceFault) :=
  let models : List LlmModel := d.named .llmModel
  let intents : List LlmIntent := d.named .llmIntent
  if (d.llmConfig.bind (·.defaultModel)).isSome || !models.isEmpty then []
  else (intents.filter (·.model.isNone)).map fun i => ⟨some i.location, .noModel i.name⟩

/-- Everything that is wrong with the references of an application. -/
def referenceFindings (symbols : SymbolTable) (d : Declarations) :
    List (Finding ReferenceFault) :=
  let experiences : List Experience := d.named .experience
  let ledgers : List Ledger := d.named .ledger
  unknownNames symbols d ++ d.entities.flatMap (Entity.findings symbols) ++
    d.surfaces.flatMap (Surface.findings symbols) ++ experiences.flatMap Experience.findings ++
    d.policies.toList.flatMap (Policies.findings symbols) ++
    ledgers.flatMap (Ledger.findings symbols) ++ intentFindings d

/-- Accepts declarations whose references all lead somewhere. -/
def validateReferences (symbols : SymbolTable) (d : Declarations) : Except ReferenceError Unit :=
  let findings := referenceFindings symbols d
  if findings.isEmpty then .ok () else .error ⟨findings⟩

end Blueprint
