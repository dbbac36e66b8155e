import Blueprint.Module.Symbols

/-!
# References

A reference is a name that one declaration uses for another. `Declarations.references` finds all of
them; what they lead to is decided by a symbol table.
-/

namespace Blueprint

structure Reference where
  /-- The kind of what is meant. -/
  kind : DeclKind
  /-- Another kind that may be meant, if nothing of the first has the name. -/
  otherKind : Option DeclKind := none
  name : String
  location : Location
  /-- Who refers. -/
  context : String
  deriving DecidableEq

namespace Reference

/-- The kinds that may be meant, in order. -/
def kinds (r : Reference) : List DeclKind := r.kind :: r.otherKind.toList

/-- The first kind under which the name is declared. -/
def resolve? (r : Reference) (symbols : SymbolTable) : Option DeclKind :=
  r.kinds.find? fun k => symbols.contains k r.name

/-- The module that declares what the reference leads to. -/
def owner? (r : Reference) (symbols : SymbolTable) : Option String :=
  (r.resolve? symbols).bind fun k => symbols.owner? k r.name

end Reference

/-- How a declaration is called in a message. -/
def titled (kind : DeclKind) (name : String) : String := s!"{kind.label} '{name}'"

/-! ## Fields and steps -/

/-- What the type of a field refers to. -/
def Field.reference? (location : Location) (owner : String) (f : Field) : Option Reference :=
  let context := s!"{owner} field '{f.name}'"
  match f.fieldType with
  | .relation r => some { kind := .entity, name := r.target, location, context }
  | .enumRef name => some { kind := .enum, name, location, context }
  | _ => none

def fieldReferences (location : Location) (owner : String) (fields : List Field) :
    List Reference :=
  fields.filterMap (Field.reference? location owner)

/-- What a single step refers to. -/
def ProcessStep.reference? (location : Location) (owner : String) : ProcessStep → Option Reference
  | .single n task _ =>
    let context := s!"{owner} step '{n}'"
    match task with
    | .service name => some { kind := .service, name, location, context }
    | .humanTask t => some { kind := .surface, name := t.surface, location, context }
    | .subprocess name => some { kind := .process, name, location, context }
    | .waitFor _ => none
  | .parallel .. => none

def stepReferences (location : Location) (owner : String) (steps : List ProcessStep) :
    List Reference :=
  (ProcessStep.flattenAll steps).filterMap (ProcessStep.reference? location owner)

/-! ## Declarations -/

/-- References of one kind to an optional name. -/
def optionalReference (kind : DeclKind) (location : Location) (context : String)
    (name : Option String) : List Reference :=
  name.toList.map fun name => { kind, name, location, context }

/-- References of one kind to several names. -/
def listedReferences (kind : DeclKind) (location : Location) (context : String)
    (names : List String) : List Reference :=
  names.map fun name => { kind, name, location, context }

/-- A reference to what a workspace, a view or a data product shows: an entity or a view. -/
def sourceReference (location : Location) (context name : String) : Reference :=
  { kind := .entity, otherKind := some .view, name, location, context }

def Entity.declaredReferences (e : Entity) : List Reference :=
  let owner := titled .entity e.name
  fieldReferences e.location owner e.fields ++
    listedReferences .archetype e.location s!"{owner} extends" e.archetypes

def Archetype.declaredReferences (a : Archetype) : List Reference :=
  fieldReferences a.location (titled .archetype a.name) a.fields

/-- The kind of place that an action leads to. -/
def OutcomeKind.declKind : OutcomeKind → DeclKind
  | surface => .surface
  | experience => .experience
  | integration => .integration

def Surface.declaredReferences (s : Surface) : List Reference :=
  let owner := titled .surface s.name
  optionalReference .entity s.location owner s.entity ++
    s.actions.flatMap fun a => a.outcome.toList.map fun o =>
      { kind := o.kind.declKind, name := o.target, location := s.location,
        context := s!"{owner} action '{a.name}'" }

def Workspace.declaredReferences (w : Workspace) : List Reference :=
  w.regions.flatMap fun r =>
    let context := titled .workspace w.name ++ s!" region '{r.name}'"
    r.source.toList.map (sourceReference w.location context) ++
      optionalReference .surface w.location context r.action

def Experience.declaredReferences (e : Experience) : List Reference :=
  e.steps.flatMap fun s =>
    let context := titled .experience e.name ++ s!" step '{s.name}'"
    optionalReference .surface e.location context s.surface ++
      optionalReference .process e.location context s.process ++
      optionalReference .integration e.location context s.integration

def Service.declaredReferences (s : Service) : List Reference :=
  fieldReferences s.location (titled .service s.name) s.fields

def ForeignModel.declaredReferences (m : ForeignModel) : List Reference :=
  [{ kind := .service, name := m.service, location := m.location,
     context := titled .foreignModel m.name }]

/-- What an action of an integration refers to. -/
def IntegrationAction.references (location : Location) (owner : String) (a : IntegrationAction) :
    List Reference :=
  let context := s!"{owner} action '{a.name}'"
  optionalReference .surface location context a.whenSurface ++
    listedReferences .service location context [a.call.service] ++
    a.response.toList.flatMap fun r =>
      [{ kind := .foreignModel, name := r.foreignModel, location, context },
       { kind := .entity, name := r.entity, location, context }]

/-- What a sync of an integration refers to. -/
def IntegrationSync.references (location : Location) (owner : String) (s : IntegrationSync) :
    List Reference :=
  let context := s!"{owner} sync '{s.name}'"
  listedReferences .service location context [s.origin.service] ++
    optionalReference .foreignModel location context s.foreignModel ++
    listedReferences .entity location context [s.entity]

def Integration.declaredReferences (i : Integration) : List Reference :=
  let owner := titled .integration i.name
  listedReferences .service i.location owner i.services ++
    listedReferences .foreignModel i.location owner i.foreignModels ++
    i.actions.flatMap (IntegrationAction.references i.location owner) ++
    i.syncs.flatMap (IntegrationSync.references i.location owner)

def TestCase.declaredReferences (t : TestCase) : List Reference :=
  let owner := titled .test t.name
  (t.setup.map fun s =>
    { kind := .entity, name := s.entity, location := t.location,
      context := s!"{owner} setup '{s.binding}'" }) ++
    listedReferences .entity t.location s!"{owner} action" [t.action.entity]

def Persona.declaredReferences (p : Persona) : List Reference :=
  optionalReference .workspace p.location (titled .persona p.name ++ " default_workspace")
    p.defaultWorkspace

def Scenario.declaredReferences (s : Scenario) : List Reference :=
  listedReferences .persona s.location (titled .scenario s.name) (s.entries.map (·.persona))

def Story.declaredReferences (s : Story) : List Reference :=
  let owner := titled .story s.name
  listedReferences .persona s.location s!"{owner} actor" [s.actor] ++
    listedReferences .entity s.location s!"{owner} scope" s.scope

def LlmIntent.declaredReferences (i : LlmIntent) : List Reference :=
  let owner := titled .llmIntent i.name
  optionalReference .llmModel i.location owner i.model ++
    optionalReference .entity i.location s!"{owner} output_schema" i.outputSchema

def LlmConfig.declaredReferences (c : LlmConfig) : List Reference :=
  optionalReference .llmModel c.location "llm_config default_model" c.defaultModel ++
    listedReferences .llmModel c.location "llm_config rate_limits" (c.rateLimits.map (·.model))

def Ledger.declaredReferences (l : Ledger) : List Reference :=
  optionalReference .entity l.location (titled .ledger l.name ++ " sync_to")
    (l.syncTo.map (·.entity))

def Transaction.declaredReferences (t : Transaction) : List Reference :=
  t.transfers.flatMap fun r =>
    listedReferences .ledger t.location (titled .transaction t.name ++ s!" transfer '{r.name}'")
      [r.debit, r.credit]

/-- The entity whose events start a process. -/
def ProcessTrigger.entity? : ProcessTrigger → Option String
  | entity name _ => some name
  | _ => none

def Process.declaredReferences (p : Process) : List Reference :=
  let owner := titled .process p.name
  listedReferences .story p.location s!"{owner} implements" p.stories ++
    optionalReference .entity p.location s!"{owner} trigger" p.trigger.entity? ++
    fieldReferences p.location owner (p.inputs ++ p.outputs) ++
    stepReferences p.location owner p.steps ++
    p.compensations.map fun c =>
      { kind := .service, name := c.service, location := p.location,
        context := s!"{owner} compensation '{c.name}'" }

def Schedule.declaredReferences (s : Schedule) : List Reference :=
  stepReferences s.location (titled .schedule s.name) s.steps

def Stream.declaredReferences (s : Stream) : List Reference :=
  listedReferences .stream s.location (titled .stream s.name ++ " derives_from") s.derivesFrom

def Policies.declaredReferences (p : Policies) : List Reference :=
  listedReferences .entity p.location "policies classify" (p.classifications.map (·.entity)) ++
    listedReferences .entity p.location "policies erasure" (p.erasures.map (·.entity))

def ApiInterface.declaredReferences (a : ApiInterface) : List Reference :=
  listedReferences .entity a.location (titled .api a.name ++ " expose") (a.exposes.map (·.entity))

def DataProduct.declaredReferences (p : DataProduct) : List Reference :=
  p.sources.map (sourceReference p.location (titled .dataProduct p.name ++ " source"))

def View.declaredReferences (v : View) : List Reference :=
  [sourceReference v.location (titled .view v.name ++ " source") v.source]

/-- The references that a declaration makes. -/
def DeclKind.references : (k : DeclKind) → k.Body → List Reference
  | .entity => Entity.declaredReferences
  | .archetype => Archetype.declaredReferences
  | .surface => Surface.declaredReferences
  | .workspace => Workspace.declaredReferences
  | .experience => Experience.declaredReferences
  | .service => Service.declaredReferences
  | .foreignModel => ForeignModel.declaredReferences
  | .integration => Integration.declaredReferences
  | .test => TestCase.declaredReferences
  | .persona => Persona.declaredReferences
  | .scenario => Scenario.declaredReferences
  | .story => Story.declaredReferences
  | .llmIntent => LlmIntent.declaredReferences
  | .ledger => Ledger.declaredReferences
  | .transaction => Transaction.declaredReferences
  | .process => Process.declaredReferences
  | .schedule => Schedule.declaredReferences
  | .stream => Stream.declaredReferences
  | .api => ApiInterface.declaredReferences
  | .dataProduct => DataProduct.declaredReferences
  | .approval => fun (a : Approval) =>
    listedReferences .entity a.location (titled .approval a.name) [a.entity]
  | .sla => fun (s : Sla) => listedReferences .entity s.location (titled .sla s.name) [s.entity]
  | .webhook => fun (w : Webhook) =>
    listedReferences .entity w.location (titled .webhook w.name) [w.entity]
  | .view => View.declaredReferences
  | .enum | .flow | .llmModel => fun _ => []

/-- The references of what an application declares once, at their place among those of named
declarations: those of the language model settings follow the intents, those of the policies the
streams. -/
def Declarations.singleReferences (d : Declarations) : DeclKind → List Reference
  | .llmIntent => d.llmConfig.toList.flatMap LlmConfig.declaredReferences
  | .stream => d.policies.toList.flatMap Policies.declaredReferences
  | _ => []

/-- Every reference, kind by kind. -/
def Declarations.references (d : Declarations) : List Reference :=
  DeclKind.all.flatMap fun k => (d.named k).flatMap k.references ++ d.singleReferences k

end Blueprint
