import Blueprint.Api.Basic
import Blueprint.Approval.Basic
import Blueprint.Entity.Basic
import Blueprint.Experience.Basic
import Blueprint.Flow.Basic
import Blueprint.Integration.Basic
import Blueprint.Ledger.Basic
import Blueprint.Persona.Basic
import Blueprint.Process.Basic
import Blueprint.Service.Basic
import Blueprint.Stream.Basic
import Blueprint.Test.Basic
import Blueprint.View.Basic
import Blueprint.Workspace.Basic

/-!
# Declarations

What a source text declares by name. `DeclKind` lists the kinds of declarations, and `DeclKind.Body`
is the type of what is declared. Names are unique within a kind: two kinds may share a name.

A `Declarations` holds, for each kind, what is declared of it, in order, and the three things that
an application has at most one of.
-/

namespace Blueprint

/-- The kinds of named declarations. -/
inductive DeclKind where
  | entity | archetype | enum | surface | workspace | experience | service | foreignModel
  | integration | test | flow | persona | scenario | story | llmModel | llmIntent | ledger
  | transaction | process | schedule | stream | api | dataProduct | approval | sla | webhook
  | view
  deriving DecidableEq

namespace DeclKind

/-- Every kind, in the order in which declarations are listed. -/
def all : List DeclKind :=
  [entity, archetype, enum, surface, workspace, experience, service, foreignModel, integration,
   test, flow, persona, scenario, story, llmModel, llmIntent, ledger, transaction, process,
   schedule, stream, api, dataProduct, approval, sla, webhook, view]

/-- What a declaration of the kind is called. -/
def label : DeclKind → String
  | entity => "entity"
  | archetype => "archetype"
  | enum => "enum"
  | surface => "surface"
  | workspace => "workspace"
  | experience => "experience"
  | service => "service"
  | foreignModel => "foreign_model"
  | integration => "integration"
  | test => "test"
  | flow => "flow"
  | persona => "persona"
  | scenario => "scenario"
  | story => "story"
  | llmModel => "llm_model"
  | llmIntent => "llm_intent"
  | ledger => "ledger"
  | transaction => "transaction"
  | process => "process"
  | schedule => "schedule"
  | stream => "stream"
  | api => "api"
  | dataProduct => "data_product"
  | approval => "approval"
  | sla => "sla"
  | webhook => "webhook"
  | view => "view"

/-- What a list of declarations of the kind is called. -/
def plural : DeclKind → String
  | entity => "entities"
  | archetype => "archetypes"
  | enum => "enums"
  | surface => "surfaces"
  | workspace => "workspaces"
  | experience => "experiences"
  | service => "services"
  | foreignModel => "foreign_models"
  | integration => "integrations"
  | test => "tests"
  | flow => "flows"
  | persona => "personas"
  | scenario => "scenarios"
  | story => "stories"
  | llmModel => "llm_models"
  | llmIntent => "llm_intents"
  | ledger => "ledgers"
  | transaction => "transactions"
  | process => "processes"
  | schedule => "schedules"
  | stream => "streams"
  | api => "apis"
  | dataProduct => "data_products"
  | approval => "approvals"
  | sla => "slas"
  | webhook => "webhooks"
  | view => "views"

/-- What is declared by a declaration of the kind. -/
def Body : DeclKind → Type
  | entity => Entity
  | archetype => Archetype
  | enum => EnumDecl
  | surface => Surface
  | workspace => Workspace
  | experience => Experience
  | service => Service
  | foreignModel => ForeignModel
  | integration => Integration
  | test => TestCase
  | flow => Flow
  | persona => Persona
  | scenario => Scenario
  | story => Story
  | llmModel => LlmModel
  | llmIntent => LlmIntent
  | ledger => Ledger
  | transaction => Transaction
  | process => Process
  | schedule => Schedule
  | stream => Stream
  | api => ApiInterface
  | dataProduct => DataProduct
  | approval => Approval
  | sla => Sla
  | webhook => Webhook
  | view => View

/-- The name of what is declared. -/
def name : (k : DeclKind) → k.Body → String
  | entity => Entity.name
  | archetype => Archetype.name
  | enum => EnumDecl.name
  | surface => Surface.name
  | workspace => Workspace.name
  | experience => Experience.name
  | service => Service.name
  | foreignModel => ForeignModel.name
  | integration => Integration.name
  | test => TestCase.name
  | flow => Flow.name
  | persona => Persona.name
  | scenario => Scenario.name
  | story => Story.name
  | llmModel => LlmModel.name
  | llmIntent => LlmIntent.name
  | ledger => Ledger.name
  | transaction => Transaction.name
  | process => Process.name
  | schedule => Schedule.name
  | stream => Stream.name
  | api => ApiInterface.name
  | dataProduct => DataProduct.name
  | approval => Approval.name
  | sla => Sla.name
  | webhook => Webhook.name
  | view => View.name

/-- The place of what is declared. -/
def location : (k : DeclKind) → k.Body → Location
  | entity => Entity.location
  | archetype => Archetype.location
  | enum => EnumDecl.location
  | surface => Surface.location
  | workspace => Workspace.location
  | experience => Experience.location
  | service => Service.location
  | foreignModel => ForeignModel.location
  | integration => Integration.location
  | test => TestCase.location
  | flow => Flow.location
  | persona => Persona.location
  | scenario => Scenario.location
  | story => Story.location
  | llmModel => LlmModel.location
  | llmIntent => LlmIntent.location
  | ledger => Ledger.location
  | transaction => Transaction.location
  | process => Process.location
  | schedule => Schedule.location
  | stream => Stream.location
  | api => ApiInterface.location
  | dataProduct => DataProduct.location
  | approval => Approval.location
  | sla => Sla.location
  | webhook => Webhook.location
  | view => View.location

end DeclKind

/-- A named declaration. -/
structure Declaration where
  kind : DeclKind
  body : kind.Body

namespace Declaration

def name (d : Declaration) : String := d.kind.name d.body

def location (d : Declaration) : Location := d.kind.location d.body

/-- What is declared, if the declaration is of the kind. -/
def bodyOf? (k : DeclKind) (d : Declaration) : Option k.Body :=
  if h : d.kind = k then some (h ▸ d.body) else none

end Declaration

/-- The declarations of a source text, or of a whole application. -/
structure Declarations where
  named : (k : DeclKind) → List k.Body
  llmConfig : Option LlmConfig := none
  policies : Option Policies := none
  tenancy : Option Tenancy := none

namespace Declarations

/-- No declarations. -/
def empty : Declarations := { named := fun _ => [] }

/-- The named declarations of a list, sorted by kind. -/
def ofList (l : List Declaration) : Declarations :=
  { named := fun k => l.filterMap (Declaration.bodyOf? k) }

/-- The named declarations of one kind. -/
def ofKind (d : Declarations) (k : DeclKind) : List Declaration :=
  (d.named k).map fun body => ⟨k, body⟩

/-- The named declarations, kind by kind. -/
def toList (d : Declarations) : List Declaration := DeclKind.all.flatMap d.ofKind

/-- The number of declarations. -/
def size (d : Declarations) : Nat :=
  d.toList.length + d.llmConfig.toList.length + d.policies.toList.length +
    d.tenancy.toList.length

/-- What is declared under a name. -/
def find? (d : Declarations) (k : DeclKind) (name : String) : Option k.Body :=
  (d.named k).find? fun body => k.name body == name

def entities (d : Declarations) : List Entity := d.named .entity

def surfaces (d : Declarations) : List Surface := d.named .surface

def processes (d : Declarations) : List Process := d.named .process

/-- The same declarations with other entities and surfaces. -/
def withScreens (d : Declarations) (entities : List Entity) (surfaces : List Surface) :
    Declarations :=
  { d with
    named := fun
      | .entity => entities
      | .surface => surfaces
      | k => d.named k }

end Declarations

end Blueprint
