import Blueprint.Entity.Access
import Blueprint.Entity.StateMachine
import Blueprint.Location

/-!
# Entities

An `Entity` is a kind of record of the application, an `Archetype` a bundle of members that entities
share by extending it, and an `EnumDecl` an enum with a name of its own.
-/

namespace Blueprint

/-- The role of an entity in the structure of the application. -/
inductive ArchetypeKind where
  | settings | tenant | tenantSettings | user | userMembership
  deriving DecidableEq

namespace ArchetypeKind

def all : List ArchetypeKind := [settings, tenant, tenantSettings, user, userMembership]

def spelling : ArchetypeKind → String
  | settings => "settings"
  | tenant => "tenant"
  | tenantSettings => "tenant_settings"
  | user => "user"
  | userMembership => "user_membership"

end ArchetypeKind

/-- What entities and archetypes hold. -/
structure Members where
  fields : List Field := []
  computedFields : List ComputedField := []
  invariants : List InvariantRule := []
  deriving DecidableEq

namespace Members

/-- Whether a field, computed or not, has the name. -/
def declares (m : Members) (name : String) : Bool :=
  m.fields.any (·.name == name) || m.computedFields.any (·.name == name)

end Members

structure Entity extends Members where
  location : Location
  name : String
  title : Option String := none
  intent : Option String := none
  domain : Option String := none
  patterns : List String := []
  constraints : List Constraint := []
  access : Option Access := none
  stateMachine : Option StateMachine := none
  archetypeKind : Option ArchetypeKind := none
  /-- The archetypes whose members the entity takes over. -/
  archetypes : List String := []
  isTenantRoot : Bool := false
  isSingleton : Bool := false
  softDelete : Bool := false
  displayField : Option String := none

namespace Entity

def primaryKey? (e : Entity) : Option Field := e.fields.find? (·.hasModifier .pk)

/-- The fields that store a key of another entity, with that entity. -/
def references (e : Entity) : List (Field × String) :=
  e.fields.filterMap fun f => f.referenceTarget?.map fun t => (f, t)

theorem mem_references_iff {e : Entity} {entity : String} :
    entity ∈ e.references.map (·.2) ↔ ∃ f ∈ e.fields, f.RefersTo entity := by
  unfold references
  simp [← Field.referenceTarget?_eq_some_iff]

end Entity

structure Archetype extends Members where
  location : Location
  name : String

structure EnumValue where
  name : String
  label : Option String := none
  deriving DecidableEq

structure EnumDecl where
  location : Location
  name : String
  title : Option String := none
  values : List EnumValue
  deriving DecidableEq

def EnumDecl.valueNames (e : EnumDecl) : List String := e.values.map (·.name)

end Blueprint
