import Blueprint.Entity.Basic
import Blueprint.Fresh
import Blueprint.Module.Symbols
import Blueprint.Text.Case

/-!
# Expansion of entities

Entities get what they do not spell out, in three steps: the members of the archetypes that they
extend, what follows from their own archetype kind, and, if there is one tenant, a reference to it.
-/

namespace Blueprint

/-! ## Members of archetypes -/

/-- The names of all fields, computed or not. -/
def Members.names (m : Members) : List String :=
  m.fields.map (·.name) ++ m.computedFields.map (·.name)

theorem Members.declares_iff {m : Members} {n : String} : m.declares n = true ↔ n ∈ m.names := by
  unfold declares names
  simp

/-- The members of both. -/
def Members.append (m n : Members) : Members :=
  { fields := m.fields ++ n.fields
    computedFields := m.computedFields ++ n.computedFields
    invariants := m.invariants ++ n.invariants }

instance : Append Members := ⟨Members.append⟩

/-- The members with names that are not taken, fields before computed ones. -/
def Members.untaken (m : Members) (taken : List String) : Members :=
  let fields := freshlyNamed Field.name taken m.fields
  { m with
    fields
    computedFields :=
      freshlyNamed ComputedField.name (taken ++ fields.map Field.name) m.computedFields }

/-- What a list of archetypes adds to an entity: of each name, the first member that has it. -/
def inherited (taken : List String) : List Archetype → Members
  | [] => {}
  | a :: rest =>
    let new := a.untaken taken
    new ++ inherited (taken ++ new.names) rest

/-- The entity with the members of the archetypes before its own. -/
def Entity.inheriting (e : Entity) (archetypes : List Archetype) : Entity :=
  { e with toMembers := inherited e.names archetypes ++ e.toMembers }

/-! ## Archetype kinds -/

/-- The role that alone may reach settings, unless they have rules of their own. -/
def adminRole : String := "admin"

/-- The entity with what follows from its archetype kind. -/
def Entity.shaped (e : Entity) : Entity :=
  match e.archetypeKind with
  | some .settings | some .tenantSettings =>
    { e with isSingleton := true, access := e.access.or (some (.onlyRole adminRole)) }
  | some .tenant => { e with isTenantRoot := true }
  | some .user | some .userMembership | none => e

/-! ## Tenants -/

/-- Whether the entity never belongs to a tenant. -/
def Entity.isShared (e : Entity) : Bool :=
  match e.archetypeKind with
  | some .settings | some .user => true
  | _ => false

/-- The name of the field that refers to the tenant. -/
def tenantKey (tenant : String) : String := String.ofList (Text.decapitalize tenant.toList)

/-- The field that refers to the tenant. -/
def tenantField (tenant : String) : Field :=
  { name := tenantKey tenant
    fieldType := .relation { kind := .ref, target := tenant }
    modifiers := [.required] }

/-- The entity with a reference to the tenant, unless it has one, needs none or has another field of
that name. -/
def Entity.scopedTo (tenant : String) (e : Entity) : Entity :=
  if e.name == tenant || e.isShared || e.references.any (·.2 == tenant) ||
      e.declares (tenantKey tenant) then e
  else { e with fields := tenantField tenant :: e.fields }

/-- The entities with references to the tenant, if there is exactly one. -/
def scopeToTenant (entities : List Entity) : List Entity :=
  match entities.filter (·.isTenantRoot) with
  | [tenant] => entities.map (Entity.scopedTo tenant.name)
  | _ => entities

/-- The entities with all that they do not spell out. -/
def expandEntities (symbols : SymbolTable) (entities : List Entity) : List Entity :=
  scopeToTenant (entities.map fun e => (e.inheriting (symbols.archetypesOf e)).shaped)

end Blueprint
