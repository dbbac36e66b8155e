import Blueprint.Entity.Basic
import Blueprint.Field.Encode

/-!
# JSON form of entities
-/

namespace Blueprint

open Json (field optional several tagged)

instance : Encode Location where
  encode l := .obj <|
    field "file" l.file ++ field "line" l.line ++ field "column" l.column ++
      optional "module" l.inModule

instance : Encode TransitionGuard where
  encode
    | .requiresField name => tagged "kind" "requires_field" (field "field" name)
    | .role r => tagged "kind" "role" (field "role" r)
    | .expression expr message =>
      tagged "kind" "expression" (field "expr" expr ++ optional "message" message)

instance : Encode AutoTransition where
  encode a := .obj (field "after" a.after ++ field "or_manual" a.orManual)

instance : Encode TransitionTrigger := ⟨fun t => .str t.spelling⟩

instance : Encode Transition where
  encode t := .obj <|
    field "from_state" t.fromState ++ field "to_state" t.toState ++ field "trigger" t.trigger ++
      several "guards" t.guards ++ optional "auto" t.auto

instance : Encode StateMachine where
  encode m := .obj <|
    field "status_field" m.statusField ++ field "states" m.states ++
      field "transitions" m.transitions

instance : Encode AccessOperation := ⟨fun o => .str o.spelling⟩
instance : Encode PolicyEffect := ⟨fun e => .str e.spelling⟩

instance : Encode AccessRule where
  encode r := .obj <|
    field "operation" r.operation ++ field "effect" r.effect ++ field "condition" r.condition

instance : Encode Access where
  encode a := .obj (field "rules" a.rules)

instance : Encode ArchetypeKind := ⟨fun k => .str k.spelling⟩

/-- The members of an entity or archetype, which stand in its record. -/
def Members.members (m : Members) : List (String × Json) :=
  field "fields" m.fields ++ several "computed_fields" m.computedFields ++
    several "invariants" m.invariants

instance : Encode Entity where
  encode e := .obj <|
    field "loc" e.location ++ field "name" e.name ++ optional "title" e.title ++
      optional "intent" e.intent ++ optional "domain" e.domain ++ several "patterns" e.patterns ++
      e.members ++ several "constraints" e.constraints ++ optional "access" e.access ++
      optional "state_machine" e.stateMachine ++ optional "archetype_kind" e.archetypeKind ++
      several "extends" e.archetypes ++ field "is_tenant_root" e.isTenantRoot ++
      field "is_singleton" e.isSingleton ++ field "soft_delete" e.softDelete ++
      optional "display_field" e.displayField

instance : Encode Archetype where
  encode a := .obj (field "loc" a.location ++ field "name" a.name ++ a.members)

instance : Encode EnumValue where
  encode v := .obj (field "name" v.name ++ optional "label" v.label)

instance : Encode EnumDecl where
  encode e := .obj <|
    field "loc" e.location ++ field "name" e.name ++ optional "title" e.title ++
      field "values" e.values

end Blueprint
