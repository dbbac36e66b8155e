import Blueprint.Entity.Encode
import Blueprint.Surface.Basic

/-!
# JSON form of surfaces
-/

namespace Blueprint

open Json (field optional several tagged)

instance : Encode SurfaceMode := ⟨fun m => .str m.spelling⟩

instance : Encode SurfaceElement where
  encode e := .obj (field "field_name" e.fieldName ++ optional "label" e.label)

instance : Encode SurfaceSection where
  encode s := .obj <|
    field "name" s.name ++ optional "title" s.title ++ field "elements" s.elements

instance : Encode OutcomeKind := ⟨fun k => .str k.spelling⟩

instance : Encode Outcome where
  encode o := .obj <|
    field "kind" o.kind ++ field "target" o.target ++ optional "action" o.action

instance : Encode SurfaceAction where
  encode a := .obj <|
    field "name" a.name ++ optional "label" a.label ++ field "trigger" a.trigger ++
      optional "outcome" a.outcome

instance : Encode SortKey where
  encode k := .obj (field "field" k.field ++ field "descending" k.descending)

instance : Encode AttentionLevel := ⟨fun l => .str l.spelling⟩

instance : Encode AttentionSignal where
  encode s := .obj <|
    field "level" s.level ++ field "condition" s.condition ++ field "message" s.message ++
      optional "action" s.action

instance : Encode PersonaScope where
  encode
    | .all => tagged "kind" "all" []
    | .filter c => tagged "kind" "filter" (field "filter" c)

instance : Encode PersonaVariant where
  encode v := .obj <|
    field "persona" v.persona ++ optional "scope" v.scope ++ several "hide" v.hide ++
      several "show" v.shown ++ several "show_aggregate" v.showAggregate ++
      optional "action_primary" v.actionPrimary ++ field "read_only" v.readOnly

instance : Encode Presentation where
  encode p := .obj <|
    optional "purpose" p.purpose ++ several "sort" p.sort ++ several "filter" p.filter ++
      several "search" p.search ++ optional "empty_message" p.emptyMessage ++
      several "attention_signals" p.attentionSignals ++
      several "persona_variants" p.personaVariants

instance : Encode SurfaceAccess where
  encode a := .obj <|
    field "require_auth" a.requireAuth ++ several "allow_personas" a.allowPersonas ++
      several "deny_personas" a.denyPersonas

instance : Encode Surface where
  encode s := .obj <|
    field "loc" s.location ++ field "name" s.name ++ optional "title" s.title ++
      optional "entity_ref" s.entity ++ field "mode" s.mode ++ several "sections" s.sections ++
      several "actions" s.actions ++ optional "ux" s.presentation ++ optional "access" s.access

end Blueprint
