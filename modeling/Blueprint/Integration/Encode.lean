import Blueprint.Entity.Encode
import Blueprint.Integration.Basic

/-!
# JSON form of integrations
-/

namespace Blueprint

open Json (field optional several tagged)

instance : Encode MappingRule where
  encode r := .obj (field "target" r.target ++ field "source" r.source)

instance : Encode ResponseMapping where
  encode r := .obj <|
    field "foreign_model" r.foreignModel ++ field "entity" r.entity ++ several "rules" r.rules

instance : Encode IntegrationAction where
  encode a := .obj <|
    field "name" a.name ++ optional "when_surface" a.whenSurface ++
      optional "when_event" a.whenEvent ++ field "call_service" a.call.service ++
      optional "call_operation" a.call.operation ++ several "mapping" a.mapping ++
      optional "response" a.response

instance : Encode SyncMode where
  encode
    | .scheduled cron => tagged "kind" "scheduled" (optional "cron" cron)
    | .eventDriven => tagged "kind" "event_driven" []

instance : Encode MatchRule where
  encode r := .obj (field "foreign_field" r.foreignField ++ field "entity_field" r.entityField)

instance : Encode IntegrationSync where
  encode s := .obj <|
    field "name" s.name ++ field "mode" s.mode ++ field "from_service" s.origin.service ++
      optional "from_operation" s.origin.operation ++
      optional "from_foreign_model" s.foreignModel ++ field "into_entity" s.entity ++
      several "match_rules" s.matchRules

instance : Encode Integration where
  encode i := .obj <|
    field "loc" i.location ++ field "name" i.name ++ optional "title" i.title ++
      several "services" i.services ++ several "foreign_models" i.foreignModels ++
      several "actions" i.actions ++ several "syncs" i.syncs

end Blueprint
