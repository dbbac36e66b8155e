import Blueprint.Approval.Basic
import Blueprint.Entity.Encode

/-!
# JSON form of approvals and service levels
-/

namespace Blueprint

open Json (field optional several)

instance : Encode TimeoutAction := ⟨fun a => .str a.spelling⟩

instance : Encode ApprovalOutcome where
  encode o := .obj (field "decision" o.decision ++ field "target_state" o.targetState)

instance : Encode Approval where
  encode a := .obj <|
    field "loc" a.location ++ field "name" a.name ++ optional "title" a.title ++
      field "entity" a.entity ++ optional "trigger" a.trigger ++
      field "approver_role" a.approverRole ++ field "quorum" a.quorum ++
      optional "timeout" a.timeout ++ optional "on_timeout" a.onTimeout ++
      optional "escalation_role" a.escalationRole ++ several "outcomes" a.outcomes

instance : Encode SlaTier where
  encode t := .obj (field "name" t.name ++ field "duration" t.duration)

instance : Encode FieldAssignment where
  encode a := .obj (field "field" a.field ++ field "value" a.value)

instance : Encode BreachAction where
  encode a := .obj (optional "notify" a.notify ++ several "set" a.assignments)

instance : Encode Sla where
  encode s := .obj <|
    field "loc" s.location ++ field "name" s.name ++ optional "title" s.title ++
      field "entity" s.entity ++ field "starts_when" s.startsWhen ++
      optional "pauses_when" s.pausesWhen ++ field "completes_when" s.completesWhen ++
      field "tiers" s.tiers ++ optional "business_hours" s.businessHours ++
      optional "on_breach" s.onBreach

end Blueprint
