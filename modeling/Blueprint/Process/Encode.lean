import Blueprint.Entity.Encode
import Blueprint.Llm.Encode
import Blueprint.Process.Basic

/-!
# JSON form of processes and schedules
-/

namespace Blueprint

open Json (field optional several tagged)

instance : Encode EntityEvent where
  encode
    | .created => tagged "kind" "created" []
    | .updated => tagged "kind" "updated" []
    | .deleted => tagged "kind" "deleted" []
    | .statusChanged origin target =>
      tagged "kind" "status_changed" (optional "from" origin ++ field "to" target)

instance : Encode ProcessTrigger where
  encode
    | .entity e event => tagged "kind" "entity" (field "entity" e ++ field "event" event)
    | .signal name => tagged "kind" "signal" (field "name" name)
    | .manual => tagged "kind" "manual" []

instance : Encode TaskOutcome where
  encode o := .obj (field "name" o.name ++ field "next" o.next)

/-- The members of a task, which stand in the record of its step. -/
def HumanTask.members (t : HumanTask) : List (String × Json) :=
  field "surface" t.surface ++ optional "assignee_role" t.assigneeRole ++
    several "outcomes" t.outcomes

instance : Encode StepTask where
  encode
    | .service s => tagged "kind" "service" (field "service" s)
    | .waitFor signal => tagged "kind" "wait_for" (field "signal" signal)
    | .humanTask task => tagged "kind" "human_task" task.members
    | .subprocess p => tagged "kind" "subprocess" (field "process" p)

def StepOptions.members (o : StepOptions) : List (String × Json) :=
  optional "condition" o.condition ++ optional "timeout" o.timeout ++ optional "retry" o.retry ++
    optional "on_success" o.onSuccess ++ optional "on_failure" o.onFailure ++
    optional "on_timeout" o.onTimeout

mutual

def ProcessStep.toJson : ProcessStep → Json
  | .single n task options => .obj (field "name" n ++ field "kind" task ++ options.members)
  | .parallel n branches options =>
    .obj <| field "name" n ++
      field "kind" (tagged "kind" "parallel" [("steps", .arr (ProcessStep.listToJson branches))]) ++
      options.members

def ProcessStep.listToJson : List ProcessStep → List Json
  | [] => []
  | s :: rest => s.toJson :: ProcessStep.listToJson rest

end

instance : Encode ProcessStep := ⟨ProcessStep.toJson⟩

instance : Encode Compensation where
  encode c := .obj (field "name" c.name ++ field "service" c.service)

instance : Encode OverlapPolicy := ⟨fun p => .str p.spelling⟩

instance : Encode Process where
  encode p := .obj <|
    field "loc" p.location ++ field "name" p.name ++ optional "title" p.title ++
      several "implements" p.stories ++ field "trigger" p.trigger ++ several "inputs" p.inputs ++
      several "outputs" p.outputs ++ field "steps" p.steps ++
      several "compensations" p.compensations ++ optional "timeout" p.timeout ++
      field "overlap" p.overlap

instance : Encode ScheduleTiming where
  encode
    | .cron expression => tagged "kind" "cron" (field "expression" expression)
    | .interval every => tagged "kind" "interval" (field "every" every)

instance : Encode Schedule where
  encode s := .obj <|
    field "loc" s.location ++ field "name" s.name ++ optional "title" s.title ++
      field "timing" s.timing ++ optional "timezone" s.timezone ++ field "catch_up" s.catchUp ++
      field "overlap" s.overlap ++ field "steps" s.steps

end Blueprint
