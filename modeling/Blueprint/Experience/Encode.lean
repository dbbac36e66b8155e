import Blueprint.Entity.Encode
import Blueprint.Experience.Basic

/-!
# JSON form of experiences
-/

namespace Blueprint

open Json (field optional several)

instance : Encode StepKind := ⟨fun k => .str k.spelling⟩

instance : Encode StepTransition where
  encode t := .obj (field "event" t.event ++ field "next_step" t.nextStep)

instance : Encode ExperienceStep where
  encode s := .obj <|
    field "name" s.name ++ field "kind" s.kind ++ optional "surface" s.surface ++
      optional "process" s.process ++ optional "integration" s.integration ++
      optional "action" s.action ++ several "transitions" s.transitions

instance : Encode Experience where
  encode e := .obj <|
    field "loc" e.location ++ field "name" e.name ++ optional "title" e.title ++
      field "start_step" e.startStep ++ field "steps" e.steps

end Blueprint
