import Blueprint.Entity.Encode
import Blueprint.Persona.Basic

/-!
# JSON form of personas, scenarios and stories
-/

namespace Blueprint

open Json (field optional several)

instance : Encode Proficiency := ⟨fun p => .str p.spelling⟩

instance : Encode Persona where
  encode p := .obj <|
    field "loc" p.location ++ field "name" p.name ++ optional "title" p.title ++
      optional "description" p.description ++ several "goals" p.goals ++
      field "proficiency" p.proficiency ++ optional "default_workspace" p.defaultWorkspace ++
      optional "default_route" p.defaultRoute

instance : Encode ScenarioEntry where
  encode e := .obj <|
    field "persona" e.persona ++ optional "start_route" e.startRoute ++
      optional "seed_script" e.seedScript

instance : Encode Scenario where
  encode s := .obj <|
    field "loc" s.location ++ field "name" s.name ++ optional "title" s.title ++
      optional "description" s.description ++ optional "seed_script" s.seedScript ++
      several "persona_entries" s.entries

instance : Encode StoryTrigger := ⟨fun t => .str t.spelling⟩
instance : Encode StoryStatus := ⟨fun s => .str s.spelling⟩

instance : Encode UnlessClause where
  encode c := .obj (field "condition" c.condition ++ several "then_outcomes" c.outcomes)

instance : Encode Story where
  encode s := .obj <|
    field "loc" s.location ++ field "name" s.name ++ optional "title" s.title ++
      field "actor" s.actor ++ field "trigger" s.trigger ++ several "scope" s.scope ++
      several "given" s.given ++ several "when" s.when ++ several "then" s.then ++
      several "unless" s.exceptions ++ field "status" s.status

end Blueprint
