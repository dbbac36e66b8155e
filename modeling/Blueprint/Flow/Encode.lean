import Blueprint.Entity.Encode
import Blueprint.Flow.Basic

/-!
# JSON form of flows
-/

namespace Blueprint

open Json (field optional several tagged)

instance : Encode FlowPriority := ⟨fun p => .str p.spelling⟩

instance : Encode FlowPreconditions where
  encode p := .obj <|
    optional "user_role" p.userRole ++ several "fixtures" p.fixtures ++
      field "authenticated" p.authenticated ++ optional "view" p.view

instance : Encode FlowStep where
  encode
    | .navigate target => tagged "action" "navigate" (field "target" target)
    | .click target => tagged "action" "click" (field "target" target)
    | .fill name value => tagged "action" "fill" (field "field" name ++ field "value" value)
    | .wait d => tagged "action" "wait" (field "duration" d)
    | .assert check args => tagged "action" "assert" (field "check" check ++ field "args" args)
    | .snapshot => tagged "action" "snapshot" []

instance : Encode Flow where
  encode f := .obj <|
    field "loc" f.location ++ field "name" f.name ++ optional "title" f.title ++
      field "priority" f.priority ++ several "tags" f.tags ++
      field "preconditions" f.preconditions ++ field "steps" f.steps

end Blueprint
