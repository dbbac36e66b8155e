import Blueprint.Surface.Encode
import Blueprint.Workspace.Basic

/-!
# JSON form of workspaces
-/

namespace Blueprint

open Json (field optional several tagged)

instance : Encode WorkspaceAccess where
  encode
    | .everyone => tagged "kind" "public" []
    | .authenticated => tagged "kind" "authenticated" []
    | .personas names => tagged "kind" "personas" (field "personas" names)

instance : Encode DisplayMode := ⟨fun m => .str m.spelling⟩

instance : Encode RegionAggregate where
  encode a := .obj (field "name" a.name ++ field "expr" a.expr)

instance : Encode Region where
  encode r := .obj <|
    field "name" r.name ++ optional "source" r.source ++ optional "filter" r.filter ++
      several "sort" r.sort ++ optional "limit" r.limit ++ field "display" r.display ++
      optional "action" r.action ++ optional "empty_message" r.emptyMessage ++
      optional "group_by" r.groupBy ++ several "aggregates" r.aggregates

instance : Encode Workspace where
  encode w := .obj <|
    field "loc" w.location ++ field "name" w.name ++ optional "title" w.title ++
      optional "purpose" w.purpose ++ optional "stage" w.stage ++ field "access" w.access ++
      field "regions" w.regions

end Blueprint
