import Blueprint.Entity.Encode
import Blueprint.Policy.Encode
import Blueprint.View.Basic

/-!
# JSON form of views and data products
-/

namespace Blueprint

open Json (field optional several)

instance : Encode ViewField where
  encode f := .obj (field "name" f.name ++ optional "expr" f.expr)

instance : Encode View where
  encode v := .obj <|
    field "loc" v.location ++ field "name" v.name ++ optional "title" v.title ++
      field "source" v.source ++ optional "filter" v.filter ++ several "group_by" v.groupBy ++
      field "fields" v.fields

instance : Encode RefreshCadence := ⟨fun c => .str c.spelling⟩

instance : Encode DataProduct where
  encode p := .obj <|
    field "loc" p.location ++ field "name" p.name ++ optional "title" p.title ++
      field "sources" p.sources ++ field "refresh" p.refresh ++ optional "output" p.output ++
      several "classification_filter" p.classificationFilter ++ optional "owner" p.owner

end Blueprint
