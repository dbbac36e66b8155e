import Blueprint.Entity.Encode
import Blueprint.Stream.Basic

/-!
# JSON form of streams
-/

namespace Blueprint

open Json (field optional several)

instance : Encode StreamKind := ⟨fun k => .str k.spelling⟩
instance : Encode OrderingScope := ⟨fun s => .str s.spelling⟩

instance : Encode StreamSchema where
  encode s := .obj (field "name" s.name ++ field "fields" s.fields)

instance : Encode Stream where
  encode s := .obj <|
    field "loc" s.location ++ field "name" s.name ++ optional "title" s.title ++
      field "kind" s.kind ++ optional "partition_key" s.partitionKey ++
      field "ordering_scope" s.orderingScope ++ optional "retention" s.retention ++
      field "schemas" s.schemas ++ several "derives_from" s.derivesFrom ++
      several "invariants" s.invariants

end Blueprint
