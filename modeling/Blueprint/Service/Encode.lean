import Blueprint.Entity.Encode
import Blueprint.Service.Basic

/-!
# JSON form of services
-/

namespace Blueprint

open Json (field optional several tagged)

instance : Encode SpecSource where
  encode
    | .url u => tagged "kind" "url" (field "value" u)
    | .inline text => tagged "kind" "inline" (field "value" text)

instance : Encode AuthProfile where
  encode p := .obj <|
    field "kind" p.kind ++ several "options" (p.options.map fun (key, value) => [key, value])

instance : Encode DomainServiceKind := ⟨fun k => .str k.spelling⟩

instance : Encode ServiceBody where
  encode
    | .api spec authProfile owner =>
      tagged "variant" "api" <|
        optional "spec" spec ++ optional "auth_profile" authProfile ++ optional "owner" owner
    | .domain kind inputs outputs guarantees stub =>
      tagged "variant" "domain" <|
        field "kind" kind ++ several "inputs" inputs ++ several "outputs" outputs ++
          several "guarantees" guarantees ++ optional "stub" stub

instance : Encode Service where
  encode s := .obj <|
    field "loc" s.location ++ field "name" s.name ++ optional "title" s.title ++
      field "body" s.body

instance : Encode ForeignConstraint := ⟨fun c => .str c.spelling⟩

instance : Encode ForeignModel where
  encode m := .obj <|
    field "loc" m.location ++ field "name" m.name ++ optional "title" m.title ++
      field "service" m.service ++ several "key_fields" m.keyFields ++
      several "constraints" m.constraints ++ field "fields" m.fields

end Blueprint
