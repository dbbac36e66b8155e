import Blueprint.Entity.Encode
import Blueprint.Test.Basic

/-!
# JSON form of tests
-/

namespace Blueprint

open Json (field optional several)

instance : Encode Assignment where
  encode a := .obj (field "key" a.key ++ field "value" a.value)

instance : Encode TestOperation := ⟨fun o => .str o.spelling⟩

instance : Encode SetupStep where
  encode s := .obj <|
    field "binding" s.binding ++ field "operation" s.operation ++ field "entity" s.entity ++
      several "data" s.data

instance : Encode TestAction where
  encode a := .obj <|
    field "operation" a.operation ++ field "entity" a.entity ++ optional "target" a.target

instance : Encode Expectation where
  encode e := .obj (field "field" e.field ++ field "op" e.op ++ field "value" e.value)

instance : Encode TestCase where
  encode t := .obj <|
    field "loc" t.location ++ field "name" t.name ++ optional "title" t.title ++
      several "setup" t.setup ++ field "action" t.action ++ several "data" t.data ++
      several "expect" t.expected

end Blueprint
