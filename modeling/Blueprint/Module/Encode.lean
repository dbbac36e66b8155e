import Blueprint.Declaration.Encode
import Blueprint.Module.Basic

/-!
# JSON form of modules
-/

namespace Blueprint

open Json (field optional several table)

instance : Encode SecurityProfile := ⟨fun p => .str p.spelling⟩

instance : Encode AppConfig where
  encode c := .obj <|
    optional "description" c.description ++ field "multi_tenant" c.multiTenant ++
      field "audit_trail" c.auditTrail ++ optional "security_profile" c.securityProfile ++
      table "extensions" c.extensions

instance : Encode App where
  encode a := .obj <|
    field "loc" a.location ++ field "name" a.name ++ optional "title" a.title ++
      field "config" a.config

instance : Encode Module where
  encode m := .obj <|
    field "name" m.name ++ field "source_file" m.file ++ field "uses" m.uses ++
      table "aliases" m.aliases ++ optional "app" m.app ++ field "fragment" m.declarations

end Blueprint
