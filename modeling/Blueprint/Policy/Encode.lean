import Blueprint.Entity.Encode
import Blueprint.Policy.Basic

/-!
# JSON form of policies and tenancy
-/

namespace Blueprint

open Json (field optional several)

instance : Encode DataClass := ⟨fun c => .str c.spelling⟩

instance : Encode Classification where
  encode c := .obj <|
    field "entity" c.entity ++ field "field" c.field ++ field "classification" c.dataClass

instance : Encode ErasureMode := ⟨fun m => .str m.spelling⟩

instance : Encode Erasure where
  encode e := .obj (field "entity" e.entity ++ field "mode" e.mode)

instance : Encode Policies where
  encode p := .obj <|
    field "loc" p.location ++ several "classifications" p.classifications ++
      several "erasures" p.erasures ++ optional "default_retention" p.defaultRetention ++
      field "audit_access" p.auditAccess

instance : Encode TenancyMode := ⟨fun m => .str m.spelling⟩
instance : Encode IsolationLevel := ⟨fun l => .str l.spelling⟩
instance : Encode Provisioning := ⟨fun p => .str p.spelling⟩

instance : Encode Tenancy where
  encode t := .obj <|
    field "loc" t.location ++ field "mode" t.mode ++ field "isolation" t.isolation ++
      field "provisioning" t.provisioning

end Blueprint
