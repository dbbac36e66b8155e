import Blueprint.Manifest.Basic

/-!
# JSON form of manifests
-/

namespace Blueprint

open Json (field optional)

instance : Encode Path := ⟨fun p => .str p.text⟩

instance : Encode CompileOptions where
  encode o := .obj <|
    field "parallel" o.parallel ++ field "deny_warnings" o.denyWarnings ++
      field "archetype_surfaces" o.archetypeSurfaces

instance : Encode Manifest where
  encode m := .obj <|
    field "project" (Json.obj <|
      field "name" m.name ++ field "version" m.version ++ optional "root" m.root) ++
    field "modules" (Json.obj (field "paths" m.paths)) ++
    field "compiler" m.options

end Blueprint
