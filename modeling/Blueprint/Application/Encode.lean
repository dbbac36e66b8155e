import Blueprint.Application.Basic
import Blueprint.Json.Render
import Blueprint.Module.Encode

/-!
# JSON form of applications
-/

namespace Blueprint

open Json (field optional several)

def WarningKind.spelling : WarningKind → String
  | unusedImport => "UnusedImport"
  | entityCycle => "EntityCycle"

instance : Encode WarningKind := ⟨fun k => .str k.spelling⟩

instance : Encode Warning where
  encode w := .obj <|
    field "kind" w.kind ++ field "message" w.message ++ optional "location" w.location

instance : Encode Application where
  encode a := .obj <|
    optional "project" a.project ++ optional "app" a.app ++ field "modules" a.modules ++
      field "fragment" a.declarations ++ several "warnings" a.warnings

/-- The text in which an application is handed on. -/
def Application.render (a : Application) : String := (encode a).pretty

end Blueprint
