import Blueprint.Declaration.Basic
import Blueprint.Table

/-!
# Modules

A module is what one source file declares. It may refer to its own declarations and to those of the
modules that it uses.
-/

namespace Blueprint

inductive SecurityProfile where
  | basic | standard | strict
  deriving DecidableEq

namespace SecurityProfile

def all : List SecurityProfile := [basic, standard, strict]

def spelling : SecurityProfile → String
  | basic => "basic"
  | standard => "standard"
  | strict => "strict"

end SecurityProfile

structure AppConfig where
  description : Option String := none
  multiTenant : Bool := false
  auditTrail : Bool := false
  securityProfile : Option SecurityProfile := none
  /-- The settings that have no meaning here, as they were written. -/
  extensions : Table := []
  deriving DecidableEq

/-- The application itself. -/
structure App where
  location : Location
  name : String
  title : Option String := none
  config : AppConfig := {}
  deriving DecidableEq

structure Module where
  name : String
  file : String
  /-- The modules that may be referred to, each once. -/
  uses : List String := []
  /-- Other names for used modules. References are resolved without them. -/
  aliases : Table := []
  app : Option App := none
  declarations : Declarations

namespace Module

/-- Whether the module may refer to the declarations of the other. -/
def sees (m : Module) (other : String) : Bool := m.name == other || m.uses.contains other

/-- The name of a module whose file declares none: that of the file, without its directory and
extension. -/
def defaultName (file : String) : String :=
  let base := (file.toList.reverse.takeWhile fun c => c != '/' && c != '\\').reverse
  let extension := ".dsl".toList
  String.ofList <|
    if extension.isSuffixOf base then base.take (base.length - extension.length) else base

end Module

end Blueprint
