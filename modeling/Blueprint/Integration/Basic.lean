import Blueprint.Expr.Basic
import Blueprint.Location

/-!
# Integrations

An integration calls services when something happens on a surface (its actions), and copies their
records into entities (its syncs).
-/

namespace Blueprint

/-- Where the value of a target comes from. -/
structure MappingRule where
  target : String
  source : FieldPath
  deriving DecidableEq

/-- How an answer, read as a foreign model, becomes an entity. -/
structure ResponseMapping where
  foreignModel : String
  entity : String
  rules : List MappingRule := []
  deriving DecidableEq

/-- A service, and an operation of it. -/
structure ServiceCall where
  service : String
  operation : Option String := none
  deriving DecidableEq

structure IntegrationAction where
  name : String
  /-- The surface whose event starts the action. -/
  whenSurface : Option String := none
  whenEvent : Option String := none
  call : ServiceCall
  mapping : List MappingRule := []
  response : Option ResponseMapping := none
  deriving DecidableEq

inductive SyncMode where
  | scheduled (cron : Option String)
  | eventDriven
  deriving DecidableEq

/-- Two fields whose values are equal in records that belong together. -/
structure MatchRule where
  foreignField : String
  entityField : String
  deriving DecidableEq

structure IntegrationSync where
  name : String
  mode : SyncMode := .eventDriven
  origin : ServiceCall
  foreignModel : Option String := none
  entity : String
  matchRules : List MatchRule := []
  deriving DecidableEq

structure Integration where
  location : Location
  name : String
  title : Option String := none
  services : List String := []
  foreignModels : List String := []
  actions : List IntegrationAction := []
  syncs : List IntegrationSync := []
  deriving DecidableEq

end Blueprint
