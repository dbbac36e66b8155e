import Blueprint.Duration
import Blueprint.Location

/-!
# Policies and tenancy

What holds for all data of an application: how sensitive its fields are, what becomes of it, and how
the data of tenants is kept apart. An application has at most one of each.
-/

namespace Blueprint

inductive DataClass where
  | piiDirect | piiIndirect | piiSensitive | financial | health | confidential | «public»
  deriving DecidableEq

namespace DataClass

def all : List DataClass :=
  [piiDirect, piiIndirect, piiSensitive, financial, health, confidential, «public»]

def spelling : DataClass → String
  | piiDirect => "pii_direct"
  | piiIndirect => "pii_indirect"
  | piiSensitive => "pii_sensitive"
  | financial => "financial"
  | health => "health"
  | confidential => "confidential"
  | «public» => "public"

end DataClass

/-- How sensitive a field is. -/
structure Classification where
  entity : String
  field : String
  dataClass : DataClass
  deriving DecidableEq

inductive ErasureMode where
  | delete | anonymize | retain
  deriving DecidableEq

namespace ErasureMode

def all : List ErasureMode := [delete, anonymize, retain]

def spelling : ErasureMode → String
  | delete => "delete"
  | anonymize => "anonymize"
  | retain => "retain"

end ErasureMode

/-- What becomes of the records of an entity that have to be erased. -/
structure Erasure where
  entity : String
  mode : ErasureMode
  deriving DecidableEq

structure Policies where
  location : Location
  classifications : List Classification := []
  erasures : List Erasure := []
  defaultRetention : Option Duration := none
  auditAccess : Bool := false
  deriving DecidableEq

inductive TenancyMode where
  | sharedSchema | schemaPerTenant | databasePerTenant
  deriving DecidableEq

namespace TenancyMode

def all : List TenancyMode := [sharedSchema, schemaPerTenant, databasePerTenant]

def spelling : TenancyMode → String
  | sharedSchema => "shared_schema"
  | schemaPerTenant => "schema_per_tenant"
  | databasePerTenant => "database_per_tenant"

end TenancyMode

inductive IsolationLevel where
  | strict | relaxed
  deriving DecidableEq

namespace IsolationLevel

def all : List IsolationLevel := [strict, relaxed]

def spelling : IsolationLevel → String
  | strict => "strict"
  | relaxed => "relaxed"

end IsolationLevel

inductive Provisioning where
  | auto | manual
  deriving DecidableEq

namespace Provisioning

def all : List Provisioning := [auto, manual]

def spelling : Provisioning → String
  | auto => "auto"
  | manual => "manual"

end Provisioning

structure Tenancy where
  location : Location
  mode : TenancyMode
  isolation : IsolationLevel := .strict
  provisioning : Provisioning := .auto
  deriving DecidableEq

end Blueprint
