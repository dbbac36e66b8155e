import Blueprint.Field.Basic
import Blueprint.Location

/-!
# Services

A service is either the interface of a third party or logic of the domain that is written elsewhere.
A foreign model is a record that a third party keeps.
-/

namespace Blueprint

/-- The document that describes an interface. -/
inductive SpecSource where
  | url (url : String)
  | inline (text : String)
  deriving DecidableEq

structure AuthProfile where
  kind : String
  options : List (String × String) := []
  deriving DecidableEq

inductive DomainServiceKind where
  | domainLogic | validation | integration | workflow
  deriving DecidableEq

namespace DomainServiceKind

def all : List DomainServiceKind := [domainLogic, validation, integration, workflow]

def spelling : DomainServiceKind → String
  | domainLogic => "domain_logic"
  | validation => "validation"
  | integration => "integration"
  | workflow => "workflow"

end DomainServiceKind

inductive ServiceBody where
  | api (spec : Option SpecSource) (authProfile : Option AuthProfile) (owner : Option String)
  | domain (kind : DomainServiceKind) (inputs outputs : List Field) (guarantees : List String)
      (stub : Option String)
  deriving DecidableEq

structure Service where
  location : Location
  name : String
  title : Option String := none
  body : ServiceBody
  deriving DecidableEq

namespace Service

def isDomain (s : Service) : Bool :=
  match s.body with
  | .domain .. => true
  | .api .. => false

/-- The fields that the service takes and returns. -/
def fields (s : Service) : List Field :=
  match s.body with
  | .domain _ inputs outputs _ _ => inputs ++ outputs
  | .api .. => []

end Service

inductive ForeignConstraint where
  | readOnly | eventDriven | batchImport
  deriving DecidableEq

namespace ForeignConstraint

def all : List ForeignConstraint := [readOnly, eventDriven, batchImport]

def spelling : ForeignConstraint → String
  | readOnly => "read_only"
  | eventDriven => "event_driven"
  | batchImport => "batch_import"

end ForeignConstraint

structure ForeignModel where
  location : Location
  name : String
  title : Option String := none
  /-- The service that keeps the record. -/
  service : String
  keyFields : List String := []
  constraints : List ForeignConstraint := []
  fields : List Field := []
  deriving DecidableEq

end Blueprint
